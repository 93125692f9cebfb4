import Chronicle.Yaml.Token

/-!
# YAML documents

The tokens of a text make up nodes: scalars, sequences, and mappings. An alias stands for the node
of its anchor; inside that node itself it stands for nothing that could be used.
-/

namespace Chronicle.Yaml

/-- A node of a document. -/
inductive Node where
  | scalar (text : String) (style : Style) (tag : Option String)
  | sequence (items : List Node)
  | mapping (entries : List (Node × Node))
  /-- An alias inside the node that it stands for. -/
  | circular
deriving Inhabited

namespace Node

/-- The node where nothing is written. -/
def blank : Node := .scalar "" .plain none

/-- The nodes of the anchors so far, the last one first. -/
abbrev Anchors := List (String × Node)

/-- A part of the tokens has been read: what it is, the anchors, and the tokens after it. -/
abbrev Reading (α : Type) := α × Anchors × List Token

/-- The anchor and the tag in front of a node, in either order. -/
def properties : List Token → Option String × Option String × List Token
  | .anchor a :: .tag t :: rest | .tag t :: .anchor a :: rest => (some a, some t, rest)
  | .anchor a :: rest => (some a, none, rest)
  | .tag t :: rest => (none, some t, rest)
  | tokens => (none, none, tokens)

/-- The token cannot start an entry of a block mapping. -/
def endsMappingEntry : Token → Bool
  | .key | .value | .blockEnd => true
  | _ => false

mutual
/-- One node. `block` allows block collections, and `indentless` a block sequence that is not
indented beyond the key that it belongs to. -/
def read (block indentless : Bool) : Nat → Anchors → List Token → Option (Reading Node)
  | 0, _, _ => none
  | fuel + 1, anchors, tokens =>
    match tokens with
    | .alias name :: rest => (anchors.lookup name).map fun node ↦ (node, anchors, rest)
    | _ =>
      let (anchor, tag, body) := properties tokens
      let inside := (anchor.map fun name ↦ (name, circular)).toList ++ anchors
      let named (node : Node) (anchors : Anchors) : Anchors :=
        (anchor.map fun name ↦ (name, node)).toList ++ anchors
      let content : Option (Reading Node) :=
        match body with
        | .scalar text style :: rest => some (.scalar text style tag, inside, rest)
        | .flowSequence :: rest => do
            let (items, anchors, rest) ← readFlowItems true fuel inside rest
            some (.sequence items, anchors, rest)
        | .flowMapping :: rest => do
            let (entries, anchors, rest) ← readFlowEntries true fuel inside rest
            some (.mapping entries, anchors, rest)
        | .blockEntry :: _ =>
          if indentless then do
            let (items, anchors, rest) ← readIndentlessItems fuel inside body
            some (.sequence items, anchors, rest)
          else if anchor.isSome ∨ tag.isSome then some (.scalar "" .plain tag, inside, body)
          else none
        | token :: rest =>
          if block ∧ token = .blockSequence then do
            let (items, anchors, rest) ← readBlockItems fuel inside rest
            some (.sequence items, anchors, rest)
          else if block ∧ token = .blockMapping then do
            let (entries, anchors, rest) ← readBlockEntries fuel inside rest
            some (.mapping entries, anchors, rest)
          else if anchor.isSome ∨ tag.isSome then some (.scalar "" .plain tag, inside, body)
          else none
        | [] =>
          if anchor.isSome ∨ tag.isSome then some (.scalar "" .plain tag, inside, body) else none
      content.map fun (node, anchors, rest) ↦ (node, named node anchors, rest)

/-- The items of a block sequence. -/
def readBlockItems : Nat → Anchors → List Token → Option (Reading (List Node))
  | 0, _, _ => none
  | fuel + 1, anchors, tokens =>
    match tokens with
    | .blockEnd :: rest => some ([], anchors, rest)
    | .blockEntry :: rest => do
        let (item, anchors, rest) ← match rest with
          | .blockEntry :: _ | .blockEnd :: _ => some (blank, anchors, rest)
          | _ => read true false fuel anchors rest
        let (items, anchors, rest) ← readBlockItems fuel anchors rest
        some (item :: items, anchors, rest)
    | _ => none

/-- The items of a block sequence that ends where something else starts. -/
def readIndentlessItems : Nat → Anchors → List Token → Option (Reading (List Node))
  | 0, _, _ => none
  | fuel + 1, anchors, tokens =>
    match tokens with
    | .blockEntry :: rest => do
        let (item, anchors, rest) ← match rest with
          | .blockEntry :: _ => some (blank, anchors, rest)
          | token :: _ =>
            if endsMappingEntry token then some (blank, anchors, rest)
            else read true false fuel anchors rest
          | [] => read true false fuel anchors rest
        let (items, anchors, rest) ← readIndentlessItems fuel anchors rest
        some (item :: items, anchors, rest)
    | _ => some ([], anchors, tokens)

/-- A key or value of a block mapping, which may be left out. -/
def readBlockPart : Nat → Anchors → List Token → Option (Reading Node)
  | 0, _, _ => none
  | fuel + 1, anchors, tokens =>
    match tokens with
    | token :: _ =>
      if endsMappingEntry token then some (blank, anchors, tokens)
      else read true true fuel anchors tokens
    | [] => none

/-- The entries of a block mapping. -/
def readBlockEntries : Nat → Anchors → List Token → Option (Reading (List (Node × Node)))
  | 0, _, _ => none
  | fuel + 1, anchors, tokens =>
    match tokens with
    | .blockEnd :: rest => some ([], anchors, rest)
    | .key :: rest => do
        let (k, anchors, rest) ← readBlockPart fuel anchors rest
        let (v, anchors, rest) ← match rest with
          | .value :: rest => readBlockPart fuel anchors rest
          | _ => some (blank, anchors, rest)
        let (entries, anchors, rest) ← readBlockEntries fuel anchors rest
        some ((k, v) :: entries, anchors, rest)
    | _ => none

/-- A value between brackets, which may be left out. -/
def readFlowValue : Nat → Anchors → List Token → Option (Reading Node)
  | 0, _, _ => none
  | fuel + 1, anchors, tokens =>
    match tokens with
    | .value :: rest =>
      match rest with
      | .flowEntry :: _ | .flowSequenceEnd :: _ | .flowMappingEnd :: _ => some (blank, anchors, rest)
      | _ => read false false fuel anchors rest
    | _ => some (blank, anchors, tokens)

/-- A key between brackets, which may be left out. -/
def readFlowKey : Nat → Anchors → List Token → Option (Reading Node)
  | 0, _, _ => none
  | fuel + 1, anchors, tokens =>
    match tokens with
    | .value :: _ | .flowEntry :: _ | .flowSequenceEnd :: _ | .flowMappingEnd :: _ =>
      some (blank, anchors, tokens)
    | _ => read false false fuel anchors tokens

/-- The items between square brackets; a key stands for a mapping of its own. -/
def readFlowItems (first : Bool) : Nat → Anchors → List Token → Option (Reading (List Node))
  | 0, _, _ => none
  | fuel + 1, anchors, tokens =>
    match first, tokens with
    | _, .flowSequenceEnd :: rest => some ([], anchors, rest)
    | false, .flowEntry :: .flowSequenceEnd :: rest => some ([], anchors, rest)
    | _, _ => do
        let tokens ← match first, tokens with
          | true, _ => some tokens
          | false, .flowEntry :: rest => some rest
          | false, _ => none
        let (item, anchors, rest) ← match tokens with
          | .key :: rest => do
              let (k, anchors, rest) ← readFlowKey fuel anchors rest
              let (v, anchors, rest) ← readFlowValue fuel anchors rest
              some (.mapping [(k, v)], anchors, rest)
          | _ => read false false fuel anchors tokens
        let (items, anchors, rest) ← readFlowItems false fuel anchors rest
        some (item :: items, anchors, rest)

/-- The entries between braces. -/
def readFlowEntries (first : Bool) : Nat → Anchors → List Token → Option (Reading (List (Node × Node)))
  | 0, _, _ => none
  | fuel + 1, anchors, tokens =>
    match first, tokens with
    | _, .flowMappingEnd :: rest => some ([], anchors, rest)
    | false, .flowEntry :: .flowMappingEnd :: rest => some ([], anchors, rest)
    | _, _ => do
        let tokens ← match first, tokens with
          | true, _ => some tokens
          | false, .flowEntry :: rest => some rest
          | false, _ => none
        let (entry, anchors, rest) ← match tokens with
          | .key :: rest => do
              let (k, anchors, rest) ← readFlowKey fuel anchors rest
              let (v, anchors, rest) ← readFlowValue fuel anchors rest
              some ((k, v), anchors, rest)
          | _ => do
              let (k, anchors, rest) ← read false false fuel anchors tokens
              some ((k, blank), anchors, rest)
        let (entries, anchors, rest) ← readFlowEntries false fuel anchors rest
        some (entry :: entries, anchors, rest)
end

/-- What a text with at most one document holds. -/
inductive Document where
  /-- There is no document. -/
  | absent
  | present (node : Node)

/-- The document that the tokens make up. Only one may be there. -/
def ofTokens (tokens : List Token) : Option Document :=
  let fuel := 4 * tokens.length + 4
  match tokens with
  | [] => some .absent
  | first :: _ => do
      let (explicit, body) ← match first with
        | .directive | .documentStart =>
          match tokens.dropWhile (· == .directive) with
          | .documentStart :: rest => some (true, rest)
          | _ => none
        | _ => some (false, tokens)
      let (node, rest) ← match explicit, body with
        | true, [] => some (blank, body)
        | true, .documentEnd :: _ | true, .documentStart :: _ | true, .directive :: _ =>
          some (blank, body)
        | _, _ => (read true false fuel [] body).map fun (node, _, rest) ↦ (node, rest)
      if rest.all (· == .documentEnd) then some (.present node) else none

/-- The document in a text. -/
def parse (cs : List Char) : Option Document := (tokens cs).bind ofTokens

end Node

end Chronicle.Yaml
