import Chronicle.Proofs.Rules.Order
import Chronicle.Proofs.Rules.Pass

/-!
# What a pass means

A pass chooses among the rules. Its choice can be described without the pass: a rule is chosen just
if it fires once the rules that are chosen before it have fired. One choice is like this, and
`RuleBook.infer_means` says that it is the one of the pass, and that no rule has a say in what comes
before it.
-/

namespace Chronicle

/-- The context once the rules have fired as well. -/
def Context.seeing (ctx : Context) (rules : List EventRule) : Context :=
  { ctx with fired := ctx.fired ++ rules.map (·.event) }

theorem Context.seeing_nil (ctx : Context) : ctx.seeing [] = ctx := by
  simp [seeing]

theorem Context.seeing_append (ctx : Context) (rules more : List EventRule) :
    ctx.seeing (rules ++ more) = (ctx.seeing rules).seeing more := by
  simp [seeing]

/-- Rules in the order in which they are tried, each with whether it is chosen. -/
abbrev Choice := List (EventRule × Bool)

namespace Choice

/-- The rules to choose from. -/
def rules (choice : Choice) : List EventRule := choice.map (·.1)

/-- The rules that are chosen. -/
def chosen (choice : Choice) : List EventRule := (choice.filter (·.2)).map (·.1)

/-- Each rule is chosen just if it fires once the rules that are chosen before it have fired. -/
def Lawful (choice : Choice) (ctx : Context) : Prop :=
  ∀ (before : Choice) r taken after, choice = before ++ (r, taken) :: after →
    (taken = true ↔ r.Fires (ctx.seeing before.chosen))

variable {ctx : Context} {choice other : Choice} {r : EventRule} {taken : Bool}

theorem chosen_cons (first : EventRule × Bool) (rest : Choice) :
    chosen (first :: rest) = chosen [first] ++ rest.chosen := by
  obtain ⟨r, taken⟩ := first
  cases taken <;> rfl

/-- Nothing has fired before the first rule. -/
theorem seeing_chosen_nil (ctx : Context) : ctx.seeing (chosen []) = ctx := ctx.seeing_nil

/-- The first rule fires by itself, and the others once it has fired if it is chosen. -/
theorem lawful_cons :
    Lawful ((r, taken) :: choice) ctx ↔
      (taken = true ↔ r.Fires ctx) ∧ choice.Lawful (ctx.seeing (chosen [(r, taken)])) := by
  constructor
  · intro h
    refine ⟨?_, fun before s other after heq ↦ ?_⟩
    · have hfirst := h [] r taken choice rfl
      rw [seeing_chosen_nil] at hfirst
      exact hfirst
    · have hlater := h ((r, taken) :: before) s other after (congrArg _ heq)
      rw [chosen_cons, Context.seeing_append] at hlater
      exact hlater
  · rintro ⟨hfirst, hrest⟩ before s other after heq
    cases before with
    | nil =>
        cases heq
        rw [seeing_chosen_nil]
        exact hfirst
    | cons entry before =>
        obtain ⟨rfl, hremaining⟩ := List.cons.inj heq
        rw [chosen_cons, Context.seeing_append]
        exact hrest before s other after hremaining

/-- There is one lawful choice among given rules. -/
theorem Lawful.eq (h : choice.Lawful ctx) (hother : other.Lawful ctx)
    (hrules : choice.rules = other.rules) : choice = other := by
  induction choice generalizing other ctx with
  | nil => exact (List.map_eq_nil_iff.mp hrules.symm).symm
  | cons first rest ih =>
      cases other with
      | nil => exact absurd hrules (List.cons_ne_nil _ _)
      | cons second more =>
          obtain ⟨r, taken⟩ := first
          obtain ⟨s, otherTaken⟩ := second
          obtain ⟨hrule, hremaining⟩ := List.cons.inj hrules
          cases (show r = s from hrule)
          obtain ⟨hfirst, hrest⟩ := lawful_cons.mp h
          obtain ⟨hsecond, hmore⟩ := lawful_cons.mp hother
          cases (Bool.eq_iff_iff.mpr (hfirst.trans hsecond.symm) : taken = otherTaken)
          rw [ih hrest hmore hremaining]

end Choice

/-- A pass makes a lawful choice. -/
theorem exists_choice (ctx : Context) (rules : List EventRule) :
    ∃ choice : Choice, choice.rules = rules ∧ choice.Lawful ctx ∧
      (inferEvents ctx rules).map (·.rule) = choice.chosen := by
  induction rules generalizing ctx with
  | nil => exact ⟨[], rfl, fun _ _ _ _ heq ↦ by simp at heq, rfl⟩
  | cons r rest ih =>
      cases hfire : r.fire? ctx with
      | some data =>
          obtain ⟨choice, hrules, hlawful, hchosen⟩ := ih (ctx.seeing [r])
          refine ⟨(r, true) :: choice, congrArg (r :: ·) hrules, ?_, ?_⟩
          · exact Choice.lawful_cons.mpr
              ⟨iff_of_true rfl (EventRule.fires_iff.mpr ⟨data, hfire⟩), hlawful⟩
          · simp only [inferEvents, hfire]
            exact congrArg (r :: ·) hchosen
      | none =>
          have hsilent : ¬ r.Fires ctx := by
            intro hfires
            obtain ⟨data, hdata⟩ := EventRule.fires_iff.mp hfires
            rw [hfire] at hdata
            cases hdata
          obtain ⟨choice, hrules, hlawful, hchosen⟩ := ih ctx
          refine ⟨(r, false) :: choice, congrArg (r :: ·) hrules,
            Choice.lawful_cons.mpr ⟨?_, ?_⟩, ?_⟩
          · exact iff_of_false Bool.false_ne_true hsilent
          · exact (Context.seeing_nil ctx).symm ▸ hlawful
          · simp only [inferEvents, hfire]
            exact hchosen

namespace RuleBook

variable {cs : List Char} {book : RuleBook} {t : Transition} {action : Option Attributes}
  {inference : Inference}

/-- What a pass over the rules of a document means. The rules are those of the document that are not
reserved, in the one order in which they can be tried. The rules of the events are the one lawful
choice among them, from a context in which none has fired. The first rules fire with the same data
whatever rules come after them. -/
theorem infer_means (hparse : parse cs = .ok book) (hinfer : book.infer t action = .ok inference) :
    let start := t.ruleContext action inference.computed
    (∃ document written, RuleDocument.codec.readText cs = .ok document ∧
      List.Forall₂ RuleDocument.Item.Gives document.items written ∧
      ∀ tried, EventRule.Ordered written tried ↔ tried = book.rules) ∧
    (start.fired = [] ∧ ∃ choice : Choice, choice.rules = book.rules ∧ choice.Lawful start ∧
      inference.events.map (·.rule) = choice.chosen ∧
      ∀ other : Choice, other.rules = book.rules → other.Lawful start → other = choice) ∧
    ∀ front back, book.rules = front ++ back → ∃ common,
      (common.map fun e : InferredEvent ↦ e.rule).Sublist front ∧
      ∀ (other : RuleBook) (replaced : List EventRule), other.definitions = book.definitions →
        other.rules = front ++ replaced → ∃ later : List InferredEvent,
          other.infer t action = .ok ⟨common ++ later, inference.computed⟩ ∧
          (later.map (·.rule)).Sublist replaced := by
  intro start
  obtain ⟨hcomputed, hevents⟩ := infer_eq_ok.mp hinfer
  refine ⟨ordered_of_parse hparse, ⟨rfl, ?_⟩, fun front back hrules ↦ ?_⟩
  · obtain ⟨choice, hchoice, hlawful, hchosen⟩ := exists_choice start book.rules
    refine ⟨choice, hchoice, hlawful, hevents ▸ hchosen, fun other hother hotherLawful ↦ ?_⟩
    exact hotherLawful.eq hlawful (hother.trans hchoice.symm)
  · refine ⟨inferEvents start front, inferEvents_sublist start front,
      fun other replaced hdefinitions hother ↦ ?_⟩
    have happend := inferEvents_append start front replaced
    rw [← hother] at happend
    refine ⟨_, infer_eq_ok.mpr ⟨?_, happend.symm⟩, inferEvents_sublist _ replaced⟩
    rw [hdefinitions]
    exact hcomputed

/-- A document in which a rule sees events of its own priority, and one cannot be evaluated. -/
def tiedText : String :=
  "\x7b\"state_change_events\": \x7b
    \"_notes\": \x7b\"seen\": \x7b\x7d\x7d,
    \"log\": \x7b\"seen\": \x7b\"condition\": \"curr.tick\", \"priority\": 5\x7d\x7d,
    \"player\": \x7b
      \"echo\": \x7b\"condition\": \"seen\", \"priority\": 5\x7d,
      \"broken\": \x7b
        \"condition\": \"seen\", \"priority\": 5, \"data_extract\": [\"curr.player * 2\"]
      \x7d,
      \"early\": \x7b\"condition\": \"!seen\", \"priority\": 1\x7d,
      \"late\": \x7b\"condition\": \"seen && !broken\", \"priority\": 7\x7d
    \x7d
  \x7d\x7d"

/-- The rules of the document. -/
def tiedBook : RuleBook where
  categories := ["log", "player"]
  rules :=
    [⟨"early", "player", "!seen", "", 1, []⟩, ⟨"seen", "log", "curr.tick", "", 5, []⟩,
      ⟨"echo", "player", "seen", "", 5, []⟩,
      ⟨"broken", "player", "seen", "", 5, [⟨"curr.player * 2"⟩]⟩,
      ⟨"late", "player", "seen && !broken", "", 7, []⟩]
  definitions := []

set_option maxRecDepth 100000 in
theorem parse_tiedText : parse tiedText.toList = .ok tiedBook :=
  eq_ok_of_ofList ⟨_, rfl, by decide +kernel⟩

/-- All rules but the broken one are chosen. Without the last two the others fire as before. -/
theorem infer_means_tied :
    let prev := GameState.initial 1 (.zero false)
    let t : Transition := ⟨prev, prev⟩
    ∃ book inference, parse tiedText.toList = .ok book ∧ book.infer t none = .ok inference ∧
      (∃ choice : Choice, choice.rules = book.rules ∧
        choice.Lawful (t.ruleContext none inference.computed) ∧
        choice.chosen.map (·.event) = ["early", "seen", "echo", "late"]) ∧
      ∃ remaining, RuleBook.infer { book with rules := book.rules.take 3 } t none = .ok remaining ∧
        remaining.events <+: inference.events := by
  intro prev t
  let rules := tiedBook.rules
  let inference : Inference :=
    ⟨[⟨rules[0], []⟩, ⟨rules[1], []⟩, ⟨rules[2], []⟩, ⟨rules[4], []⟩], t.builtins⟩
  have hinfer : tiedBook.infer t none = .ok inference := toOption_eq_some.mp (by decide +kernel)
  obtain ⟨-, ⟨-, choice, hrules, hlawful, hchosen, -⟩, hfront⟩ := infer_means parse_tiedText hinfer
  refine ⟨tiedBook, inference, parse_tiedText, hinfer, ⟨choice, hrules, hlawful, ?_⟩, ?_⟩
  · rw [← hchosen]
    rfl
  · obtain ⟨common, -, hcommon⟩ := hfront (tiedBook.rules.take 3) (tiedBook.rules.drop 3) rfl
    obtain ⟨later, hall, -⟩ := hcommon tiedBook _ rfl rfl
    obtain ⟨none, hless, hnone⟩ := hcommon { tiedBook with rules := tiedBook.rules.take 3 } [] rfl
      (List.append_nil _).symm
    rw [hinfer] at hall
    cases List.map_eq_nil_iff.mp (List.sublist_nil.mp hnone)
    refine ⟨_, hless, later, ?_⟩
    rw [List.append_nil]
    exact (congrArg Inference.events (Except.ok.inj hall)).symm

end RuleBook

end Chronicle
