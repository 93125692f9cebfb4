import Chronicle.Condition.Arithmetic

/-!
# The value of a condition

A name is a computed value if there is one of its text, then an event that has fired, then a path.
What is nowhere to be found is null. The connectives look at their operands from left to right and
stop at the first that decides, so an operand behind it cannot fail.
-/

namespace Chronicle

/-- What a condition can see. -/
structure Context where
  prev : Value
  curr : Value
  /-- The values computed for the transition. -/
  computed : Attributes
  /-- The events that have fired so far. -/
  fired : List String
  /-- The outcome of the action behind the transition, where there was one. -/
  action : Option Attributes

namespace Context

/-- The value at a path of member names. -/
def walk (segments : List String) (v : Value) : Option Value :=
  match segments with
  | [] => some v
  | segment :: rest => (v.member? segment).bind (walk rest)

/-- The value at a path from a root. -/
def follow (ctx : Context) (root : Root) (segments : List String) : Option Value :=
  match root with
  | .curr => walk segments ctx.curr
  | .prev => walk segments ctx.prev
  | .action => ctx.action.bind fun outcome ↦ walk segments (.object outcome)
  | .computed => ctx.computed.lookup (".".intercalate segments)

/-- The value that a name stands for. -/
def resolve (ctx : Context) (n : Name) : Value :=
  match ctx.computed.lookup n.text with
  | some v => v
  | none =>
    if ctx.fired.contains n.text then .bool true
    else match n.path with
      | some (root, segments) => (ctx.follow root segments).getD .null
      | none => .null

end Context

namespace Condition

mutual
/-- The value of a condition. -/
def evaluate (ctx : Context) : Condition → Except EvalError Value
  | .empty => .ok (.bool false)
  | .literal v => .ok v
  | .name n => .ok (ctx.resolve n)
  | .not c => do
      let v ← c.evaluate ctx
      Except.ok (.bool !v.truthy)
  | .any parts => do
      let b ← anyHolds ctx parts
      Except.ok (.bool b)
  | .all parts => do
      let b ← allHold ctx parts
      Except.ok (.bool b)
  | .compare op left right => do
      let a ← left.evaluate ctx
      let b ← right.evaluate ctx
      let holds ← op.apply a b
      Except.ok (.bool holds)
  | .arith op left right => do
      let a ← left.evaluate ctx
      let b ← right.evaluate ctx
      op.apply a b
  | .measure _ argument => do
      let v ← argument.evaluate ctx
      Except.ok (.int v.size)

/-- One of the conditions holds; those behind it are not looked at. -/
def anyHolds (ctx : Context) : List Condition → Except EvalError Bool
  | [] => .ok false
  | c :: rest => do
      let v ← c.evaluate ctx
      if v.truthy then Except.ok true else anyHolds ctx rest

/-- All of the conditions hold; those behind the first that does not are not looked at. -/
def allHold (ctx : Context) : List Condition → Except EvalError Bool
  | [] => .ok true
  | c :: rest => do
      let v ← c.evaluate ctx
      if v.truthy then allHold ctx rest else Except.ok false
end

end Condition

end Chronicle
