/-!
# PlanFusion — replies

A running plan answers each element with exactly one `Reply`: one output, a list of outputs, no
output, or the demand to end the pass. `many []` and `skip` put out the same elements.
`Reply.ofList` never makes the former.
-/

namespace PlanFusion

/-- The answer to one element. -/
inductive Reply (α : Type) where
  /-- One output. -/
  | one (x : α)
  /-- The element was expanded into a list of outputs. -/
  | many (xs : List α)
  /-- No output. -/
  | skip
  /-- No output, and no further element is wanted. -/
  | abort
  deriving DecidableEq

namespace Reply

variable {α : Type}

/-- A missing output is skipped. -/
def ofOption : Option α → Reply α
  | some x => one x
  | none => skip

/-- An empty expansion is skipped. -/
def ofList : List α → Reply α
  | [] => skip
  | x :: xs => many (x :: xs)

/-- The outputs of a reply, in order. -/
def outputs : Reply α → List α
  | one x => [x]
  | many xs => xs
  | skip => []
  | abort => []

/-- The number of outputs. -/
def length (r : Reply α) : Nat :=
  r.outputs.length

/-- No output. -/
def isEmpty (r : Reply α) : Bool :=
  r.length == 0

def isAbort : Reply α → Bool
  | abort => true
  | _ => false

/-- Whether the element was expanded, be it into nothing. -/
def isExpansion : Reply α → Bool
  | many _ => true
  | _ => false

/-- `ys` with the outputs of the reply behind them. -/
def emit (r : Reply α) (ys : List α) : List α :=
  ys ++ r.outputs

@[simp] theorem outputs_ofOption (x : Option α) : (ofOption x).outputs = x.toList := by
  cases x <;> rfl

@[simp] theorem outputs_ofList (xs : List α) : (ofList xs).outputs = xs := by
  cases xs <;> rfl

@[simp] theorem isAbort_ofOption (x : Option α) : (ofOption x).isAbort = false := by
  cases x <;> rfl

@[simp] theorem isAbort_ofList (xs : List α) : (ofList xs).isAbort = false := by
  cases xs <;> rfl

end Reply

end PlanFusion
