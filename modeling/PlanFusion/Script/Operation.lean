import PlanFusion.Builder.Basic
import PlanFusion.Script.Expr

/-!
# PlanFusion — operations of scripts

An operation is an operator whose callables are expressions. What an expression has to give depends
on the operator: a truth value for a filter, a list for an expansion, null for a missing image.

* `Operation ρ`, `Operation.link`, `Operation.operator` — operations and the operators they stand
  for;
* `replyOfValue?` — a reply written as a list value: a tag and what belongs to it;
* `transition` — a machine step whose next state and reply are given by expressions.
-/

namespace PlanFusion.Script

/-- An operator with expressions for callables. -/
inductive Operation (ρ : Type) where
  | identity
  | map (f : Expr ρ)
  | filter (p : Expr ρ)
  | filterMap (f : Expr ρ)
  | flatMap (f : Expr ρ)
  | take (n : Nat)
  | drop (n : Nat)
  | mapAccum (init next out : Expr ρ)

/-- A plan whose elements are values. -/
abbrev ValuePlan : Type 1 :=
  Plan (Action World) Value Value

/-- A builder whose elements are values. -/
abbrev ValueBuilder : Type 1 :=
  Builder (Action World) Value Value

/-- A process whose elements are values. -/
abbrev ValueProcess : Type 1 :=
  Process World Value Value

/-- What an expression can do with the plan so far of a builder: run it and take its outputs. -/
def subroutine (b : ValueBuilder) : Subroutine := fun xs w =>
  (b.run xs w).toOutcome

namespace Operation

variable {ρ τ : Type}

/-- Look up every plan that the expressions refer to. -/
def link (find : ρ → Option τ) : Operation ρ → Option (Operation τ)
  | identity => some identity
  | map f => return map (← f.link find)
  | filter p => return filter (← p.link find)
  | filterMap f => return filterMap (← f.link find)
  | flatMap f => return flatMap (← f.link find)
  | take n => some (take n)
  | drop n => some (drop n)
  | mapAccum init next out =>
    return mapAccum (← init.link find) (← next.link find) (← out.link find)

/-- A filter must decide. -/
def test (p : Expr Subroutine) (x : Value) : Effect Bool := do
  Expr.truth "filter" (← p.eval x .null)

/-- Null stands for no image. -/
def partialImage (f : Expr Subroutine) (x : Value) : Effect (Option Value) := do
  match ← f.eval x .null with
  | .null => return none
  | y => return some y

/-- An expansion must be a list. -/
def expansion (f : Expr Subroutine) (x : Value) : Effect (List Value) := do
  match ← f.eval x .null with
  | .list ys => return ys
  | _ => .fault (.typeMismatch "flat_map")

/-- The next accumulator and the output, both from the accumulator before. -/
def accumulation (next out : Expr Subroutine) (s x : Value) : Effect (Value × Value) := do
  let s' ← next.eval x s
  let y ← out.eval x s
  return (s', y)

/-- The operator that a linked operation stands for. -/
def operator : Operation Subroutine → Operator (Action World) Value Value
  | identity => .identity
  | map f => .map fun x => f.eval x .null
  | filter p => .filter (test p)
  | filterMap f => .filterMap (partialImage f)
  | flatMap f => .flatMap (expansion f)
  | take n => .take n
  | drop n => .drop n
  | mapAccum init next out => .mapAccum (init.eval .null .null) (accumulation next out)

end Operation

/-- The reply that a list value stands for. An option and a list of outputs can also be given as
such; then a missing or empty one is skipped. -/
def replyOfValue? : Value → Option (Reply Value)
  | .list [.str "keep", v] => some (.one v)
  | .list [.str "many", .list vs] => some (.many vs)
  | .list [.str "abort"] => some .abort
  | .list [.str "drop"] => some .skip
  | .list [.str "from_option", .null] => some (.ofOption none)
  | .list [.str "from_option", v] => some (.ofOption (some v))
  | .list [.str "from_vec", .list vs] => some (.ofList vs)
  | _ => none

/-- The next state and the reply, both from the state before. -/
def transition (next reply : Expr Subroutine) (s x : Value) : Effect (Value × Reply Value) := do
  let s' ← next.eval x s
  match replyOfValue? (← reply.eval x s) with
  | some r => return (s', r)
  | none => .fault .badReply

end PlanFusion.Script
