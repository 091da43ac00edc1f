import PlanFusion.Script.Primitive

/-!
# PlanFusion — expressions of scripts

An expression is the body of a callable. It has two variables: the element at hand, and the state or
accumulator beside it. It can record values and run plans, so its value is an `Effect`.

* `Expr ρ` — expressions that refer to plans by a `ρ`;
* `Expr.link` — the expression with its references looked up, unless one of them has no meaning;
* `Expr.eval` — the value of a linked expression. Operands are evaluated from left to right, each
  of them once; a choice and a logical connective evaluate only what they need.
-/

namespace PlanFusion.Script

/-- The body of a callable. -/
inductive Expr (ρ : Type) where
  /-- The element at hand. -/
  | element
  /-- The state or accumulator beside it. -/
  | state
  | literal (v : Value)
  | unary (op : Unary) (a : Expr ρ)
  | binary (op : Binary) (a b : Expr ρ)
  | and (a b : Expr ρ)
  | or (a b : Expr ρ)
  | choose (test yes no : Expr ρ)
  | list (items : List (Expr ρ))
  /-- Give up with the message that the operand gives. -/
  | throw (message : Expr ρ)
  /-- Record the value of the operand under a label. -/
  | tap (label : String) (a : Expr ρ)
  /-- Run a plan on the list that the operand gives. -/
  | run (plan : ρ) (input : Expr ρ)

/-- What an expression knows of a plan that it can run. -/
abbrev Subroutine : Type :=
  List Value → Effect (List Value)

namespace Expr

variable {ρ τ : Type}

mutual

/-- Look up every plan that the expression refers to. -/
def link (find : ρ → Option τ) : Expr ρ → Option (Expr τ)
  | element => some element
  | state => some state
  | literal v => some (literal v)
  | unary op a => return unary op (← a.link find)
  | binary op a b => return binary op (← a.link find) (← b.link find)
  | and a b => return and (← a.link find) (← b.link find)
  | or a b => return or (← a.link find) (← b.link find)
  | choose test yes no =>
    return choose (← test.link find) (← yes.link find) (← no.link find)
  | list items => return list (← linkAll find items)
  | throw message => return throw (← message.link find)
  | tap label a => return tap label (← a.link find)
  | run plan input => return run (← find plan) (← input.link find)

/-- The same for every expression of a list. -/
def linkAll (find : ρ → Option τ) : List (Expr ρ) → Option (List (Expr τ))
  | [] => some []
  | e :: es => return (← e.link find) :: (← linkAll find es)

end

/-- A truth value, or a type mismatch of the operation that needs one. -/
def truth (operation : String) : Value → Effect Bool
  | .bool b => pure b
  | _ => .fault (.typeMismatch operation)

mutual

/-- The value of the expression for an element `x` beside a state `s`. -/
def eval (x s : Value) : Expr Subroutine → Effect Value
  | element => pure x
  | state => pure s
  | literal v => pure v
  | unary op a => do
    let v ← a.eval x s
    .ofExcept (op.apply v)
  | binary op a b => do
    let v ← a.eval x s
    let w ← b.eval x s
    .ofExcept (op.apply v w)
  | and a b => do
    if ← truth "and" (← a.eval x s) then
      return .bool (← truth "and" (← b.eval x s))
    else
      return .bool false
  | or a b => do
    if ← truth "or" (← a.eval x s) then
      return .bool true
    else
      return .bool (← truth "or" (← b.eval x s))
  | choose test yes no => do
    if ← truth "if" (← test.eval x s) then yes.eval x s else no.eval x s
  | list items => do
    let vs ← evalAll x s items
    return .list vs
  | throw message => do
    match ← message.eval x s with
    | .str text => .fault (.thrown text)
    | _ => .fault (.typeMismatch "panic")
  | tap label a => do
    let v ← a.eval x s
    .record label v
    return v
  | run plan input => do
    match ← input.eval x s with
    | .list xs =>
      let ys ← plan xs
      return .list ys
    | _ => .fault (.typeMismatch "run")

/-- The values of the expressions of a list, from left to right. -/
def evalAll (x s : Value) : List (Expr Subroutine) → Effect (List Value)
  | [] => pure []
  | e :: es => do
    let v ← e.eval x s
    let vs ← evalAll x s es
    return v :: vs

end

end Expr

end PlanFusion.Script
