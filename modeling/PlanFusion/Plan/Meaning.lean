import PlanFusion.Plan.Basic

/-!
# PlanFusion — what a plan means

The meaning of a plan whose callables are functions, as a function on whole lists: each operator
takes the complete list of its elements and gives the complete list of its outputs, and plans in
sequence are composed. Nothing here runs element by element, counts, or stops early.
-/

namespace PlanFusion

variable {α β σ : Type}

/-- The outputs of an accumulating step along a list, from the accumulator `s` on. -/
def accumulate (step : σ → α → σ × β) : σ → List α → List β
  | _, [] => []
  | s, x :: xs => (step s x).2 :: accumulate step (step s x).1 xs

/-- The list that an operator makes of a list. -/
def Operator.meaning : Operator Id α β → List α → List β
  | .identity => id
  | .map f => List.map fun x => (f x).run
  | .filter p => List.filter fun x => (p x).run
  | .filterMap f => List.filterMap fun x => (f x).run
  | .flatMap f => List.flatMap fun x => (f x).run
  | .take n => List.take n
  | .drop n => List.drop n
  | .mapAccum init step => accumulate (fun s x => (step s x).run) init.run

/-- The list that a plan makes of a list. -/
def Plan.meaning {α β : Type} : Plan.Pure α β → List α → List β
  | .operator o => o.meaning
  | .seq left right => right.meaning ∘ left.meaning

end PlanFusion
