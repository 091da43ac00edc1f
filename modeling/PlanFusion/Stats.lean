/-!
# PlanFusion — run statistics

`Stats` counts what a pass did. Counts have no upper limit, so adding them is exact.
-/

namespace PlanFusion

/-- What one pass did, or several together. -/
structure Stats where
  /-- Passes that a runner completed. -/
  runs : Nat := 0
  /-- Elements that were handed to the root of a plan. -/
  evaluated : Nat := 0
  /-- Elements that came out. -/
  emitted : Nat := 0
  /-- Elements whose reply was a list of outputs. -/
  expansions : Nat := 0
  /-- Passes that an abort ended before the input was exhausted. -/
  aborts : Nat := 0
  deriving DecidableEq, Repr

namespace Stats

/-- Field by field. -/
def add (a b : Stats) : Stats where
  runs := a.runs + b.runs
  evaluated := a.evaluated + b.evaluated
  emitted := a.emitted + b.emitted
  expansions := a.expansions + b.expansions
  aborts := a.aborts + b.aborts

instance : Add Stats := ⟨add⟩

@[simp] theorem runs_add (a b : Stats) : (a + b).runs = a.runs + b.runs := rfl

@[simp] theorem evaluated_add (a b : Stats) : (a + b).evaluated = a.evaluated + b.evaluated := rfl

@[simp] theorem emitted_add (a b : Stats) : (a + b).emitted = a.emitted + b.emitted := rfl

@[simp] theorem expansions_add (a b : Stats) :
    (a + b).expansions = a.expansions + b.expansions := rfl

@[simp] theorem aborts_add (a b : Stats) : (a + b).aborts = a.aborts + b.aborts := rfl

end Stats

end PlanFusion
