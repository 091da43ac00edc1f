import PlanFusion.Text.Quoted

/-!
# PlanFusion — defects

A `Defect` is a broken promise of the library itself, never of a caller or of the data. It is
raised, not returned, so that no caller can take it for an ordinary answer. `message` is what a
reader of the log sees and `inspect` shows the fields.
-/

namespace PlanFusion

/-- What can turn out to be broken. -/
inductive Defect where
  /-- A promise about plans or replies does not hold at the place that `context` names. -/
  | invariant (context : String)
  /-- A value of the type `source` was used at the type `target`, and the two differ. -/
  | typeMismatch (source target : String)
  deriving DecidableEq, Repr

namespace Defect

/-- One line for the log. -/
def message : Defect → String
  | .invariant context => "invariant violation (this is a bug): " ++ context
  | .typeMismatch source target =>
    "invariant violation (this is a bug): type witness " ++ source ++ " -> " ++ target ++
      " does not hold"

/-- The fields by name, with quoted strings. -/
def inspect : Defect → String
  | .invariant context =>
    "InvariantViolation \x7b context: " ++ Text.Quoted.encode context ++ " \x7d"
  | .typeMismatch source target =>
    "WitnessMismatch \x7b from: " ++ Text.Quoted.encode source ++ ", to: " ++
      Text.Quoted.encode target ++ " \x7d"

end Defect

end PlanFusion
