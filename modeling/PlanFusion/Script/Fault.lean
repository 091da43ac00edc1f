import PlanFusion.Action
import PlanFusion.Script.Value

/-!
# PlanFusion — faults of scripts

What can go wrong in the callables of a script, and the world in which they run. A fault is a
failure of a callable; its message is all that a plan ever sees of it.
-/

namespace PlanFusion.Script

/-- Why an expression has no value. -/
inductive Fault where
  /-- The expression gave up by itself. -/
  | thrown (message : String)
  | divisionByZero
  /-- The operation is not defined on values of these types. -/
  | typeMismatch (operation : String)
  /-- A value that was to stand for a reply does not. -/
  | badReply
  deriving DecidableEq, Repr

def Fault.message : Fault → String
  | thrown message => message
  | divisionByZero => "division by zero"
  | typeMismatch operation => "type error: " ++ operation
  | badReply => "bad signal"

/-- What callables leave behind for a reader: labels and values, in the order of their
recording. -/
structure World where
  trace : Array (String × Value) := #[]

/-- What a callable of a script does. -/
abbrev Effect (α : Type) : Type :=
  Action World α

namespace Effect

variable {α : Type}

/-- Give up with a fault. -/
def fault (f : Fault) : Effect α :=
  Action.fail (.callable f.message)

/-- The value, or give up with the fault. -/
def ofExcept : Except Fault α → Effect α
  | .ok x => pure x
  | .error f => fault f

/-- Record a value under a label. -/
def record (label : String) (v : Value) : Effect Unit :=
  Action.modify fun w => { w with trace := w.trace.push (label, v) }

end Effect

end PlanFusion.Script
