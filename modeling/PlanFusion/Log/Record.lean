import PlanFusion.Defect
import PlanFusion.Shape
import PlanFusion.Stats

/-!
# PlanFusion — log records

The library writes a record whenever it joins or fuses two plans, finishes a run, or finds itself
broken. A record keeps what it is about. Its text is derived from that, and so is its level.
-/

namespace PlanFusion

/-- How much a reader has to ask for to see a record. -/
inductive Level where
  | error
  | debug
  | trace
  deriving DecidableEq, Repr

namespace Level

/-- Errors rank lowest: they are shown to everyone who asks for anything. -/
def rank : Level → Nat
  | .error => 0
  | .debug => 1
  | .trace => 2

/-- A reader of `threshold` sees a record of level `l`. -/
def visibleAt (threshold l : Level) : Bool :=
  l.rank ≤ threshold.rank

def text : Level → String
  | .error => "error"
  | .debug => "debug"
  | .trace => "trace"

end Level

/-- What the library reports about its own work. -/
inductive Record where
  /-- Two plans were put in sequence as they are. -/
  | joined (left right : Kind)
  /-- Two plans became one operator, or one of them disappeared. -/
  | fused (left right into : Kind)
  /-- A run of a plan came to its end. -/
  | executed (plan : Shape) (stats : Stats)
  /-- A defect was raised. -/
  | raised (defect : Defect)
  deriving DecidableEq, Repr

namespace Record

def level : Record → Level
  | joined .. => .trace
  | fused .. => .debug
  | executed .. => .debug
  | raised .. => .error

def text : Record → String
  | joined left right => "combine " ++ left.text ++ " + " ++ right.text
  | fused left right into => "fused " ++ left.text ++ " + " ++ right.text ++ " into " ++ into.text
  | executed plan stats =>
    "executed " ++ plan.text ++ ": " ++ toString stats.evaluated ++ " in, " ++
      toString stats.emitted ++ " out, " ++ toString stats.expansions ++ " expansions" ++
      if stats.aborts > 0 then ", aborted" else ""
  | raised defect => defect.message

/-- A record that says that two plans became one. -/
def isFused : Record → Bool
  | fused .. => true
  | _ => false

/-- A record that says that two plans were put in sequence. -/
def isJoined : Record → Bool
  | joined .. => true
  | _ => false

/-- A record that says what a run did. -/
def isExecuted : Record → Bool
  | executed .. => true
  | _ => false

end Record

end PlanFusion
