import PlanFusion.Script.Operation

/-!
# PlanFusion — commands of scripts

A script is a list of commands. It names what it makes: builders, plans, processes and runners, each
kind with names of its own. This module holds the commands and the answers to them; no command is
carried out here.
-/

namespace PlanFusion.Script

/-- How a plan is written. -/
inductive Tree where
  | operation (o : Operation String)
  /-- Both sides are fused by themselves, then joined. -/
  | joinNormalized (left right : Tree)
  /-- Both sides are joined as they are. -/
  | join (left right : Tree)
  | normalize (tree : Tree)
  /-- The plan of this name. -/
  | plan (name : String)
  /-- The plan so far of the builder of this name. -/
  | builder (name : String)

/-- What a builder starts from. -/
inductive Source where
  | empty
  /-- Empty, with fusion disabled. -/
  | plain
  | builder (name : String)
  | plan (name : String)

/-- What is done to a builder. -/
inductive Growth where
  | add (o : Operation String)
  | first
  | merge (builder : String)
  | normalize
  | withMode (mode : FusionMode)

/-- What a script can ask for. -/
inductive Command where
  /-- Grow a builder and name it. A quiet command does not report the plans on the way. -/
  | build (name : String) (source : Source) (growth : List Growth) (quiet : Bool)
  | define (name : String) (tree : Tree)
  | normalize (plan name : String)
  /-- Give up a builder and name its plan. -/
  | release (builder name : String)
  | run (builder : String) (input : List Value)
  /-- Run and report the numbers too. -/
  | measure (builder : String) (input : List Value)
  | reduce (builder : String) (input : List Value) (acc : Value) (f : Expr String)
  | execute (plan : String) (input : List Value)
  | newRunner (name : String)
  | runWith (runner plan : String) (input : List Value)
  | totals (runner : String)
  /-- Start a plan and name the process. -/
  | spawn (plan name : String)
  /-- Name a process that is given by its transition. -/
  | simulate (name : String) (start : Value) (next reply : Expr String)
  /-- Give up two processes and name their sequence. -/
  | link (left right name : String)
  | offer (process : String) (x : Value)
  | drain (process : String) (input initial : List Value)
  /-- Describe a reply, compare it with another, put its outputs behind a list. -/
  | describe (r : Reply Value) (other : Option (Reply Value)) (ys : Option (List Value))
  /-- Use a value at a type that is equal to its own. -/
  | coerce (v : Value)
  | showDefect (d : Defect)
  | raise (d : Defect)

/-- What a command is answered with. -/
inductive Answer where
  | done
  | built (steps : List Shape) (plan : Shape) (mode : FusionMode) (inspected : String)
  | defined (plan : Shape)
  | normalized (plan : Shape)
  | released (plan : Shape)
  | outputs (ys : List Value)
  | measured (ys : List Value) (stats : Stats) (pulled : Nat)
  | reduced (acc : Value) (plan : Shape) (pulled : Nat)
  | recorded (ys : List Value) (stats totals : Stats)
  | totals (stats : Stats)
  | replied (r : Reply Value)
  | drained (out : List Value) (stats : Stats) (pulled : Nat)
  | described (r : Reply Value) (same : Option Bool) (emitted : Option (List Value))
  | coerced (v : Value)
  | defect (d : Defect)
  /-- The command failed after that many elements of its input. A list that outputs were put behind
  is shown as the failure left it. -/
  | failed (e : Failure) (pulled : Nat) (out : Option (List Value))
  /-- The command refers to something that is not there. -/
  | rejected

/-- An answer, with what callables recorded and the library logged on the way to it. -/
structure Report where
  answer : Answer
  trace : List (String × Value) := []
  log : List Record := []

/-- The report as a reader sees it who asked for the records of a level. -/
def Report.visibleAt (threshold : Option Level) (r : Report) : Report :=
  { r with
    log := match threshold with
      | some l => r.log.filter fun record => l.visibleAt record.level
      | none => [] }

end PlanFusion.Script
