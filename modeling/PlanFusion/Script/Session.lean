import Std.Data.HashMap
import PlanFusion.Builder.Reduce
import PlanFusion.Runner
import PlanFusion.Script.Command

/-!
# PlanFusion — sessions

A session carries out the commands of a script one after the other. Commands share the names and
nothing else: each has a trace and a log of its own. A command that fails is answered with its
failure. It assigns no name, but what it did to a process before it failed stays done.

* `Session` — what the names stand for;
* `Tree.plan?`, `Growth.apply?` — plans and builders as they are written;
* `Session.perform` — one command; `Session.performAll` — a script.
-/

namespace PlanFusion.Script

/-- What the names of a script stand for. -/
structure Session where
  builders : Std.HashMap String ValueBuilder := {}
  plans : Std.HashMap String ValuePlan := {}
  processes : Std.HashMap String ValueProcess := {}
  runners : Std.HashMap String Runner := {}

namespace Session

/-- The plans that expressions can run are those of the builders, as they are now. -/
def subroutine? (s : Session) (name : String) : Option Subroutine :=
  s.builders[name]?.map subroutine

end Session

/-- The operator that an operation stands for in a session. -/
def Operation.operator? (s : Session) (o : Operation String) :
    Option (Operator (Action World) Value Value) :=
  (o.link s.subroutine?).map operator

/-- The plan that a tree stands for. The left side is made before the right one. -/
def Tree.plan? (s : Session) : Tree → Option (Logged ValuePlan)
  | operation o => do
    let o ← o.operator? s
    return { value := .operator o }
  | joinNormalized left right => do
    let left ← left.plan? s
    let right ← right.plan? s
    return do (← left).joinNormalized (← right)
  | join left right => do
    let left ← left.plan? s
    let right ← right.plan? s
    return do (← left).join (← right)
  | normalize tree => do
    let tree ← tree.plan? s
    return do (← tree).normalize
  | plan name => do
    let p ← s.plans[name]?
    return { value := p }
  | builder name => do
    let b ← s.builders[name]?
    return { value := b.plan }

/-- The builder that a source stands for. -/
def Source.builder? (s : Session) : Source → Option ValueBuilder
  | empty => some .empty
  | plain => some (Builder.empty.withMode .disabled)
  | builder name => s.builders[name]?
  | plan name => s.plans[name]?.map .ofPlan

/-- The builder after one change. -/
def Growth.apply? (s : Session) (b : ValueBuilder) : Growth → Option (Logged ValueBuilder)
  | add o => do
    let o ← o.operator? s
    return b.add o
  | first => some b.first
  | merge name => do
    let other ← s.builders[name]?
    return b.merge other
  | normalize => some b.normalize
  | withMode mode => some { value := b.withMode mode }

/-- The builder after all changes, and its shape after each of them. -/
def Growth.applyAll? (s : Session) (b : ValueBuilder) :
    List Growth → Option (Logged (ValueBuilder × List Shape))
  | [] => some { value := (b, []) }
  | g :: gs => do
    let next ← g.apply? s b
    let rest ← applyAll? s next.value gs
    return { value := (rest.value.1, next.value.plan.shape :: rest.value.2)
             log := next.log ++ rest.log }

/-- The report on a pass, if it did not fail. A failure is reported with `out`. -/
def Report.ofPass (pass : Pass World Value) (out : Option (List Value)) (answer : Answer) :
    Report where
  answer :=
    match pass.ending with
    | .failed e => .failed e pass.pulled out
    | _ => answer
  trace := pass.world.trace.toList
  log := pass.log

namespace Session

/-- Carry out a command. There is no result if the command refers to something that is not
there. -/
def perform? (s : Session) : Command → Option (Session × Report)
  | .build name source growth quiet => do
    -- Expressions see the builders as they were before this command, its own old one included.
    let b ← source.builder? s
    let grown ← Growth.applyAll? s b growth
    let (b, steps) := grown.value
    let steps := if quiet then [] else steps
    return ({ s with builders := s.builders.insert name b },
      { answer := .built steps b.plan.shape b.mode b.inspect, log := grown.log })
  | .define name tree => do
    let p ← tree.plan? s
    return ({ s with plans := s.plans.insert name p.value },
      { answer := .defined p.value.shape, log := p.log })
  | .normalize plan name => do
    let p ← s.plans[plan]?
    let p := p.normalize
    return ({ s with plans := s.plans.insert name p.value },
      { answer := .normalized p.value.shape, log := p.log })
  | .release builder name => do
    let b ← s.builders[builder]?
    return ({ s with builders := s.builders.erase builder, plans := s.plans.insert name b.plan },
      { answer := .released b.plan.shape })
  | .run builder input => do
    let b ← s.builders[builder]?
    let pass := b.run input {}
    return (s, .ofPass pass none (.outputs pass.out))
  | .measure builder input => do
    let b ← s.builders[builder]?
    let pass := b.run input {}
    return (s, .ofPass pass none (.measured pass.out pass.runStats pass.pulled))
  | .reduce builder input acc f =>
    (f.link s.subroutine?).bind fun f => do
      let b ← s.builders[builder]?
      let r := b.reduce input acc (fun acc x => f.eval x acc) {}
      let answer :=
        match r.result with
        | .ok acc => .reduced acc b.plan.shape r.pulled
        | .error e => .failed e r.pulled none
      return (s, { answer, trace := r.world.trace.toList, log := r.log })
  | .execute plan input => do
    let p ← s.plans[plan]?
    let pass := p.run input {}
    return (s, .ofPass pass none (.outputs pass.out))
  | .newRunner name =>
    some ({ s with runners := s.runners.insert name {} }, { answer := .done })
  | .runWith runner plan input =>
    s.runners[runner]?.bind fun r => do
      let p ← s.plans[plan]?
      let (pass, r) := r.run p input {}
      return ({ s with runners := s.runners.insert runner r },
        .ofPass pass none (.recorded pass.out pass.runStats r.totals))
  | .totals runner =>
    s.runners[runner]?.map fun r => (s, { answer := .totals r.totals })
  | .spawn plan name => do
    let p ← s.plans[plan]?
    let o := p.spawn {}
    match o.result with
    | .ok process =>
      return ({ s with processes := s.processes.insert name process },
        { answer := .done, trace := o.world.trace.toList, log := o.log })
    | .error e =>
      return (s, { answer := .failed e 0 none, trace := o.world.trace.toList, log := o.log })
  | .simulate name start next reply =>
    (next.link s.subroutine?).bind fun next =>
    (reply.link s.subroutine?).map fun reply =>
      let process := Process.ofTransition start (transition next reply)
      ({ s with processes := s.processes.insert name process }, { answer := .done })
  | .link left right name => do
    let p ← s.processes[left]?
    let q ← s.processes[right]?
    let processes := ((s.processes.erase left).erase right).insert name (p.seq q)
    return ({ s with processes }, { answer := .done })
  -- A process is stored again after a failure too: it keeps the state that it reached.
  | .offer process x => do
    let p ← s.processes[process]?
    let (o, p) := p.offer x {}
    let answer :=
      match o.result with
      | .ok r => .replied r
      | .error e => .failed e 0 none
    return ({ s with processes := s.processes.insert process p },
      { answer, trace := o.world.trace.toList, log := o.log })
  | .drain process input initial => do
    let p ← s.processes[process]?
    let d := p.drain input initial {}
    return ({ s with processes := s.processes.insert process d.process },
      .ofPass d.pass (some d.out) (.drained d.out d.pass.stats d.pass.pulled))
  | .describe r other ys =>
    some (s, { answer := .described r (other.map fun t => decide (r = t)) (ys.map r.emit) })
  | .coerce v => some (s, { answer := .coerced v })
  | .showDefect d => some (s, { answer := .defect d })
  | .raise d =>
    let o : Outcome World Unit := Action.raise d {}
    let answer :=
      match o.result with
      | .ok () => .done
      | .error e => .failed e 0 none
    some (s, { answer, log := o.log })

/-- Carry out a command, or reject it without any effect. -/
def perform (s : Session) (c : Command) : Session × Report :=
  (s.perform? c).getD (s, { answer := .rejected })

/-- Carry out a script. A command that could not be read is rejected like one that refers to
nothing. -/
def performAll (s : Session) : List (Option Command) → List Report
  | [] => []
  | none :: cs => { answer := .rejected } :: s.performAll cs
  | some c :: cs =>
    let (s', report) := s.perform c
    report :: s'.performAll cs

end Session

end PlanFusion.Script
