import PlanFusion.Plan.Basic

/-!
# PlanFusion — running a plan

A plan is run by the machine of its operators in sequence. Starting it makes the accumulators,
those of the left plan first. Every run starts afresh, so a plan can be run any number of times.

* `Plan.machine`, `Plan.start`, `Plan.spawn` — the machine, the state that it starts in, and both
  as a process;
* `Plan.history` — all that an observer of a plan ever sees: how it starts, and how it answers;
* `Plan.pass` — one pass over a list from a fresh start;
* `Plan.run` — the same with a record of its numbers at the end, unless it failed;
* `Plan.report`, `Plan.run_eq` — that record by itself, and a run as its pass with the record.
-/

namespace PlanFusion

/-- The pass that failed before any element was handed out. -/
def Pass.unstarted {ω β : Type} (e : Failure) (w : ω) (log : List Record) : Pass ω β where
  ending := .failed e
  world := w
  log := log

/-- The numbers of a pass that is a run of its own. -/
def Pass.runStats {ω β : Type} (p : Pass ω β) : Stats :=
  { p.stats with runs := 1 }

namespace Plan

variable {ω α β : Type}

/-- The machine that does what the plan says. -/
def machine {α β : Type} : Plan (Action ω) α β → Machine ω α β
  | operator o => o.machine
  | seq left right => left.machine.seq right.machine

/-- The state that the machine starts in. -/
def start {α β : Type} : (p : Plan (Action ω) α β) → Action ω p.machine.State
  | operator o => o.start
  | seq left right => do
    -- If the left plan fails to start, the accumulators of the right one are never made.
    let s ← left.start
    let t ← right.start
    return (s, t)

/-- The machine in the state that it starts in. -/
def spawn (p : Plan (Action ω) α β) (w : ω) : Outcome ω (Process ω α β) :=
  let o := p.start w
  { result := o.result.map fun s => { machine := p.machine, state := s }
    world := o.world
    log := o.log }

/-- Start the plan and hand one element after the other to the process, each in a world of its
own. -/
def history (p : Plan (Action ω) α β) (calls : List (α × ω)) (w : ω) :
    Outcome ω (List (Outcome ω (Reply β))) :=
  let o := p.spawn w
  { result := o.result.map fun process => process.offers calls
    world := o.world
    log := o.log }

/-- One pass over a list from a fresh start. -/
def pass (p : Plan (Action ω) α β) (xs : List α) (w : ω) : Pass ω β :=
  match p.start w with
  | { result := .ok s, world := w', log := l } =>
    ((feed p.machine.step xs (s, w')).mapWorld Prod.snd).after l
  | { result := .error e, world := w', log := l } => .unstarted e w' l

/-- One pass over a list from a fresh start, with a record at its end unless it failed. -/
def run (p : Plan (Action ω) α β) (xs : List α) (w : ω) : Pass ω β :=
  let pass := p.pass xs w
  if pass.ending.isFailed then pass
  else { pass with log := pass.log ++ [.executed p.shape pass.runStats] }

/-- What a run adds to the log of its pass. -/
def report (p : Plan (Action ω) α β) (xs : List α) (w : ω) : List Record :=
  let pass := p.pass xs w
  if pass.ending.isFailed then [] else [.executed p.shape pass.runStats]

/-- A run is its pass, with one more record if it did not fail. -/
theorem run_eq (p : Plan (Action ω) α β) (xs : List α) (w : ω) :
    p.run xs w = { p.pass xs w with log := (p.pass xs w).log ++ p.report xs w } := by
  unfold run report
  cases h : (p.pass xs w).ending.isFailed with
  | true => simp [h]
  | false => simp [h]

end Plan

end PlanFusion
