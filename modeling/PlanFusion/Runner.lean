import PlanFusion.Plan.Run

/-!
# PlanFusion — runners

A runner runs plans of any kind and keeps the sum of what its completed runs did. A run that failed
leaves the totals as they were.

* `Runner.run` — one run, with the runner as it is afterwards;
* `Runner.runAll` — any number of runs by the same runner, with all that they leave behind.
-/

namespace PlanFusion

/-- Keeps totals over the runs that it completed. -/
structure Runner where
  totals : Stats := {}
  deriving DecidableEq, Repr

namespace Runner

variable {ω α β : Type}

/-- The runner after a run that left `pass` behind. -/
def record (r : Runner) (pass : Pass ω β) : Runner :=
  if pass.ending.isFailed then r else { totals := r.totals + pass.runStats }

/-- Run a plan. The second part is the runner afterwards. -/
def run (r : Runner) (p : Plan (Action ω) α β) (xs : List α) (w : ω) : Pass ω β × Runner :=
  let pass := p.run xs w
  (pass, r.record pass)

/-- A plan and its input, of whatever element types. -/
structure Job (ω : Type) where
  Input : Type
  Output : Type
  plan : Plan (Action ω) Input Output
  input : List Input

/-- A job that was run, and what its run left behind. -/
structure Call (ω : Type) where
  job : Job ω
  pass : Pass ω job.Output

/-- Run one job after the other, whether or not the runs fail, each in a world of its own because
others may change the world in between. The second part is the runner afterwards. -/
def runAll (r : Runner) : List (Job ω × ω) → List (Call ω) × Runner
  | [] => ([], r)
  | (j, w) :: rest =>
    let (pass, r') := r.run j.plan j.input w
    let (calls, r'') := r'.runAll rest
    ({ job := j, pass := pass } :: calls, r'')

theorem runAll_cons (r : Runner) (j : Job ω) (w : ω) (jobs : List (Job ω × ω)) :
    r.runAll ((j, w) :: jobs) =
      ({ job := j, pass := (r.run j.plan j.input w).1 } ::
          ((r.run j.plan j.input w).2.runAll jobs).1,
        ((r.run j.plan j.input w).2.runAll jobs).2) := rfl

end Runner

end PlanFusion
