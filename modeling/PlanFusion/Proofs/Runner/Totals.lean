import Mathlib.Algebra.Order.BigOperators.Group.List
import Mathlib.Algebra.Order.Ring.Nat
import PlanFusion.Proofs.Machine.Passes
import PlanFusion.Proofs.Plan.Callables
import PlanFusion.Runner

/-!
# PlanFusion — the totals of a runner

A runner may be given any jobs in any order, and some of their runs may fail: when the accumulators
are made, at an element, or inside an expansion. Its totals are those of the completed runs, and the
log tells the same story, with one record for each completed run and none for the others.

* `Stats.IsSum` — numbers that are the sums of others, field by field;
* `Plan.log_run` — what a run adds to the log;
* `Runner.run_of_failed`, `Runner.run_of_completed` — what it does to the runner;
* `Runner.completed`, `Runner.results` — the calls whose runs did not fail, and their numbers;
* `Runner.isSum_runAll` — the invariant that a sequence of runs keeps;
* `Runner.Accounts` — what totals say about the calls that they cover;
* `Runner.filter_isExecuted_logs` — what is left of the logs of many runs if one only looks at the
  records of runs;
* `Runner.totals_of_history` — the result.
-/

namespace PlanFusion

-- ---------------------------------------------------------------------------
-- Sums of numbers
-- ---------------------------------------------------------------------------

namespace Stats

/-- Every field is the sum of that field over `parts`. -/
structure IsSum (total : Stats) (parts : List Stats) : Prop where
  runs : total.runs = (parts.map Stats.runs).sum
  evaluated : total.evaluated = (parts.map Stats.evaluated).sum
  emitted : total.emitted = (parts.map Stats.emitted).sum
  expansions : total.expansions = (parts.map Stats.expansions).sum
  aborts : total.aborts = (parts.map Stats.aborts).sum

theorem isSum_nil : IsSum {} [] :=
  ⟨rfl, rfl, rfl, rfl, rfl⟩

theorem IsSum.add {total : Stats} {parts : List Stats} (h : total.IsSum parts) (s : Stats) :
    (total + s).IsSum (parts ++ [s]) where
  runs := by simp [h.runs]
  evaluated := by simp [h.evaluated]
  emitted := by simp [h.emitted]
  expansions := by simp [h.expansions]
  aborts := by simp [h.aborts]

end Stats

-- ---------------------------------------------------------------------------
-- One run
-- ---------------------------------------------------------------------------

variable {ω α β : Type}

namespace Plan

variable (p : Plan (Action ω) α β) (xs : List α) (w : ω)

theorem pass_expansions_le : (p.pass xs w).expansions ≤ (p.pass xs w).pulled := by
  unfold pass
  rcases p.start w with ⟨e | s, w', l⟩
  · exact Nat.le_refl 0
  · exact feed_expansions_le p.machine.step xs (s, w')

theorem runStats_run : (p.run xs w).runStats = (p.pass xs w).runStats := by
  rw [run_eq]
  rfl

theorem runStats_expansions_le :
    (p.run xs w).runStats.expansions ≤ (p.run xs w).runStats.evaluated := by
  rw [runStats_run]
  exact p.pass_expansions_le xs w

/-- The log of a run is what its callables have logged, and then the record of the run. -/
theorem log_run :
    ∃ own, (∀ record ∈ own, p.MayLog record) ∧
      (p.run xs w).log = own ++
        if (p.run xs w).ending.isFailed then [] else [.executed p.shape (p.run xs w).runStats] := by
  refine ⟨(p.pass xs w).log, fun record => p.pass_mayLog, ?_⟩
  rw [runStats_run, run_eq]
  rfl

end Plan

theorem Pass.runStats_aborts_le (p : Pass ω β) : p.runStats.aborts ≤ p.runStats.runs := by
  show (if p.ending = .aborted then 1 else 0) ≤ 1
  split
  · exact Nat.le_refl 1
  · exact Nat.zero_le 1

namespace Runner

/-- A run that fails leaves the runner as it was. -/
theorem run_of_failed (r : Runner) {p : Plan (Action ω) α β} {xs : List α} {w : ω}
    (h : (r.run p xs w).1.ending.isFailed = true) : (r.run p xs w).2 = r :=
  if_pos h

/-- A run that is completed adds its numbers to the totals. -/
theorem run_of_completed (r : Runner) {p : Plan (Action ω) α β} {xs : List α} {w : ω}
    (h : (r.run p xs w).1.ending.isFailed = false) :
    (r.run p xs w).2.totals = r.totals + (r.run p xs w).1.runStats := by
  have hrecord : (r.run p xs w).2 = { totals := r.totals + (r.run p xs w).1.runStats } :=
    if_neg (ne_true_of_eq_false h)
  rw [hrecord]

-- ---------------------------------------------------------------------------
-- Many runs
-- ---------------------------------------------------------------------------

/-- What a run leaves behind does not depend on the runner. -/
theorem calls_runAll (r : Runner) (jobs : List (Job ω × ω)) :
    (r.runAll jobs).1 = jobs.map fun (j, w) => { job := j, pass := j.plan.run j.input w } := by
  induction jobs generalizing r with
  | nil => rfl
  | cons run jobs ih =>
    obtain ⟨j, w⟩ := run
    rw [runAll_cons, List.map_cons, ih]
    rfl

/-- The plan of the job was run, in whatever world. -/
def Call.IsRun (call : Call ω) : Prop :=
  ∃ w, call.pass = call.job.plan.run call.job.input w

theorem isRun_runAll (r : Runner) (jobs : List (Job ω × ω)) :
    ∀ call ∈ (r.runAll jobs).1, call.IsRun := by
  rw [calls_runAll]
  exact List.forall_mem_map.mpr fun run _ => ⟨run.2, rfl⟩

/-- The calls whose runs did not fail. -/
def completed (calls : List (Call ω)) : List (Call ω) :=
  calls.filter fun call => !call.pass.ending.isFailed

/-- The numbers of the completed runs. -/
def results (calls : List (Call ω)) : List Stats :=
  (completed calls).map fun call => call.pass.runStats

theorem completed_cons_of_failed {call : Call ω} (h : call.pass.ending.isFailed = true)
    (calls : List (Call ω)) : completed (call :: calls) = completed calls :=
  List.filter_cons_of_neg (by simp [h])

theorem completed_cons_of_completed {call : Call ω} (h : call.pass.ending.isFailed = false)
    (calls : List (Call ω)) : completed (call :: calls) = call :: completed calls :=
  List.filter_cons_of_pos (by simp [h])

/-- If the totals of a runner are the sums of `parts`, then after any runs they are the sums of
`parts` and the numbers of those runs that were completed. -/
theorem isSum_runAll (jobs : List (Job ω × ω)) {r : Runner} {parts : List Stats}
    (h : r.totals.IsSum parts) :
    (r.runAll jobs).2.totals.IsSum (parts ++ results (r.runAll jobs).1) := by
  induction jobs generalizing r parts with
  | nil =>
    show r.totals.IsSum (parts ++ [])
    rw [List.append_nil]
    exact h
  | cons run jobs ih =>
    obtain ⟨j, w⟩ := run
    rw [runAll_cons, results]
    cases hfailed : (r.run j.plan j.input w).1.ending.isFailed with
    | true =>
      rw [completed_cons_of_failed hfailed, r.run_of_failed hfailed]
      exact ih h
    | false =>
      rw [completed_cons_of_completed hfailed, List.map_cons, List.append_cons]
      refine ih ?_
      rw [r.run_of_completed hfailed]
      exact h.add _

/-- What the totals of a new runner say about the calls that were made to it. -/
structure Accounts (calls : List (Call ω)) (totals : Stats) : Prop where
  sums : totals.IsSum (results calls)
  runs : totals.runs = (completed calls).length
  emitted : totals.emitted = ((completed calls).map fun call => call.pass.out.length).sum
  aborts : totals.aborts ≤ totals.runs
  expansions : totals.expansions ≤ totals.evaluated

/-- Sums over the completed runs are all that the totals need. -/
theorem accounts_of_isSum {calls : List (Call ω)} (hcalls : ∀ call ∈ calls, call.IsRun)
    {totals : Stats} (h : totals.IsSum (results calls)) : Accounts calls totals where
  sums := h
  runs := by
    have hone : (results calls).map Stats.runs = (completed calls).map fun _ => 1 := by
      rw [results, List.map_map]
      rfl
    rw [h.runs, hone]
    simp
  emitted := by
    rw [h.emitted, results, List.map_map]
    rfl
  aborts := by
    rw [h.aborts, h.runs, results, List.map_map, List.map_map]
    exact List.sum_le_sum fun call _ => call.pass.runStats_aborts_le
  expansions := by
    rw [h.expansions, h.evaluated, results, List.map_map, List.map_map]
    refine List.sum_le_sum fun call hcall => ?_
    obtain ⟨w, hpass⟩ := hcalls call (List.mem_of_mem_filter hcall)
    show call.pass.runStats.expansions ≤ call.pass.runStats.evaluated
    rw [hpass]
    exact call.job.plan.runStats_expansions_le call.job.input w

theorem Call.IsRun.log {call : Call ω} (h : call.IsRun) :
    ∃ own, (∀ record ∈ own, call.job.plan.MayLog record) ∧
      call.pass.log = own ++
        if call.pass.ending.isFailed then []
        else [.executed call.job.plan.shape call.pass.runStats] := by
  obtain ⟨w, hpass⟩ := h
  rw [hpass]
  exact call.job.plan.log_run call.job.input w

/-- The records of runs in the logs of many runs, if no callable logs such a record itself. -/
theorem filter_isExecuted_logs {calls : List (Call ω)} (hcalls : ∀ call ∈ calls, call.IsRun)
    (h : ∀ call ∈ calls, ∀ record, call.job.plan.MayLog record → record.isExecuted = false) :
    (calls.flatMap fun call => call.pass.log).filter Record.isExecuted =
      (completed calls).map fun call => .executed call.job.plan.shape call.pass.runStats := by
  induction calls with
  | nil => rfl
  | cons call calls ih =>
    obtain ⟨hcall, hrest⟩ := List.forall_mem_cons.mp hcalls
    obtain ⟨hquiet, hquiets⟩ := List.forall_mem_cons.mp h
    obtain ⟨own, hown, hlog⟩ := hcall.log
    have hnone : own.filter Record.isExecuted = [] :=
      List.filter_eq_nil_iff.mpr fun record hrecord => by simp [hquiet record (hown record hrecord)]
    rw [List.flatMap_cons, List.filter_append, ih hrest hquiets, hlog, List.filter_append, hnone,
      List.nil_append]
    cases hfailed : call.pass.ending.isFailed with
    | true =>
      rw [completed_cons_of_failed hfailed]
      rfl
    | false =>
      rw [completed_cons_of_completed hfailed]
      rfl

/-- **Totals over any history.** A new runner is given any jobs, whether or not their runs fail.
Each call leaves behind what a run of its plan does. The totals of the runner are then the sums over
the runs that were completed, with at most one abort for each of them and at most one expansion for
each element. A run that fails leaves the runner as it was, whatever its totals are, and logs
nothing but what its callables do. A run that is completed logs one record more, at the end and
with its own numbers. So if the callables log no such record themselves, the log has these records
for the completed runs, in order, and for no others. -/
theorem totals_of_history (jobs : List (Job ω × ω)) :
    let calls := (runAll {} jobs).1
    calls = (jobs.map fun (j, w) => { job := j, pass := j.plan.run j.input w }) ∧
    Accounts calls (runAll {} jobs).2.totals ∧
    (∀ (r : Runner) (j : Job ω) (w : ω), (r.run j.plan j.input w).1.ending.isFailed = true →
      (r.run j.plan j.input w).2 = r) ∧
    (∀ call ∈ calls, ∃ own, (∀ record ∈ own, call.job.plan.MayLog record) ∧
      call.pass.log = own ++
        if call.pass.ending.isFailed then []
        else [.executed call.job.plan.shape call.pass.runStats]) ∧
    ((∀ run ∈ jobs, ∀ record, run.1.plan.MayLog record → record.isExecuted = false) →
      (calls.flatMap fun call => call.pass.log).filter Record.isExecuted =
        (completed calls).map fun call => .executed call.job.plan.shape call.pass.runStats) := by
  intro calls
  have hruns : ∀ call ∈ calls, call.IsRun := isRun_runAll {} jobs
  have hjobs : calls = jobs.map fun (j, w) => { job := j, pass := j.plan.run j.input w } :=
    calls_runAll {} jobs
  refine ⟨hjobs, accounts_of_isSum hruns (isSum_runAll jobs Stats.isSum_nil), ?_, ?_, ?_⟩
  · intro r j w hfailed
    exact r.run_of_failed hfailed
  · intro call hcall
    exact (hruns call hcall).log
  · intro hquiet
    refine filter_isExecuted_logs hruns ?_
    rw [hjobs]
    exact List.forall_mem_map.mpr hquiet

/-- A job whose callables do nothing but give a value or give up. -/
def silentJob {α β : Type} (p : Plan (Except Failure) α β) (xs : List α) : Job Unit where
  Input := α
  Output := β
  plan := p.trans fun x w => { result := x, world := w }
  input := xs

/-- An element twice, unless it is too large. -/
def twice (x : Nat) : Except Failure (List Nat) :=
  if x < 9 then pure [x, x] else throw (.callable "too large")

/-- A job that fails inside the expansion of its second element. -/
def oversized : Job Unit :=
  silentJob (.seq (.operator (.flatMap pure)) (.operator (.flatMap twice))) [[1], [3, 9, 4]]

/-- A run that an abort ends, one that fails to start, one that fails inside an expansion, and one
that exhausts its input. -/
def mixedHistory : List (Job Unit × Unit) :=
  [(silentJob (.seq (.operator (.take 1)) (.operator (.flatMap twice))) [7, 8], ()),
    (silentJob (.operator (.mapAccum (throw (.callable "no sum")) fun s x => pure (s, s + x)))
      [1], ()),
    (oversized, ()),
    (silentJob (.operator (.map fun x => pure (x % 2 == 0))) [4, 5], ())]

theorem mixedHistory_silent :
    ∀ run ∈ mixedHistory, ∀ record, run.1.plan.MayLog record → record.isExecuted = false := by
  simp only [mixedHistory, List.forall_mem_cons]
  refine ⟨?_, ?_, ?_, ?_, List.forall_mem_nil _⟩
  all_goals
    intro record hrecord
    exact absurd hrecord (Plan.not_mayLog_trans (fun _ _ => rfl) _ record)

theorem totals_of_history_mixed :
    let calls := (runAll {} mixedHistory).1
    let totals := (runAll {} mixedHistory).2.totals
    totals = { runs := 2, evaluated := 4, emitted := 4, expansions := 1, aborts := 1 } ∧
    Accounts calls totals ∧
    (∀ r : Runner, (r.run oversized.plan oversized.input ()).2 = r) ∧
    ((calls.flatMap fun call => call.pass.log).filter Record.isExecuted).length = 2 := by
  obtain ⟨-, haccounts, hfailed, -, hexecuted⟩ := totals_of_history mixedHistory
  refine ⟨rfl, haccounts, fun r => hfailed r oversized () rfl, ?_⟩
  rw [hexecuted mixedHistory_silent]
  rfl

end Runner

end PlanFusion
