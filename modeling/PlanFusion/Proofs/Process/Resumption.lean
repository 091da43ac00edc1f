import PlanFusion.Machine.Basic
import PlanFusion.Proofs.Machine.Passes

/-!
# PlanFusion — drains can be resumed

Draining a process over two lists in one go is the same as draining it over the first list, looking
at everything that this has left behind, and then draining it over the second one. If the first
drain ends early, by an abort or by a failure, the second list is never touched.

A drain that fails leaves a clean list of outputs. The process may have gone far into the element
that it failed at: inside an expansion, operators further right may have answered some of its parts
already. Nothing of that is kept. The outputs are those of the elements before.

* `feed_pulled_le`, `feed_pulled_of_exhausted` — how many elements a pass hands out;
* `feed_failed_cases`, `feed_of_failed_element` — a pass fails at the first element that is
  answered with a failure, and has the outputs of the elements before it;
* `Drained.Continues` — one drain as the continuation of another;
* `Process.FailsAfter` — the element at which a process fails;
* `Process.drain_resumes` — the result.
-/

namespace PlanFusion

variable {ω α β γ : Type}

-- ---------------------------------------------------------------------------
-- Passes that go on
-- ---------------------------------------------------------------------------

section Passes

variable {step : α → Action ω (Reply β)}

theorem feed_pulled_le (step : α → Action ω (Reply β)) (xs : List α) (w : ω) :
    (feed step xs w).pulled ≤ xs.length := by
  induction xs generalizing w with
  | nil => exact Nat.le_refl 0
  | cons x xs ih =>
    obtain ⟨e, w', l, h⟩ | ⟨w', l, h⟩ | ⟨r, w', l, hr, h⟩ := (step x w).reply_cases
    · rw [feed_cons_of_error h, List.length_cons]
      show 1 ≤ xs.length + 1
      omega
    · rw [feed_cons_of_abort h, List.length_cons]
      show 1 ≤ xs.length + 1
      omega
    · rw [feed_cons_of_ok h hr, List.length_cons]
      exact Nat.succ_le_succ (ih w')

/-- A pass that does not end early hands out every element. -/
theorem feed_pulled_of_exhausted {xs : List α} {w : ω}
    (h : (feed step xs w).ending = .exhausted) : (feed step xs w).pulled = xs.length := by
  induction xs generalizing w with
  | nil => rfl
  | cons x xs ih =>
    obtain ⟨e, w', l, hx⟩ | ⟨w', l, hx⟩ | ⟨r, w', l, hr, hx⟩ := (step x w).reply_cases
    · rw [feed_cons_of_error hx] at h
      cases h
    · rw [feed_cons_of_abort hx] at h
      cases h
    · rw [feed_cons_of_ok hx hr] at h ⊢
      exact congrArg (· + 1) (ih h)

/-- A pass that fails does so at an element that is answered with a failure, after a pass over the
elements before it that did not end early. -/
theorem feed_failed_cases {xs : List α} {w : ω} {e : Failure}
    (h : (feed step xs w).ending = .failed e) :
    ∃ before x after, xs = before ++ x :: after ∧ (feed step before w).ending = .exhausted ∧
      (step x (feed step before w).world).result = .error e := by
  induction xs generalizing w with
  | nil => cases h
  | cons x xs ih =>
    obtain ⟨e', w', l, hx⟩ | ⟨w', l, hx⟩ | ⟨r, w', l, hr, hx⟩ := (step x w).reply_cases
    · rw [feed_cons_of_error hx] at h
      cases h
      refine ⟨[], x, xs, rfl, rfl, ?_⟩
      rw [feed_nil, hx]
    · rw [feed_cons_of_abort hx] at h
      cases h
    · rw [feed_cons_of_ok hx hr] at h
      obtain ⟨before, y, after, hxs, hend, hfail⟩ := ih h
      refine ⟨x :: before, y, after, congrArg (x :: ·) hxs, ?_, ?_⟩
      · rw [feed_cons_of_ok hx hr]
        exact hend
      · rw [feed_cons_of_ok hx hr]
        exact hfail

/-- An element that is answered with a failure ends the pass. What comes out is what came out
before it. -/
theorem feed_of_failed_element {before : List α} {x : α} {w : ω} {e : Failure}
    (hend : (feed step before w).ending = .exhausted)
    (hfail : (step x (feed step before w).world).result = .error e) (after : List α) :
    let pass := feed step (before ++ x :: after) w
    pass.ending = .failed e ∧ pass.pulled = before.length + 1 ∧
      pass.out = (feed step before w).out ∧
      pass.world = (step x (feed step before w).world).world := by
  rcases hx : step x (feed step before w).world with ⟨_ | r, w', l⟩
  · rw [hx] at hfail
    cases hfail
    have hpulled := feed_pulled_of_exhausted hend
    have hlast : feed step (x :: after) (feed step before w).world = _ := feed_cons_of_error hx
    simp only [feed_append, Pass.andThen, hend, hlast, hpulled, List.append_nil, and_self]
  · rw [hx] at hfail
    cases hfail

end Passes

/-- The numbers of a pass that goes on with another one are the sums of the numbers of both. -/
theorem Pass.stats_andThen {p : Pass ω β} (h : p.ending = .exhausted) (q : ω → Pass ω β) :
    (p.andThen q).stats = p.stats + (q p.world).stats := by
  simp only [andThen, stats, h, List.length_append, reduceCtorEq, if_false]
  show _ = Stats.add _ _
  simp only [Stats.add, Nat.zero_add]

-- ---------------------------------------------------------------------------
-- Drains that go on
-- ---------------------------------------------------------------------------

/-- The drain `whole` is `first` and then `rest`, which started where `first` had stopped. -/
structure Drained.Continues (whole first rest : Drained ω α β) : Prop where
  out : whole.out = rest.out
  process : whole.process = rest.process
  world : whole.pass.world = rest.pass.world
  ending : whole.pass.ending = rest.pass.ending
  stats : whole.pass.stats = first.pass.stats + rest.pass.stats
  log : whole.pass.log = first.pass.log ++ rest.pass.log

namespace Process

/-- The process gets through the elements `before`, without an abort, and fails at the next one. -/
structure FailsAfter (process : Process ω α β) (before : List α) (x : α) (w : ω) (e : Failure) :
    Prop where
  exhausted : (process.drain before [] w).pass.ending = .exhausted
  failure : ((process.drain before [] w).process.offer x
    (process.drain before [] w).pass.world).1.result = .error e

variable (process : Process ω α β) (xs : List α) (initial : List β) (w : ω)

theorem drain_append_of_exhausted (ys : List α)
    (h : (process.drain xs initial w).pass.ending = .exhausted) :
    let first := process.drain xs initial w
    (process.drain (xs ++ ys) initial w).Continues first
      (first.process.drain ys first.out first.pass.world) := by
  have hend : (feed process.machine.step xs (process.state, w)).ending = .exhausted := h
  have hsplit := feed_append process.machine.step xs ys (process.state, w)
  have hstats := Pass.stats_andThen hend (feed process.machine.step ys)
  rw [← hsplit] at hstats
  simp only [Pass.andThen, hend] at hsplit
  refine ⟨?_, ?_, ?_, ?_, hstats, ?_⟩
  all_goals simp only [drain, Pass.mapWorld, hsplit, List.append_assoc]

theorem drain_append_of_ended (ys : List α)
    (h : (process.drain xs initial w).pass.ending ≠ .exhausted) :
    process.drain (xs ++ ys) initial w = process.drain xs initial w := by
  have hend : (feed process.machine.step xs (process.state, w)).ending ≠ .exhausted := h
  have hsplit := feed_append process.machine.step xs ys (process.state, w)
  have hsame : feed process.machine.step (xs ++ ys) (process.state, w) =
      feed process.machine.step xs (process.state, w) := by
    rw [hsplit, Pass.andThen]
    split
    · contradiction
    · rfl
  simp only [drain, hsame]

/-- A drain that fails has got through some of the elements and failed at the next one. -/
theorem drain_failed_cases {e : Failure}
    (h : (process.drain xs initial w).pass.ending = .failed e) :
    ∃ before x after, xs = before ++ x :: after ∧ process.FailsAfter before x w e := by
  have hfeed : (feed process.machine.step xs (process.state, w)).ending = .failed e := h
  obtain ⟨before, x, after, hxs, hend, hfail⟩ := feed_failed_cases hfeed
  exact ⟨before, x, after, hxs, ⟨hend, hfail⟩⟩

variable {process} {w} in
/-- A failing element ends the drain and adds nothing to the list of outputs. The process is as the
failure has left it. -/
theorem FailsAfter.drain {before : List α} {x : α} {e : Failure}
    (h : process.FailsAfter before x w e) (after : List α) :
    let failed := process.drain (before ++ x :: after) initial w
    let reached := process.drain before initial w
    failed.pass.ending = .failed e ∧ failed.pass.pulled = before.length + 1 ∧
      failed.out = reached.out ∧
      failed.process = (reached.process.offer x reached.pass.world).2 := by
  have hend : (feed process.machine.step before (process.state, w)).ending = .exhausted :=
    h.exhausted
  have hfail : (process.machine.step x
      (feed process.machine.step before (process.state, w)).world).result = .error e := h.failure
  obtain ⟨hending, hpulled, hout, hworld⟩ := feed_of_failed_element hend hfail after
  refine ⟨hending, hpulled, congrArg (initial ++ ·) hout, ?_⟩
  exact congrArg (fun v : process.machine.State × ω => Process.mk process.machine v.1) hworld

/-- **Drains can be resumed.** A drain over two lists is a drain over the first one and, if that
does not end early, another one over the second one with the process and the list of outputs that
the first drain has left behind. If the first drain does end early, it is all that happens. The
list that the outputs are put behind stays in front of them, and the number of outputs is what it
has grown by. A drain fails exactly if the process fails after some of the elements. Then it has
handed out one element more than these, and the list of outputs is as they have left it. -/
theorem drain_resumes (ys : List α) :
    let first := process.drain xs initial w
    (first.pass.ending = .exhausted → (process.drain (xs ++ ys) initial w).Continues first
      (first.process.drain ys first.out first.pass.world)) ∧
    (first.pass.ending ≠ .exhausted → process.drain (xs ++ ys) initial w = first) ∧
    first.pass.pulled ≤ xs.length ∧
    initial <+: first.out ∧ first.out.length = initial.length + first.pass.stats.emitted ∧
    (∀ e, first.pass.ending = .failed e ↔
      ∃ before x after, xs = before ++ x :: after ∧ process.FailsAfter before x w e) ∧
    (∀ before x after e, xs = before ++ x :: after → process.FailsAfter before x w e →
      let reached := process.drain before initial w
      first.pass.pulled = before.length + 1 ∧ first.out = reached.out ∧
      first.process = (reached.process.offer x reached.pass.world).2) := by
  refine ⟨process.drain_append_of_exhausted xs initial w ys,
    process.drain_append_of_ended xs initial w ys, ?_, List.prefix_append .., List.length_append ..,
    ?_, ?_⟩
  · exact feed_pulled_le process.machine.step xs (process.state, w)
  · intro e
    constructor
    · exact process.drain_failed_cases xs initial w
    · rintro ⟨before, x, after, rfl, hfails⟩
      exact (hfails.drain initial after).1
  · rintro before x after e rfl hfails
    exact (hfails.drain initial after).2

/-- Expand every element, note each of its parts in the world and put out the number after it, but
give up at nine. -/
def notingParts : Process (List Nat) (List Nat) Nat :=
  seq { machine := .stateless fun parts => pure (.many parts), state := () }
    { machine := .stateless fun y => do
        Action.modify (y :: ·)
        if y = 9 then Action.fail (.callable "nine") else pure (.one (y + 1))
      state := () }

theorem drain_resumes_notingParts :
    let first := notingParts.drain [[1, 2], []] [7] []
    let failed := notingParts.drain [[1, 2], [3, 9, 4]] [7] []
    first.out = [7, 2, 3] ∧
    (notingParts.drain [[1, 2], [], [3, 4]] [7] []).Continues first
      (first.process.drain [[3, 4]] [7, 2, 3] [2, 1]) ∧
    failed.pass.world = [9, 3, 2, 1] ∧ failed.pass.pulled = 2 ∧ failed.out = [7, 2, 3] ∧
    notingParts.drain [[1, 2], [3, 9, 4], [5]] [7] [] = failed := by
  intro first failed
  obtain ⟨hgoes, -⟩ := notingParts.drain_resumes [[1, 2], []] [7] [] [[3, 4]]
  obtain ⟨-, hends, -, -, -, -, hfails⟩ :=
    notingParts.drain_resumes [[1, 2], [3, 9, 4]] [7] [] [[5]]
  obtain ⟨hpulled, hout, -⟩ := hfails [[1, 2]] [3, 9, 4] [] (.callable "nine") rfl ⟨rfl, rfl⟩
  exact ⟨rfl, hgoes rfl, rfl, hpulled, hout, hends nofun⟩

end Process

end PlanFusion
