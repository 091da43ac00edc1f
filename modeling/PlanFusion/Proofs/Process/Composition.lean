import PlanFusion.Proofs.Machine.Autonomy
import PlanFusion.Proofs.Machine.Sequencing

/-!
# PlanFusion — two processes in sequence as two drains

Two processes in sequence take turns: the right one is asked as soon as the left one has put out
something. One may also drain the left one over the whole input first and the right one over
everything that has come out. If the processes are autonomous and the right one falls silent once
it has aborted, the outputs are the same.

The silence is needed for expansions only. There an abort of the right process ends the expansion
but not the pass, and so the right process is asked again, which a drain would not do.

* `Process.Quiet`, `Process.QuietAfterAbort` — processes that put out nothing any more, and
  processes that do so once they have aborted;
* `Quiet.pass_out`, `QuietAfterAbort.of_aborted_pass`, `QuietAfterAbort.feed_append` — what passes
  make of that;
* `Machine.feed_seq_out` — the result.
-/

namespace PlanFusion

variable {ω α β γ : Type}

namespace Process

/-- Whatever the process is handed, it puts out nothing. -/
def Quiet (process : Process ω α β) : Prop :=
  ∀ calls, ∀ o ∈ process.offers calls, ∀ r, o.result = .ok r → r.outputs = []

/-- Whatever the process is handed, it puts out nothing after it has replied with an abort. -/
def QuietAfterAbort (process : Process ω α β) : Prop :=
  ∀ calls, (process.offers calls).Pairwise fun earlier later =>
    earlier.result = .ok .abort → ∀ r, later.result = .ok r → r.outputs = []

-- ---------------------------------------------------------------------------
-- One element
-- ---------------------------------------------------------------------------

section

variable {M : Machine ω α β} {s s' : M.State} {x : α} {w w' : ω} {l : List Record}
  {result : Except Failure (Reply β)}

theorem Quiet.outputs_eq_nil {r : Reply β} (h : Quiet { machine := M, state := s })
    (hstep : M.step x (s, w) = { result := .ok r, world := (s', w'), log := l }) :
    r.outputs = [] := by
  refine h [(x, w)] _ (List.mem_cons_self ..) r ?_
  exact congrArg Outcome.result hstep

theorem Quiet.step (h : Quiet { machine := M, state := s })
    (hstep : M.step x (s, w) = { result, world := (s', w'), log := l }) :
    Quiet { machine := M, state := s' } := by
  intro calls o ho
  have hlater := fun hmem => h ((x, w) :: calls) o (List.mem_cons_of_mem _ hmem)
  simp only [offer, hstep] at hlater
  exact hlater ho

theorem QuietAfterAbort.step (h : QuietAfterAbort { machine := M, state := s })
    (hstep : M.step x (s, w) = { result, world := (s', w'), log := l }) :
    QuietAfterAbort { machine := M, state := s' } := by
  intro calls
  have hpairs := (List.pairwise_cons.mp (h ((x, w) :: calls))).2
  simp only [offer, hstep] at hpairs
  exact hpairs

theorem QuietAfterAbort.quiet_of_abort (h : QuietAfterAbort { machine := M, state := s })
    (hstep : M.step x (s, w) = { result := .ok .abort, world := (s', w'), log := l }) :
    Quiet { machine := M, state := s' } := by
  intro calls o ho
  have hfirst := (List.pairwise_cons.mp (h ((x, w) :: calls))).1 o
  simp only [offer, hstep] at hfirst
  exact hfirst ho rfl

end

-- ---------------------------------------------------------------------------
-- Passes
-- ---------------------------------------------------------------------------

variable {M : Machine ω α β} {s : M.State} {w : ω}

theorem QuietAfterAbort.pass (h : QuietAfterAbort { machine := M, state := s }) (xs : List α) :
    QuietAfterAbort { machine := M, state := (feed M.step xs (s, w)).world.1 } := by
  induction xs generalizing s w with
  | nil => exact h
  | cons x xs ih =>
    obtain ⟨e, ⟨s', w'⟩, l, hx⟩ | ⟨⟨s', w'⟩, l, hx⟩ | ⟨r, ⟨s', w'⟩, l, hr, hx⟩ :=
      (M.step x (s, w)).reply_cases
    · rw [feed_cons_of_error hx]
      exact h.step hx
    · rw [feed_cons_of_abort hx]
      exact h.step hx
    · rw [feed_cons_of_ok hx hr]
      exact ih (h.step hx)

/-- After a pass that was aborted nothing comes any more. -/
theorem QuietAfterAbort.of_aborted_pass (h : QuietAfterAbort { machine := M, state := s })
    {xs : List α} (hend : (feed M.step xs (s, w)).ending = .aborted) :
    Quiet { machine := M, state := (feed M.step xs (s, w)).world.1 } := by
  induction xs generalizing s w with
  | nil => cases hend
  | cons x xs ih =>
    obtain ⟨e, ⟨s', w'⟩, l, hx⟩ | ⟨⟨s', w'⟩, l, hx⟩ | ⟨r, ⟨s', w'⟩, l, hr, hx⟩ :=
      (M.step x (s, w)).reply_cases
    · rw [feed_cons_of_error hx] at hend
      cases hend
    · rw [feed_cons_of_abort hx]
      exact h.quiet_of_abort hx
    · rw [feed_cons_of_ok hx hr] at hend ⊢
      exact ih (h.step hx) hend

theorem Quiet.pass_out (h : Quiet { machine := M, state := s }) (xs : List α) :
    (feed M.step xs (s, w)).out = [] := by
  induction xs generalizing s w with
  | nil => rfl
  | cons x xs ih =>
    obtain ⟨e, w', l, hx⟩ | ⟨w', l, hx⟩ | ⟨r, ⟨s', w'⟩, l, hr, hx⟩ :=
      (M.step x (s, w)).reply_cases
    · rw [feed_cons_of_error hx]
    · rw [feed_cons_of_abort hx]
    · rw [feed_cons_of_ok hx hr]
      have hrest := ih (w := w') (h.step hx)
      show r.outputs ++ (feed M.step xs (s', w')).out = []
      rw [hrest, h.outputs_eq_nil hx, List.append_nil]

/-- A process that is quiet after an abort may be handed a further list. If the pass before was
aborted, nothing comes of it. -/
theorem QuietAfterAbort.feed_append (h : QuietAfterAbort { machine := M, state := s })
    {xs ys : List α} (hxs : (feed M.step xs (s, w)).ending.isFailed = false)
    (hys : (feed M.step ys (feed M.step xs (s, w)).world).ending.isFailed = false) :
    (feed M.step (xs ++ ys) (s, w)).out =
      (feed M.step xs (s, w)).out ++ (feed M.step ys (feed M.step xs (s, w)).world).out ∧
    (feed M.step (xs ++ ys) (s, w)).ending.isFailed = false := by
  rw [PlanFusion.feed_append]
  cases hend : (feed M.step xs (s, w)).ending with
  | exhausted =>
    simp only [Pass.andThen, hend, true_and]
    exact hys
  | aborted =>
    have hquiet := h.of_aborted_pass hend
    have hnothing := hquiet.pass_out (w := (feed M.step xs (s, w)).world.2) ys
    simp only [Pass.andThen, hend]
    exact ⟨(List.append_right_eq_self.mpr hnothing).symm, rfl⟩
  | failed e =>
    rw [hend] at hxs
    cases hxs

end Process

-- ---------------------------------------------------------------------------
-- Two machines
-- ---------------------------------------------------------------------------

namespace Machine

variable {L : Machine ω α β} {R : Machine ω β γ}

/-- Two machines in sequence put out what the right one makes of everything that the left one puts
out, whatever the worlds in which each of them is run by itself. The right one does not fail at
that. The left one may fail, but only after the right one has aborted. -/
theorem feed_seq_out (hL : L.Autonomous) (hR : R.Autonomous) (xs : List α) {s : L.State}
    {t : R.State} {w : ω} (hquiet : Process.QuietAfterAbort { machine := R, state := t })
    (hok : (feed (L.seq R).step xs ((s, t), w)).ending.isFailed = false) (w₁ w₂ : ω) :
    (feed (L.seq R).step xs ((s, t), w)).out =
      (feed R.step (feed L.step xs (s, w₁)).out (t, w₂)).out ∧
    (feed R.step (feed L.step xs (s, w₁)).out (t, w₂)).ending.isFailed = false := by
  -- the worlds drift apart, so that the induction is from any three of them
  induction xs generalizing s t w w₁ w₂ with
  | nil => exact ⟨rfl, rfl⟩
  | cons x xs ih =>
    rcases hx : L.step x (s, w) with ⟨_ | r, ⟨s', w'⟩, l⟩
    · rw [feed_cons_of_error (step_seq_of_error hx t)] at hok
      cases hok
    obtain ⟨w₁', hx₁⟩ := hL.step_of_ok hx w₁
    have hseq := step_seq_of_ok (R := R) hx t
    cases r with
    | abort =>
      rw [feed_cons_of_abort hseq, feed_cons_of_abort hx₁]
      exact ⟨rfl, rfl⟩
    | skip =>
      rw [feed_cons_of_ok hseq rfl] at hok ⊢
      rw [feed_cons_of_ok hx₁ rfl]
      exact ih hquiet hok w₁' w₂
    | one y =>
      have hleft : (feed L.step (x :: xs) (s, w₁)).out = y :: (feed L.step xs (s', w₁')).out := by
        rw [feed_cons_of_ok hx₁ rfl]
        rfl
      rw [hleft]
      obtain ⟨e, ⟨t', w''⟩, k, hy⟩ | ⟨⟨t', w''⟩, k, hy⟩ | ⟨q, ⟨t', w''⟩, k, hq, hy⟩ :=
        (R.step y (t, w')).reply_cases
      · simp only [follow, hy] at hseq
        rw [feed_cons_of_error hseq] at hok
        cases hok
      · -- the abort ends both passes, but the left machine may have more to put out
        obtain ⟨w₂', hy₂⟩ := hR.step_of_ok hy w₂
        simp only [follow, hy] at hseq
        rw [feed_cons_of_abort hseq, feed_cons_of_abort hy₂]
        exact ⟨rfl, rfl⟩
      · obtain ⟨w₂', hy₂⟩ := hR.step_of_ok hy w₂
        simp only [follow, hy] at hseq
        rw [feed_cons_of_ok hseq hq] at hok ⊢
        rw [feed_cons_of_ok hy₂ hq]
        obtain ⟨hout, hrest⟩ := ih (hquiet.step hy) hok w₁' w₂'
        exact ⟨congrArg (q.outputs ++ ·) hout, hrest⟩
    | many ys =>
      have hleft : (feed L.step (x :: xs) (s, w₁)).out = ys ++ (feed L.step xs (s', w₁')).out := by
        rw [feed_cons_of_ok hx₁ rfl]
        rfl
      rw [hleft]
      obtain ⟨e, hys⟩ | hys := (feed R.step ys (t, w')).ending.failed_cases
      · rw [follow_many_of_failed hys] at hseq
        rw [feed_cons_of_error hseq] at hok
        cases hok
      · rw [follow_many_of_completed hys] at hseq
        rw [feed_cons_of_ok hseq (Reply.isAbort_ofList _)] at hok ⊢
        obtain ⟨hend, hout, hstate⟩ := hR.feed ys t w' w₂
        have hworld : ((feed R.step ys (t, w')).world.1, (feed R.step ys (t, w₂)).world.2) =
            (feed R.step ys (t, w₂)).world := Prod.ext hstate rfl
        obtain ⟨hrest, hcompleted⟩ := ih (hquiet.pass ys) hok w₁' (feed R.step ys (t, w₂)).world.2
        rw [hworld] at hrest hcompleted
        rw [hend] at hys
        -- a drain of the right machine stops at an abort in `ys`, and loses nothing by that
        obtain ⟨hright, hdone⟩ := hquiet.feed_append hys hcompleted
        refine ⟨?_, hdone⟩
        rw [hright, ← hout, ← hrest]
        exact congrArg (· ++ _) (Reply.outputs_ofList _)

end Machine

end PlanFusion
