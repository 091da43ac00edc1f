import PlanFusion.Proofs.Machine.Closing

/-!
# PlanFusion — machines without effects

A *transducer* is what is left of a machine whose callables are functions: a reply and a next state
for each state and element, and no world, no log and no failure. A machine that runs a transducer
does nothing else, so that what is proved of the transducer holds of the machine in every world.

For transducers the order in which two of them work does not matter, and this is where sequencing
meets composition:

* `Machine.Runs`, `runs_seq` — which machine runs which transducer;
* `feed_of_runs` — a pass of the machine is a pass of the transducer;
* `Runs.bisim` — machines are told apart by their transducers only;
* `pass_seq` — the pass of two transducers in sequence puts out what the right one makes of all
  outputs of the left one. The right one has to close. The states at the end are the same too,
  except that a closed right one may have gone on to another closed state.
-/

namespace PlanFusion

/-- A reply and a next state for each state and element. -/
structure Transducer (σ α β : Type) where
  next : σ → α → Reply β × σ

namespace Transducer

variable {σ τ α β γ : Type}

/-- The transducer as a step that changes nothing but the state. -/
def act (T : Transducer σ α β) (x : α) : Action σ (Reply β) := fun s =>
  { result := .ok (T.next s x).1, world := (T.next s x).2 }

/-- Hand the elements of a list to the transducer until one of them ends the pass. -/
def pass (T : Transducer σ α β) (s : σ) (xs : List α) : Pass σ β :=
  feed T.act xs s

/-- Two transducers in sequence. -/
def seq (T : Transducer σ α β) (U : Transducer τ β γ) : Transducer (σ × τ) α γ where
  next := fun (s, t) x =>
    match T.next s x with
    | (.one y, s') => ((U.next t y).1, (s', (U.next t y).2))
    | (.many ys, s') => (.ofList (U.pass t ys).out, (s', (U.pass t ys).world))
    | (.skip, s') => (.skip, (s', t))
    | (.abort, s') => (.abort, (s', t))

variable {T : Transducer σ α β} {U : Transducer τ β γ} {s s' : σ} {x : α} {xs : List α}

-- ---------------------------------------------------------------------------
-- Passes
-- ---------------------------------------------------------------------------

theorem pass_cons_of_abort (h : T.next s x = (.abort, s')) :
    T.pass s (x :: xs) = { ending := .aborted, world := s', pulled := 1 } := by
  have hact : T.act x s = { result := .ok .abort, world := s' } := by
    rw [act, h]
  exact feed_cons_of_abort hact

theorem pass_cons {r : Reply β} (h : T.next s x = (r, s')) (hr : r.isAbort = false) :
    T.pass s (x :: xs) = (T.pass s' xs).afterReply r [] := by
  have hact : T.act x s = { result := .ok r, world := s' } := by
    rw [act, h]
  exact feed_cons_of_ok hact hr

/-- A pass of a transducer does not fail and logs nothing. -/
theorem pass_unfailing (T : Transducer σ α β) (s : σ) (xs : List α) :
    (T.pass s xs).ending.isFailed = false ∧ (T.pass s xs).log = [] := by
  induction xs generalizing s with
  | nil => exact ⟨rfl, rfl⟩
  | cons x xs ih =>
    rcases h : T.next s x with ⟨r, s'⟩
    by_cases hr : r = .abort
    · subst hr
      rw [pass_cons_of_abort h]
      exact ⟨rfl, rfl⟩
    · rw [pass_cons h (Reply.isAbort_of_ne hr)]
      exact ih s'

theorem pass_toOutcome (T : Transducer σ α β) (s : σ) (xs : List α) :
    (T.pass s xs).toOutcome =
      { result := .ok (T.pass s xs).out, world := (T.pass s xs).world } := by
  obtain ⟨hend, hlog⟩ := T.pass_unfailing s xs
  exact Outcome.ext (Pass.toOutcome_result hend) rfl hlog

-- ---------------------------------------------------------------------------
-- Sequencing
-- ---------------------------------------------------------------------------

/-- How a pass `p` of two transducers in sequence compares with a pass `l` of the left one and a
pass `r` of the right one over all outputs of the left one. -/
structure Composes (E : τ → Prop) (p : Pass (σ × τ) γ) (l : Pass σ β) (r : Pass τ γ) : Prop where
  out : p.out = r.out
  /-- The same states, or a right one that is closed both times. -/
  world : p.world = (l.world, r.world) ∨ E p.world.2 ∧ E r.world

/-- **Sequencing is composition.** -/
theorem pass_seq {E : τ → Prop} (hU : Closes U.act E) (xs : List α) (s : σ) (t : τ) :
    Composes E ((T.seq U).pass (s, t) xs) (T.pass s xs) (U.pass t (T.pass s xs).out) := by
  induction xs generalizing s t with
  | nil => exact ⟨rfl, .inl rfl⟩
  | cons x xs ih =>
    rcases hT : T.next s x with ⟨r, s'⟩
    cases r with
    | abort =>
      have hseq : (T.seq U).next (s, t) x = (.abort, (s', t)) := by simp only [seq, hT]
      rw [pass_cons_of_abort hseq, pass_cons_of_abort hT]
      exact ⟨rfl, .inl rfl⟩
    | skip =>
      have hseq : (T.seq U).next (s, t) x = (.skip, (s', t)) := by simp only [seq, hT]
      rw [pass_cons hseq rfl, pass_cons hT rfl]
      exact ⟨(ih s' t).out, (ih s' t).world⟩
    | one y =>
      rcases hy : U.next t y with ⟨q, t'⟩
      have hseq : (T.seq U).next (s, t) x = (q, (s', t')) := by simp only [seq, hT, hy]
      rw [pass_cons hT rfl]
      show Composes E _ _ (U.pass t (y :: (T.pass s' xs).out))
      by_cases hq : q = .abort
      · -- the abort ends both passes, but the left transducer may have more to put out
        subst hq
        have habort := hU.abort y t
        simp only [act, hy] at habort
        have hclosed : E t' := habort trivial
        rw [pass_cons_of_abort hseq, pass_cons_of_abort hy]
        exact ⟨rfl, .inr ⟨hclosed, hclosed⟩⟩
      · have hgoes := Reply.isAbort_of_ne hq
        rw [pass_cons hseq hgoes, pass_cons hy hgoes]
        exact ⟨congrArg (q.outputs ++ ·) (ih s' t').out, (ih s' t').world⟩
    | many ys =>
      have hseq : (T.seq U).next (s, t) x =
          (.ofList (U.pass t ys).out, (s', (U.pass t ys).world)) := by simp only [seq, hT]
      rw [pass_cons hseq (Reply.isAbort_ofList _), pass_cons hT rfl]
      obtain ⟨hout, hworld⟩ := ih s' (U.pass t ys).world
      have hsplit : U.pass t (ys ++ (T.pass s' xs).out) =
          (U.pass t ys).andThen fun t' => U.pass t' (T.pass s' xs).out :=
        feed_append U.act ys (T.pass s' xs).out t
      show Composes E _ _ (U.pass t (ys ++ (T.pass s' xs).out))
      rw [hsplit]
      cases hend : (U.pass t ys).ending with
      | exhausted =>
        simp only [Pass.andThen, hend]
        refine ⟨?_, hworld⟩
        show (Reply.ofList (U.pass t ys).out).outputs ++ _ = (U.pass t ys).out ++ _
        rw [hout, Reply.outputs_ofList]
      | failed e =>
        have hunfailing := (U.pass_unfailing t ys).1
        rw [hend] at hunfailing
        cases hunfailing
      | aborted =>
        -- the expansion was cut short, and what comes after it is lost on the right transducer
        have hclosed : E (U.pass t ys).world := feed_closed hU ys hend
        obtain ⟨hnothing, hstays⟩ := feed_quiet hU (T.pass s' xs).out hclosed
        have hrest : (U.pass (U.pass t ys).world (T.pass s' xs).out).out = [] := hnothing
        simp only [Pass.andThen, hend]
        refine ⟨?_, .inr ⟨?_, hclosed⟩⟩
        · show (Reply.ofList (U.pass t ys).out).outputs ++ _ = (U.pass t ys).out
          rw [hout, hrest, Reply.outputs_ofList, List.append_nil]
        · show E ((T.seq U).pass (s', (U.pass t ys).world) xs).world.2
          rcases hworld with heq | ⟨hleft, -⟩
          · rw [heq]
            exact hstays
          · exact hleft

end Transducer

-- ---------------------------------------------------------------------------
-- Machines that run transducers
-- ---------------------------------------------------------------------------

namespace Machine

variable {ω α β γ : Type}

/-- The machine does what the transducer says and nothing else. -/
def Runs (M : Machine ω α β) (T : Transducer M.State α β) : Prop :=
  ∀ x, M.step x = (T.act x).onFirst

theorem Runs.step_eq {M : Machine ω α β} {T : Transducer M.State α β} (h : M.Runs T) (x : α)
    (s : M.State) (w : ω) :
    M.step x (s, w) = { result := .ok (T.next s x).1, world := ((T.next s x).2, w) } := by
  rw [h x]
  rfl

theorem feed_of_runs {M : Machine ω α β} {T : Transducer M.State α β} (h : M.Runs T)
    (xs : List α) (s : M.State) (w : ω) :
    feed M.step xs (s, w) = (T.pass s xs).mapWorld fun s' => (s', w) := by
  rw [funext h]
  exact feed_onFirst T.act xs s w

theorem runs_seq {L : Machine ω α β} {R : Machine ω β γ} {T : Transducer L.State α β}
    {U : Transducer R.State β γ} (hL : L.Runs T) (hR : R.Runs U) : (L.seq R).Runs (T.seq U) := by
  intro x
  refine funext fun v => ?_
  obtain ⟨⟨s, t⟩, w⟩ := v
  rcases hT : T.next s x with ⟨r, s'⟩
  have hstep := hL.step_eq x s w
  rw [hT] at hstep
  rw [step_seq_of_ok hstep]
  cases r with
  | one y =>
    simp only [follow, hR.step_eq, Action.onFirst_apply, Transducer.act, Transducer.seq, hT]
    rfl
  | many ys =>
    rw [follow_many, Action.map_apply]
    have hcollect : R.collect ys (t, w) =
        { result := .ok (U.pass t ys).out, world := ((U.pass t ys).world, w) } := by
      unfold collect
      rw [feed_of_runs hR]
      have houtcome := U.pass_toOutcome t ys
      exact congrArg (Outcome.mapWorld fun t' => (t', w)) houtcome
    simp only [hcollect, Action.onFirst_apply, Transducer.act, Transducer.seq, hT]
    rfl
  | skip =>
    simp only [follow, Action.onFirst_apply, Transducer.act, Transducer.seq, hT]
    rfl
  | abort =>
    simp only [follow, Action.onFirst_apply, Transducer.act, Transducer.seq, hT]
    rfl

/-- Machines answer alike if their transducers do, in whatever worlds. -/
theorem Runs.bisim {τ : Type} {M : Machine ω α β} {N : Machine τ α β}
    {T : Transducer M.State α β} {U : Transducer N.State α β} (hM : M.Runs T) (hN : N.Runs U)
    {W : ω → τ → Prop} {S : M.State → N.State → Prop}
    (h : ∀ x s t, S s t → (T.next s x).1 = (U.next t x).1 ∧ S (T.next s x).2 (U.next t x).2) :
    Bisim W M N S := by
  rintro x ⟨s, w⟩ ⟨t, v⟩ ⟨hst, hwv⟩
  obtain ⟨hreply, hstate⟩ := h x s t hst
  rw [hM.step_eq, hN.step_eq, hreply]
  exact ⟨.ok rfl, ⟨hstate, hwv⟩, rfl⟩

/-- A transducer closes where its machine does. -/
theorem Runs.closes {M : Machine ω α β} {T : Transducer M.State α β} (h : M.Runs T)
    {D : M.State → Prop} (hM : Closes M.step fun v => D v.1) (w : ω) : Closes T.act D where
  quiet := by
    intro x s r hs hr
    refine hM.quiet x (s, w) r hs ?_
    rw [h.step_eq]
    exact hr
  stays := by
    intro x s hs
    have hstays := hM.stays x (s, w) hs
    rw [h.step_eq] at hstays
    exact hstays
  abort := by
    intro x s hr
    have habort := hM.abort x (s, w)
    rw [h.step_eq] at habort
    exact habort hr

end Machine

end PlanFusion
