import PlanFusion.Proofs.Builder.Meaning

/-!
# PlanFusion — a reduction is a loop

A reduction never loops itself. It puts an absorbing operator behind a copy of the plan, runs the
copy, and looks into the slot. What comes of this is what the plain loop does that starts the plan
of the builder, hands it one element after the other, and combines the outputs of each reply before
the next element: the same accumulator, the same calls in the same order, the same failure, and as
many elements.

The absorbing operator keeps the slot filled between any two of its calls, and only a failure leaves
it empty. It answers every element with a skip. So a single output, an expansion and a missing
output all come to the same for the pass, which goes on, and an abort can only come from the plan.

* `foldSteps_cons_of_error`, …, `foldSteps_cons_of_fold_ok` — the ways one element of the loop can
  go;
* `absorber`, `follow_absorber` — what the absorbing operator makes of one reply;
* `Absorbs`, `feed_absorber` — a pass with the absorbing operator against the loop of a machine;
* `absorbs_pass` — the same for a plan, from its start;
* `foldSteps_pure`, `foldOutputs_pure` — the loop of a function folds the outputs of the pass;
* `Builder.reduce_eq`, `Builder.reduce_eq_loop` — reductions.
-/

namespace PlanFusion

variable {ω σ τ α β γ κ : Type}

-- ---------------------------------------------------------------------------
-- The loop
-- ---------------------------------------------------------------------------

namespace Reduction

/-- The same reduction seen in another world. -/
def mapWorld (g : ω → τ) (r : Reduction ω κ) : Reduction τ κ where
  result := r.result
  world := g r.world
  log := r.log
  pulled := r.pulled

/-- The reduction that first hands out one element, while `records` are logged. -/
def afterElement (r : Reduction ω κ) (records : List Record) : Reduction ω κ :=
  { r with log := records ++ r.log, pulled := r.pulled + 1 }

end Reduction

section Loop

variable {step : α → Action ω (Reply β)} {f : κ → β → Action ω κ} {acc acc' : κ} {x : α}
  {xs : List α} {e : Failure} {r : Reply β} {w w' w'' : ω} {l l' : List Record}

theorem foldSteps_cons_of_error (h : step x w = { result := .error e, world := w', log := l }) :
    foldSteps step f acc (x :: xs) w =
      { result := .error e, world := w', log := l, pulled := 1 } := by
  simp [foldSteps, h]

theorem foldSteps_cons_of_abort (h : step x w = { result := .ok .abort, world := w', log := l }) :
    foldSteps step f acc (x :: xs) w =
      { result := .ok acc, world := w', log := l, pulled := 1 } := by
  simp [foldSteps, h]

theorem foldSteps_cons_of_fold_error (h : step x w = { result := .ok r, world := w', log := l })
    (hr : r.isAbort = false)
    (hf : foldAction f acc r.outputs w' = { result := .error e, world := w'', log := l' }) :
    foldSteps step f acc (x :: xs) w =
      { result := .error e, world := w'', log := l ++ l', pulled := 1 } := by
  cases r with
  | abort => cases hr
  | one | many | skip => simp [foldSteps, h, hf]

theorem foldSteps_cons_of_fold_ok (h : step x w = { result := .ok r, world := w', log := l })
    (hr : r.isAbort = false)
    (hf : foldAction f acc r.outputs w' = { result := .ok acc', world := w'', log := l' }) :
    foldSteps step f acc (x :: xs) w =
      (foldSteps step f acc' xs w'').afterElement (l ++ l') := by
  cases r with
  | abort => cases hr
  | one | many | skip => simp [foldSteps, h, hf, Reduction.afterElement]

end Loop

/-- To combine with a function is to fold. -/
theorem foldAction_pure (f : κ → β → κ) (acc : κ) (ys : List β) :
    foldAction (fun acc y => (pure (f acc y) : Action ω κ)) acc ys = pure (ys.foldl f acc) := by
  induction ys generalizing acc with
  | nil => rfl
  | cons y ys ih => rw [foldAction, pure_bind, ih, List.foldl_cons]

/-- To combine in one component of the world leaves the other one alone. -/
theorem foldAction_onSecond (f : κ → β → Action ω κ) (acc : κ) (ys : List β) :
    foldAction (fun acc y => ((f acc y).onSecond : Action (σ × ω) κ)) acc ys =
      (foldAction f acc ys).onSecond := by
  induction ys generalizing acc with
  | nil => rfl
  | cons y ys ih =>
    simp only [foldAction, Action.onSecond_bind]
    exact bind_congr fun acc' => ih acc'

-- ---------------------------------------------------------------------------
-- The absorbing operator
-- ---------------------------------------------------------------------------

/-- The outcome whose value went into the slot and which gives `y` in its place. A failure leaves
the slot empty. -/
def Outcome.stored (y : γ) (o : Outcome ω κ) : Outcome (ω × Option κ) γ where
  result := o.result.map fun _ => y
  world := (o.world, o.result.toOption)
  log := o.log

/-- With a filled slot, absorbing an element is combining it. -/
theorem absorb_some (f : κ → β → Action ω κ) (y : β) (w : ω) (acc : κ) :
    absorb f y (w, some acc) = (f acc y w).stored none := by
  rcases h : f acc y w with ⟨e | acc', w', l⟩
  · simp only [absorb, h]
    rfl
  · simp only [absorb, h]
    rfl

/-- The machine of the absorbing operator. -/
def absorber (f : κ → β → Action ω κ) : Machine (ω × Option κ) β Empty :=
  (Operator.filterMap (absorb f)).machine

theorem step_absorber (f : κ → β → Action ω κ) (y : β) (u : (absorber f).State) (w : ω) (acc : κ) :
    (absorber f).step y (u, (w, some acc)) =
      ((f acc y w).stored .skip).mapWorld fun v => (u, v) := by
  have habsorb := absorb_some f y w acc
  show (.ofOption <$> absorb f y : Action (ω × Option κ) (Reply Empty)).onSecond
    (u, (w, some acc)) = _
  simp only [Action.onSecond_apply, Action.map_apply, habsorb]
  rcases f acc y w with ⟨e | acc', w', l⟩
  · rfl
  · rfl

/-- A pass of the absorbing operator combines the whole list and puts out nothing. -/
theorem collect_absorber (f : κ → β → Action ω κ) (ys : List β) (u : (absorber f).State) (w : ω)
    (acc : κ) :
    (absorber f).collect ys (u, (w, some acc)) =
      ((foldAction f acc ys w).stored []).mapWorld fun v => (u, v) := by
  unfold Machine.collect
  induction ys generalizing w acc with
  | nil => rfl
  | cons y ys ih =>
    have hstep := step_absorber f y u w acc
    rcases hf : f acc y w with ⟨e | acc', w', l⟩
    · rw [hf] at hstep
      rw [feed_cons_of_error hstep, foldAction, Action.bind_of_error hf]
      rfl
    · rw [hf] at hstep
      have hrest := ih w' acc'
      rw [feed_cons_of_ok hstep rfl, foldAction, Action.bind_of_ok hf]
      exact congrArg (fun o => o.after l) hrest

/-- Whatever a reply puts out is combined, and all that is left of it is a skip. -/
theorem follow_absorber (f : κ → β → Action ω κ) {r : Reply β} (hr : r.isAbort = false)
    (u : (absorber f).State) (w : ω) (acc : κ) :
    (absorber f).follow r (u, (w, some acc)) =
      ((foldAction f acc r.outputs w).stored .skip).mapWorld fun v => (u, v) := by
  cases r with
  | one y =>
    have hone : foldAction f acc [y] = f acc y := bind_pure (f acc y)
    show (absorber f).step y (u, (w, some acc)) = _
    rw [step_absorber]
    show _ = ((foldAction f acc [y] w).stored Reply.skip).mapWorld fun v => (u, v)
    rw [hone]
  | many ys =>
    rw [Machine.follow_many, Action.map_apply, collect_absorber]
    show _ = ((foldAction f acc ys w).stored Reply.skip).mapWorld fun v => (u, v)
    rcases foldAction f acc ys w with ⟨e | acc', w', l⟩
    · rfl
    · rfl
  | skip => rfl
  | abort => cases hr

/-- With the absorbing operator behind it, a machine answers with a skip where it would have put
something out. -/
theorem step_seq_absorber (f : κ → β → Action ω κ) {L : Machine (ω × Option κ) α β} {x : α}
    {s s' : L.State} {w w' : ω} {acc : κ} {r : Reply β} {l : List Record}
    (h : L.step x (s, (w, some acc)) =
      { result := .ok r, world := (s', (w', some acc)), log := l })
    (hr : r.isAbort = false) (u : (absorber f).State) :
    (L.seq (absorber f)).step x ((s, u), (w, some acc)) =
      (((foldAction f acc r.outputs w').stored .skip).mapWorld fun v => ((s', u), v)).after l := by
  rw [Machine.step_seq_of_ok h, follow_absorber f hr]
  rfl

theorem step_seq_absorber_of_abort (f : κ → β → Action ω κ) {L : Machine (ω × Option κ) α β} {x : α}
    {s s' : L.State} {v v' : ω × Option κ} {l : List Record}
    (h : L.step x (s, v) = { result := .ok .abort, world := (s', v'), log := l })
    (u : (absorber f).State) :
    (L.seq (absorber f)).step x ((s, u), v) =
      { result := .ok .abort, world := ((s', u), v'), log := l } := by
  rw [Machine.step_seq_of_ok h]
  exact Outcome.ext rfl rfl (List.append_nil l)

-- ---------------------------------------------------------------------------
-- The absorbing plan
-- ---------------------------------------------------------------------------

/-- The pass of an absorbing plan does what the loop does: both fail in the same way or not at all,
and if not, the slot holds the accumulator of the loop. -/
structure Absorbs (pass : Pass (ω × Option κ) Empty) (loop : Reduction ω κ) : Prop where
  ending : ∀ e, pass.ending = .failed e ↔ loop.result = .error e
  world : pass.world.1 = loop.world
  slot : ∀ acc, loop.result = .ok acc → pass.world.2 = some acc
  log : pass.log = loop.log
  pulled : pass.pulled = loop.pulled

namespace Absorbs

variable {pass : Pass (ω × Option κ) Empty} {loop : Reduction ω κ}

theorem of_failed (e : Failure) (v : ω × Option κ) (l : List Record) (n : Nat) :
    Absorbs { ending := .failed e, world := v, log := l, pulled := n }
      { result := .error e, world := v.1, log := l, pulled := n } where
  ending := fun e' => by rw [Ending.failed.injEq, Except.error.injEq]
  world := rfl
  slot := nofun
  log := rfl
  pulled := rfl

theorem of_filled {ending : Ending} (h : ending.isFailed = false) (w : ω) (acc : κ)
    (l : List Record) (n : Nat) :
    Absorbs { ending, world := (w, some acc), log := l, pulled := n }
      { result := .ok acc, world := w, log := l, pulled := n } where
  ending := by
    rintro e
    constructor
    · rintro rfl
      cases h
    · nofun
  world := rfl
  slot := by
    rintro acc' ⟨⟩
    rfl
  log := rfl
  pulled := rfl

theorem afterReply (h : Absorbs pass loop) (r : Reply Empty) (l : List Record) :
    Absorbs (pass.afterReply r l) (loop.afterElement l) where
  ending := h.ending
  world := h.world
  slot := h.slot
  log := congrArg (l ++ ·) h.log
  pulled := congrArg (· + 1) h.pulled

/-- The same records may be logged around both. -/
theorem surround (h : Absorbs pass loop) (before behind : List Record) :
    Absorbs { pass with log := before ++ pass.log ++ behind }
      { loop with log := before ++ loop.log ++ behind } where
  ending := h.ending
  world := h.world
  slot := h.slot
  log := by rw [h.log]
  pulled := h.pulled

/-- Looking into the slot afterwards gives what the loop has. The slot is never found empty without
a failure. -/
theorem ofPass_eq (h : Absorbs pass loop) : Reduction.ofPass pass = loop := by
  obtain ⟨ending, ⟨w, slot⟩, log, out, pulled, expansions⟩ := pass
  obtain ⟨result, w', log', pulled'⟩ := loop
  obtain ⟨hending, hworld, hslot, hlog, hpulled⟩ := h
  dsimp only at hending hworld hslot hlog hpulled
  subst hworld hlog hpulled
  cases result with
  | error e =>
    rw [(hending e).mpr rfl]
    rfl
  | ok acc =>
    rw [hslot acc rfl]
    cases ending with
    | failed e => cases (hending e).mp rfl
    | exhausted | aborted => rfl

end Absorbs

/-- In front of the absorbing operator stands a machine that answers as `M`, whatever the slot
holds, and leaves the slot alone. A pass of the two is the loop of `M`. -/
theorem feed_absorber (f : κ → β → Action ω κ) {L : Machine (ω × Option κ) α β}
    {M : Machine ω α β} {S : L.State → M.State → Prop}
    (hL : ∀ slot, Machine.Bisim (Holding slot) L M S) (xs : List α) {s : L.State} {t : M.State}
    (hst : S s t) (u : (absorber f).State) (w : ω) (acc : κ) :
    Absorbs ((feed (L.seq (absorber f)).step xs ((s, u), (w, some acc))).mapWorld Prod.snd)
      ((foldSteps M.step (fun acc y => (f acc y).onSecond) acc xs (t, w)).mapWorld Prod.snd) := by
  -- induction on the elements; the slot is filled before each of them, with the accumulator so far
  induction xs generalizing s t w acc with
  | nil => exact .of_filled rfl w acc [] 0
  | cons x xs ih =>
    obtain ⟨e, ⟨s', v⟩, ⟨t', w'⟩, l, ⟨hst', hv⟩, hl, hm⟩ |
      ⟨r, r', ⟨s', v⟩, ⟨t', w'⟩, l, hr, ⟨hst', hv⟩, hl, hm⟩ :=
      (hL (some acc) x (s, (w, some acc)) (t, w) ⟨hst, rfl⟩).result_cases
    · rw [feed_cons_of_error (Machine.step_seq_of_error hl u), foldSteps_cons_of_error hm]
      cases hv
      exact .of_failed e (w', some acc) l 1
    · cases hv
      subst hr
      by_cases habort : r = .abort
      · subst habort
        rw [feed_cons_of_abort (step_seq_absorber_of_abort f hl u), foldSteps_cons_of_abort hm]
        exact .of_filled rfl w' acc l 1
      · have hgoes := Reply.isAbort_of_ne habort
        have hstep := step_seq_absorber f hl hgoes u
        have hfold := congrFun (foldAction_onSecond (σ := M.State) f acc r.outputs) (t', w')
        rcases hf : foldAction f acc r.outputs w' with ⟨e | acc', w'', l'⟩
        · simp only [Action.onSecond_apply, hf] at hfold hstep
          rw [feed_cons_of_error hstep, foldSteps_cons_of_fold_error hm hgoes hfold]
          exact .of_failed e (w'', none) (l ++ l') 1
        · simp only [Action.onSecond_apply, hf] at hfold hstep
          rw [feed_cons_of_ok hstep rfl, foldSteps_cons_of_fold_ok hm hgoes hfold]
          exact (ih hst' w'' acc').afterReply .skip (l ++ l')

/-- A plan with the absorbing operator behind it starts and runs as the loop does. -/
theorem absorbs_pass (p : Plan (Action ω) α β) (xs : List α) (acc : κ) (f : κ → β → Action ω κ)
    (w : ω) :
    Absorbs ((Plan.seq p.widen (.operator (.filterMap (absorb f)))).pass xs (w, some acc))
      (p.foldOutputs xs acc f w) := by
  obtain ⟨e, v, w', l, hv, hwide, hp⟩ | ⟨s, t, v, w', l, hst, hv, hwide, hp⟩ :=
    (p.start_widen (some acc) (w, some acc) w rfl).result_cases
  · cases hv
    have hstart : (Plan.seq p.widen (.operator (.filterMap (absorb f)))).start (w, some acc) =
        { result := .error e, world := (w', some acc), log := l } := Action.bind_of_error hwide _
    simp only [Plan.pass, hstart, Plan.foldOutputs, hp]
    exact .of_failed e (w', some acc) l 0
  · cases hv
    have hstart : (Plan.seq p.widen (.operator (.filterMap (absorb f)))).start (w, some acc) =
        { result := .ok (s, ()), world := (w', some acc), log := l } := by
      refine (Action.bind_of_ok hwide _).trans ?_
      exact Outcome.ext rfl rfl (List.append_nil l)
    simp only [Plan.pass, hstart, Plan.foldOutputs, hp]
    have hfeed := feed_absorber f p.bisim_widen xs hst () w' acc
    have hafter := hfeed.surround l []
    simp only [List.append_nil] at hafter
    exact hafter

-- ---------------------------------------------------------------------------
-- Functions
-- ---------------------------------------------------------------------------

/-- The outputs of a pass folded at its end, if it did not fail. -/
def Pass.folded (f : κ → β → κ) (acc : κ) (p : Pass ω β) : Reduction ω κ where
  result := p.toOutcome.result.map (List.foldl f acc)
  world := p.world
  log := p.log
  pulled := p.pulled

theorem Pass.folded_afterReply (f : κ → β → κ) (acc : κ) (p : Pass ω β) (r : Reply β)
    (l : List Record) :
    (p.afterReply r l).folded f acc = (p.folded f (r.outputs.foldl f acc)).afterElement l := by
  obtain ⟨ending, w, log, out, pulled, expansions⟩ := p
  cases ending with
  | failed e => rfl
  | exhausted | aborted =>
    simp only [folded, toOutcome, afterReply, Except.map, List.foldl_append,
      Reduction.afterElement]

/-- To combine with a function after each reply is to fold all outputs at the end. -/
theorem foldSteps_pure (step : α → Action ω (Reply β)) (f : κ → β → κ) (acc : κ) (xs : List α)
    (w : ω) :
    foldSteps step (fun acc y => pure (f acc y)) acc xs w = (feed step xs w).folded f acc := by
  induction xs generalizing acc w with
  | nil => rfl
  | cons x xs ih =>
    obtain ⟨e, w', l, h⟩ | ⟨w', l, h⟩ | ⟨r, w', l, hr, h⟩ := (step x w).reply_cases
    · rw [foldSteps_cons_of_error h, feed_cons_of_error h]
      rfl
    · rw [foldSteps_cons_of_abort h, feed_cons_of_abort h]
      rfl
    · have hf : foldAction (fun acc y => pure (f acc y)) acc r.outputs w' =
          { result := .ok (r.outputs.foldl f acc), world := w' } := by
        rw [foldAction_pure]
        rfl
      rw [foldSteps_cons_of_fold_ok h hr hf, feed_cons_of_ok h hr, ih, Pass.folded_afterReply,
        List.append_nil]

theorem foldOutputs_pure (p : Plan (Action ω) α β) (xs : List α) (acc : κ) (f : κ → β → κ)
    (w : ω) :
    p.foldOutputs xs acc (fun acc y => pure (f acc y)) w = (p.pass xs w).folded f acc := by
  rcases h : p.start w with ⟨e | s, w', l⟩
  · simp only [Plan.foldOutputs, Plan.pass, h]
    rfl
  · simp only [Plan.foldOutputs, Plan.pass, h, Action.onSecond, Action.on_pure]
    rw [foldSteps_pure]
    rfl

-- ---------------------------------------------------------------------------
-- Reductions
-- ---------------------------------------------------------------------------

/-- A reduction is the loop, whatever became of the copy of the plan. Only the log shows the copy:
it begins with the records of growing it and ends with the record of running it. -/
theorem Builder.reduce_eq (b : Builder (Action ω) α β) (xs : List α) (acc : κ)
    (f : κ → β → Action ω κ) (w : ω) :
    b.reduce xs acc f w =
      { b.plan.foldOutputs xs acc f w with
        log := (b.widen.filterMap (absorb f)).log ++ (b.plan.foldOutputs xs acc f w).log ++
          (b.widen.filterMap (absorb f)).value.plan.report xs (w, some acc) } := by
  have hpass : (b.widen.filterMap (absorb f)).value.plan.pass xs (w, some acc) =
      (Plan.seq b.plan.widen (.operator (.filterMap (absorb f)))).pass xs (w, some acc) :=
    (b.widen.append_alike _).pass_eq xs (w, some acc)
  have habsorbs := absorbs_pass b.plan xs acc f w
  rw [← hpass] at habsorbs
  rw [← (habsorbs.surround (b.widen.filterMap (absorb f)).log
    ((b.widen.filterMap (absorb f)).value.plan.report xs (w, some acc))).ofPass_eq]
  show Reduction.ofPass (((b.widen.filterMap (absorb f)).value.plan.run xs (w, some acc)).after
    (b.widen.filterMap (absorb f)).log) = _
  rw [Plan.run_eq, List.append_assoc]
  rfl

/-- **A reduction is a loop.** It starts the plan of the builder, hands it one element after the
other until it aborts, and combines the outputs of each reply before the next element: with the same
result or the same failure, the same world, and as many elements handed out. The log differs from
that of the loop by what is logged about the copy of the plan. If all callables are functions, the
result is the list that a run gives, folded from the left, and a run is handed as many elements. -/
theorem Builder.reduce_eq_loop :
    (∀ (b : Builder (Action ω) α β) (xs : List α) (acc : κ) (f : κ → β → Action ω κ) (w : ω),
      b.reduce xs acc f w =
        { b.plan.foldOutputs xs acc f w with
          log := (b.widen.filterMap (absorb f)).log ++ (b.plan.foldOutputs xs acc f w).log ++
            (b.widen.filterMap (absorb f)).value.plan.report xs (w, some acc) }) ∧
    (∀ (b : Builder Id α β) (xs : List α) (acc : κ) (f : κ → β → κ) (w : ω),
      (b.lift.reduce xs acc (fun acc y => pure (f acc y)) w).result =
        .ok ((b.lift.run xs w).out.foldl f acc) ∧
      (b.lift.reduce xs acc (fun acc y => pure (f acc y)) w).world = w ∧
      (b.lift.reduce xs acc (fun acc y => pure (f acc y)) w).pulled =
        (b.lift.run xs w).pulled) := by
  refine ⟨Builder.reduce_eq, ?_⟩
  intro b xs acc f w
  obtain ⟨hending, hworld, -⟩ := b.plan.pass_gives xs w
  have hrun : b.lift.run xs w = b.plan.lift.run xs w := rfl
  have hloop : b.lift.plan.foldOutputs xs acc (fun acc y => pure (f acc y)) w =
    (b.plan.lift.pass xs w).folded f acc := foldOutputs_pure b.plan.lift xs acc f w
  rw [Builder.reduce_eq, hloop, hrun, Plan.run_eq]
  refine ⟨?_, hworld, rfl⟩
  show (b.plan.lift.pass xs w).toOutcome.result.map (List.foldl f acc) = _
  rw [Pass.toOutcome_result hending]
  rfl

end PlanFusion
