import PlanFusion.Builder.Recipe
import PlanFusion.Builder.Reduce
import PlanFusion.Proofs.Plan.Transparency
import PlanFusion.Proofs.Plan.Widening

/-!
# PlanFusion — fusion modes cannot be observed

With fusion enabled a builder rewrites its whole plan twice at every addition. With fusion disabled
it never does. The mode may change at any moment, also in the builders that are merged into it, and
a request to fuse may come at any moment too. None of this can be observed in what the plan does.

* `Builder.append_alike` — in either mode, to grow is to put two plans in sequence;
* `Recipe.build_alike` — the builder of a recipe is alike the plan in which nothing is fused;
* `Recipe.plain_additions` — that plan does not depend on modes and requests to fuse;
* `Builder.reduce_congr` — a reduction cannot tell alike plans apart;
* `Recipe.modes_unobservable` — all of it together.
-/

namespace PlanFusion

variable {ω κ α β γ : Type}

namespace Builder

/-- To grow is to put two plans in sequence, whatever the mode. -/
theorem append_alike (b : Builder (Action ω) α β) (next : Plan (Action ω) β γ) :
    (b.append next).value.plan.Alike (.seq b.plan next) := by
  unfold append
  cases b.mode with
  | enabled =>
    -- The joined sides are normal already, but the plan is fused once more as a whole.
    have hjoined := Plan.joinNormalized_alike b.plan next
    have hwhole := Plan.normalize_alike (b.plan.joinNormalized next).value
    exact hwhole.trans hjoined
  | disabled => exact Plan.Alike.refl (.seq b.plan next)

/-- A larger world shows nothing new, and the operator that absorbs the outputs is the same behind
both plans. -/
theorem absorbing_alike {b c : Builder (Action ω) α β} (h : b.plan.Alike c.plan)
    (f : κ → β → Action ω κ) :
    (b.widen.filterMap (absorb f)).value.plan.Alike
      (c.widen.filterMap (absorb f)).value.plan := by
  have hwiden : b.widen.plan.Alike (c.widen : Builder (Action (ω × Option κ)) α β).plan := h.widen
  calc (b.widen.filterMap (absorb f)).value.plan
    Plan.Alike _ (.seq b.widen.plan (.operator (.filterMap (absorb f)))) := append_alike b.widen _
    Plan.Alike _ (.seq c.widen.plan (.operator (.filterMap (absorb f)))) :=
      Plan.alike_seq hwiden (Plan.Alike.refl _)
    Plan.Alike _ (c.widen.filterMap (absorb f)).value.plan := (append_alike c.widen _).symm

end Builder

/-- What is logged before a pass shows in its log and nowhere else. -/
theorem Pass.after_congr {p q : Pass ω β} (h : p = { q with log := p.log }) (l l' : List Record) :
    p.after l = { q.after l' with log := (p.after l).log } := by
  rw [h]
  rfl

/-- The log of a pass shows in the log of a reduction and nowhere else. -/
theorem Reduction.ofPass_congr {p q : Pass (ω × Option κ) Empty} (h : p = { q with log := p.log }) :
    ofPass p = { ofPass q with log := (ofPass p).log } := by
  rw [h]
  generalize p.log = l
  obtain ⟨ending, ⟨w, slot⟩, log, out, pulled, expansions⟩ := q
  cases ending with
  | failed e => rfl
  | exhausted =>
    cases slot with
    | some acc => rfl
    | none => rfl
  | aborted =>
    cases slot with
    | some acc => rfl
    | none => rfl

/-- A reduction cannot tell alike plans apart. Its log also has the records of growing and running
the plan, which name the plan. -/
theorem Builder.reduce_congr {b c : Builder (Action ω) α β} (h : b.plan.Alike c.plan)
    (xs : List α) (acc : κ) (f : κ → β → Action ω κ) (w : ω) :
    b.reduce xs acc f w = { c.reduce xs acc f w with log := (b.reduce xs acc f w).log } := by
  have hrun := (absorbing_alike h f).run_eq xs (w, some acc)
  have hafter := Pass.after_congr hrun (b.widen.filterMap (absorb f)).log
    (c.widen.filterMap (absorb f)).log
  exact Reduction.ofPass_congr hafter

namespace Recipe

/-- Whatever the modes of a recipe and wherever it asks to fuse, its builder ends up with a plan
alike the one in which nothing is fused. -/
theorem build_alike (r : Recipe (Action ω) α β) : r.build.value.plan.Alike r.plain := by
  induction r with
  | empty => exact Plan.Alike.refl _
  | ofPlan p => exact Plan.Alike.refl p
  | add r o ih =>
    have happend := r.build.value.append_alike (.operator o)
    exact happend.trans (Plan.alike_seq ih (Plan.Alike.refl (.operator o)))
  | merge r other ihr iho =>
    have happend := r.build.value.append_alike other.build.value.plan
    exact happend.trans (Plan.alike_seq ihr iho)
  | normalize r ih =>
    have hnormalize := Plan.normalize_alike r.build.value.plan
    exact hnormalize.trans ih
  | withMode r mode ih => exact ih

/-- The plan in which nothing is fused depends on the additions alone. -/
theorem plain_additions {m : Type → Type} (r : Recipe m α β) : r.additions.plain = r.plain := by
  induction r with
  | empty => rfl
  | ofPlan p => rfl
  | add r o ih =>
    simp only [additions, plain]
    rw [ih]
  | merge r other ihr iho =>
    simp only [additions, plain]
    rw [ihr, iho]
  | normalize r ih => exact ih
  | withMode r mode ih => exact ih

theorem SameAdditions.plain_eq {m : Type → Type} {r s : Recipe m α β} (h : r.SameAdditions s) :
    r.plain = s.plain := by
  rw [← r.plain_additions, ← s.plain_additions, h]

/-- The same additions make alike plans. -/
theorem SameAdditions.alike {r s : Recipe (Action ω) α β} (h : r.SameAdditions s) :
    r.build.value.plan.Alike s.build.value.plan := by
  have hr := r.build_alike
  rw [h.plain_eq] at hr
  exact hr.trans s.build_alike.symm

/-- **Fusion modes cannot be observed.** Two recipes that add the same things make builders whose
plans start alike and reply alike, and which give the same passes, runs and reductions, down to the
log of the callables. Only the records of runs differ, because they name the plan, and so do the
records of growing a builder. -/
theorem modes_unobservable {r s : Recipe (Action ω) α β} (h : r.SameAdditions s) :
    (∀ calls w, r.build.value.plan.history calls w = s.build.value.plan.history calls w) ∧
    (∀ xs w, r.build.value.plan.pass xs w = s.build.value.plan.pass xs w) ∧
    (∀ xs w, r.build.value.run xs w =
      { s.build.value.run xs w with log := (r.build.value.run xs w).log }) ∧
    (∀ {κ : Type} xs (acc : κ) f w, r.build.value.reduce xs acc f w =
      { s.build.value.reduce xs acc f w with log := (r.build.value.reduce xs acc f w).log }) ∧
    (∀ {κ : Type} xs (acc : κ) f w,
      (r.build.value.widen.filterMap (absorb f)).value.plan.pass xs (w, some acc) =
        (s.build.value.widen.filterMap (absorb f)).value.plan.pass xs (w, some acc)) := by
  have halike := h.alike
  refine ⟨halike, halike.pass_eq, halike.run_eq, ?_, ?_⟩
  · intro κ xs acc f w
    exact Builder.reduce_congr halike xs acc f w
  · intro κ xs acc f w
    exact (Builder.absorbing_alike halike f).pass_eq xs (w, some acc)

/-- Note an element in the world and count it down, but give up at zero. -/
def countDown (x : Nat) : Action (List Nat) Nat := do
  Action.modify (x :: ·)
  match x with
  | 0 => Action.fail (.callable "zero")
  | y + 1 => pure y

/-- Count down twice and keep two elements, with fusion enabled all the time. -/
def eagerCountDown : Recipe (Action (List Nat)) Nat Nat :=
  ((empty.add (.map countDown)).merge (empty.add (.map countDown))).add (.take 2)

/-- The same with fusion disabled, but for one request in the merged builder. -/
def lateCountDown : Recipe (Action (List Nat)) Nat Nat :=
  (((empty.withMode .disabled).add (.map countDown)).merge
    ((empty.withMode .disabled).add (.map countDown)).normalize).add (.take 2)

theorem modes_unobservable_countDown :
    eagerCountDown.SameAdditions lateCountDown ∧
    eagerCountDown.build.value.plan.leaves = 2 ∧ lateCountDown.build.value.plan.leaves = 4 ∧
    (∀ xs w, eagerCountDown.build.value.plan.pass xs w =
      lateCountDown.build.value.plan.pass xs w) ∧
    (lateCountDown.build.value.reduce [5, 1, 7] 0 (fun acc y => pure (acc + y)) []).result =
      .error (.callable "zero") ∧
    (eagerCountDown.build.value.reduce [5, 1, 7] 0 (fun acc y => pure (acc + y)) []).world =
      [0, 1, 4, 5] := by
  have hsame : eagerCountDown.SameAdditions lateCountDown := rfl
  obtain ⟨-, hpass, -, hreduce, -⟩ := modes_unobservable hsame
  refine ⟨hsame, rfl, rfl, hpass, rfl, ?_⟩
  rw [hreduce]
  rfl

end Recipe

end PlanFusion
