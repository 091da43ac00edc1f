import PlanFusion.Proofs.Builder.Modes
import PlanFusion.Proofs.Plan.Normality

/-!
# PlanFusion — eager and late fusion make the same plan

That fusion modes cannot be observed leaves open what the plans look like. They look the same, as
soon as they are fused: to fuse after every addition, now and then, or once at the end gives one and
the same plan, operator by operator and callable by callable.

This rests on the normal plans alone. An addition in either mode does no more to a plan than fusion
would do to it later, and fusion does nothing to what it has fused. No law of the monad is needed,
because the same rules are applied at the same joins in each case.

* `Builder.append_normalize`, `Builder.append_of_enabled` — one addition;
* `Recipe.build_normalize` — fused at the end, a builder has the plan of its additions, fused;
* `Recipe.EndsFused.build_plan` — it has that plan already if it was fused last;
* `Recipe.eager_fusion_eq_late_fusion` — two histories of the same additions compared.
-/

namespace PlanFusion

variable {m : Type → Type} [Monad m] {α β γ : Type}

-- ---------------------------------------------------------------------------
-- One addition
-- ---------------------------------------------------------------------------

namespace Builder

theorem mode_append (b : Builder m α β) (next : Plan m β γ) :
    (b.append next).value.mode = b.mode := by
  unfold append
  cases b.mode with
  | enabled => rfl
  | disabled => rfl

/-- With fusion enabled, the plan after an addition is the fused join. -/
theorem append_of_enabled {b : Builder m α β} (h : b.mode = .enabled) (next : Plan m β γ) :
    (b.append next).value.plan = (Plan.seq b.plan next).normalize.value := by
  unfold append
  rw [h]
  exact Plan.normalize_joinNormalized b.plan next

/-- In either mode, the plan after an addition is the join as far as fusion is concerned. -/
theorem append_normalize (b : Builder m α β) (next : Plan m β γ) :
    (b.append next).value.plan.normalize.value = (Plan.seq b.plan next).normalize.value := by
  cases h : b.mode with
  | enabled => rw [append_of_enabled h, Plan.normalize_normalize]
  | disabled =>
    unfold append
    rw [h]
    rfl

end Builder

-- ---------------------------------------------------------------------------
-- All additions of a recipe
-- ---------------------------------------------------------------------------

namespace Recipe

theorem mode_build (r : Recipe m α β) : r.build.value.mode = r.mode := by
  induction r with
  | empty => rfl
  | ofPlan p => rfl
  | add r o ih => exact (r.build.value.mode_append (.operator o)).trans ih
  | merge r other ihr _ => exact (r.build.value.mode_append other.build.value.plan).trans ihr
  | normalize r ih => exact ih
  | withMode r mode ih => rfl

/-- Fusing at the end makes up for every addition that was not fused. -/
theorem build_normalize (r : Recipe m α β) :
    r.build.value.plan.normalize.value = r.plain.normalize.value := by
  induction r with
  | empty => rfl
  | ofPlan p => rfl
  | add r o ih =>
    have happend := r.build.value.append_normalize (.operator o)
    exact happend.trans (Plan.normalize_seq_congr ih rfl)
  | merge r other ihr iho =>
    have happend := r.build.value.append_normalize other.build.value.plan
    exact happend.trans (Plan.normalize_seq_congr ihr iho)
  | normalize r ih => exact (Plan.normalize_normalize r.build.value.plan).trans ih
  | withMode r mode ih => exact ih

/-- A builder that was fused last has nothing left to fuse. Changes of the mode after that do not
touch the plan. -/
theorem EndsFused.build_plan {r : Recipe m α β} (h : r.EndsFused) :
    r.build.value.plan = r.plain.normalize.value := by
  induction r with
  | empty => exact h.elim
  | ofPlan p => exact h.elim
  | add r o _ =>
    have henabled : r.build.value.mode = .enabled := r.mode_build.trans h
    have happend := Builder.append_of_enabled henabled (.operator o)
    exact happend.trans (Plan.normalize_seq_congr r.build_normalize rfl)
  | merge r other _ _ =>
    have henabled : r.build.value.mode = .enabled := r.mode_build.trans h
    have happend := Builder.append_of_enabled henabled other.build.value.plan
    exact happend.trans (Plan.normalize_seq_congr r.build_normalize other.build_normalize)
  | normalize r _ => exact r.build_normalize
  | withMode r mode ih => exact ih h

/-- **Eager and late fusion make the same plan.** Two recipes that add the same things make builders
whose plans are equal after one last request to fuse, and so are the texts, kinds and numbers of
operators of those plans. A builder that was fused last has that plan already, even if the other one
never fused anything before. For one join this says that fusing its sides beforehand is no use. -/
theorem eager_fusion_eq_late_fusion {r s : Recipe m α β} (h : r.SameAdditions s) :
    r.normalize.build.value.plan = s.normalize.build.value.plan ∧
    (r.normalize.build.value.plan.text = s.normalize.build.value.plan.text ∧
      r.normalize.build.value.plan.leaves = s.normalize.build.value.plan.leaves ∧
      r.normalize.build.value.plan.kind = s.normalize.build.value.plan.kind) ∧
    (r.EndsFused → r.build.value.plan = s.normalize.build.value.plan) ∧
    (∀ {δ ε ζ : Type} (left : Plan m δ ε) (right : Plan m ε ζ),
      (left.joinNormalized right).value.normalize.value =
        (left.join right).value.normalize.value) := by
  have hr : r.normalize.build.value.plan = r.plain.normalize.value := r.build_normalize
  have hs : s.normalize.build.value.plan = s.plain.normalize.value := s.build_normalize
  have hplans : r.normalize.build.value.plan = s.normalize.build.value.plan := by
    rw [hr, hs, h.plain_eq]
  refine ⟨hplans, ?_, ?_, ?_⟩
  · rw [hplans]
    exact ⟨rfl, rfl, rfl⟩
  · intro hfused
    rw [hfused.build_plan, hs, h.plain_eq]
  · intro δ ε ζ left right
    exact Plan.normalize_joinNormalized left right

/-- Count down twice and keep two elements, with fusion disabled all the time. -/
def unfusedCountDown : Recipe (Action (List Nat)) Nat Nat :=
  (((empty.withMode .disabled).add (.map countDown)).merge
    ((empty.withMode .disabled).add (.map countDown))).add (.take 2)

/-- The eager builder has two operators after its last addition. The other one has five, which
become the same two. -/
theorem eager_fusion_eq_late_fusion_countDown :
    eagerCountDown.SameAdditions unfusedCountDown ∧ eagerCountDown.EndsFused ∧
    eagerCountDown.build.value.plan = unfusedCountDown.normalize.build.value.plan ∧
    unfusedCountDown.build.value.plan.leaves = 5 ∧
    unfusedCountDown.normalize.build.value.plan.text = "Combine(Map, Take[2])" := by
  have hsame : eagerCountDown.SameAdditions unfusedCountDown := rfl
  have hfused : eagerCountDown.EndsFused := rfl
  obtain ⟨-, ⟨htext, -⟩, hplans, -⟩ := eager_fusion_eq_late_fusion hsame
  refine ⟨hsame, hfused, hplans hfused, rfl, ?_⟩
  rw [← htext]
  rfl

end Recipe

end PlanFusion
