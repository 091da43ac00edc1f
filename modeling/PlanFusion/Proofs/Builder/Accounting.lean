import PlanFusion.Proofs.Builder.Eagerness
import PlanFusion.Proofs.Plan.Accounting

/-!
# PlanFusion — the records of an addition add up

A builder that fuses after an addition goes over the plan in three passes: over the plan so far,
over what is added, and then over the join of the two results, which it has recorded as a join by
itself. The last pass meets plans that are fused already. It puts their joins on record a second
time, finds nothing to fuse in them, and then looks at the new join.

* `Builder.append_tally`, `Builder.leaves_append` — one addition with fusion enabled;
* `Builder.records_add_up` — the records of fusions and additions, counted in operators.
-/

namespace PlanFusion.Builder

variable {m : Type → Type} [Monad m] {α β γ : Type}

/-- The plan after an addition with fusion enabled: one join more, which is looked at once. -/
theorem plan_append (cur : Plan m α β) (next : Plan m β γ) :
    ((ofPlan cur).append next).value.plan =
      (cur.normalize.value.fuse next.normalize.value).value :=
  append_of_enabled rfl next

/-- All that an addition loses is the new join. -/
theorem leaves_append (cur : Plan m α β) (next : Plan m β γ) :
    ((ofPlan cur).append next).value.plan.leaves =
      cur.normalize.value.leaves + next.normalize.value.leaves ∨
    ((ofPlan cur).append next).value.plan.leaves + 1 =
      cur.normalize.value.leaves + next.normalize.value.leaves := by
  rw [plan_append]
  exact Plan.leaves_fuse cur.normalize.value next.normalize.value

theorem log_append (cur : Plan m α β) (next : Plan m β γ) :
    ((ofPlan cur).append next).log =
      (cur.joinNormalized next).log ++ (cur.joinNormalized next).value.normalize.log := by
  show (cur.joinNormalized next).log ++ ((cur.joinNormalized next).value.normalize.log ++ []) = _
  rw [List.append_nil]

/-- The records of an addition are those of the join of the fused sides and of fusing it. -/
theorem append_tally (cur : Plan m α β) (next : Plan m β γ) :
    Tally ((ofPlan cur).append next).log
      (cur.leaves + next.leaves - ((ofPlan cur).append next).value.plan.leaves)
      (cur.normalize.value.leaves + next.normalize.value.leaves +
        ((ofPlan cur).append next).value.plan.leaves - 2) := by
  have hcur := cur.leaves_normalize_le
  have hnext := next.leaves_normalize_le
  have hposcur := cur.normalize.value.leaves_pos
  have hgrown := leaves_append cur next
  have hpos := ((ofPlan cur).append next).value.plan.leaves_pos
  have hfused := (cur.joinNormalized next).value.normalize_tally
  have hall := (cur.joinNormalized_tally next).append hfused
  rw [log_append]
  refine hall.of_eq ?_ ?_
  · show _ + (cur.normalize.value.leaves + next.normalize.value.leaves -
      ((ofPlan cur).append next).value.plan.leaves) = _
    omega
  · show _ + (((ofPlan cur).append next).value.plan.leaves - 1) = _
    omega

/-- **The records of fusion add up.** Fusing a plan never adds an operator, and if it loses none it
changes nothing. For each operator that is lost there is one record of a fusion, and for each join
that is left one record of a join. An addition with fusion enabled loses an operator at the new join
or it does not, apart from what the two sides lose by themselves. Its joins are on record twice,
because the sides are fused twice, except for the new one if it was lost. With fusion disabled there
is a record of the new join and nothing else, and no operator is lost. -/
theorem records_add_up (cur : Plan m α β) (next : Plan m β γ) :
    (cur.normalize.value.leaves ≤ cur.leaves ∧
      (cur.normalize.value.leaves = cur.leaves ↔ cur.normalize.value = cur) ∧
      Tally cur.normalize.log (cur.leaves - cur.normalize.value.leaves)
        (cur.normalize.value.leaves - 1)) ∧
    (let grown := (ofPlan cur).append next
     let a := cur.normalize.value.leaves
     let b := next.normalize.value.leaves
     let r := grown.value.plan.leaves
     (r = a + b ∨ r = a + b - 1) ∧
       Tally grown.log (cur.leaves + next.leaves - r) (a + b + r - 2)) ∧
    (let grown := ((ofPlan cur).withMode .disabled).append next
     grown.value.plan.leaves = cur.leaves + next.leaves ∧ Tally grown.log 0 1) := by
  refine ⟨⟨cur.leaves_normalize_le, cur.leaves_normalize_eq_iff, cur.normalize_tally⟩,
    ⟨?_, append_tally cur next⟩, rfl, Tally.single_joined cur.kind next.kind⟩
  rcases leaves_append cur next with hkept | hlost
  · exact Or.inl hkept
  · right
    omega

end PlanFusion.Builder
