import PlanFusion.Plan.Normal

/-!
# PlanFusion — fusion reaches a normal plan

Fusion tries one rule at each join and never comes back to it. Still nothing is left to do in its
result: a rule either gives back one of its two sides, which are normal already, or makes a single
operator, and where no rule applies the join is kept because it is normal itself. To fuse a second
time is therefore to do nothing, and plans that were fused in parts are fused as a whole.

* `Fuses.isNormal`, `fuse_isNormal` — what becomes of two normal plans;
* `normalize_isNormal`, `IsNormal.normalize_value` — the results of fusion are the normal plans, and
  it leaves those alone;
* `normalize_seq_congr`, `normalize_joinNormalized` — the sides of a join may be fused beforehand;
* `normalize_shape_eq_identity_iff` — when an identity is left;
* `normalize_value_eq_iff`, `IsNormal.countP_isFused` — fusion in a normal plan;
* `normalize_reaches_normal_form` — the normal plans and the results of fusion compared.
-/

namespace PlanFusion.Plan

variable {m : Type → Type} [Monad m] {α β γ : Type}

-- ---------------------------------------------------------------------------
-- One join
-- ---------------------------------------------------------------------------

/-- Two plans become one exactly if the table has a row for their kinds. -/
theorem fuse?_eq_none_iff {l : Plan m α β} {r : Plan m β γ} :
    l.fuse? r = none ↔ l.kind.fuse? r.kind = none := by
  rw [← kind_fuse?, Option.map_eq_none_iff]

/-- The plan that two normal plans become is one of them, or a single operator. -/
theorem Fuses.isNormal {l : Plan m α β} {r : Plan m β γ} {p : Plan m α γ} (h : Fuses l r p)
    (hl : l.IsNormal) (hr : r.IsNormal) : p.IsNormal := by
  cases h with
  | identity_left => exact hr
  | identity_right => exact hl
  | operators => exact .operator _

theorem fuse_isNormal {l : Plan m α β} {r : Plan m β γ} (hl : l.IsNormal) (hr : r.IsNormal) :
    (l.fuse r).value.IsNormal := by
  rcases fuse_cases l r with ⟨p, hp, hfuse⟩ | ⟨hnone, hfuse⟩
  · rw [hfuse]
    exact hp.isNormal hl hr
  · rw [hfuse]
    exact .seq hl hr hnone

/-- Where the table has no row the join is kept. -/
theorem fuse_of_none {l : Plan m α β} {r : Plan m β γ} (h : l.kind.fuse? r.kind = none) :
    l.fuse r = l.join r := by
  unfold fuse
  rw [fuse?_eq_none_iff.mpr h]

-- ---------------------------------------------------------------------------
-- All joins
-- ---------------------------------------------------------------------------

theorem normalize_seq (l : Plan m α β) (r : Plan m β γ) :
    (seq l r).normalize.value = (l.normalize.value.fuse r.normalize.value).value := rfl

/-- Fusion leaves nothing to do. -/
theorem normalize_isNormal (p : Plan m α β) : p.normalize.value.IsNormal := by
  induction p with
  | operator o => exact .operator o
  | seq l r ihl ihr => exact fuse_isNormal ihl ihr

/-- In a normal plan fusion finds nothing to do. -/
theorem IsNormal.normalize_value {p : Plan m α β} (h : p.IsNormal) : p.normalize.value = p := by
  induction h with
  | operator o => rfl
  | seq _ _ hnone ihl ihr =>
    rw [normalize_seq, ihl, ihr, fuse_of_none hnone]
    rfl

theorem normalize_normalize (p : Plan m α β) :
    p.normalize.value.normalize.value = p.normalize.value :=
  (normalize_isNormal p).normalize_value

-- ---------------------------------------------------------------------------
-- Joins of fused plans
-- ---------------------------------------------------------------------------

/-- The fused plan depends on the fused sides alone. -/
theorem normalize_seq_congr {l l' : Plan m α β} {r r' : Plan m β γ}
    (hl : l.normalize.value = l'.normalize.value) (hr : r.normalize.value = r'.normalize.value) :
    (seq l r).normalize.value = (seq l' r').normalize.value := by
  rw [normalize_seq, normalize_seq, hl, hr]

/-- To fuse the sides first changes nothing. -/
theorem normalize_joinNormalized (l : Plan m α β) (r : Plan m β γ) :
    (l.joinNormalized r).value.normalize.value = (seq l r).normalize.value :=
  normalize_seq_congr (normalize_normalize l) (normalize_normalize r)

-- ---------------------------------------------------------------------------
-- Identities
-- ---------------------------------------------------------------------------

/-- The kind of two plans that became one, or of their join. -/
theorem kind_fuse (l : Plan m α β) (r : Plan m β γ) :
    (l.fuse r).value.kind = (l.kind.fuse? r.kind).getD .joined := by
  rw [← kind_fuse?]
  unfold fuse
  cases l.fuse? r with
  | some p => rfl
  | none => rfl

/-- Fusion leaves an identity alone exactly if there was nothing else. -/
theorem normalize_shape_eq_identity_iff (p : Plan m α β) :
    p.normalize.value.shape = .operator .identity ↔ p.IsIdle := by
  induction p with
  | operator o =>
    rw [isIdle_operator]
    show Shape.operator o.form = .operator .identity ↔ o.form = .identity
    rw [Shape.operator.injEq]
  | seq l r ihl ihr =>
    rw [isIdle_seq, ← ihl, ← ihr]
    simp only [← Shape.kind_eq_identity_iff]
    show (l.normalize.value.fuse r.normalize.value).value.kind = .identity ↔
      l.normalize.value.kind = .identity ∧ r.normalize.value.kind = .identity
    rw [kind_fuse, ← Kind.fuse?_eq_some_identity_iff]
    cases l.normalize.value.kind.fuse? r.normalize.value.kind with
    | some k => simp
    | none => simp

-- ---------------------------------------------------------------------------
-- Fusion of fused plans
-- ---------------------------------------------------------------------------

/-- A plan is normal exactly if fusion gives it back, callables and all. -/
theorem normalize_value_eq_iff {p : Plan m α β} : p.normalize.value = p ↔ p.IsNormal := by
  constructor
  · intro h
    rw [← h]
    exact normalize_isNormal p
  · intro h
    exact h.normalize_value

theorem log_normalize_seq (l : Plan m α β) (r : Plan m β γ) :
    (seq l r).normalize.log =
      l.normalize.log ++ (r.normalize.log ++ (l.normalize.value.fuse r.normalize.value).log) := rfl

/-- In a normal plan nothing is fused, so that no record says so. -/
theorem IsNormal.countP_isFused {p : Plan m α β} (h : p.IsNormal) :
    p.normalize.log.countP Record.isFused = 0 := by
  induction h with
  | operator o => rfl
  | seq hl hr hnone ihl ihr =>
    rw [log_normalize_seq, hl.normalize_value, hr.normalize_value, fuse_of_none hnone,
      List.countP_append, List.countP_append, ihl, ihr]
    rfl

/-- **Fusion reaches a normal form.** In the fused plan no join has sides that the table would
fuse, and an identity is left only if it is the whole plan, which happens exactly if the plan had
nothing but identities. The plans of this form are exactly those that fusion gives back as they are.
To fuse twice is therefore to fuse once, and nothing is recorded as fused the second time. -/
theorem normalize_reaches_normal_form (p : Plan m α β) :
    (p.normalize.value.IsNormal ∧ p.normalize.value.IdentityAlone) ∧
    (p.normalize.value.shape = .operator .identity ↔ p.IsIdle) ∧
    (p.IsNormal ∧ p.IdentityAlone ↔ p.normalize.value = p) ∧
    p.normalize.value.normalize.value = p.normalize.value ∧
    p.normalize.value.normalize.log.countP Record.isFused = 0 := by
  have hnormal : p.normalize.value.IsNormal := normalize_isNormal p
  refine ⟨⟨hnormal, hnormal.identityAlone⟩, normalize_shape_eq_identity_iff p, ?_,
    hnormal.normalize_value, hnormal.countP_isFused⟩
  constructor
  · intro h
    exact h.1.normalize_value
  · intro h
    have hp : p.IsNormal := normalize_value_eq_iff.mp h
    exact ⟨hp, hp.identityAlone⟩

end PlanFusion.Plan
