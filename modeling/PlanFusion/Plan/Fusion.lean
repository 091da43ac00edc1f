import PlanFusion.Plan.Basic

/-!
# PlanFusion — fusion of plans

Fusion makes a plan smaller without changing what it does. It works from the operators upwards and
looks once at each join, at the kinds of the two sides after they have been fused themselves. It
never regroups joins, so two operators meet only if a join of the plan brings them together.

* `Plan.fuse?`, `Plan.Fuses` — two plans as one, if the fusion table has a row for their kinds;
* `Plan.fuse`, `Plan.fuse_cases` — the same, or else the join of the two, with a record of which it
  was;
* `Plan.normalize` — fusion at every join;
* `Plan.joinNormalized` — the join of two plans after each has been fused by itself.
-/

namespace PlanFusion.Plan

variable {m : Type → Type} [Monad m] {α β γ : Type}

/-- Two plans as one. An identity disappears beside any plan, and two operators may become one. -/
def fuse? : Plan m α β → Plan m β γ → Option (Plan m α γ)
  | operator .identity, right => some right
  | left, operator .identity => some left
  | operator left, operator right => (left.fuse? right).map operator
  | _, _ => none

/-- How two plans become one. -/
inductive Fuses : {α β γ : Type} → Plan m α β → Plan m β γ → Plan m α γ → Prop where
  | identity_left {α β : Type} (p : Plan m α β) : Fuses (operator .identity) p p
  | identity_right {α β : Type} (p : Plan m α β) : Fuses p (operator .identity) p
  | operators {α β γ : Type} {o : Operator m α β} {o' : Operator m β γ} {f : Operator m α γ}
      (h : o.fuse? o' = some f) : Fuses (operator o) (operator o') (operator f)

theorem fuses_of_fuse? {left : Plan m α β} {right : Plan m β γ} {p : Plan m α γ}
    (h : left.fuse? right = some p) : Fuses left right p := by
  unfold fuse? at h
  split at h
  · cases h
    exact .identity_left _
  · cases h
    exact .identity_right _
  · obtain ⟨f, hf, rfl⟩ := Option.map_eq_some_iff.mp h
    exact .operators hf
  · cases h

/-- Two plans as one if the table allows it, and else in sequence. -/
def fuse (left : Plan m α β) (right : Plan m β γ) : Logged (Plan m α γ) :=
  match left.fuse? right with
  | some p => { value := p, log := [.fused left.kind right.kind p.kind] }
  | none => left.join right

/-- The plan after one attempt to fuse at every join, the inner joins first. -/
def normalize {α β : Type} : Plan m α β → Logged (Plan m α β)
  | operator o => pure (operator o)
  | seq left right => do
    let l ← left.normalize
    let r ← right.normalize
    l.fuse r

/-- Two plans in sequence after each has been fused by itself. The new join is not looked at. -/
def joinNormalized (left : Plan m α β) (right : Plan m β γ) : Logged (Plan m α γ) := do
  let l ← left.normalize
  let r ← right.normalize
  l.join r

/-- The kinds decide whether two plans fuse, and what kind of plan they become. -/
theorem kind_fuse? (left : Plan m α β) (right : Plan m β γ) :
    (left.fuse? right).map kind = left.kind.fuse? right.kind := by
  cases left with
  | seq a b =>
    cases right with
    | seq c d => rfl
    | operator o => cases o <;> rfl
  | operator o =>
    cases right with
    | seq c d => cases o <;> rfl
    | operator o' =>
      cases o <;> cases o' <;> rfl

/-- What fusion does at one join. -/
theorem fuse_cases (left : Plan m α β) (right : Plan m β γ) :
    (∃ p, Fuses left right p ∧
      left.fuse right = { value := p, log := [.fused left.kind right.kind p.kind] }) ∨
    (left.kind.fuse? right.kind = none ∧
      left.fuse right = { value := seq left right, log := [.joined left.kind right.kind] }) := by
  unfold fuse
  rw [← kind_fuse?]
  cases h : left.fuse? right with
  | some p => exact Or.inl ⟨p, fuses_of_fuse? h, rfl⟩
  | none => exact Or.inr ⟨rfl, rfl⟩

end PlanFusion.Plan
