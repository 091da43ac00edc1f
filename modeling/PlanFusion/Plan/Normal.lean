import PlanFusion.Plan.Fusion

/-!
# PlanFusion — normal plans

A plan is normal when fusion has nothing left to do in it. This is said of the plan itself, without
running fusion: no join has sides that the table would fuse. Because an identity fuses with
everything, a normal plan holds one only if it is nothing else.
-/

namespace PlanFusion.Plan

variable {m : Type → Type} {α β γ : Type}

/-- No join of the plan has sides whose kinds fuse. -/
inductive IsNormal : {α β : Type} → Plan m α β → Prop where
  | operator {α β : Type} (o : Operator m α β) : IsNormal (.operator o)
  | seq {α β γ : Type} {left : Plan m α β} {right : Plan m β γ} (hl : IsNormal left)
      (hr : IsNormal right) (h : left.kind.fuse? right.kind = none) : IsNormal (.seq left right)

/-- If the plan holds an identity, then it is that identity and nothing else. -/
def IdentityAlone (p : Plan m α β) : Prop :=
  .identity ∈ p.shape.forms → p.shape = .operator .identity

/-- The plan has no operator but identities. -/
def IsIdle (p : Plan m α β) : Prop :=
  ∀ form ∈ p.shape.forms, form = .identity

instance (p : Plan m α β) : Decidable p.IsIdle :=
  inferInstanceAs (Decidable (∀ form ∈ p.shape.forms, form = .identity))

theorem isIdle_operator {o : Operator m α β} :
    (operator o).IsIdle ↔ o.form = .identity := by
  show (∀ form ∈ [o.form], form = .identity) ↔ _
  rw [List.forall_mem_singleton]

theorem isIdle_seq {left : Plan m α β} {right : Plan m β γ} :
    (seq left right).IsIdle ↔ left.IsIdle ∧ right.IsIdle :=
  List.forall_mem_append

/-- In a normal plan both sides of every join have something to do. -/
theorem IsNormal.identityAlone {p : Plan m α β} (h : p.IsNormal) : p.IdentityAlone := by
  induction h with
  | operator o =>
    intro hmem
    have hform : Form.identity = o.form := List.mem_singleton.mp hmem
    show Shape.operator o.form = .operator .identity
    rw [hform]
  | @seq _ _ _ left right _ _ hnone ihl ihr =>
    intro hmem
    exfalso
    rcases List.mem_append.mp hmem with hleft | hright
    · have hkind : left.kind = .identity := Shape.kind_eq_identity_iff.mpr (ihl hleft)
      rw [hkind, Kind.identity_fuse?] at hnone
      cases hnone
    · have hkind : right.kind = .identity := Shape.kind_eq_identity_iff.mpr (ihr hright)
      rw [hkind, Kind.fuse?_identity] at hnone
      cases hnone

end PlanFusion.Plan
