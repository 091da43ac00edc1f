import PlanFusion.Proofs.Plan.Normality

/-!
# PlanFusion — the records of fusion add up

Fusion writes one record at each join of a plan. Either the join is kept, or its two sides become
one plan that has one operator less than the two had together. So the records tell how many
operators were lost and how many joins are left, and a plan that lost no operator is as it was.

* `Tally` — how many records of each sort a log has;
* `leaves_fuse`, `fuse_tally` — what happens to the number of operators at one join, and what the
  record of it says;
* `normalize_eq_or_leaves_lt` — fusion makes a plan smaller or leaves it alone;
* `normalize_tally`, `joinNormalized_tally` — the records of fusing a plan and of joining two.
-/

namespace PlanFusion

-- ---------------------------------------------------------------------------
-- Counting records
-- ---------------------------------------------------------------------------

/-- The log has `fused` records of plans that became one and `joined` records of plans that were put
in sequence, each of its own level, and nothing else. -/
structure Tally (log : List Record) (fused joined : Nat) : Prop where
  fused : log.countP Record.isFused = fused
  joined : log.countP Record.isJoined = joined
  levels : ∀ record ∈ log, record.isFused ∧ record.level = .debug ∨
    record.isJoined ∧ record.level = .trace

namespace Tally

theorem nil : Tally [] 0 0 :=
  ⟨rfl, rfl, nofun⟩

theorem single_fused (left right into : Kind) : Tally [.fused left right into] 1 0 where
  fused := rfl
  joined := rfl
  levels := by
    intro record h
    rw [List.mem_singleton.mp h]
    exact Or.inl ⟨rfl, rfl⟩

theorem single_joined (left right : Kind) : Tally [.joined left right] 0 1 where
  fused := rfl
  joined := rfl
  levels := by
    intro record h
    rw [List.mem_singleton.mp h]
    exact Or.inr ⟨rfl, rfl⟩

theorem of_eq {log : List Record} {fused joined fused' joined' : Nat} (h : Tally log fused joined)
    (hf : fused = fused') (hj : joined = joined') : Tally log fused' joined' := by
  rw [← hf, ← hj]
  exact h

theorem append {log log' : List Record} {fused joined fused' joined' : Nat}
    (h : Tally log fused joined) (h' : Tally log' fused' joined') :
    Tally (log ++ log') (fused + fused') (joined + joined') where
  fused := by rw [List.countP_append, h.fused, h'.fused]
  joined := by rw [List.countP_append, h.joined, h'.joined]
  levels := by
    intro record hmem
    rcases List.mem_append.mp hmem with hl | hr
    · exact h.levels record hl
    · exact h'.levels record hr

end Tally

namespace Plan

variable {m : Type → Type} [Monad m] {α β γ : Type}

-- ---------------------------------------------------------------------------
-- One join
-- ---------------------------------------------------------------------------

/-- Two plans that become one lose one operator. -/
theorem Fuses.leaves {l : Plan m α β} {r : Plan m β γ} {p : Plan m α γ} (h : Fuses l r p) :
    p.leaves + 1 = l.leaves + r.leaves := by
  cases h with
  | identity_left => exact Nat.add_comm p.leaves 1
  | identity_right => rfl
  | operators => rfl

theorem leaves_fuse (l : Plan m α β) (r : Plan m β γ) :
    (l.fuse r).value.leaves = l.leaves + r.leaves ∨
    (l.fuse r).value.leaves + 1 = l.leaves + r.leaves := by
  rcases fuse_cases l r with ⟨p, hp, hfuse⟩ | ⟨-, hfuse⟩
  · rw [hfuse]
    exact Or.inr hp.leaves
  · rw [hfuse]
    exact Or.inl rfl

/-- There is one record: of a fusion if an operator was lost, and else of a join. -/
theorem fuse_tally (l : Plan m α β) (r : Plan m β γ) :
    Tally (l.fuse r).log (l.leaves + r.leaves - (l.fuse r).value.leaves)
      ((l.fuse r).value.leaves + 1 - (l.leaves + r.leaves)) := by
  rcases fuse_cases l r with ⟨p, hp, hfuse⟩ | ⟨-, hfuse⟩
  · have hleaves := hp.leaves
    rw [hfuse]
    show Tally [_] (l.leaves + r.leaves - p.leaves) (p.leaves + 1 - (l.leaves + r.leaves))
    exact (Tally.single_fused _ _ _).of_eq (by omega) (by omega)
  · have hleaves := leaves_seq l r
    rw [hfuse]
    show Tally [_] (l.leaves + r.leaves - (seq l r).leaves)
      ((seq l r).leaves + 1 - (l.leaves + r.leaves))
    exact (Tally.single_joined _ _).of_eq (by omega) (by omega)

-- ---------------------------------------------------------------------------
-- All joins
-- ---------------------------------------------------------------------------

theorem leaves_normalize_le (p : Plan m α β) : p.normalize.value.leaves ≤ p.leaves := by
  induction p with
  | operator o => exact Nat.le_refl 1
  | seq l r ihl ihr =>
    rw [normalize_seq, leaves_seq]
    have hleaves := leaves_fuse l.normalize.value r.normalize.value
    omega

/-- Fusion makes a plan smaller or leaves it alone. -/
theorem normalize_eq_or_leaves_lt (p : Plan m α β) :
    p.normalize.value = p ∨ p.normalize.value.leaves < p.leaves := by
  induction p with
  | operator o => exact Or.inl rfl
  | seq l r ihl ihr =>
    have hl := leaves_normalize_le l
    have hr := leaves_normalize_le r
    rw [normalize_seq, leaves_seq]
    rcases fuse_cases l.normalize.value r.normalize.value with ⟨p, hp, hfuse⟩ | ⟨-, hfuse⟩
    · -- the two sides have become one
      have hleaves := hp.leaves
      right
      rw [hfuse]
      show p.leaves < l.leaves + r.leaves
      omega
    · -- the join is kept, and nothing has happened unless it did in one of the sides
      rw [hfuse]
      show seq l.normalize.value r.normalize.value = seq l r ∨
        l.normalize.value.leaves + r.normalize.value.leaves < l.leaves + r.leaves
      rcases ihl with hleq | hllt
      · rcases ihr with hreq | hrlt
        · left
          rw [hleq, hreq]
        · right
          omega
      · right
        omega

/-- A plan that loses no operator is not changed at all. -/
theorem leaves_normalize_eq_iff (p : Plan m α β) :
    p.normalize.value.leaves = p.leaves ↔ p.normalize.value = p := by
  constructor
  · intro h
    rcases p.normalize_eq_or_leaves_lt with heq | hlt
    · exact heq
    · omega
  · intro h
    rw [h]

/-- Each record of a fusion stands for an operator that was lost, and each record of a join for one
that is left. -/
theorem normalize_tally (p : Plan m α β) :
    Tally p.normalize.log (p.leaves - p.normalize.value.leaves)
      (p.normalize.value.leaves - 1) := by
  induction p with
  | operator o => exact Tally.nil
  | seq l r ihl ihr =>
    have hl := leaves_normalize_le l
    have hr := leaves_normalize_le r
    have hposl := leaves_pos l.normalize.value
    have hposr := leaves_pos r.normalize.value
    have hleaves := leaves_fuse l.normalize.value r.normalize.value
    have hfuse := fuse_tally l.normalize.value r.normalize.value
    rw [log_normalize_seq, normalize_seq, leaves_seq]
    exact (ihl.append (ihr.append hfuse)).of_eq (by omega) (by omega)

/-- Joining two plans that are fused beforehand is accounted for in the same way. -/
theorem joinNormalized_tally (l : Plan m α β) (r : Plan m β γ) :
    Tally (l.joinNormalized r).log
      (l.leaves + r.leaves - (l.normalize.value.leaves + r.normalize.value.leaves))
      (l.normalize.value.leaves + r.normalize.value.leaves - 1) := by
  have hl := leaves_normalize_le l
  have hr := leaves_normalize_le r
  have hposl := leaves_pos l.normalize.value
  have hposr := leaves_pos r.normalize.value
  have hjoin := Tally.single_joined l.normalize.value.kind r.normalize.value.kind
  have hall := l.normalize_tally.append (r.normalize_tally.append hjoin)
  show Tally (l.normalize.log ++ (r.normalize.log ++ [.joined _ _])) _ _
  exact hall.of_eq (by omega) (by omega)

end Plan

end PlanFusion
