/-!
# PlanFusion — properties of characters

A property of characters is carried as the closed ranges of the code points that have it. The ranges
ascend and do not touch, so each property has exactly one table, and a look-up can stop at the first
range that does not end before the code.

* `CodeRanges` — such a table;
* `CodeRanges.holds` — whether a character has the property, which is to lie in one of the ranges
  (`CodeRanges.holds_iff`).
-/

namespace PlanFusion.Text

/-- Each range ends where it starts or later, and leaves a gap before the next one. -/
def isAscending : List (Nat × Nat) → Bool
  | [] => true
  | [r] => r.1 ≤ r.2
  | r :: s :: rest => r.1 ≤ r.2 && r.2 + 1 < s.1 && isAscending (s :: rest)

/-- The code points that have a property. -/
structure CodeRanges where
  ranges : List (Nat × Nat)
  ascending : isAscending ranges = true := by decide +kernel

/-- Whether `n` lies in one of the ranges. The first one that does not end before `n` decides. -/
def liesIn (n : Nat) : List (Nat × Nat) → Bool
  | [] => false
  | r :: rest => if n ≤ r.2 then r.1 ≤ n else liesIn n rest

theorem isAscending_tail {r : Nat × Nat} {rest : List (Nat × Nat)}
    (h : isAscending (r :: rest) = true) : isAscending rest = true := by
  cases rest with
  | nil => rfl
  | cons s rest =>
    simp only [isAscending, Bool.and_eq_true] at h
    exact h.2

/-- Everything in the later ranges is above the first one. -/
theorem lt_of_mem_tail {r s : Nat × Nat} {rest : List (Nat × Nat)}
    (h : isAscending (r :: rest) = true) (hs : s ∈ rest) : r.2 < s.1 := by
  induction rest generalizing r with
  | nil => cases hs
  | cons t rest ih =>
    simp only [isAscending, Bool.and_eq_true, decide_eq_true_eq] at h
    obtain ⟨⟨_, hrt⟩, ht⟩ := h
    rcases List.mem_cons.mp hs with rfl | hs
    · omega
    · have hts := ih ht hs
      have htt : t.1 ≤ t.2 := by
        cases rest with
        | nil => cases hs
        | cons u rest =>
          simp only [isAscending, Bool.and_eq_true, decide_eq_true_eq] at ht
          exact ht.1.1
      omega

theorem liesIn_iff {n : Nat} {rs : List (Nat × Nat)} (h : isAscending rs = true) :
    liesIn n rs = true ↔ ∃ r ∈ rs, r.1 ≤ n ∧ n ≤ r.2 := by
  induction rs with
  | nil => simp [liesIn]
  | cons r rest ih =>
    rw [liesIn]
    split
    · rename_i hle
      constructor
      · intro hr
        exact ⟨r, List.mem_cons_self, of_decide_eq_true hr, hle⟩
      · rintro ⟨s, hs, hsn, _⟩
        rcases List.mem_cons.mp hs with rfl | hs
        · exact decide_eq_true hsn
        · have := lt_of_mem_tail h hs
          omega
    · rename_i hgt
      rw [ih (isAscending_tail h)]
      constructor
      · rintro ⟨s, hs, hsn⟩
        exact ⟨s, List.mem_cons_of_mem r hs, hsn⟩
      · rintro ⟨s, hs, hsn, hns⟩
        rcases List.mem_cons.mp hs with rfl | hs
        · exact absurd hns hgt
        · exact ⟨s, hs, hsn, hns⟩

namespace CodeRanges

/-- Whether a character has the property. -/
def holds (t : CodeRanges) (c : Char) : Bool :=
  liesIn c.toNat t.ranges

/-- A character has the property if and only if its code lies in one of the ranges. -/
theorem holds_iff (t : CodeRanges) (c : Char) :
    t.holds c = true ↔ ∃ r ∈ t.ranges, r.1 ≤ c.toNat ∧ c.toNat ≤ r.2 :=
  liesIn_iff t.ascending

end CodeRanges

end PlanFusion.Text
