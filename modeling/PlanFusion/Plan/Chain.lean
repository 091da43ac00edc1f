import PlanFusion.Plan.Fusion

/-!
# PlanFusion — chains

A chain is what comes of putting operators one by one behind a plan, each with a join of its own, so
that every join has a single operator on its right. How far a chain can be folded instead is a
question about forms: each operator in turn either has a row in the fusion table with what has
become of those before it, or the folding stops there.

* `Plan.extend` — a chain of operators behind a plan;
* `Kind.fold?`, `Plan.fold?` — one kind, or one plan, for all operators of a chain;
* `Kind.StopsAt`, `Kind.IsFirstStop` — where the folding comes to an end.
-/

namespace PlanFusion

-- ---------------------------------------------------------------------------
-- Forms
-- ---------------------------------------------------------------------------

namespace Kind

/-- The kind that comes of folding forms into a kind by the fusion table, from left to right. -/
def fold? (k : Kind) (forms : List Form) : Option Kind :=
  forms.foldlM (fun k form => k.fuse? form.kind) k

/-- The table has no row for the `i`-th form, counted from one, and the kind that comes of the forms
before it. -/
def StopsAt (k : Kind) (forms : List Form) (i : Nat) : Prop :=
  ∃ before form after, forms = before ++ form :: after ∧ before.length + 1 = i ∧
    ∃ k', k.fold? before = some k' ∧ k'.fuse? form.kind = none

/-- The folding stops at the `i`-th form and not before, or it does not stop at all and `i` is the
place behind the last form. -/
structure IsFirstStop (k : Kind) (forms : List Form) (i : Nat) : Prop where
  stops : k.StopsAt forms i ∨ i = forms.length + 1
  least : ∀ j < i, ¬k.StopsAt forms j

@[simp] theorem fold?_nil (k : Kind) : k.fold? [] = some k := rfl

theorem fold?_cons (k : Kind) (form : Form) (forms : List Form) :
    k.fold? (form :: forms) = (k.fuse? form.kind).bind fun k' => k'.fold? forms := by
  rw [fold?, List.foldlM_cons]
  rfl

theorem fold?_append (k : Kind) (xs ys : List Form) :
    k.fold? (xs ++ ys) = (k.fold? xs).bind fun k' => k'.fold? ys := by
  rw [fold?, List.foldlM_append]
  rfl

/-- Where the folding stops there is no kind for all forms. -/
theorem StopsAt.fold?_eq_none {k : Kind} {forms : List Form} {i : Nat} (h : k.StopsAt forms i) :
    k.fold? forms = none := by
  obtain ⟨before, form, after, rfl, -, k', hbefore, hform⟩ := h
  rw [fold?_append, hbefore, Option.bind_some, fold?_cons, hform, Option.bind_none]

theorem StopsAt.one_le {k : Kind} {forms : List Form} {i : Nat} (h : k.StopsAt forms i) :
    1 ≤ i := by
  obtain ⟨before, _, _, -, rfl, -⟩ := h
  exact Nat.le_add_left 1 before.length

theorem StopsAt.le_length {k : Kind} {forms : List Form} {i : Nat} (h : k.StopsAt forms i) :
    i ≤ forms.length := by
  obtain ⟨before, form, after, rfl, rfl, -⟩ := h
  rw [List.length_append, List.length_cons]
  omega

/-- If the first form folds, the folding goes on with the others. -/
theorem stopsAt_cons {k k' : Kind} {form : Form} {forms : List Form}
    (h : k.fuse? form.kind = some k') {i : Nat} :
    k.StopsAt (form :: forms) (i + 1) ↔ k'.StopsAt forms i := by
  constructor
  · rintro ⟨before, next, after, hforms, hlength, k'', hbefore, hnext⟩
    cases before with
    | nil =>
      rw [List.nil_append, List.cons.injEq] at hforms
      rw [fold?_nil, Option.some.injEq] at hbefore
      rw [← hbefore, ← hforms.1, h] at hnext
      cases hnext
    | cons first before =>
      rw [List.cons_append, List.cons.injEq] at hforms
      rw [← hforms.1, fold?_cons, h, Option.bind_some] at hbefore
      rw [List.length_cons] at hlength
      exact ⟨before, next, after, hforms.2, by omega, k'', hbefore, hnext⟩
  · rintro ⟨before, next, after, rfl, rfl, k'', hbefore, hnext⟩
    refine ⟨form :: before, next, after, rfl, rfl, k'', ?_, hnext⟩
    rw [fold?_cons, h, Option.bind_some, hbefore]

theorem isFirstStop_nil (k : Kind) : k.IsFirstStop [] 1 where
  stops := Or.inr rfl
  least := by
    intro j hj hstop
    have hpos := hstop.one_le
    omega

theorem isFirstStop_cons_of_none {k : Kind} {form : Form} (h : k.fuse? form.kind = none)
    (forms : List Form) : k.IsFirstStop (form :: forms) 1 where
  stops := Or.inl ⟨[], form, forms, rfl, rfl, k, rfl, h⟩
  least := by
    intro j hj hstop
    have hpos := hstop.one_le
    omega

theorem IsFirstStop.cons {k k' : Kind} {form : Form} {forms : List Form}
    (h : k.fuse? form.kind = some k') {i : Nat} (hi : k'.IsFirstStop forms i) :
    k.IsFirstStop (form :: forms) (i + 1) where
  stops := by
    rcases hi.stops with hstop | hend
    · exact Or.inl ((stopsAt_cons h).mpr hstop)
    · exact Or.inr (congrArg (· + 1) hend)
  least := by
    intro j hj hstop
    have hpos := hstop.one_le
    obtain ⟨j', rfl⟩ : ∃ j', j = j' + 1 := ⟨j - 1, by omega⟩
    exact hi.least j' (by omega) ((stopsAt_cons h).mp hstop)

/-- Forms that do not all fold have one at which the folding stops. -/
theorem exists_stopsAt {k : Kind} {forms : List Form} (h : k.fold? forms = none) :
    ∃ i, k.StopsAt forms i := by
  induction forms generalizing k with
  | nil => cases h
  | cons form forms ih =>
    rw [fold?_cons] at h
    cases hform : k.fuse? form.kind with
    | none => exact ⟨1, [], form, forms, rfl, rfl, k, rfl, hform⟩
    | some k' =>
      rw [hform, Option.bind_some] at h
      obtain ⟨i, hi⟩ := ih h
      exact ⟨i + 1, (stopsAt_cons hform).mpr hi⟩

/-- All forms fold exactly if the folding does not stop at any of them. -/
theorem IsFirstStop.isSome_fold?_iff {k : Kind} {forms : List Form} {i : Nat}
    (hi : k.IsFirstStop forms i) : (k.fold? forms).isSome ↔ i = forms.length + 1 := by
  constructor
  · intro hfolds
    rcases hi.stops with hstop | hend
    · rw [hstop.fold?_eq_none] at hfolds
      cases hfolds
    · exact hend
  · intro hend
    cases hfold : k.fold? forms with
    | some k' => rfl
    | none =>
      obtain ⟨j, hj⟩ := exists_stopsAt hfold
      have hle := hj.le_length
      exact (hi.least j (by omega) hj).elim

end Kind

-- ---------------------------------------------------------------------------
-- Plans
-- ---------------------------------------------------------------------------

namespace Plan

variable {m : Type → Type} {α β γ : Type}

/-- The operators of a path behind a plan, with one join for each. -/
def extend {α β γ : Type} : Plan m α β → Path m β γ → Plan m α γ
  | p, .nil => p
  | p, .cons o rest => (seq p (operator o)).extend rest

theorem leaves_extend (p : Plan m α β) (ops : Path m β γ) :
    (p.extend ops).leaves = p.leaves + ops.forms.length := by
  induction ops with
  | nil => rfl
  | cons o rest ih =>
    rw [extend, ih, leaves_seq, Path.forms, List.length_cons]
    show p.leaves + 1 + rest.forms.length = p.leaves + (rest.forms.length + 1)
    omega

/-- The text of a chain is nested to the left. -/
theorem text_extend (p : Plan m α β) (ops : Path m β γ) :
    (p.extend ops).text =
      ops.forms.foldl (fun text form => "Combine(" ++ text ++ ", " ++ form.text ++ ")") p.text := by
  induction ops with
  | nil => rfl
  | cons o rest ih =>
    rw [extend, ih]
    rfl

variable [Monad m]

/-- The plan that comes of folding the operators of a path into a plan by the rules of fusion. -/
def fold? {α β γ : Type} : Plan m α β → Path m β γ → Option (Plan m α γ)
  | p, .nil => some p
  | p, .cons o rest => (p.fuse? (operator o)).bind fun q => q.fold? rest

/-- The table tells whether a plan comes of the folding, and of what kind. -/
theorem kind_fold? (p : Plan m α β) (ops : Path m β γ) :
    (p.fold? ops).map kind = p.kind.fold? ops.forms := by
  induction ops with
  | nil => rfl
  | cons o rest ih =>
    rw [fold?, Path.forms, Kind.fold?_cons]
    have hkind : (p.fuse? (operator o)).map kind = p.kind.fuse? o.form.kind := p.kind_fuse? _
    rw [← hkind]
    cases p.fuse? (operator o) with
    | none => rfl
    | some q => exact ih q

end Plan

end PlanFusion
