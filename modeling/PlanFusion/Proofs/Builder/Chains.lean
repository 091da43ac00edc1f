import PlanFusion.Plan.Chain
import PlanFusion.Proofs.Builder.Eagerness

/-!
# PlanFusion — the plan of a chain

A builder that fuses after every addition goes over its whole plan each time. Still its plan is easy
to tell from the operators that were added: as long as they fold they are one operator, and from the
first one that does not fold they all stay as they are. For then the plan has a join at its root,
and beside a join the table has a row for the identity only. That two operators further back would
fuse with each other does not help, because no join ever brings them together.

* `Recipe.Fusing.build_add` — one addition to a plan that is fused already;
* `Recipe.build_ofPath_of_joined` — behind a join, operators are only lined up;
* `Recipe.build_ofPath_of_operator` — behind an operator, they fold first;
* `Recipe.chain_folds_then_extends` — the plan of a chain from the empty builder.
-/

namespace PlanFusion

variable {m : Type → Type} [Monad m] {α β γ : Type}

namespace Plan

/-- Two operators never become more than one. -/
theorem fuse?_operator {o : Operator m α β} {o' : Operator m β γ} {p : Plan m α γ}
    (h : (operator o).fuse? (operator o') = some p) : ∃ f, p = operator f := by
  cases fuses_of_fuse? h with
  | identity_left => exact ⟨o', rfl⟩
  | identity_right => exact ⟨o, rfl⟩
  | operators => exact ⟨_, rfl⟩

end Plan

namespace Recipe

-- ---------------------------------------------------------------------------
-- One addition
-- ---------------------------------------------------------------------------

/-- The builder fuses, and its plan is fused already. -/
structure Fusing (r : Recipe m α β) : Prop where
  mode : r.mode = .enabled
  normal : r.build.value.plan.IsNormal

/-- Fusing the plan over and over again comes to nothing but looking at the new join. -/
theorem Fusing.build_add {r : Recipe m α β} (h : r.Fusing) (o : Operator m β γ) :
    (r.add o).build.value.plan = (r.build.value.plan.fuse (.operator o)).value := by
  have henabled : r.build.value.mode = .enabled := r.mode_build.trans h.mode
  have happend := Builder.append_of_enabled henabled (.operator o)
  rw [Plan.normalize_seq, h.normal.normalize_value] at happend
  exact happend

theorem fusing_empty : (empty : Recipe m α α).Fusing where
  mode := rfl
  normal := .operator .identity

theorem Fusing.add {r : Recipe m α β} (h : r.Fusing) (o : Operator m β γ) : (r.add o).Fusing where
  mode := h.mode
  normal := by
    rw [h.build_add]
    exact Plan.fuse_isNormal h.normal (.operator o)

/-- An operator that does not fuse with the plan so far is put behind it. -/
theorem Fusing.build_add_of_none {r : Recipe m α β} (h : r.Fusing) {o : Operator m β γ}
    (hnone : r.build.value.plan.kind.fuse? o.kind = none) :
    (r.add o).build.value.plan = .seq r.build.value.plan (.operator o) := by
  rw [h.build_add, Plan.fuse_of_none hnone]
  rfl

-- ---------------------------------------------------------------------------
-- All additions
-- ---------------------------------------------------------------------------

/-- Behind a join, operators are only lined up. -/
theorem build_ofPath_of_joined {r : Recipe m α β} (h : r.Fusing)
    (hjoined : r.build.value.plan.kind = .joined) (ops : Path m β γ)
    (hops : .identity ∉ ops.forms) :
    (r.ofPath ops).build.value.plan = r.build.value.plan.extend ops := by
  induction ops with
  | nil => rfl
  | cons o rest ih =>
    rw [Path.forms, List.mem_cons, not_or] at hops
    have hnone : r.build.value.plan.kind.fuse? o.kind = none := by
      rw [hjoined]
      exact Kind.joined_fuse? fun hkind => hops.1 (Form.kind_eq_identity_iff.mp hkind).symm
    have hadd := h.build_add_of_none hnone
    have hrest := ih (h.add o) (by rw [hadd]; rfl) hops.2
    rw [hadd] at hrest
    exact hrest

/-- Behind an operator, the operators of a chain fold into it up to the first one that does not. -/
theorem build_ofPath_of_operator {r : Recipe m α β} (h : r.Fusing) {o : Operator m α β}
    (ho : r.build.value.plan = .operator o) (ops : Path m β γ) (hops : .identity ∉ ops.forms) :
    ∃ (δ : Type) (front : Path m β δ) (back : Path m δ γ) (f : Operator m α δ),
      ops = front.append back ∧ o.kind.IsFirstStop ops.forms (front.forms.length + 1) ∧
      (Plan.operator o).fold? front = some (.operator f) ∧
      (r.ofPath ops).build.value.plan = (Plan.operator f).extend back := by
  induction ops with
  | nil => exact ⟨_, .nil, .nil, o, rfl, Kind.isFirstStop_nil o.kind, rfl, ho⟩
  | cons next rest ih =>
    rw [Path.forms, List.mem_cons, not_or] at hops
    have hkind : ((Plan.operator o).fuse? (.operator next)).map Plan.kind =
      o.kind.fuse? next.kind := Plan.kind_fuse? (.operator o) (.operator next)
    cases hfuse : (Plan.operator o).fuse? (.operator next) with
    | none =>
      -- from here on the plan has a join at its root
      rw [hfuse, Option.map_none] at hkind
      refine ⟨_, .nil, .cons next rest, o, rfl, Kind.isFirstStop_cons_of_none hkind.symm _, rfl, ?_⟩
      have hadd : (r.add next).build.value.plan = .seq (.operator o) (.operator next) := by
        rw [h.build_add_of_none (by rw [ho]; exact hkind.symm), ho]
      have hrest := build_ofPath_of_joined (h.add next) (by rw [hadd]; rfl) rest hops.2
      rw [hadd] at hrest
      exact hrest
    | some p =>
      obtain ⟨f, rfl⟩ := Plan.fuse?_operator hfuse
      rw [hfuse, Option.map_some] at hkind
      have hadd : (r.add next).build.value.plan = .operator f := by
        rw [h.build_add, ho, Plan.fuse, hfuse]
      obtain ⟨δ, front, back, f', hparts, hstop, hfold, hplan⟩ := ih (h.add next) hadd hops.2
      refine ⟨δ, .cons next front, back, f', ?_, hstop.cons hkind.symm, ?_, hplan⟩
      · rw [hparts]
        rfl
      · rw [Plan.fold?, hfuse]
        exact hfold

/-- **The plan of a chain.** Add operators one by one to the empty builder, which fuses after each.
None of them is an identity, as no method of a builder adds one. Let the `i`-th be the first one for
which the table has no row with what has become of those before it. Then these have become one
operator, by the rules of fusion, and all others follow it as they are, with one join for each. The
text of the plan is nested to the left, and the number of operators is what `i` says. So the plan is
a single operator exactly if all of them fold. -/
theorem chain_folds_then_extends (ops : Path m α β) (hops : .identity ∉ ops.forms) :
    ∃ i, Kind.identity.IsFirstStop ops.forms i ∧
      (∃ (δ : Type) (front : Path m α δ) (back : Path m δ β) (f : Operator m α δ),
        ops = front.append back ∧ front.forms.length + 1 = i ∧
        Kind.identity.fold? front.forms = some f.kind ∧
        (Plan.operator .identity).fold? front = some (.operator f) ∧
        (empty.ofPath ops).build.value.plan = (Plan.operator f).extend back ∧
        (empty.ofPath ops).build.value.plan.text = back.forms.foldl
          (fun text form => "Combine(" ++ text ++ ", " ++ form.text ++ ")") f.form.text) ∧
      (empty.ofPath ops).build.value.plan.leaves = ops.forms.length + 2 - i ∧
      ((empty.ofPath ops).build.value.plan.leaves = 1 ↔
        (Kind.identity.fold? ops.forms).isSome) := by
  obtain ⟨δ, front, back, f, hparts, hstop, hfold, hplan⟩ :=
    build_ofPath_of_operator fusing_empty rfl ops hops
  have hkind : Kind.identity.fold? front.forms = some f.kind := by
    have hkinds := Plan.kind_fold? (.operator .identity) front
    rw [hfold] at hkinds
    exact hkinds.symm
  have hlength : ops.forms.length = front.forms.length + back.forms.length := by
    rw [hparts, Path.forms_append, List.length_append]
  have hleaves : (empty.ofPath ops).build.value.plan.leaves = 1 + back.forms.length := by
    rw [hplan, Plan.leaves_extend]
    rfl
  have hfolds : (Kind.identity.fold? ops.forms).isSome ↔
      front.forms.length + 1 = ops.forms.length + 1 := hstop.isSome_fold?_iff
  have htext : (empty.ofPath ops).build.value.plan.text = back.forms.foldl
      (fun text form => "Combine(" ++ text ++ ", " ++ form.text ++ ")") f.form.text := by
    rw [hplan, Plan.text_extend]
    rfl
  refine ⟨front.forms.length + 1, hstop,
    ⟨δ, front, back, f, hparts, rfl, hkind, hfold, hplan, htext⟩, ?_, ?_⟩
  · omega
  · rw [hfolds]
    omega

/-- The first two elements of the list in which every odd number stands twice, counted up twice. -/
def oddTwice : Path Id Nat Nat :=
  .cons (.filter fun x => x % 2 == 1) <| .cons (.map fun x => x) <|
    .cons (.flatMap fun x => [x, x]) <| .cons (.take 2) <|
    .cons (.map fun x => x + 1) <| .cons (.map fun x => x + 1) .nil

/-- The folding stops at the count. The two maps behind it stay apart, although they would fuse. -/
theorem chain_folds_then_extends_oddTwice :
    .identity ∉ oddTwice.forms ∧ Kind.identity.IsFirstStop oddTwice.forms 4 ∧
    (empty.ofPath oddTwice).build.value.plan.leaves = 4 ∧
    (empty.ofPath oddTwice).build.value.plan.text =
      "Combine(Combine(Combine(FlatMap, Take[2]), Map), Map)" := by
  have hops : .identity ∉ oddTwice.forms := by decide
  have hleaves : (empty.ofPath oddTwice).build.value.plan.leaves = 4 := rfl
  obtain ⟨i, hstop, -, hcount, -⟩ := chain_folds_then_extends oddTwice hops
  have hi : i = 4 := by
    rw [hleaves] at hcount
    have hlength : oddTwice.forms.length = 6 := rfl
    omega
  rw [hi] at hstop
  exact ⟨hops, hstop, hleaves, rfl⟩

end Recipe

end PlanFusion
