import PlanFusion.Proofs.Plan.Normality
import PlanFusion.Proofs.Plan.Regrouping
import PlanFusion.Proofs.Plan.Transparency

/-!
# PlanFusion — where the operators of a fused plan come from

Fusion works on trees, and an operator of the result may come from rules that were applied at joins
of any depth. Seen along the path of the plan, however, it has only merged neighbours: the path is
cut into blocks, and each block has become one operator. Nothing is lost, doubled or moved, and what
remembers something is a block of its own.

* `Form.isFusible`, `Form.remembers` — what may be merged with its neighbours and what never is;
* `MergeInto`, `Form.Merges` — which forms the operators of a block have, and those of a rule;
* `Path.IsBlock` — an operator and the block that it stands for;
* `Path.Condenses` — a path and the path of its blocks;
* `IsBlock.fuse`, `condenses_fuse`, `condenses_normalize` — one rule, one join and all joins;
* `normalize_keeps_order` — the result, with what it means for operators that remember something.
-/

namespace PlanFusion

-- ---------------------------------------------------------------------------
-- Forms of blocks
-- ---------------------------------------------------------------------------

namespace Form

/-- The operator does something to each element, and remembers nothing of it. -/
def isFusible : Form → Bool
  | map | filter | filterMap | flatMap => true
  | _ => false

/-- What the operator does to an element depends on the elements before it. -/
def remembers : Form → Bool
  | take _ | drop _ | mapAccum => true
  | _ => false

theorem remembers_of_isFusible {form : Form} (h : form.isFusible) : form.remembers = false := by
  cases form with
  | take | drop | mapAccum => simp [isFusible] at h
  | _ => rfl

theorem ne_identity_of_isFusible {form : Form} (h : form.isFusible) : form ≠ .identity := by
  rintro rfl
  simp [isFusible] at h

end Form

/-- Operators of these forms, in this order, may have become one of form `form`. Only the last of
them may expand, and then the one does. -/
structure MergeInto (forms : List Form) (form : Form) : Prop where
  fusible : ∀ f ∈ forms, f.isFusible
  only_last : .flatMap ∉ forms.dropLast
  result : form.isFusible
  expands : form = .flatMap ↔ .flatMap ∈ forms

namespace MergeInto

variable {xs ys : List Form} {x y z : Form}

theorem single (h : x.isFusible) : MergeInto [x] x where
  fusible := by
    intro f hf
    rw [List.mem_singleton.mp hf]
    exact h
  only_last := List.not_mem_nil
  result := h
  expands := by rw [List.mem_singleton, eq_comm]

/-- If the first operators do not expand, they may be merged with those behind them. -/
theorem append (hx : MergeInto xs x) (hy : MergeInto ys y) (hxne : x ≠ .flatMap) (hys : ys ≠ [])
    (hresult : z.isFusible) (hexpands : z = .flatMap ↔ y = .flatMap) : MergeInto (xs ++ ys) z := by
  have hxs : .flatMap ∉ xs := fun h => hxne (hx.expands.mpr h)
  refine ⟨?_, ?_, hresult, ?_⟩
  · intro f hf
    rcases List.mem_append.mp hf with h | h
    · exact hx.fusible f h
    · exact hy.fusible f h
  · rw [List.dropLast_append_of_ne_nil hys, List.mem_append, not_or]
    exact ⟨hxs, hy.only_last⟩
  · rw [hexpands, hy.expands, List.mem_append]
    exact (or_iff_right hxs).symm

end MergeInto

/-- What the rows of the fusion table for two operators have in common. An operator that expands is
never on the left, and on the right it decides that the result expands. -/
structure Form.Merges (l r f : Form) : Prop where
  left : l.isFusible
  left_ne : l ≠ .flatMap
  right : r.isFusible
  result : f.isFusible
  expands : f = .flatMap ↔ r = .flatMap

theorem Operator.fuse?_form {m : Type → Type} [Monad m] {α β γ : Type} {o : Operator m α β}
    {o' : Operator m β γ} {f : Operator m α γ} (h : o.fuse? o' = some f) :
    Form.Merges o.form o'.form f.form := by
  cases o <;> cases o' <;> simp only [Operator.fuse?, Option.some.injEq, reduceCtorEq] at h <;>
    subst h <;> constructor <;> simp [form, Form.isFusible]

-- ---------------------------------------------------------------------------
-- Blocks of a path
-- ---------------------------------------------------------------------------

variable {ω α β γ : Type}

namespace Path

/-- The operator stands for the block: no observer can tell it from the operators of the block in
sequence. A block of one operator is that operator, and the others are merged. -/
structure IsBlock (block : Path (Action ω) α β) (o : Operator (Action ω) α β) : Prop where
  alike : (Plan.operator o).Alike block.plan
  alone_or_merged : block = .cons o .nil ∧ o.form ≠ .identity ∨
    2 ≤ block.forms.length ∧ MergeInto block.forms o.form

/-- The first path can be cut into blocks, and the second one has their operators in order. -/
inductive Condenses : {α β : Type} → Path (Action ω) α β → Path (Action ω) α β → Prop where
  | nil {α : Type} : Condenses (.nil : Path (Action ω) α α) .nil
  | cons {α β γ : Type} {block : Path (Action ω) α β} {o : Operator (Action ω) α β}
      {p q : Path (Action ω) β γ} (h : block.IsBlock o) (rest : Condenses p q) :
      Condenses (block.append p) (.cons o q)

theorem isBlock_single {o : Operator (Action ω) α β} (h : o.form ≠ .identity) :
    (cons o nil).IsBlock o where
  alike := (Plan.seq_identity_alike (.operator o)).symm
  alone_or_merged := Or.inl ⟨rfl, h⟩

/-- What is known of a block whose operator can be merged with others. -/
theorem IsBlock.mergeInto {block : Path (Action ω) α β} {o : Operator (Action ω) α β}
    (h : block.IsBlock o) (ho : o.form.isFusible) :
    block.forms ≠ [] ∧ MergeInto block.forms o.form := by
  rcases h.alone_or_merged with ⟨rfl, -⟩ | ⟨hlength, hmerged⟩
  · exact ⟨List.cons_ne_nil _ _, MergeInto.single ho⟩
  · refine ⟨?_, hmerged⟩
    intro hnil
    rw [hnil] at hlength
    cases hlength

/-- Where a rule merges two operators, it merges their blocks. -/
theorem IsBlock.fuse {b : Path (Action ω) α β} {c : Path (Action ω) β γ}
    {o : Operator (Action ω) α β} {o' : Operator (Action ω) β γ} {f : Operator (Action ω) α γ}
    (hb : b.IsBlock o) (hc : c.IsBlock o') (h : o.fuse? o' = some f) : (b.append c).IsBlock f := by
  have hforms := Operator.fuse?_form h
  obtain ⟨hbne, hbforms⟩ := hb.mergeInto hforms.left
  obtain ⟨hcne, hcforms⟩ := hc.mergeInto hforms.right
  constructor
  · -- the blocks in sequence are the block of both, because the left one does not expand
    have hrule := (Plan.fuse?_operator_alike h).symm
    have hsides := Plan.alike_seq hb.alike hc.alike
    have hblocks : (Plan.seq b.plan c.plan).Alike (b.append c).plan := by
      refine seqLaws_alike.seq_plan b c ?_
      intro form hmem heq
      rw [heq] at hmem
      exact hforms.left_ne (hbforms.expands.mpr hmem)
    exact hrule.trans (hsides.trans hblocks)
  · right
    rw [forms_append]
    refine ⟨?_, hbforms.append hcforms hforms.left_ne hcne hforms.result hforms.expands⟩
    have hblen := List.length_pos_iff.mpr hbne
    have hclen := List.length_pos_iff.mpr hcne
    rw [List.length_append]
    omega

theorem Condenses.append {p q : Path (Action ω) α β} {p' q' : Path (Action ω) β γ}
    (h : p.Condenses q) (h' : p'.Condenses q') : (p.append p').Condenses (q.append q') := by
  induction h with
  | nil => exact h'
  | cons hblock _ ih =>
    rw [append_assoc]
    exact .cons hblock (ih h')

theorem IsBlock.condenses {p : Path (Action ω) α β} {o : Operator (Action ω) α β}
    (h : p.IsBlock o) : p.Condenses (.cons o .nil) := by
  rw [← append_nil p]
  exact .cons h .nil

theorem Condenses.eq_nil {p : Path (Action ω) α α} (h : p.Condenses .nil) : p = .nil := by
  cases h with
  | nil => rfl

theorem Condenses.isBlock {p : Path (Action ω) α β} {o : Operator (Action ω) α β}
    (h : p.Condenses (.cons o .nil)) : p.IsBlock o := by
  cases h with
  | cons hblock hrest =>
    rw [hrest.eq_nil, append_nil]
    exact hblock

-- ---------------------------------------------------------------------------
-- Operators that remember something
-- ---------------------------------------------------------------------------

/-- The operators of the path that remember something, callables and all, with the types of what
they take and put out. -/
def remembering {m : Type → Type} {α β : Type} :
    Path m α β → List (Σ ends : Type × Type, Operator m ends.1 ends.2)
  | nil => []
  | cons o rest =>
    if o.form.remembers then ⟨(_, _), o⟩ :: rest.remembering else rest.remembering

section Remembering

variable {m : Type → Type}

theorem remembering_cons (o : Operator m α β) (p : Path m β γ) :
    (cons o p).remembering = (cons o nil).remembering ++ p.remembering := by
  simp only [remembering]
  cases o.form.remembers with
  | true => rfl
  | false => rfl

theorem remembering_append (p : Path m α β) (q : Path m β γ) :
    (p.append q).remembering = p.remembering ++ q.remembering := by
  induction p with
  | nil => rfl
  | cons o p ih =>
    show (cons o (p.append q)).remembering = _
    rw [remembering_cons, remembering_cons o p, ih, List.append_assoc]

theorem remembering_eq_nil {p : Path m α β} (h : ∀ form ∈ p.forms, form.remembers = false) :
    p.remembering = [] := by
  induction p with
  | nil => rfl
  | cons o p ih =>
    have ho : o.form.remembers = false := h o.form (List.mem_cons_self ..)
    have hp : p.remembering = [] := ih fun form hmem => h form (List.mem_cons_of_mem _ hmem)
    simp only [remembering, ho, hp]
    rfl

/-- An identity remembers nothing. -/
theorem remembering_active (p : Path m α β) : p.active.remembering = p.remembering := by
  induction p with
  | nil => rfl
  | cons o p ih =>
    by_cases ho : o.form = .identity
    · cases o with
      | identity => exact ih
      | _ => cases ho
    · rw [active_cons ho, remembering_cons, ih, ← remembering_cons]

end Remembering

/-- A block remembers something only if it is the one operator that does. -/
theorem IsBlock.remembering_eq {block : Path (Action ω) α β} {o : Operator (Action ω) α β}
    (h : block.IsBlock o) : block.remembering = (cons o .nil).remembering := by
  rcases h.alone_or_merged with ⟨rfl, -⟩ | ⟨-, hmerged⟩
  · rfl
  · have ho : (cons o .nil).remembering = [] := by
      refine remembering_eq_nil ?_
      intro form hmem
      rw [List.mem_singleton.mp hmem]
      exact Form.remembers_of_isFusible hmerged.result
    have hblock : block.remembering = [] := by
      refine remembering_eq_nil ?_
      intro form hmem
      exact Form.remembers_of_isFusible (hmerged.fusible form hmem)
    rw [hblock, ho]

theorem Condenses.remembering_eq {p q : Path (Action ω) α β} (h : p.Condenses q) :
    p.remembering = q.remembering := by
  induction h with
  | nil => rfl
  | cons hblock _ ih =>
    rw [remembering_append, hblock.remembering_eq, ih, ← remembering_cons]

end Path

-- ---------------------------------------------------------------------------
-- Fusion
-- ---------------------------------------------------------------------------

namespace Plan

open PlanFusion.Path (Condenses)

theorem active_operator {o : Operator (Action ω) α β} (ho : o.form ≠ .identity) :
    (operator o).path.active = .cons o .nil :=
  Path.active_cons ho .nil

/-- What happens at one join happens to blocks of the two sides: an identity disappears, two
operators become one, or all stay as they are. -/
theorem condenses_fuse {p : Path (Action ω) α β} {q : Path (Action ω) β γ}
    {l : Plan (Action ω) α β} {r : Plan (Action ω) β γ} (hl : p.Condenses l.path.active)
    (hr : q.Condenses r.path.active) : (p.append q).Condenses (l.fuse r).value.path.active := by
  rcases fuse_cases l r with ⟨f, hf, hfuse⟩ | ⟨-, hfuse⟩
  · rw [hfuse]
    cases hf with
    | identity_left =>
      rw [hl.eq_nil]
      exact hr
    | identity_right =>
      rw [hr.eq_nil, Path.append_nil]
      exact hl
    | operators hrule =>
      have hforms := Operator.fuse?_form hrule
      rw [active_operator (Form.ne_identity_of_isFusible hforms.left)] at hl
      rw [active_operator (Form.ne_identity_of_isFusible hforms.right)] at hr
      rw [active_operator (Form.ne_identity_of_isFusible hforms.result)]
      exact (hl.isBlock.fuse hr.isBlock hrule).condenses
  · rw [hfuse]
    show (p.append q).Condenses (l.path.append r.path).active
    rw [Path.active_append]
    exact hl.append hr

/-- Fusion turns the path of a plan into the path of its blocks, identities aside. -/
theorem condenses_normalize (p : Plan (Action ω) α β) :
    p.path.active.Condenses p.normalize.value.path.active := by
  induction p with
  | operator o =>
    show (operator o).path.active.Condenses (operator o).path.active
    by_cases ho : o.form = .identity
    · cases o with
      | identity => exact Condenses.nil
      | _ => cases ho
    · rw [active_operator ho]
      exact (Path.isBlock_single ho).condenses
  | seq l r ihl ihr =>
    rw [normalize_seq]
    show (l.path.append r.path).active.Condenses _
    rw [Path.active_append]
    exact condenses_fuse ihl ihr

/-- A fused plan with anything to do has no identities left. -/
theorem active_normalize {p : Plan (Action ω) α β} (h : ¬p.IsIdle) :
    p.normalize.value.path.active = p.normalize.value.path := by
  refine Path.active_eq_self ?_
  intro hmem
  rw [forms_path] at hmem
  have halone := (normalize_isNormal p).identityAlone hmem
  exact h (p.normalize_shape_eq_identity_iff.mp halone)

/-- **Fusion neither loses, doubles nor moves operators.** Unless a plan has nothing but identities,
the path of its fused plan comes from its own path by leaving out the identities, cutting the rest
into blocks, and putting one operator in the place of each block. The operator does what its block
does. A block of several operators has none that remembers something, and only its last one may
expand. So the operators that remember something are the same before and after, in the same order
and with the same counts and callables. -/
theorem normalize_keeps_order (p : Plan (Action ω) α β) (h : ¬p.IsIdle) :
    p.path.active.Condenses p.normalize.value.path ∧
    p.normalize.value.path.remembering = p.path.remembering := by
  have hblocks := condenses_normalize p
  rw [active_normalize h] at hblocks
  refine ⟨hblocks, ?_⟩
  rw [← hblocks.remembering_eq, Path.remembering_active]

/-- Note an element in the world, and pass it on if it is even. -/
def noteEven (x : Nat) : Action (List Nat) Bool := do
  Action.modify (x :: ·)
  pure (x % 2 == 0)

/-- The halves of the first three even elements, twice each. -/
def evenHalves : Plan (Action (List Nat)) Nat Nat :=
  .seq
    (.seq (.operator (.filter noteEven))
      (.seq (.operator .identity) (.operator (.map fun x => pure (x / 2)))))
    (.seq (.operator (.take 3)) (.operator (.flatMap fun x => pure [x, x])))

/-- The filter and the map become one operator, although the identity stands between them. The
count stays apart. -/
theorem normalize_keeps_order_evenHalves :
    ¬evenHalves.IsIdle ∧
    evenHalves.path.active.forms = [.filter, .map, .take 3, .flatMap] ∧
    evenHalves.path.active.Condenses evenHalves.normalize.value.path ∧
    evenHalves.normalize.value.path.forms = [.filterMap, .take 3, .flatMap] ∧
    evenHalves.normalize.value.path.remembering = [⟨(Nat, Nat), .take 3⟩] := by
  have hbusy : ¬evenHalves.IsIdle := by decide
  obtain ⟨hblocks, hremembering⟩ := normalize_keeps_order evenHalves hbusy
  refine ⟨hbusy, rfl, hblocks, rfl, ?_⟩
  rw [hremembering]
  rfl

end Plan

end PlanFusion
