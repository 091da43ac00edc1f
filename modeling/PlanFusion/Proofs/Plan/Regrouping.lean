import PlanFusion.Proofs.Plan.Meaning

/-!
# PlanFusion — the nesting of joins does not matter

Two plans with the same path, identities aside, do the same however their joins are nested. To see
this every plan is regrouped into the plan of its path, in which each join has a single operator on
its left. Three laws do the work: the identity is a unit on both sides, and a join may be moved
past an operator on its left.

The third law is the one that can fail. Behind an operator that expands, the middle plan of the two
groupings looks at more or fewer elements after the last plan has aborted. If a callable can be
seen to run, this can be seen. If the callables are functions it cannot: the last plan is exhausted
by then, and an operator that expands never asks it for anything but whole expansions, of which
nothing comes any more.

* `Path.plan` — the plan of a path;
* `SeqLaws`, `SeqLaws.path_plan`, `SeqLaws.of_active_eq` — the regrouping, for any likeness of plans
  that has the laws;
* `seqLaws_alike` — the laws hold for plans without expansions, whatever their callables do;
* `Transducer.regrouped_flatMap`, `seqLaws_lift` — they hold for all plans of functions;
* `nesting_irrelevant` — what an observer sees of this.
-/

namespace PlanFusion

-- ---------------------------------------------------------------------------
-- Plans of paths
-- ---------------------------------------------------------------------------

/-- The plan that has a single operator on the left of each join. -/
def Path.plan {m : Type → Type} {α β : Type} : Path m α β → Plan m α β
  | nil => .operator .identity
  | cons o rest => .seq (.operator o) rest.plan

theorem Path.forms_active {m : Type → Type} {α β : Type} (p : Path m α β) :
    p.active.forms = p.forms.filter (· ≠ .identity) := by
  induction p with
  | nil => rfl
  | cons o rest ih =>
    cases o with
    | identity => exact ih
    | _ => exact congrArg (_ :: ·) ih

/-- What a likeness of plans needs so that joins may be regrouped. The last law is only asked for
operators of the forms in `Ok`. -/
structure SeqLaws {m : Type → Type} (R : {α β : Type} → Plan m α β → Plan m α β → Prop)
    (Ok : Form → Prop) : Prop where
  refl : ∀ {α β : Type} (p : Plan m α β), R p p
  symm : ∀ {α β : Type} {p q : Plan m α β}, R p q → R q p
  trans : ∀ {α β : Type} {p q r : Plan m α β}, R p q → R q r → R p r
  seq : ∀ {α β γ : Type} {l l' : Plan m α β} {r r' : Plan m β γ}, R l l' → R r r' →
    R (.seq l r) (.seq l' r')
  identity_seq : ∀ {α β : Type} (p : Plan m α β), R (.seq (.operator .identity) p) p
  seq_identity : ∀ {α β : Type} (p : Plan m α β), R (.seq p (.operator .identity)) p
  regroup : ∀ {α β γ δ : Type} {o : Operator m α β} (b : Plan m β γ) (c : Plan m γ δ), Ok o.form →
    R (.seq (.seq (.operator o) b) c) (.seq (.operator o) (.seq b c))

namespace SeqLaws

variable {m : Type → Type} {R : {α β : Type} → Plan m α β → Plan m α β → Prop}
  {Ok : Form → Prop} {α β γ : Type}

/-- Regrouping moves the joins of one path behind another into the plan of both. -/
theorem seq_plan (laws : SeqLaws R Ok) (p : Path m α β) (q : Path m β γ)
    (hp : ∀ form ∈ p.forms, Ok form) : R (.seq p.plan q.plan) (p.append q).plan := by
  induction p with
  | nil => exact laws.identity_seq q.plan
  | cons o rest ih =>
    have ho : Ok o.form := hp o.form (List.mem_cons_self ..)
    have hrest : ∀ form ∈ rest.forms, Ok form := fun form h => hp form (List.mem_cons_of_mem _ h)
    have hmoved := laws.regroup rest.plan q.plan ho
    exact laws.trans hmoved (laws.seq (laws.refl (.operator o)) (ih q hrest))

/-- Every plan can be regrouped into the plan of its path. -/
theorem path_plan (laws : SeqLaws R Ok) (p : Plan m α β) (hp : ∀ form ∈ p.path.forms, Ok form) :
    R p p.path.plan := by
  induction p with
  | operator o => exact laws.symm (laws.seq_identity (.operator o))
  | seq left right ihl ihr =>
    have hforms : (Plan.seq left right).path.forms = left.path.forms ++ right.path.forms :=
      Path.forms_append left.path right.path
    rw [hforms] at hp
    have hl : ∀ form ∈ left.path.forms, Ok form :=
      fun form h => hp form (List.mem_append_left _ h)
    have hr : ∀ form ∈ right.path.forms, Ok form :=
      fun form h => hp form (List.mem_append_right _ h)
    have hsides := laws.seq (ihl hl) (ihr hr)
    exact laws.trans hsides (laws.seq_plan left.path right.path hl)

/-- The identities of a path may be left out. -/
theorem active_plan (laws : SeqLaws R Ok) (p : Path m α β) : R p.plan p.active.plan := by
  induction p with
  | nil => exact laws.refl _
  | cons o rest ih =>
    cases o with
    | identity => exact laws.trans (laws.identity_seq rest.plan) ih
    | _ => exact laws.seq (laws.refl _) ih

/-- Plans with the same operators in the same order are related, identities aside. -/
theorem of_active_eq (laws : SeqLaws R Ok) {p q : Plan m α β}
    (hp : ∀ form ∈ p.path.forms, Ok form) (hq : ∀ form ∈ q.path.forms, Ok form)
    (h : p.path.active = q.path.active) : R p q := by
  have hleft := laws.trans (laws.path_plan p hp) (laws.active_plan p.path)
  have hright := laws.trans (laws.path_plan q hq) (laws.active_plan q.path)
  rw [h] at hleft
  exact laws.trans hleft (laws.symm hright)

end SeqLaws

-- ---------------------------------------------------------------------------
-- Plans without expansions
-- ---------------------------------------------------------------------------

variable {ω : Type}

/-- An operator that does not expand may stand to the left of a regrouped join, whatever the
callables do. -/
theorem seqLaws_alike :
    SeqLaws (fun {_ _} (p q : Plan (Action ω) _ _) => p.Alike q) (· ≠ .flatMap) where
  refl := Plan.Alike.refl
  symm := Plan.Alike.symm
  trans := Plan.Alike.trans
  seq := Plan.alike_seq
  identity_seq := Plan.identity_seq_alike
  seq_identity := Plan.seq_identity_alike
  regroup := by
    intro _ _ _ _ o b c ho
    exact Plan.seq_assoc_alike (a := .operator o) (o.unexpanding ho) b c

-- ---------------------------------------------------------------------------
-- Plans of functions
-- ---------------------------------------------------------------------------

namespace Transducer

variable {σ τ α β γ δ : Type} {U : Transducer σ β γ} {V : Transducer τ γ δ} {f : α → List β}

/-- The transducer that expands every element. -/
def expand (f : α → List β) : Transducer Unit α β :=
  ofReply fun x => .ofList (f x)

theorem next_expand_seq (u : Unit) (s : σ) (x : α) :
    ((expand f).seq U).next (u, s) x =
      (.ofList (U.pass s (f x)).out, (u, (U.pass s (f x)).world)) := by
  have hnext : (expand f).next u x = (.ofList (f x), u) := rfl
  cases hx : f x with
  | nil =>
    simp only [seq, hnext, hx]
    rfl
  | cons y ys => simp only [seq, hnext, hx, Reply.ofList]

theorem next_expand_seq_seq (u : Unit) (s : σ) (t : τ) (x : α) :
    (((expand f).seq U).seq V).next ((u, s), t) x =
      (.ofList (V.pass t (U.pass s (f x)).out).out,
        ((u, (U.pass s (f x)).world), (V.pass t (U.pass s (f x)).out).world)) := by
  have hnext := next_expand_seq (U := U) (f := f) u s x
  cases hout : (U.pass s (f x)).out with
  | nil =>
    -- The left two have nothing to hand on, which is a skip.
    rw [hout] at hnext
    simp only [seq] at hnext ⊢
    rw [hnext]
    rfl
  | cons z zs =>
    rw [hout] at hnext
    simp only [seq, Reply.ofList] at hnext ⊢
    rw [hnext]

/-- The states of three transducers in the two groupings. They are the same until the last
transducer is closed. From then on it is closed in both, and the middle one does not matter. -/
def Regrouped (E : τ → Prop) (s : (Unit × σ) × τ) (t : Unit × (σ × τ)) : Prop :=
  t.2 = (s.1.2, s.2) ∨ E s.2 ∧ E t.2.2

/-- Behind an expansion the two groupings reply alike. -/
theorem regrouped_expand {E : τ → Prop} (hV : Closes V.act E) (x : α) {s : (Unit × σ) × τ}
    {t : Unit × (σ × τ)} (h : Regrouped E s t) :
    ((((expand f).seq U).seq V).next s x).1 = (((expand f).seq (U.seq V)).next t x).1 ∧
    Regrouped E (((((expand f).seq U).seq V).next s x).2)
      ((((expand f).seq (U.seq V)).next t x).2) := by
  obtain ⟨⟨u, a⟩, b⟩ := s
  obtain ⟨u', a', b'⟩ := t
  rw [next_expand_seq_seq, next_expand_seq]
  obtain ⟨hout, hworld⟩ := pass_seq (T := U) hV (f x) a' b'
  rw [hout]
  rcases h with heq | ⟨hb, hb'⟩
  · cases heq
    refine ⟨rfl, ?_⟩
    rcases hworld with hsame | hclosed
    · exact .inl hsame
    · exact .inr ⟨hclosed.2, hclosed.1⟩
  · -- a closed transducer makes nothing of either list
    obtain ⟨hleft, hstays⟩ := feed_quiet hV (U.pass a (f x)).out hb
    obtain ⟨hright, hstays'⟩ := feed_quiet hV (U.pass a' (f x)).out hb'
    refine ⟨congrArg Reply.ofList (hleft.trans hright.symm), .inr ⟨hstays, ?_⟩⟩
    rcases hworld with hsame | hclosed
    · show E ((U.seq V).pass (a', b') (f x)).world.2
      rw [hsame]
      exact hstays'
    · exact hclosed.1

end Transducer

namespace Plan

variable {α β γ δ : Type}

/-- Behind an operator that expands, joins of plans of functions may be regrouped. -/
theorem regroup_flatMap_alike (f : α → Id (List β)) (b : Pure β γ) (c : Pure γ δ) :
    (seq (seq (operator (.flatMap f)) b) c).lift.Alike
      ((seq (operator (.flatMap f)) (seq b c)).lift : Plan (Action ω) α δ) := by
  intro calls w
  have hcloses := c.runs_lift.closes c.lift.closes w
  have hM := (seq (seq (operator (.flatMap f)) b) c).runs_lift.bisim (ω := ω)
    (seq (operator (.flatMap f)) (seq b c)).runs_lift
    (W := Eq) (S := Transducer.Regrouped c.lift.Exhausted)
    fun x s t hst => Transducer.regrouped_expand hcloses x hst
  refine alike_of_start hM ?_ calls w
  rw [start_lift, start_lift]
  exact Action.agree_pure (.inl rfl)

end Plan

/-- For plans of functions all forms of operators may stand to the left of a regrouped join. -/
theorem seqLaws_lift :
    SeqLaws (fun {_ _} (p q : Plan.Pure _ _) => (p.lift : Plan (Action ω) _ _).Alike q.lift)
      fun _ => True where
  refl := fun p => .refl p.lift
  symm := .symm
  trans := .trans
  seq := Plan.alike_seq
  identity_seq := fun p => Plan.identity_seq_alike p.lift
  seq_identity := fun p => Plan.seq_identity_alike p.lift
  regroup := by
    intro _ _ _ _ o b c _
    by_cases ho : o.form = .flatMap
    · cases o <;> simp only [Operator.form, reduceCtorEq] at ho
      case flatMap f => exact Plan.regroup_flatMap_alike f b c
    · have hlift : (o.lift : Operator (Action ω) _ _).form ≠ .flatMap := by
        rw [Operator.lift, Operator.form_trans]
        exact ho
      exact seqLaws_alike.regroup b.lift c.lift hlift

-- ---------------------------------------------------------------------------
-- What an observer sees
-- ---------------------------------------------------------------------------

namespace Plan

variable {α β : Type}

/-- Paths that agree, identities aside, agree on whether there is an expansion. -/
theorem not_flatMap_mem_of_active_eq {m : Type → Type} {p q : Plan m α β}
    (hp : .flatMap ∉ p.shape.forms) (h : p.path.active = q.path.active) :
    .flatMap ∉ q.shape.forms := by
  have hforms : p.path.active.forms = q.path.active.forms := by rw [h]
  rw [Path.forms_active, Path.forms_active, forms_path, forms_path] at hforms
  intro hmem
  have hactive : Form.flatMap ∈ q.shape.forms.filter (· ≠ .identity) :=
    List.mem_filter.mpr ⟨hmem, by decide⟩
  rw [← hforms] at hactive
  exact hp (List.mem_filter.mp hactive).1

/-- **The nesting of joins does not matter.** Let two plans have the same operators in the same
order, identities aside. If their callables are functions, they reply alike to any elements, also
after an abort, and give equal passes and runs. If instead no operator expands, the callables may do
what they like, and all that they do is the same too. -/
theorem nesting_irrelevant :
    (∀ p q : Pure α β, p.path.active = q.path.active →
      (∀ calls (w : ω), p.lift.history calls w = q.lift.history calls w) ∧
      (∀ xs (w : ω), p.lift.pass xs w = q.lift.pass xs w) ∧
      (∀ xs (w : ω), p.lift.run xs w = { q.lift.run xs w with log := (p.lift.run xs w).log })) ∧
    (∀ p q : Plan (Action ω) α β, .flatMap ∉ p.shape.forms → p.path.active = q.path.active →
      (∀ calls w, p.history calls w = q.history calls w) ∧
      (∀ xs w, p.pass xs w = q.pass xs w) ∧
      (∀ xs w, p.run xs w = { q.run xs w with log := (p.run xs w).log })) := by
  constructor
  · intro p q h
    have halike : (p.lift : Plan (Action ω) α β).Alike q.lift :=
      seqLaws_lift.of_active_eq (fun _ _ => trivial) (fun _ _ => trivial) h
    exact ⟨halike, halike.pass_eq, halike.run_eq⟩
  · intro p q hp h
    have hq := not_flatMap_mem_of_active_eq hp h
    rw [← forms_path] at hp hq
    have halike : p.Alike q := by
      refine seqLaws_alike.of_active_eq ?_ ?_ h
      · rintro form hform rfl
        exact hp hform
      · rintro form hform rfl
        exact hq hform
    exact ⟨halike, halike.pass_eq, halike.run_eq⟩

/-- Three operators, joined from the left. -/
def fromLeft {m : Type → Type} {γ δ : Type} (a : Operator m α β) (b : Operator m β γ)
    (c : Operator m γ δ) : Plan m α δ :=
  seq (seq (operator a) (operator b)) (operator c)

/-- The same three operators, joined from the right and with an identity between them. -/
def fromRight {m : Type → Type} {γ δ : Type} (a : Operator m α β) (b : Operator m β γ)
    (c : Operator m γ δ) : Plan m α δ :=
  seq (operator a) (seq (operator .identity) (seq (operator b) (operator c)))

/-- Repeat an element as often as it says. -/
def repeating : Operator Id Nat Nat :=
  .flatMap fun x => List.replicate x x

/-- Note an element in the world and keep it if it is even, but give up at zero. -/
def notingEven : Operator (Action (List Nat)) Nat Nat :=
  .filter fun x => do
    Action.modify (x :: ·)
    if x = 0 then Action.fail (.callable "zero") else pure (x % 2 == 0)

theorem nesting_irrelevant_fromLeft :
    (∀ calls (w : List Nat), (fromLeft repeating (.drop 2) (.take 2)).lift.history calls w =
      (fromRight repeating (.drop 2) (.take 2)).lift.history calls w) ∧
    ((fromRight repeating (.drop 2) (.take 2)).lift.pass [1, 2, 3] ([] : List Nat)).out = [2, 3] ∧
    (∀ calls w, (fromLeft notingEven (.drop 1) (.take 2)).history calls w =
      (fromRight notingEven (.drop 1) (.take 2)).history calls w) ∧
    ((fromRight notingEven (.drop 1) (.take 2)).pass [4, 2, 0, 7] []).world = [0, 2, 4] := by
  obtain ⟨hfunctions, hcallables⟩ := nesting_irrelevant (ω := List Nat) (α := Nat) (β := Nat)
  have hrepeating := hfunctions (fromLeft repeating (.drop 2) (.take 2))
    (fromRight repeating (.drop 2) (.take 2)) rfl
  have hnoting := hcallables (fromLeft notingEven (.drop 1) (.take 2))
    (fromRight notingEven (.drop 1) (.take 2)) (by decide) rfl
  exact ⟨hrepeating.1, rfl, hnoting.1, rfl⟩

end Plan

end PlanFusion
