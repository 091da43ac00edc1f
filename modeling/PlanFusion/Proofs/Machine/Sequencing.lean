import PlanFusion.Proofs.Machine.Bisimulation

/-!
# PlanFusion — the laws of machines in sequence

Sequencing has a unit, the machine that repeats what it is given, and is associative, but each law
has its price:

* `bisim_identity_seq` — the unit on the left costs nothing;
* `bisim_seq_identity` — the unit on the right turns an empty expansion into a skip, so that the
  other machine must be `Settled`, which means that it never puts out one;
* `bisim_seq_assoc` — machines may be regrouped if the first one is `Unexpanding`. Inside an
  expansion a regrouped machine has the middle machine look at more or fewer elements;
* `bisim_stateless_seq` — two machines that remember nothing are one, if the left one puts out at
  most one element. This is what fusion rests on.
-/

namespace PlanFusion.Machine

variable {ω σ τ ρ κ α β γ δ : Type}

-- ---------------------------------------------------------------------------
-- One step
-- ---------------------------------------------------------------------------

section Step

variable {L : Machine ω α β} {R : Machine ω β γ} {x : α} {s s' : L.State} {w w' : ω}
  {l : List Record}

/-- If the left machine fails, the right one is not asked. -/
theorem step_seq_of_error {e : Failure}
    (h : L.step x (s, w) = { result := .error e, world := (s', w'), log := l }) (t : R.State) :
    (L.seq R).step x ((s, t), w) =
      { result := .error e, world := ((s', t), w'), log := l } := by
  have houter : (L.step x).onOuter ((s, t), w) =
      { result := .error e, world := ((s', t), w'), log := l } := Action.on_of_eq .outer ((s, t), w) h
  exact Action.bind_of_error houter _

/-- The right machine makes something of the reply of the left one. -/
theorem step_seq_of_ok {r : Reply β}
    (h : L.step x (s, w) = { result := .ok r, world := (s', w'), log := l }) (t : R.State) :
    (L.seq R).step x ((s, t), w) =
      ((R.follow r (t, w')).mapWorld fun v => ((s', v.1), v.2)).after l := by
  have houter : (L.step x).onOuter ((s, t), w) =
      { result := .ok r, world := ((s', t), w'), log := l } := Action.on_of_eq .outer ((s, t), w) h
  exact Action.bind_of_ok houter _

/-- An expansion is collected and then settled. -/
theorem follow_many (R : Machine ω β γ) (ys : List β) :
    R.follow (.many ys) = .ofList <$> R.collect ys := by
  rw [map_eq_pure_bind]
  rfl

/-- An expansion fails if the pass over it does. -/
theorem follow_many_of_failed {ys : List β} {v : R.State × ω} {e : Failure}
    (h : (feed R.step ys v).ending = .failed e) :
    R.follow (.many ys) v =
      { result := .error e, world := (feed R.step ys v).world, log := (feed R.step ys v).log } := by
  rw [follow_many, Action.map_apply]
  simp only [collect, Pass.toOutcome, h]
  rfl

/-- An expansion gives what comes out of the pass over it, even if that was aborted. -/
theorem follow_many_of_completed {ys : List β} {v : R.State × ω}
    (h : (feed R.step ys v).ending.isFailed = false) :
    R.follow (.many ys) v =
      { result := .ok (.ofList (feed R.step ys v).out)
        world := (feed R.step ys v).world
        log := (feed R.step ys v).log } := by
  have hresult : (R.collect ys v).result = .ok (feed R.step ys v).out := Pass.toOutcome_result h
  rw [follow_many, Action.map_apply, hresult]
  rfl

end Step

-- ---------------------------------------------------------------------------
-- Replies
-- ---------------------------------------------------------------------------

theorem yields_ofTransition {p : Reply β → Prop} {f : σ → α → Action ω (σ × Reply β)}
    (h : ∀ s x, (f s x).Yields fun q => p q.2) (x : α) : ((ofTransition f).step x).Yields p := by
  rintro ⟨s, w⟩ r hr
  have hf := h s x w
  simp only [ofTransition] at hr
  rcases ho : f s x w with ⟨_ | ⟨s', r'⟩, w', l⟩
  · rw [ho] at hr
    cases hr
  · rw [ho] at hr hf
    cases hr
    exact hf _ rfl

/-- The machine never replies with an empty expansion. -/
def Settled (M : Machine ω α β) : Prop :=
  ∀ x, (M.step x).Yields fun r => r ≠ .many []

/-- The machine never replies with an expansion at all. -/
def Unexpanding (M : Machine ω α β) : Prop :=
  ∀ x, (M.step x).Yields fun r => r.isExpansion = false

theorem ofList_ne_many_nil (ys : List β) : Reply.ofList ys ≠ .many [] := by
  cases ys <;> simp [Reply.ofList]

/-- A reply of two machines comes from the right one, or from a list that has been settled. -/
theorem settled_seq (L : Machine ω α β) {R : Machine ω β γ} (hR : R.Settled) :
    (L.seq R).Settled := by
  intro x
  refine Action.yields_bind fun r => Action.yields_on ?_ .inner
  cases r with
  | one y => exact hR y
  | many ys => exact Action.yields_bind fun zs => Action.yields_pure (ofList_ne_many_nil zs)
  | skip => exact Action.yields_pure (by simp)
  | abort => exact Action.yields_pure (by simp)

/-- The machine never replies with a single output. What it puts out comes from expansions. -/
def Bundled (M : Machine ω α β) : Prop :=
  ∀ x, (M.step x).Yields fun r => ∀ y, r ≠ .one y

/-- What comes out of an expansion is an expansion. -/
theorem ofList_ne_one (ys : List β) (y : β) : Reply.ofList ys ≠ .one y := by
  cases ys <;> simp [Reply.ofList]

/-- A single output of the right machine takes a single output of the left one. -/
theorem follow_bundled {R : Machine ω β γ} {r : Reply β} (h : R.Bundled ∨ ∀ y, r ≠ .one y) :
    (R.follow r).Yields fun q => ∀ y, q ≠ .one y := by
  cases r with
  | one y =>
    obtain hR | hr := h
    · exact hR y
    · exact absurd rfl (hr y)
  | many ys => exact Action.yields_bind fun zs => Action.yields_pure (ofList_ne_one zs)
  | skip => exact Action.yields_pure nofun
  | abort => exact Action.yields_pure nofun

theorem bundled_seq_left {L : Machine ω α β} (hL : L.Bundled) (R : Machine ω β γ) :
    (L.seq R).Bundled := by
  rintro x ⟨⟨s, t⟩, w⟩ q hq
  rcases h : L.step x (s, w) with ⟨_ | r, ⟨s', w'⟩, l⟩
  · rw [step_seq_of_error h] at hq
    cases hq
  · rw [step_seq_of_ok h] at hq
    have hr : ∀ y, r ≠ .one y := hL x (s, w) r (congrArg Outcome.result h)
    exact follow_bundled (.inr hr) (t, w') q hq

theorem bundled_seq_right (L : Machine ω α β) {R : Machine ω β γ} (hR : R.Bundled) :
    (L.seq R).Bundled := by
  intro x
  exact Action.yields_bind fun r => Action.yields_on (follow_bundled (.inl hR)) .inner

/-- Without expansions on either side there is none to put together. -/
theorem unexpanding_seq {L : Machine ω α β} {R : Machine ω β γ} (hL : L.Unexpanding)
    (hR : R.Unexpanding) : (L.seq R).Unexpanding := by
  rintro x ⟨⟨s, t⟩, w⟩ r hr
  rcases h : L.step x (s, w) with ⟨_ | r', ⟨s', w'⟩, l⟩
  · rw [step_seq_of_error h] at hr
    cases hr
  · rw [step_seq_of_ok h] at hr
    have hr' : r'.isExpansion = false := hL x (s, w) r' (congrArg Outcome.result h)
    cases r' with
    | one y => exact hR y (t, w') r hr
    | many ys => cases hr'
    | skip => cases hr; rfl
    | abort => cases hr; rfl

-- ---------------------------------------------------------------------------
-- The unit
-- ---------------------------------------------------------------------------

/-- The machine that repeats what it is given. -/
def identity : Machine ω α α :=
  stateless fun x => pure (.one x)

theorem bisim_identity_seq (M : Machine ω α β) :
    Bisim Eq (identity.seq M) M fun s t => s.2 = t := by
  intro x
  exact Action.agree_along Prod.snd (fun _ _ => eq_comm) fun _ _ => rfl

/-- A pass of the identity puts out what it is given. -/
theorem feed_identity (xs : List α) (w : (identity : Machine ω α α).State × ω) :
    feed identity.step xs w =
      { ending := .exhausted, world := w, out := xs, pulled := xs.length } := by
  induction xs with
  | nil => rfl
  | cons x xs ih =>
    have hstep : identity.step x w = { result := .ok (.one x), world := w } := rfl
    rw [feed_cons_of_ok hstep rfl, ih]
    rfl

/-- The identity repeats every reply but the empty expansion. -/
theorem follow_identity {r : Reply α} (hr : r ≠ .many []) :
    (identity : Machine ω α α).follow r = pure r := by
  cases r with
  | one x => rfl
  | skip => rfl
  | abort => rfl
  | many xs =>
    have hcollect : (identity : Machine ω α α).collect xs = pure xs := by
      refine funext fun w => ?_
      unfold collect
      rw [feed_identity]
      rfl
    rw [follow, hcollect, pure_bind]
    cases xs with
    | nil => exact absurd rfl hr
    | cons x xs => rfl

theorem bisim_seq_identity {M : Machine ω α β} (hM : M.Settled) :
    Bisim Eq (M.seq identity) M fun s t => s.1 = t := by
  intro x
  have hleft : Action.Agree Eq
      (Beside (fun (s : M.State × (identity : Machine ω β β).State) t => s.1 = t) Eq)
      (M.step x).onOuter (M.step x) :=
    Action.agree_along Prod.fst (fun _ _ => eq_comm) fun _ _ => rfl
  have hsettled : ((M.step x).onOuter :
      Action ((M.State × (identity : Machine ω β β).State) × ω) (Reply β)).Yields
        fun r => r ≠ .many [] :=
    fun w r hr => hM x (w.1.1, w.2) r hr
  rw [← bind_pure (M.step x)]
  refine Action.agree_bind (hleft.and_yields hsettled) ?_
  rintro r r' ⟨rfl, hr⟩
  rw [follow_identity hr]
  exact Action.agree_pure rfl

-- ---------------------------------------------------------------------------
-- Regrouping
-- ---------------------------------------------------------------------------

/-- The same three states in the other grouping. -/
def Regrouped (s : (σ × τ) × ρ) (t : σ × (τ × ρ)) : Prop :=
  t = (s.1.1, (s.1.2, s.2))

/-- Actions on the same states in either grouping agree if they do the same to them. -/
theorem agree_regrouped {a : Action (((σ × τ) × ρ) × ω) κ} {b : Action ((σ × (τ × ρ)) × ω) κ}
    (h : ∀ s t u w, b ((s, (t, u)), w) =
      (a (((s, t), u), w)).mapWorld fun v => ((v.1.1.1, (v.1.1.2, v.1.2)), v.2)) :
    Action.Agree Eq (Beside Regrouped Eq) a b :=
  Action.agree_along _ (fun _ _ => Iff.rfl) fun s w => h s.1.1 s.1.2 s.2 w

/-- Three actions give the same three values in either grouping. -/
theorem agree_regrouped_pairs (a : Action ω σ) (b : Action ω τ) (c : Action ω ρ) :
    Action.Agree Regrouped Eq
      ((a >>= fun s => b >>= fun t => pure (s, t)) >>= fun p => c >>= fun u => pure (p, u))
      (a >>= fun s => (b >>= fun t => c >>= fun u => pure (t, u)) >>= fun q => pure (s, q)) := by
  simp only [bind_assoc, pure_bind]
  refine Action.agree_bind (Action.agree_eq_iff.mpr rfl) fun s s' hs => ?_
  refine Action.agree_bind (Action.agree_eq_iff.mpr rfl) fun t t' ht => ?_
  refine Action.agree_bind (Action.agree_eq_iff.mpr rfl) fun u u' hu => ?_
  subst hs ht hu
  exact Action.agree_pure rfl

/-- An element that is not expanded goes through the same steps in either grouping. -/
theorem bisim_seq_assoc {A : Machine ω α β} (hA : A.Unexpanding) (B : Machine ω β γ)
    (C : Machine ω γ δ) : Bisim Eq ((A.seq B).seq C) (A.seq (B.seq C)) Regrouped := by
  intro x
  have houter : Action.Agree Eq (Beside (Regrouped (τ := B.State) (ρ := C.State)) Eq)
    (A.step x).onOuter.onOuter (A.step x).onOuter := agree_regrouped fun _ _ _ _ => rfl
  have hfirst := houter.and_yields (p := fun r => r.isExpansion = false)
    fun w r hr => hA x (w.1.1.1, w.2) r hr
  have hexpand : ((A.seq B).seq C).step x =
      (A.step x).onOuter.onOuter >>= fun r => (B.follow r).onInner.onOuter >>= fun r' =>
        (C.follow r').onInner := by
    simp only [seq, Action.onOuter_bind, bind_assoc]
  rw [hexpand]
  refine Action.agree_bind hfirst ?_
  rintro r r' ⟨rfl, hr⟩
  cases r with
  | one y =>
    show Action.Agree Eq _ _ ((B.step y).onOuter >>= fun r' => (C.follow r').onInner).onInner
    rw [Action.onInner_bind]
    refine Action.agree_bind (agree_regrouped fun _ _ _ _ => rfl) fun q q' hq => ?_
    rw [hq]
    exact agree_regrouped fun _ _ _ _ => rfl
  | many ys => cases hr
  | skip => exact Action.agree_pure rfl
  | abort => exact Action.agree_pure rfl

-- ---------------------------------------------------------------------------
-- Machines that remember nothing
-- ---------------------------------------------------------------------------

/-- What a step makes of an output that may be missing. -/
def onSome (g : β → Action ω (Reply γ)) : Option β → Action ω (Reply γ)
  | some y => g y
  | none => pure .skip

/-- Two machines that remember nothing, the left one with at most one output for each element, are
one machine that remembers nothing. -/
theorem bisim_stateless_seq (f : α → Action ω (Option β)) (g : β → Action ω (Reply γ)) :
    Bisim Eq ((stateless fun x => .ofOption <$> f x).seq (stateless g))
      (stateless fun x => f x >>= onSome g) fun _ _ => True := by
  intro x
  have hfirst : Action.Agree Eq (Beside (fun (_ : Unit × Unit) (_ : Unit) => True) Eq)
      (f x).onSecond.onOuter (f x).onSecond :=
    Action.agree_along (fun _ => ()) (fun _ _ => iff_of_true trivial rfl) fun _ _ => rfl
  have hsecond : ∀ y, Action.Agree Eq (Beside (fun (_ : Unit × Unit) (_ : Unit) => True) Eq)
      (g y).onSecond.onInner (g y).onSecond :=
    fun y => Action.agree_along (fun _ => ()) (fun _ _ => iff_of_true trivial rfl) fun _ _ => rfl
  show Action.Agree Eq _ ((.ofOption <$> f x : Action ω (Reply β)).onSecond.onOuter >>= _)
    (f x >>= onSome g).onSecond
  rw [map_eq_pure_bind, Action.onSecond_bind, Action.onOuter_bind, bind_assoc,
    Action.onSecond_bind]
  refine Action.agree_bind hfirst fun y y' hy => ?_
  subst hy
  cases y with
  | some y => exact hsecond y
  | none => exact Action.agree_pure rfl

end PlanFusion.Machine
