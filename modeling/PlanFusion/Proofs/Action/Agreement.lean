import PlanFusion.Action

/-!
# PlanFusion — actions that agree

Two actions *agree* when nobody who runs them in related worlds can tell them apart: they fail in
the same way or give related values, they log the same, and the worlds that they leave are related
again. The relation of the worlds is the same before and after, so agreement goes through
everything that actions are made of.

A failure leaves a world too. It must be related as well, or else the two could be told apart
later on.

* `Action.Agree` — the notion, with `Outcome.Agree` for what actions leave behind;
* `agree_bind` — agreement of two actions from agreement of the actions in them;
* `agree_along` — actions in states one of which is a function of the other;
* `Beside` — a relation of run states beside a relation of worlds;
* `agree_on`, `agree_on_eq` — actions on parts of worlds;
* `Action.Yields` — what all values of an action have in common.
-/

namespace PlanFusion

universe u v

/-- The same failure, or values that `Q` relates. -/
inductive ResultRel {α : Type u} {β : Type v} (Q : α → β → Prop) :
    Except Failure α → Except Failure β → Prop where
  | ok {x : α} {y : β} (h : Q x y) : ResultRel Q (.ok x) (.ok y)
  | error (e : Failure) : ResultRel Q (.error e) (.error e)

theorem resultRel_eq_iff {α : Type u} {r r' : Except Failure α} : ResultRel Eq r r' ↔ r = r' := by
  constructor
  · intro h
    cases h with
    | ok hxy => rw [hxy]
    | error e => rfl
  · rintro rfl
    cases r with
    | ok x => exact .ok rfl
    | error e => exact .error e

/-- What two actions leave behind if they agree: `Q` is about their values, `W` about the worlds. -/
structure Outcome.Agree {ω τ : Type} {α : Type u} {β : Type v} (Q : α → β → Prop)
    (W : ω → τ → Prop) (o : Outcome ω α) (o' : Outcome τ β) : Prop where
  result : ResultRel Q o.result o'.result
  world : W o.world o'.world
  log : o.log = o'.log

section Relations

variable {ω τ κ : Type} {α β γ : Type u} {Q : α → β → Prop} {W : ω → τ → Prop}

theorem ResultRel.mono {Q' : α → β → Prop} {r : Except Failure α} {r' : Except Failure β}
    (h : ResultRel Q r r') (hQ : ∀ x y, Q x y → Q' x y) : ResultRel Q' r r' := by
  cases h with
  | ok hxy => exact .ok (hQ _ _ hxy)
  | error e => exact .error e

theorem ResultRel.symm {r : Except Failure α} {r' : Except Failure β} (h : ResultRel Q r r') :
    ResultRel (fun y x => Q x y) r' r := by
  cases h with
  | ok hxy => exact .ok hxy
  | error e => exact .error e

theorem ResultRel.comp {P : β → γ → Prop} {r : Except Failure α} {r' : Except Failure β}
    {r'' : Except Failure γ} (h : ResultRel Q r r') (h' : ResultRel P r' r'') :
    ResultRel (fun x z => ∃ y, Q x y ∧ P y z) r r'' := by
  cases h with
  | ok hxy =>
    cases h' with
    | ok hyz => exact .ok ⟨_, hxy, hyz⟩
  | error e =>
    cases h' with
    | error e => exact .error e

variable {o : Outcome ω α} {o' : Outcome τ β} {o'' : Outcome κ γ}

theorem Outcome.Agree.mono {Q' : α → β → Prop} {W' : ω → τ → Prop} (h : o.Agree Q W o')
    (hQ : ∀ x y, Q x y → Q' x y) (hW : ∀ w v, W w v → W' w v) : o.Agree Q' W' o' :=
  ⟨h.result.mono hQ, hW _ _ h.world, h.log⟩

theorem Outcome.Agree.symm (h : o.Agree Q W o') :
    o'.Agree (fun y x => Q x y) (fun v w => W w v) o :=
  ⟨h.result.symm, h.world, h.log.symm⟩

/-- Outcomes that agree are both failures or both values. -/
theorem Outcome.Agree.result_cases (h : o.Agree Q W o') :
    (∃ e w v l, W w v ∧ o = { result := .error e, world := w, log := l } ∧
      o' = { result := .error e, world := v, log := l }) ∨
    (∃ x y w v l, Q x y ∧ W w v ∧ o = { result := .ok x, world := w, log := l } ∧
      o' = { result := .ok y, world := v, log := l }) := by
  obtain ⟨r, w, l⟩ := o
  obtain ⟨r', v, l'⟩ := o'
  obtain ⟨hresult, hworld, hlog⟩ := h
  dsimp only at hresult hworld hlog
  subst hlog
  cases hresult with
  | ok hxy => exact .inr ⟨_, _, w, v, l, hxy, hworld, rfl, rfl⟩
  | error e => exact .inl ⟨e, w, v, l, hworld, rfl, rfl⟩

/-- Agreement with a third outcome goes through the second one. -/
theorem Outcome.Agree.comp {P : β → γ → Prop} {V : τ → κ → Prop} (h : o.Agree Q W o')
    (h' : o'.Agree P V o'') :
    o.Agree (fun x z => ∃ y, Q x y ∧ P y z) (fun w u => ∃ v, W w v ∧ V v u) o'' :=
  ⟨h.result.comp h'.result, ⟨_, h.world, h'.world⟩, h.log.trans h'.log⟩

end Relations

/-- Two actions that cannot be told apart in worlds that `W` relates. -/
def Action.Agree {ω τ α β : Type} (Q : α → β → Prop) (W : ω → τ → Prop) (a : Action ω α)
    (b : Action τ β) : Prop :=
  ∀ w v, W w v → (a w).Agree Q W (b v)

/-- Every value that the action gives satisfies `P`. -/
def Action.Yields {ω α : Type} (P : α → Prop) (a : Action ω α) : Prop :=
  ∀ w x, (a w).result = .ok x → P x

/-- Related states beside related worlds. -/
def Beside {σ σ' ω τ : Type} (S : σ → σ' → Prop) (W : ω → τ → Prop) : σ × ω → σ' × τ → Prop :=
  fun p q => S p.1 q.1 ∧ W p.2 q.2

namespace Action

variable {ω τ κ σ σ' ρ ρ' α β γ δ : Type} {W : ω → τ → Prop} {Q : α → β → Prop}
  {P : γ → δ → Prop}

-- ---------------------------------------------------------------------------
-- The parts of actions
-- ---------------------------------------------------------------------------

theorem agree_pure {x : α} {y : β} (h : Q x y) :
    Agree Q W (pure x : Action ω α) (pure y : Action τ β) := by
  intro w v hW
  exact ⟨.ok h, hW, rfl⟩

theorem agree_bind {a : Action ω α} {b : Action τ β} {f : α → Action ω γ} {g : β → Action τ δ}
    (h : Agree Q W a b) (hfg : ∀ x y, Q x y → Agree P W (f x) (g y)) :
    Agree P W (a >>= f) (b >>= g) := by
  intro w v hW
  obtain ⟨e, w', v', l, hW', ha, hb⟩ | ⟨x, y, w', v', l, hxy, hW', ha, hb⟩ :=
    (h w v hW).result_cases
  · rw [bind_of_error ha, bind_of_error hb]
    exact ⟨.error e, hW', rfl⟩
  · -- the worlds that `a` and `b` leave are related, and so `f` and `g` go on alike
    rw [bind_of_ok ha, bind_of_ok hb]
    have hrest := hfg x y hxy w' v' hW'
    exact ⟨hrest.result, hrest.world, congrArg (l ++ ·) hrest.log⟩

theorem agree_map {a : Action ω α} {b : Action τ β} {f : α → γ} {g : β → δ} (h : Agree Q W a b)
    (hfg : ∀ x y, Q x y → P (f x) (g y)) : Agree P W (f <$> a) (g <$> b) := by
  rw [map_eq_pure_bind, map_eq_pure_bind]
  exact agree_bind h fun x y hxy => agree_pure (hfg x y hxy)

/-- To change the value of an action is to agree with it up to that change. -/
theorem agree_bind_pure {S : β → α → Prop} (a : Action ω α) {f : α → β} (h : ∀ x, S (f x) x) :
    Agree S Eq (a >>= fun x => pure (f x)) a := by
  rintro w v rfl
  rcases ha : a w with ⟨e | x, w', l⟩
  · rw [bind_of_error ha]
    exact ⟨.error e, rfl, rfl⟩
  · rw [bind_of_ok ha]
    exact ⟨.ok (h x), rfl, List.append_nil l⟩

/-- Two actions that both do `a` on a part of their worlds. -/
theorem agree_of_part {a : Action κ α} {b : Action ω α} {c : Action τ α}
    (h : ∀ w v, W w v → ∃ k f g, b w = (a k).mapWorld f ∧ c v = (a k).mapWorld g ∧
      ∀ k', W (f k') (g k')) : Agree Eq W b c := by
  intro w v hW
  obtain ⟨k, f, g, hb, hc, hfg⟩ := h w v hW
  rw [hb, hc]
  exact ⟨resultRel_eq_iff.mpr rfl, hfg _, rfl⟩

/-- Actions agree along a function of the states if the right one does in the image of each state
what the left one does in that state. -/
theorem agree_along {S : σ → σ' → Prop} (f : σ → σ') (hS : ∀ s t, S s t ↔ t = f s)
    {a : Action (σ × ω) α} {b : Action (σ' × ω) α}
    (h : ∀ s w, b (f s, w) = (a (s, w)).mapWorld fun v => (f v.1, v.2)) :
    Agree Eq (Beside S Eq) a b := by
  refine agree_of_part (a := a) ?_
  rintro ⟨s, w⟩ ⟨t, v⟩ ⟨hst, hwv⟩
  obtain rfl : t = f s := (hS s t).mp hst
  obtain rfl : w = v := hwv
  exact ⟨(s, w), id, fun v => (f v.1, v.2), rfl, h s w, fun k => ⟨(hS _ _).mpr rfl, rfl⟩⟩

theorem agree_eq_iff {a b : Action ω α} : Agree Eq Eq a b ↔ a = b := by
  constructor
  · intro h
    refine funext fun w => ?_
    obtain ⟨hresult, hworld, hlog⟩ := h w w rfl
    exact Outcome.ext (resultRel_eq_iff.mp hresult) hworld hlog
  · rintro rfl w v rfl
    exact ⟨resultRel_eq_iff.mpr rfl, rfl, rfl⟩

/-- The values of agreeing actions share what the values of the left one have in common. -/
theorem Agree.and_yields {p : α → Prop} {a : Action ω α} {b : Action τ β} (h : Agree Q W a b)
    (hp : Yields p a) : Agree (fun x y => Q x y ∧ p x) W a b := by
  intro w v hW
  have hvalue := hp w
  obtain ⟨e, w', v', l, hW', ha, hb⟩ | ⟨x, y, w', v', l, hxy, hW', ha, hb⟩ :=
    (h w v hW).result_cases
  · rw [ha, hb]
    exact ⟨.error e, hW', rfl⟩
  · rw [ha] at hvalue
    rw [ha, hb]
    exact ⟨.ok ⟨hxy, hvalue x rfl⟩, hW', rfl⟩

-- ---------------------------------------------------------------------------
-- Worlds within worlds
-- ---------------------------------------------------------------------------

/-- Actions that agree on parts of two worlds agree on the worlds, if these are related as long as
their parts are. -/
theorem agree_on {V : κ → ρ → Prop} {p : Part ω κ} {q : Part τ ρ}
    (hget : ∀ w v, W w v → V (p.get w) (q.get v))
    (hput : ∀ w v k k', W w v → V k k' → W (p.put w k) (q.put v k')) {a : Action κ α}
    {b : Action ρ β} (h : Agree Q V a b) : Agree Q W (a.on p) (b.on q) := by
  intro w v hW
  obtain ⟨hresult, hworld, hlog⟩ := h (p.get w) (q.get v) (hget w v hW)
  exact ⟨hresult, hput w v _ _ hW hworld, hlog⟩

/-- Actions that agree in equal worlds still do so on the same part of a larger one. -/
theorem agree_on_eq (p : Part ω κ) {a : Action κ α} {b : Action κ β} (h : Agree Q Eq a b) :
    Agree Q Eq (a.on p) (b.on p) := by
  refine agree_on ?_ ?_ h
  · rintro w _ rfl
    rfl
  · rintro w _ k _ rfl rfl
    rfl

/-- An action does not see what stands beside its world. -/
theorem agree_onFirst (z : τ) (a : Action ω α) :
    Agree Eq (fun v w => v = (w, z)) (a.onFirst : Action (ω × τ) α) a := by
  refine agree_of_part (a := a) ?_
  rintro v w rfl
  exact ⟨w, fun k => (k, z), id, rfl, rfl, fun k => rfl⟩

theorem agree_onSecond {a : Action ω α} {b : Action τ β} (S : σ → σ' → Prop) (h : Agree Q W a b) :
    Agree Q (Beside S W) a.onSecond b.onSecond :=
  agree_on (fun _ _ hw => hw.2) (fun _ _ _ _ hw hk => ⟨hw.1, hk⟩) h

theorem agree_onOuter {S : σ → σ' → Prop} {T : ρ → ρ' → Prop} {a : Action (σ × ω) α}
    {b : Action (σ' × τ) β} (h : Agree Q (Beside S W) a b) :
    Agree Q (Beside (Beside S T) W) a.onOuter b.onOuter :=
  agree_on (fun _ _ hw => ⟨hw.1.1, hw.2⟩) (fun _ _ _ _ hw hk => ⟨⟨hk.1, hw.1.2⟩, hk.2⟩) h

theorem agree_onInner {S : σ → σ' → Prop} {T : ρ → ρ' → Prop} {a : Action (ρ × ω) α}
    {b : Action (ρ' × τ) β} (h : Agree Q (Beside T W) a b) :
    Agree Q (Beside (Beside S T) W) a.onInner b.onInner :=
  agree_on (fun _ _ hw => ⟨hw.1.2, hw.2⟩) (fun _ _ _ _ hw hk => ⟨⟨hw.1.1, hk.1⟩, hk.2⟩) h

-- ---------------------------------------------------------------------------
-- Values
-- ---------------------------------------------------------------------------

theorem yields_pure {p : α → Prop} {x : α} (h : p x) : Yields p (pure x : Action ω α) := by
  rintro w y ⟨⟩
  exact h

theorem yields_bind {p : β → Prop} {a : Action ω α} {f : α → Action ω β}
    (h : ∀ x, Yields p (f x)) : Yields p (a >>= f) := by
  intro w y hy
  rcases ha : a w with ⟨_ | x, w', l⟩
  · rw [bind_of_error ha] at hy
    cases hy
  · rw [bind_of_ok ha] at hy
    exact h x w' y hy

theorem yields_map {p : β → Prop} {f : α → β} (a : Action ω α) (h : ∀ x, p (f x)) :
    Yields p (f <$> a) := by
  rw [map_eq_pure_bind]
  exact yields_bind fun x => yields_pure (h x)

theorem yields_on {q : α → Prop} {a : Action κ α} (h : Yields q a) (p : Part ω κ) :
    Yields q (a.on p) := by
  intro w x hx
  exact h (p.get w) x hx

end Action

end PlanFusion
