import PlanFusion.Action

/-!
# PlanFusion — what an action does in one world

An action gives a value in a world or fails in it, and leaves another world either way. What it
logs does not matter here. For the parts that actions are made of, both can be read off the parts.

* `Action.Gives`, `Action.FailsWith` — the two ways in which an action can end;
* `gives_bind`, `failsWith_bind`, `gives_map`, `failsWith_map` — composed actions.
-/

namespace PlanFusion.Action

variable {ω α β : Type}

/-- In the world `w` the action gives `x` and leaves `w'`. -/
def Gives (a : Action ω α) (w : ω) (x : α) (w' : ω) : Prop :=
  (a w).result = .ok x ∧ (a w).world = w'

/-- In the world `w` the action fails with `e` and leaves `w'`. -/
def FailsWith (a : Action ω α) (w : ω) (e : Failure) (w' : ω) : Prop :=
  (a w).result = .error e ∧ (a w).world = w'

variable {a : Action ω α} {f : α → Action ω β} {w w' : ω} {e : Failure}

theorem gives_iff_of_ok {x y : α} {v : ω} {l : List Record}
    (h : a w = { result := .ok x, world := v, log := l }) : a.Gives w y w' ↔ y = x ∧ w' = v := by
  rw [Gives, h]
  constructor
  · rintro ⟨hx, hw⟩
    cases hx
    exact ⟨rfl, hw.symm⟩
  · rintro ⟨rfl, rfl⟩
    exact ⟨rfl, rfl⟩

theorem not_failsWith_of_ok {x : α} {v : ω} {l : List Record}
    (h : a w = { result := .ok x, world := v, log := l }) : ¬ a.FailsWith w e w' := by
  rw [FailsWith, h]
  rintro ⟨hresult, -⟩
  cases hresult

theorem gives_pure {x y : α} : (pure x : Action ω α).Gives w y w' ↔ y = x ∧ w' = w :=
  gives_iff_of_ok rfl

theorem not_failsWith_pure {x : α} : ¬ (pure x : Action ω α).FailsWith w e w' :=
  not_failsWith_of_ok rfl

theorem gives_bind {y : β} :
    (a >>= f).Gives w y w' ↔ ∃ x v, a.Gives w x v ∧ (f x).Gives v y w' := by
  constructor
  · intro h
    rcases ha : a w with ⟨e | x, v, l⟩
    · rw [Gives, bind_of_error ha] at h
      cases h.1
    · rw [Gives, bind_of_ok ha] at h
      exact ⟨x, v, ⟨by rw [ha], by rw [ha]⟩, h⟩
  · rintro ⟨x, v, ⟨hx, rfl⟩, h⟩
    have ha : a w = { result := .ok x, world := (a w).world, log := (a w).log } :=
      Outcome.ext hx rfl rfl
    rw [Gives, bind_of_ok ha]
    exact h

theorem failsWith_bind :
    (a >>= f).FailsWith w e w' ↔
      a.FailsWith w e w' ∨ ∃ x v, a.Gives w x v ∧ (f x).FailsWith v e w' := by
  constructor
  · intro h
    rcases ha : a w with ⟨e' | x, v, l⟩
    · rw [FailsWith, bind_of_error ha] at h
      obtain ⟨he, hw⟩ := h
      cases he
      exact .inl ⟨by rw [ha], by rw [ha]; exact hw⟩
    · rw [FailsWith, bind_of_ok ha] at h
      exact .inr ⟨x, v, ⟨by rw [ha], by rw [ha]⟩, h⟩
  · rintro (⟨he, rfl⟩ | ⟨x, v, ⟨hx, rfl⟩, h⟩)
    · have ha : a w = { result := .error e, world := (a w).world, log := (a w).log } :=
        Outcome.ext he rfl rfl
      rw [FailsWith, bind_of_error ha]
      exact ⟨rfl, rfl⟩
    · have ha : a w = { result := .ok x, world := (a w).world, log := (a w).log } :=
        Outcome.ext hx rfl rfl
      rw [FailsWith, bind_of_ok ha]
      exact h

theorem gives_map {g : α → β} {y : β} : (g <$> a).Gives w y w' ↔ ∃ x, g x = y ∧ a.Gives w x w' := by
  rw [map_eq_pure_bind, gives_bind]
  simp only [gives_pure]
  constructor
  · rintro ⟨x, v, ha, rfl, rfl⟩
    exact ⟨x, rfl, ha⟩
  · rintro ⟨x, rfl, ha⟩
    exact ⟨x, w', ha, rfl, rfl⟩

theorem failsWith_map {g : α → β} : (g <$> a).FailsWith w e w' ↔ a.FailsWith w e w' := by
  rw [map_eq_pure_bind, failsWith_bind]
  simp [not_failsWith_pure]

end PlanFusion.Action
