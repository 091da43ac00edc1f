import PlanFusion.Proofs.Machine.Bisimulation
import PlanFusion.Proofs.Machine.Transducer

/-!
# PlanFusion — machines that keep to themselves

A machine is *autonomous* if what it replies, how it fails and which state it goes to depend on its
state and on the element alone. It may write to the world, but it learns nothing from it. Two
machines that share a world and are autonomous do not influence each other except through what one
hands to the other, so it does not matter in which order they work.

* `Action.Steady` — an action whose value does not depend on the world;
* `Machine.Autonomous` — every step of the machine is like that, and so is its next state;
* `autonomous_ofTransition`, `Runs.autonomous` — machines that are autonomous;
* `Autonomous.step_of_ok`, `Autonomous.feed` — the same step and the same pass in another world.
-/

namespace PlanFusion

variable {ω σ α β : Type}

/-- The action gives the same value, or fails in the same way, in every world. -/
def Action.Steady (a : Action ω α) : Prop :=
  Action.Agree Eq (fun _ _ => True) a a

namespace Machine

/-- What the machine does with an element, apart from the world, depends on its state alone. -/
def Autonomous (M : Machine ω α β) : Prop :=
  Bisim (fun _ _ => True) M M Eq

theorem autonomous_ofTransition {f : σ → α → Action ω (σ × Reply β)}
    (h : ∀ s x, (f s x).Steady) : (ofTransition f).Autonomous :=
  bisim_ofTransition h

/-- A machine that runs a transducer does not look at the world. -/
theorem Runs.autonomous {M : Machine ω α β} {T : Transducer M.State α β} (h : M.Runs T) :
    M.Autonomous := by
  refine h.bisim h fun x s t hst => ?_
  rw [hst]
  exact ⟨rfl, rfl⟩

section

variable {M : Machine ω α β} {s s' : M.State} {x : α} {w w' : ω} {l : List Record}

/-- In another world the machine replies the same and goes to the same state. -/
theorem Autonomous.step_of_ok {r : Reply β} (hM : M.Autonomous)
    (h : M.step x (s, w) = { result := .ok r, world := (s', w'), log := l }) (v : ω) :
    ∃ v', M.step x (s, v) = { result := .ok r, world := (s', v'), log := l } := by
  obtain ⟨e, u, u', k, -, ha, -⟩ | ⟨r', r'', u, ⟨t, v'⟩, k, hr, ⟨ht, -⟩, ha, hb⟩ :=
    (hM x (s, w) (s, v) ⟨rfl, trivial⟩).result_cases
  · rw [ha] at h
    cases h
  · rw [ha] at h
    cases h
    subst hr
    dsimp only at ht
    subst ht
    exact ⟨v', hb⟩

/-- In another world a pass of the machine ends in the same way and in the same state, with the
same outputs. -/
theorem Autonomous.feed (hM : M.Autonomous) (xs : List α) (s : M.State) (w v : ω) :
    (feed M.step xs (s, w)).ending = (feed M.step xs (s, v)).ending ∧
    (feed M.step xs (s, w)).out = (feed M.step xs (s, v)).out ∧
    (feed M.step xs (s, w)).world.1 = (feed M.step xs (s, v)).world.1 := by
  have hagree := feed_agree hM xs (w := (s, w)) (v := (s, v)) ⟨rfl, trivial⟩
  exact ⟨hagree.ending, hagree.out, hagree.world.1⟩

end

end Machine

end PlanFusion
