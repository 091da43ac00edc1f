import PlanFusion.Proofs.Plan.Alike

/-!
# PlanFusion — plans in a larger world

A widened plan runs its callables in the first component of a larger world and never looks at the
second one. It is therefore the plan itself as long as that component holds still, step by step and
with the same accumulators, although the two machines are built from different callables.

* `bisim_trans`, `start_trans` — carrying the callables of a plan into another world changes
  nothing if it changes nothing for each callable;
* `bisim_widen`, `start_widen` — the same for a larger world that keeps its second component;
* `Alike.widen` — alike plans are still alike in a larger world.
-/

namespace PlanFusion

variable {ω τ α β γ : Type}

-- ---------------------------------------------------------------------------
-- Callables in another world
-- ---------------------------------------------------------------------------

section Trans

variable {W : τ → ω → Prop} (t : {α : Type} → Action ω α → Action τ α)

/-- The same state of an operator and of the operator in another world. -/
def Operator.SameState {α β : Type} : (o : Operator (Action ω) α β) →
    (o.trans t).machine.State → o.machine.State → Prop
  | identity => fun _ _ => True
  | map _ => fun _ _ => True
  | filter _ => fun _ _ => True
  | filterMap _ => fun _ _ => True
  | flatMap _ => fun _ _ => True
  | take _ => fun (count count' : Nat) => count = count'
  | drop _ => fun (count count' : Nat) => count = count'
  | mapAccum _ _ => Eq

/-- The same states of all operators. -/
def Plan.SameState {α β : Type} : (p : Plan (Action ω) α β) →
    (p.trans t).machine.State → p.machine.State → Prop
  | operator o => o.SameState t
  | seq left right => Beside left.SameState right.SameState

variable {t} (ht : ∀ {α : Type} (a : Action ω α), Action.Agree Eq W (t a) a)
include ht

theorem Operator.bisim_trans (o : Operator (Action ω) α β) :
    Machine.Bisim W (o.trans t).machine o.machine (o.SameState t) := by
  cases o with
  | identity => exact Machine.bisim_stateless fun x => Action.agree_pure rfl
  | map f =>
    refine Machine.bisim_stateless fun x => ?_
    exact Action.agree_map (ht (f x)) fun y y' hy => congrArg Reply.one hy
  | filter p =>
    refine Machine.bisim_stateless fun x => ?_
    refine Action.agree_bind (ht (p x)) fun b b' hb => ?_
    subst hb
    cases b with
    | true => exact Action.agree_pure rfl
    | false => exact Action.agree_pure rfl
  | filterMap f =>
    refine Machine.bisim_stateless fun x => ?_
    exact Action.agree_map (ht (f x)) fun y y' hy => congrArg Reply.ofOption hy
  | flatMap f =>
    refine Machine.bisim_stateless fun x => ?_
    exact Action.agree_map (ht (f x)) fun ys ys' hys => congrArg Reply.ofList hys
  | take n =>
    refine Machine.bisim_ofTransition fun count x => ?_
    by_cases h : count < n
    · rw [if_pos h, if_pos h]
      exact Action.agree_pure rfl
    · rw [if_neg h, if_neg h]
      exact Action.agree_pure rfl
  | drop n =>
    refine Machine.bisim_ofTransition fun count x => ?_
    by_cases h : count < n
    · rw [if_pos h, if_pos h]
      exact Action.agree_pure rfl
    · rw [if_neg h, if_neg h]
      exact Action.agree_pure rfl
  | mapAccum init step =>
    refine Machine.bisim_ofTransition fun s x => ?_
    refine Action.agree_bind (ht (step s x)) fun q q' hq => ?_
    rw [hq]
    exact Action.agree_pure rfl

theorem Operator.start_trans (o : Operator (Action ω) α β) :
    Action.Agree (o.SameState t) W (o.trans t).start o.start := by
  cases o with
  | mapAccum init step => exact ht init
  | take | drop => exact Action.agree_pure rfl
  | identity | map | filter | filterMap | flatMap => exact Action.agree_pure trivial

/-- A plan in another world answers as the plan itself. -/
theorem Plan.bisim_trans (p : Plan (Action ω) α β) :
    Machine.Bisim W (p.trans t).machine p.machine (p.SameState t) := by
  induction p with
  | operator o => exact o.bisim_trans ht
  | seq left right ihl ihr => exact Machine.bisim_seq ihl ihr

/-- A plan in another world starts as the plan itself. -/
theorem Plan.start_trans (p : Plan (Action ω) α β) :
    Action.Agree (p.SameState t) W (p.trans t).start p.start := by
  induction p with
  | operator o => exact o.start_trans ht
  | seq left right ihl ihr =>
    refine Action.agree_bind ihl fun s s' hs => ?_
    refine Action.agree_bind ihr fun u u' hu => ?_
    exact Action.agree_pure ⟨hs, hu⟩

end Trans

-- ---------------------------------------------------------------------------
-- A larger world
-- ---------------------------------------------------------------------------

/-- The larger world is the smaller one beside `z`. -/
def Holding (z : τ) : ω × τ → ω → Prop :=
  fun v w => v = (w, z)

namespace Plan

variable (z : τ)

theorem bisim_widen (p : Plan (Action ω) α β) :
    Machine.Bisim (Holding z) p.widen.machine p.machine (p.SameState Action.onFirst) :=
  p.bisim_trans (Action.agree_onFirst z)

theorem start_widen (p : Plan (Action ω) α β) :
    Action.Agree (p.SameState Action.onFirst) (Holding z) p.widen.start p.start :=
  p.start_trans (Action.agree_onFirst z)

/-- Alike plans are alike in a larger world too. -/
theorem Alike.widen {p q : Plan (Action ω) α β} (h : p.Alike q) :
    (p.widen : Plan (Action (ω × τ)) α β).Alike q.widen := by
  -- States of the widened plans are related through states of the plans themselves.
  refine alike_of_start (S := fun s t => ∃ s' t', p.SameState Action.onFirst s s' ∧
    AlikeFrom p q s' t' ∧ q.SameState Action.onFirst t t') ?_ ?_
  · rintro x ⟨s, w, z⟩ ⟨t, v⟩ ⟨⟨s', t', hs, hst, ht⟩, hv⟩
    dsimp only at hs hst ht hv
    subst hv
    have hp := p.bisim_widen z x (s, (w, z)) (s', w) ⟨hs, rfl⟩
    have hpq := Process.bisim_alike p.machine q.machine x (s', w) (t', w) ⟨hst, rfl⟩
    have hq := q.bisim_widen z x (t, (w, z)) (t', w) ⟨ht, rfl⟩
    refine ((hp.comp hpq).comp hq.symm).mono ?_ ?_
    · rintro r r' ⟨_, ⟨_, rfl, rfl⟩, rfl⟩
      rfl
    · rintro ⟨a, _⟩ ⟨b, _⟩ ⟨⟨b', w''⟩, ⟨⟨a', w'⟩, ⟨ha, rfl⟩, hab, rfl⟩, hb, rfl⟩
      exact ⟨⟨a', b', ha, hab, hb⟩, rfl⟩
  · rintro ⟨w, z⟩ v rfl
    have hp := p.start_widen z (w, z) w rfl
    have hpq := h.start w w rfl
    have hq := q.start_widen z (w, z) w rfl
    refine ((hp.comp hpq).comp hq.symm).mono ?_ ?_
    · rintro a b ⟨b', ⟨a', ha, hab⟩, hb⟩
      exact ⟨a', b', ha, hab, hb⟩
    · rintro _ _ ⟨w'', ⟨w', rfl, rfl⟩, rfl⟩
      rfl

end Plan

end PlanFusion
