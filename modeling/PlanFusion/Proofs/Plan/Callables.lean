import PlanFusion.Plan.Run
import PlanFusion.Proofs.Machine.Confinement

/-!
# PlanFusion — the callables of a plan

The callables of a plan are the only part of it that fails or logs: a plan that fails to start, to
answer an element, or to get through a pass does so because one of its callables failed, with the
very failure of that callable, and whatever is logged on the way was logged by one of them.

* `Operator.Calls`, `Plan.Calls` — the actions that a plan may run;
* `Plan.machine_confined`, `Plan.start_confined`, `Plan.pass_confined` — a plan is confined to what
  its callables are confined to;
* `Plan.MayFail`, `Plan.step_mayFail` — a step that fails has the failure of a callable;
* `Plan.MayLog`, `Plan.pass_mayLog` — what a pass logs is logged by a callable;
* `Plan.calls_trans`, `Plan.not_mayLog_trans` — callables that come from another monad keep silent
  if nothing from there logs.
-/

namespace PlanFusion

/-- The action is what a callable of the operator does to some element. -/
inductive Operator.Calls {ω : Type} :
    {α β γ : Type} → Operator (Action ω) α β → Action ω γ → Prop where
  | map {α β : Type} (f : α → Action ω β) (x : α) : Calls (.map f) (f x)
  | filter {α : Type} (p : α → Action ω Bool) (x : α) : Calls (.filter p) (p x)
  | filterMap {α β : Type} (f : α → Action ω (Option β)) (x : α) : Calls (.filterMap f) (f x)
  | flatMap {α β : Type} (f : α → Action ω (List β)) (x : α) : Calls (.flatMap f) (f x)
  | init {σ α β : Type} (init : Action ω σ) (step : σ → α → Action ω (σ × β)) :
    Calls (.mapAccum init step) init
  | step {σ α β : Type} (init : Action ω σ) (step : σ → α → Action ω (σ × β)) (s : σ) (x : α) :
    Calls (.mapAccum init step) (step s x)

/-- The action is what a callable of one of the operators does to some element. -/
inductive Plan.Calls {ω : Type} : {α β γ : Type} → Plan (Action ω) α β → Action ω γ → Prop where
  | operator {α β γ : Type} {o : Operator (Action ω) α β} {a : Action ω γ} (h : o.Calls a) :
    Calls (.operator o) a
  | left {α β δ γ : Type} {l : Plan (Action ω) α β} (r : Plan (Action ω) β δ) {a : Action ω γ}
    (h : Calls l a) : Calls (.seq l r) a
  | right {α β δ γ : Type} (l : Plan (Action ω) α β) {r : Plan (Action ω) β δ} {a : Action ω γ}
    (h : Calls r a) : Calls (.seq l r) a

variable {ω α β : Type} {P : Failure → Prop} {Q : Record → Prop}

-- ---------------------------------------------------------------------------
-- Operators
-- ---------------------------------------------------------------------------

namespace Operator

theorem machine_confined (o : Operator (Action ω) α β)
    (h : ∀ {γ : Type} (a : Action ω γ), o.Calls a → a.Confined P Q) : o.machine.Confined P Q := by
  cases o with
  | identity => exact Machine.confined_stateless fun x => Action.confined_pure _
  | map f => exact Machine.confined_stateless fun x => Action.confined_map (h _ (.map f x)) _
  | filter p =>
    refine Machine.confined_stateless fun x => ?_
    refine Action.confined_bind (h _ (.filter p x)) fun b => ?_
    cases b with
    | true => exact Action.confined_pure _
    | false => exact Action.confined_pure _
  | filterMap f =>
    exact Machine.confined_stateless fun x => Action.confined_map (h _ (.filterMap f x)) _
  | flatMap f =>
    exact Machine.confined_stateless fun x => Action.confined_map (h _ (.flatMap f x)) _
  | take n | drop n =>
    refine Machine.confined_ofTransition fun count x => ?_
    split
    · exact Action.confined_pure _
    · exact Action.confined_pure _
  | mapAccum init step =>
    refine Machine.confined_ofTransition fun s x => ?_
    exact Action.confined_bind (h _ (.step init step s x)) fun q => Action.confined_pure _

theorem start_confined (o : Operator (Action ω) α β)
    (h : ∀ {γ : Type} (a : Action ω γ), o.Calls a → a.Confined P Q) : o.start.Confined P Q := by
  cases o with
  | mapAccum init step => exact h init (.init init step)
  | identity | map | filter | filterMap | flatMap | take | drop => exact Action.confined_pure _

end Operator

-- ---------------------------------------------------------------------------
-- Plans
-- ---------------------------------------------------------------------------

namespace Plan

theorem machine_confined (p : Plan (Action ω) α β)
    (h : ∀ {γ : Type} (a : Action ω γ), p.Calls a → a.Confined P Q) : p.machine.Confined P Q := by
  induction p with
  | operator o => exact o.machine_confined fun a ha => h a (.operator ha)
  | seq l r ihl ihr =>
    exact Machine.confined_seq (ihl fun a ha => h a (.left r ha))
      (ihr fun a ha => h a (.right l ha))

theorem start_confined (p : Plan (Action ω) α β)
    (h : ∀ {γ : Type} (a : Action ω γ), p.Calls a → a.Confined P Q) : p.start.Confined P Q := by
  induction p with
  | operator o => exact o.start_confined fun a ha => h a (.operator ha)
  | seq l r ihl ihr =>
    refine Action.confined_bind (ihl fun a ha => h a (.left r ha)) fun s => ?_
    refine Action.confined_bind (ihr fun a ha => h a (.right l ha)) fun t => ?_
    exact Action.confined_pure _

theorem pass_confined (p : Plan (Action ω) α β)
    (h : ∀ {γ : Type} (a : Action ω γ), p.Calls a → a.Confined P Q) (xs : List α) (w : ω) :
    (p.pass xs w).Confined P Q := by
  have hstart := p.start_confined h w
  unfold pass
  rcases hs : p.start w with ⟨e | s, w', l⟩
  · rw [hs] at hstart
    refine ⟨?_, hstart.log⟩
    rintro e' ⟨⟩
    exact hstart.failure e rfl
  · rw [hs] at hstart
    have hfeed := feed_confined (p.machine_confined h) xs (s, w')
    exact ⟨hfeed.failure, List.forall_mem_append.mpr ⟨hstart.log, hfeed.log⟩⟩

/-- One of the callables of the plan fails in this way on some element in some world. -/
def MayFail (p : Plan (Action ω) α β) (e : Failure) : Prop :=
  ∃ (γ : Type) (a : Action ω γ) (w : ω), p.Calls a ∧ (a w).result = .error e

/-- A step fails only because a callable does. -/
theorem step_mayFail (p : Plan (Action ω) α β) {x : α} {v : p.machine.State × ω} {e : Failure}
    (h : (p.machine.step x v).result = .error e) : p.MayFail e := by
  have hconfined : p.machine.Confined p.MayFail fun _ => True := by
    refine p.machine_confined fun {γ} a ha w => ⟨fun e' he' => ?_, fun _ _ => trivial⟩
    exact ⟨γ, a, w, ha, he'⟩
  exact (hconfined x v).failure e h

/-- One of the callables of the plan logs this record on some element in some world. -/
def MayLog (p : Plan (Action ω) α β) (record : Record) : Prop :=
  ∃ (γ : Type) (a : Action ω γ) (w : ω), p.Calls a ∧ record ∈ (a w).log

/-- A pass logs only what a callable does. -/
theorem pass_mayLog (p : Plan (Action ω) α β) {xs : List α} {w : ω} {record : Record}
    (h : record ∈ (p.pass xs w).log) : p.MayLog record := by
  have hconfined : (p.pass xs w).Confined (fun _ => True) p.MayLog := by
    refine p.pass_confined (fun {γ} a ha w' => ⟨fun _ _ => trivial, fun record' h' => ?_⟩) xs w
    exact ⟨γ, a, w', ha, h'⟩
  exact hconfined.log record h

end Plan

-- ---------------------------------------------------------------------------
-- Callables from another monad
-- ---------------------------------------------------------------------------

section Trans

variable {m : Type → Type} {γ : Type} {t : {α : Type} → m α → Action ω α}

theorem Operator.calls_trans {o : Operator m α β} {a : Action ω γ} (h : (o.trans t).Calls a) :
    ∃ b : m γ, a = t b := by
  cases o with
  | identity | take | drop => cases h
  | map f => cases h with
    | map _ x => exact ⟨f x, rfl⟩
  | filter p => cases h with
    | filter _ x => exact ⟨p x, rfl⟩
  | filterMap f => cases h with
    | filterMap _ x => exact ⟨f x, rfl⟩
  | flatMap f => cases h with
    | flatMap _ x => exact ⟨f x, rfl⟩
  | mapAccum init step => cases h with
    | init => exact ⟨init, rfl⟩
    | step _ _ s x => exact ⟨step s x, rfl⟩

theorem Plan.calls_trans {p : Plan m α β} {a : Action ω γ} (h : (p.trans t).Calls a) :
    ∃ b : m γ, a = t b := by
  induction p with
  | operator o => cases h with
    | operator h => exact o.calls_trans h
  | seq l r ihl ihr => cases h with
    | left _ h => exact ihl h
    | right _ h => exact ihr h

theorem Plan.not_mayLog_trans (ht : ∀ {γ : Type} (b : m γ) (w : ω), (t b w).log = [])
    (p : Plan m α β) (record : Record) : ¬ (p.trans t).MayLog record := by
  rintro ⟨γ, a, w, hcalls, hrecord⟩
  obtain ⟨b, rfl⟩ := Plan.calls_trans hcalls
  rw [ht b w] at hrecord
  cases hrecord

end Trans

end PlanFusion
