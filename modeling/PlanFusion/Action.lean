import PlanFusion.Log.Record

/-!
# PlanFusion — actions of callables

What a callable of the user may do while a plan runs: read and change a world, write to the log,
and fail. A failure unwinds to whoever asked for the run. It takes back nothing: the world and the
log are as the failure left them.

* `Failure` — why an action gave no value;
* `Outcome` — what running an action leaves behind;
* `Action ω α` — an action on a world of type `ω` that gives an `α`;
* `Part`, `Action.on` — a part of a world, and an action on it as an action on the world. The run
  state of a plan is such a part, which is why it survives a failure;
* `Action.onFirst`, `Action.onSecond`, `Action.onOuter`, `Action.onInner` — the parts that occur.
-/

namespace PlanFusion

universe u

/-- Why an action gave no value. -/
inductive Failure where
  /-- A callable of the user gave up, with its own words. -/
  | callable (message : String)
  /-- The library found itself broken. -/
  | defect (d : Defect)
  deriving DecidableEq, Repr

/-- The words of a failure. -/
def Failure.message : Failure → String
  | callable message => message
  | defect d => d.message

/-- What running an action leaves behind. -/
structure Outcome (ω : Type) (α : Type u) where
  result : Except Failure α
  world : ω
  log : List Record := []

/-- An action sees the world but not the log, to which it can only add. -/
def Action (ω α : Type) : Type :=
  ω → Outcome ω α

namespace Outcome

variable {ω τ α β : Type}

@[ext] theorem ext {a b : Outcome ω α} (hr : a.result = b.result) (hw : a.world = b.world)
    (hl : a.log = b.log) : a = b := by
  cases a; cases b; simp_all

/-- The outcome with `records` logged before everything else. -/
def after (o : Outcome ω α) (records : List Record) : Outcome ω α :=
  { o with log := records ++ o.log }

/-- The same outcome seen in another world. -/
def mapWorld (f : ω → τ) (o : Outcome ω α) : Outcome τ α where
  result := o.result
  world := f o.world
  log := o.log

end Outcome

/-- A part of a world: how to find it in the world, and how to put it back. What was put back is
found again, what was found can be put back without a change, and what is put back last counts. -/
structure Part (ω κ : Type) where
  get : ω → κ
  put : ω → κ → ω
  get_put : ∀ w k, get (put w k) = k := by intros; rfl
  put_get : ∀ w, put w (get w) = w := by intros; rfl
  put_put : ∀ w k k', put (put w k) k' = put w k' := by intros; rfl

namespace Part

variable {ω σ τ : Type}

/-- The first component of a pair. -/
def first : Part (ω × τ) ω where
  get := Prod.fst
  put w k := (k, w.2)

/-- The second component of a pair. -/
def second : Part (τ × ω) ω where
  get := Prod.snd
  put w k := (w.1, k)

/-- The outer components of `((σ, τ), ω)`. -/
def outer : Part ((σ × τ) × ω) (σ × ω) where
  get w := (w.1.1, w.2)
  put w k := ((k.1, w.1.2), k.2)

/-- The last two components of `((σ, τ), ω)`. -/
def inner : Part ((σ × τ) × ω) (τ × ω) where
  get w := (w.1.2, w.2)
  put w k := ((w.1.1, k.1), k.2)

end Part

namespace Action

variable {ω τ α β γ : Type}

/-- Run `f` on the value of `a`, unless `a` failed. -/
def andThen (a : Action ω α) (f : α → Action ω β) : Action ω β := fun w =>
  match a w with
  | { result := .ok x, world := w', log := l } => (f x w').after l
  | { result := .error e, world := w', log := l } =>
    { result := .error e, world := w', log := l }

instance : Monad (Action ω) where
  pure x := fun w => { result := .ok x, world := w }
  bind := andThen

/-- Give up. -/
def fail (e : Failure) : Action ω α := fun w =>
  { result := .error e, world := w }

/-- Change the world. -/
def modify (f : ω → ω) : Action ω Unit := fun w =>
  { result := .ok (), world := f w }

/-- Raise a defect: it is logged first, so that the log has it even if nobody handles the
failure. -/
def raise (d : Defect) : Action ω α := fun w =>
  { result := .error (.defect d), world := w, log := [.raised d] }

/-- An action on a part of the world, which leaves the rest alone. -/
def on {κ : Type} (p : Part ω κ) (a : Action κ α) : Action ω α := fun w =>
  (a (p.get w)).mapWorld (p.put w)

/-- An action on the first component of the world. -/
def onFirst (a : Action ω α) : Action (ω × τ) α :=
  a.on .first

/-- An action on the second component of the world. -/
def onSecond (a : Action ω α) : Action (τ × ω) α :=
  a.on .second

/-- An action on the outer components of the world `((σ, τ), ω)`, which leaves the inner one
alone. -/
def onOuter {σ : Type} (a : Action (σ × ω) α) : Action ((σ × τ) × ω) α :=
  a.on .outer

/-- An action on the last two components of the world `((σ, τ), ω)`, which leaves the first one
alone. -/
def onInner {σ : Type} (a : Action (τ × ω) α) : Action ((σ × τ) × ω) α :=
  a.on .inner

/-! ## Running -/

@[simp] theorem pure_apply (x : α) (w : ω) :
    (pure x : Action ω α) w = { result := .ok x, world := w } := rfl

theorem bind_apply (a : Action ω α) (f : α → Action ω β) (w : ω) :
    (a >>= f) w = match a w with
      | { result := .ok x, world := w', log := l } => (f x w').after l
      | { result := .error e, world := w', log := l } =>
        { result := .error e, world := w', log := l } := rfl

theorem bind_of_ok {a : Action ω α} {x : α} {w w' : ω} {l : List Record}
    (h : a w = { result := .ok x, world := w', log := l }) (f : α → Action ω β) :
    (a >>= f) w = (f x w').after l := by
  simp [bind_apply, h]

theorem bind_of_error {a : Action ω α} {e : Failure} {w w' : ω} {l : List Record}
    (h : a w = { result := .error e, world := w', log := l }) (f : α → Action ω β) :
    (a >>= f) w = { result := .error e, world := w', log := l } := by
  simp [bind_apply, h]

end Action

namespace Outcome

variable {ω τ α β : Type}

@[simp] theorem after_nil (o : Outcome ω α) : o.after [] = o := rfl

@[simp] theorem after_after (o : Outcome ω α) (k l : List Record) :
    (o.after k).after l = o.after (l ++ k) := by
  simp [after]

@[simp] theorem mapWorld_after (f : ω → τ) (o : Outcome ω α) (l : List Record) :
    (o.after l).mapWorld f = (o.mapWorld f).after l := rfl

end Outcome

namespace Action

variable {ω τ α β γ : Type}

theorem pure_andThen (x : α) (f : α → Action ω β) : andThen (pure x) f = f x := rfl

theorem andThen_pure (a : Action ω α) : andThen a pure = a := by
  refine funext fun w => ?_
  rcases h : a w with ⟨_ | x, w', l⟩ <;> simp [andThen, h, Outcome.after]

theorem andThen_assoc (a : Action ω α) (f : α → Action ω β) (g : β → Action ω γ) :
    andThen (andThen a f) g = andThen a fun x => andThen (f x) g := by
  refine funext fun w => ?_
  rcases h : a w with ⟨_ | x, w', l⟩
  · simp [andThen, h]
  · rcases h' : f x w' with ⟨_ | y, w'', l'⟩ <;> simp [andThen, h, h', Outcome.after]

instance : LawfulMonad (Action ω) :=
  LawfulMonad.mk' (Action ω) andThen_pure pure_andThen andThen_assoc

@[simp] theorem map_apply (f : α → β) (a : Action ω α) (w : ω) :
    (f <$> a) w = { result := (a w).result.map f, world := (a w).world, log := (a w).log } := by
  rcases h : a w with ⟨_ | x, w', l⟩
  · exact bind_of_error h _
  · exact (bind_of_ok h _).trans (Outcome.ext rfl rfl (List.append_nil l))

/-! ## Worlds within worlds

To run an action on a part of the world commutes with everything that actions are made of. -/

section Parts

variable {κ σ : Type}

theorem onFirst_apply (a : Action ω α) (w : ω × τ) :
    a.onFirst w = (a w.1).mapWorld fun k => (k, w.2) := rfl

theorem onSecond_apply (a : Action ω α) (w : τ × ω) :
    a.onSecond w = (a w.2).mapWorld fun k => (w.1, k) := rfl

@[simp] theorem on_pure (p : Part ω κ) (x : α) : (pure x : Action κ α).on p = pure x :=
  funext fun w => Outcome.ext rfl (p.put_get w) rfl

/-- What an action leaves behind is put back. -/
theorem on_of_eq (p : Part ω κ) (w : ω) {a : Action κ α} {r : Except Failure α} {k : κ}
    {l : List Record} (h : a (p.get w) = { result := r, world := k, log := l }) :
    a.on p w = { result := r, world := p.put w k, log := l } := by
  rw [on, h]
  rfl

theorem on_bind (p : Part ω κ) (a : Action κ α) (f : α → Action κ β) :
    (a >>= f).on p = a.on p >>= fun x => (f x).on p := by
  refine funext fun w => ?_
  rcases h : a (p.get w) with ⟨e | x, k, l⟩
  · rw [bind_of_error (on_of_eq p w h), on_of_eq p w (bind_of_error h f)]
  · -- the next action finds what `a` has put back, and replaces it
    rw [bind_of_ok (on_of_eq p w h), on, bind_of_ok h, on, p.get_put]
    exact Outcome.ext rfl (p.put_put w k _).symm rfl

theorem onSecond_bind (a : Action ω α) (f : α → Action ω β) :
    (onSecond (a >>= f) : Action (τ × ω) β) = onSecond a >>= fun x => onSecond (f x) :=
  on_bind _ a f

theorem onOuter_bind (a : Action (σ × ω) α) (f : α → Action (σ × ω) β) :
    (onOuter (a >>= f) : Action ((σ × τ) × ω) β) = onOuter a >>= fun x => onOuter (f x) :=
  on_bind _ a f

theorem onInner_bind (a : Action (τ × ω) α) (f : α → Action (τ × ω) β) :
    (onInner (a >>= f) : Action ((σ × τ) × ω) β) = onInner a >>= fun x => onInner (f x) :=
  on_bind _ a f

end Parts

end Action

end PlanFusion
