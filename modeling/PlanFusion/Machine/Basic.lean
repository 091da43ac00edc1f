import PlanFusion.Machine.Pass

/-!
# PlanFusion — machines

A machine answers elements one at a time and remembers a state between them. Starting a plan
yields one, and so does any function that gives a reply and the next state.

* `Machine ω α β` — a machine that takes `α` and puts out `β` in a world of type `ω`. Its state is
  part of what its step changes, so a failure keeps the changes that came before it;
* `Machine.stateless`, `Machine.ofTransition` — machines from functions. A transition that fails
  leaves the state as it was;
* `Machine.seq` — two machines in sequence. The right one sees what the left one puts out. An
  abort of the right one ends the pass only if the left one put out a single element. Inside an
  expansion it ends that expansion and nothing else;
* `Process` — a machine in one of its states.
-/

namespace PlanFusion

/-- A machine that takes elements of type `α` and puts out elements of type `β`. -/
structure Machine (ω α β : Type) where
  State : Type
  step : α → Action (State × ω) (Reply β)

namespace Machine

variable {ω α β γ : Type}

/-- A machine that remembers nothing. -/
def stateless (f : α → Action ω (Reply β)) : Machine ω α β where
  State := Unit
  step x := (f x).onSecond

/-- A machine whose action gives the next state along with the reply. The state moves only when
the action succeeds. -/
def ofTransition {σ : Type} (f : σ → α → Action ω (σ × Reply β)) : Machine ω α β where
  State := σ
  step x := fun (s, w) =>
    match f s x w with
    | { result := .ok (s', r), world := w', log := l } =>
      { result := .ok r, world := (s', w'), log := l }
    | { result := .error e, world := w', log := l } =>
      { result := .error e, world := (s, w'), log := l }

/-- The outputs of the machine for a list of elements, up to the first abort. -/
def collect (M : Machine ω α β) (xs : List α) : Action (M.State × ω) (List β) := fun w =>
  (feed M.step xs w).toOutcome

/-- What the right one of two machines makes of a reply of the left one. -/
def follow (R : Machine ω β γ) : Reply β → Action (R.State × ω) (Reply γ)
  | .one y => R.step y
  | .many ys => do
    -- An abort in here has done its work when it has cut `zs` short.
    let zs ← R.collect ys
    return .ofList zs
  | .skip => pure .skip
  | .abort => pure .abort

/-- Two machines in sequence. -/
def seq (L : Machine ω α β) (R : Machine ω β γ) : Machine ω α γ where
  State := L.State × R.State
  step x := do
    let r ← (L.step x).onOuter
    (R.follow r).onInner

end Machine

/-- A machine in one of its states. -/
structure Process (ω α β : Type) where
  machine : Machine ω α β
  state : machine.State

/-- A process and the list that it puts its outputs behind, after a pass. -/
structure Drained (ω α β : Type) where
  pass : Pass ω β
  process : Process ω α β
  out : List β

namespace Process

variable {ω α β γ : Type}

/-- A process from a transition and the state that it starts in. -/
def ofTransition {σ : Type} (start : σ) (f : σ → α → Action ω (σ × Reply β)) : Process ω α β where
  machine := .ofTransition f
  state := start

/-- Two processes in sequence, each in the state that it is in. -/
def seq (p : Process ω α β) (q : Process ω β γ) : Process ω α γ where
  machine := p.machine.seq q.machine
  state := (p.state, q.state)

/-- Hand one element to the process. The second part is the process afterwards, also after a
failure. -/
def offer (p : Process ω α β) (x : α) (w : ω) : Outcome ω (Reply β) × Process ω α β :=
  let o := p.machine.step x (p.state, w)
  (o.mapWorld Prod.snd, { p with state := o.world.1 })

/-- Hand one element after the other to the process, each in a world of its own because others may
change the world in between, and go on after aborts and failures. The outcomes are all that an
observer of the process ever sees. -/
def offers (p : Process ω α β) : List (α × ω) → List (Outcome ω (Reply β))
  | [] => []
  | (x, w) :: rest => (p.offer x w).1 :: (p.offer x w).2.offers rest

/-- Hand the elements of a list to the process, until one of them ends the pass, and put the
outputs behind `initial`. -/
def drain (p : Process ω α β) (xs : List α) (initial : List β) (w : ω) : Drained ω α β :=
  let pass := feed p.machine.step xs (p.state, w)
  { pass := pass.mapWorld Prod.snd
    process := { p with state := pass.world.1 }
    out := initial ++ pass.out }

end Process

end PlanFusion
