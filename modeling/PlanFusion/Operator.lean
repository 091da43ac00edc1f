import PlanFusion.Machine.Basic

/-!
# PlanFusion — operators

An operator is the smallest plan: one thing to do with each element. Its callables run in a monad
`m`. With `Id` they are functions; with `Action ω` they may change a world, log and fail.

* `Operator m α β` — the operators from `α` to `β`. Filters and counts do not change the type of
  an element, which the indices of the family say;
* `Operator.trans` — the same operator with its callables carried into another monad;
* `Operator.fuse?` — two neighbours as one operator, by the rows of `Kind.fuse?` that do not
  concern the identity. Each callable is called on the same elements in the same order as before,
  and not at all on elements that the left operator leaves out;
* `Operator.machine`, `Operator.start` — the machine that does what the operator says, and the
  state that it starts in.
-/

namespace PlanFusion

/-- One thing to do with each element. -/
inductive Operator (m : Type → Type) : Type → Type → Type 1 where
  /-- Put out every element. -/
  | identity {α : Type} : Operator m α α
  /-- Put out the image of every element. -/
  | map {α β : Type} (f : α → m β) : Operator m α β
  /-- Put out the elements that pass a test. -/
  | filter {α : Type} (p : α → m Bool) : Operator m α α
  /-- Put out the image of every element that has one. -/
  | filterMap {α β : Type} (f : α → m (Option β)) : Operator m α β
  /-- Put out a list for every element. -/
  | flatMap {α β : Type} (f : α → m (List β)) : Operator m α β
  /-- Put out the first `n` elements, and abort at the next one. -/
  | take {α : Type} (n : Nat) : Operator m α α
  /-- Put out all but the first `n` elements. -/
  | drop {α : Type} (n : Nat) : Operator m α α
  /-- Put out an image that depends on an accumulator, which `init` makes anew for every run. -/
  | mapAccum {σ α β : Type} (init : m σ) (step : σ → α → m (σ × β)) : Operator m α β

namespace Operator

variable {m n : Type → Type} {ω α β γ : Type}

/-- The operator without its callables. -/
def form : Operator m α β → Form
  | identity => .identity
  | map _ => .map
  | filter _ => .filter
  | filterMap _ => .filterMap
  | flatMap _ => .flatMap
  | take n => .take n
  | drop n => .drop n
  | mapAccum _ _ => .mapAccum

/-- The kind of the operator. -/
def kind (o : Operator m α β) : Kind :=
  o.form.kind

/-- The operator with its callables carried into another monad. -/
def trans (t : {α : Type} → m α → n α) : Operator m α β → Operator n α β
  | identity => identity
  | map f => map fun x => t (f x)
  | filter p => filter fun x => t (p x)
  | filterMap f => filterMap fun x => t (f x)
  | flatMap f => flatMap fun x => t (f x)
  | take n => take n
  | drop n => drop n
  | mapAccum init step => mapAccum (t init) fun s x => t (step s x)

@[simp] theorem form_trans (t : {α : Type} → m α → n α) (o : Operator m α β) :
    (o.trans t).form = o.form := by
  cases o <;> rfl

/-! ## Fusion -/

section Fusion

variable [Monad m]

/-- Two neighbours as one operator. -/
def fuse? : Operator m α β → Operator m β γ → Option (Operator m α γ)
  -- In every row the right callable runs only on what the left one lets through.
  | filter p, filter q => some <| filter fun x => do
      if ← p x then q x else pure false
  | map f, map g => some <| map fun x => do
      let y ← f x
      g y
  | map f, filter q => some <| filterMap fun x => do
      let y ← f x
      if ← q y then pure (some y) else pure none
  | map f, flatMap g => some <| flatMap fun x => do
      let y ← f x
      g y
  | filter p, map g => some <| filterMap fun x => do
      if ← p x then some <$> g x else pure none
  | filterMap f, map g => some <| filterMap fun x => do
      match ← f x with
      | some y => some <$> g y
      | none => pure none
  | filterMap f, filter q => some <| filterMap fun x => do
      match ← f x with
      | some y => if ← q y then pure (some y) else pure none
      | none => pure none
  | filter p, filterMap g => some <| filterMap fun x => do
      if ← p x then g x else pure none
  | filterMap f, flatMap g => some <| flatMap fun x => do
      match ← f x with
      | some y => g y
      | none => pure []
  | _, _ => none

end Fusion

/-! ## Running -/

/-- The machine that does what the operator says. The counting operators remember how many elements
they have let through or held back. -/
def machine : Operator (Action ω) α β → Machine ω α β
  | identity => .stateless fun x => pure (.one x)
  | map f => .stateless fun x => .one <$> f x
  | filter p => .stateless fun x => do
      if ← p x then pure (.one x) else pure .skip
  | filterMap f => .stateless fun x => .ofOption <$> f x
  | flatMap f => .stateless fun x => .ofList <$> f x
  -- Once `n` elements have passed, the count stays, and every later element is an abort.
  | take n => .ofTransition fun (count : Nat) x =>
      if count < n then pure (count + 1, .one x) else pure (count, .abort)
  | drop n => .ofTransition fun (count : Nat) x =>
      if count < n then pure (count + 1, .skip) else pure (count, .one x)
  | mapAccum _ step => .ofTransition fun s x => do
      let (s', y) ← step s x
      return (s', .one y)

/-- The state that the machine starts in. Counts start at zero. -/
def start : (o : Operator (Action ω) α β) → Action ω o.machine.State
  | identity => pure ()
  | map _ => pure ()
  | filter _ => pure ()
  | filterMap _ => pure ()
  | flatMap _ => pure ()
  | take _ => pure (0 : Nat)
  | drop _ => pure (0 : Nat)
  | mapAccum init _ => init

end Operator

end PlanFusion
