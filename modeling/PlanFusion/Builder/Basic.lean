import PlanFusion.Plan.Fusion
import PlanFusion.Plan.Run

/-!
# PlanFusion — builders

A builder grows a plan from left to right, one operator or one finished plan at a time. Its mode
says whether it fuses after every addition or leaves each join as it is. The mode can change while
the plan grows, and a fused plan stays fused when it does.

* `FusionMode`, `Builder` — the mode and the plan so far;
* `Builder.append` — the one way to grow; `map` to `mapAccum` and `merge` are special cases;
* `Builder.normalize` — fuse now, in either mode;
* `Builder.run` — run the plan so far.
-/

namespace PlanFusion

/-- When a builder fuses. -/
inductive FusionMode where
  /-- After every addition. -/
  | enabled
  /-- Only when asked to. -/
  | disabled
  deriving DecidableEq, Repr

def FusionMode.text : FusionMode → String
  | enabled => "Enabled"
  | disabled => "Disabled"

/-- A plan that grows. -/
structure Builder (m : Type → Type) (α β : Type) where
  plan : Plan m α β
  mode : FusionMode := .enabled

namespace Builder

variable {m : Type → Type} {ω σ α β γ : Type}

/-- The plan that puts out every element, to start from. -/
def empty : Builder m α α where
  plan := .operator .identity

/-- A builder that goes on from a plan, which it takes as it is. -/
def ofPlan (p : Plan m α β) : Builder m α β where
  plan := p

/-- The same plan, with another mode for what is added from now on. -/
def withMode (b : Builder m α β) (mode : FusionMode) : Builder m α β :=
  { b with mode }

/-- The builder as text. -/
def inspect (b : Builder m α β) : String :=
  "Pipeline \x7b stage: " ++ b.plan.text ++ ", fusion: " ++ b.mode.text ++ " \x7d"

/-- Run functions as callables of a world. -/
def lift (b : Builder Id α β) : Builder (Action ω) α β where
  plan := b.plan.lift
  mode := b.mode

/-- Run the callables in the first component of a larger world. -/
def widen {τ : Type} (b : Builder (Action ω) α β) : Builder (Action (ω × τ)) α β where
  plan := b.plan.widen
  mode := b.mode

/-- Run the plan so far. -/
def run (b : Builder (Action ω) α β) (xs : List α) (w : ω) : Pass ω β :=
  b.plan.run xs w

section Growth

variable [Monad m]

/-- Put a plan behind the plan so far. With fusion enabled, both are fused by themselves, joined,
and then fused once more as a whole. -/
def append (b : Builder m α β) (next : Plan m β γ) : Logged (Builder m α γ) :=
  match b.mode with
  | .enabled => do
    -- The first fusion is of the two sides, the second one also of the join between them.
    let joined ← b.plan.joinNormalized next
    let plan ← joined.normalize
    return { plan, mode := b.mode }
  | .disabled => do
    let plan ← b.plan.join next
    return { plan, mode := b.mode }

/-- Put an operator behind the plan so far. -/
def add (b : Builder m α β) (o : Operator m β γ) : Logged (Builder m α γ) :=
  b.append (.operator o)

def map (b : Builder m α β) (f : β → m γ) : Logged (Builder m α γ) :=
  b.add (.map f)

def filter (b : Builder m α β) (p : β → m Bool) : Logged (Builder m α β) :=
  b.add (.filter p)

def filterMap (b : Builder m α β) (f : β → m (Option γ)) : Logged (Builder m α γ) :=
  b.add (.filterMap f)

def flatMap (b : Builder m α β) (f : β → m (List γ)) : Logged (Builder m α γ) :=
  b.add (.flatMap f)

def take (b : Builder m α β) (n : Nat) : Logged (Builder m α β) :=
  b.add (.take n)

def drop (b : Builder m α β) (n : Nat) : Logged (Builder m α β) :=
  b.add (.drop n)

/-- Keep the first output only. -/
def first (b : Builder m α β) : Logged (Builder m α β) :=
  b.take 1

def mapAccum (b : Builder m α β) (init : m σ) (step : σ → β → m (σ × γ)) :
    Logged (Builder m α γ) :=
  b.add (.mapAccum init step)

/-- Put the plan of another builder behind the plan so far. Only the mode of the first one
counts. -/
def merge (b : Builder m α β) (other : Builder m β γ) : Logged (Builder m α γ) :=
  b.append other.plan

/-- Fuse the plan so far. -/
def normalize (b : Builder m α β) : Logged (Builder m α β) := do
  let plan ← b.plan.normalize
  return { b with plan }

end Growth

end Builder

end PlanFusion
