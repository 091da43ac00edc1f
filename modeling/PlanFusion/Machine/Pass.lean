import PlanFusion.Action
import PlanFusion.Reply

/-!
# PlanFusion — passes

A pass hands the elements of a list, one by one and in order, to an action that replies to each.
It ends when the list is exhausted, after the first abort, or at the first failure. In each case
`Pass` holds what has come out until then.

* `Ending` — why a pass ended;
* `Pass ω β` — what a pass leaves behind, a failed one included;
* `feed` — the pass itself.
-/

namespace PlanFusion

/-- Why a pass ended. -/
inductive Ending where
  /-- Every element was handed out. -/
  | exhausted
  /-- The last element that was handed out was answered with an abort. -/
  | aborted
  /-- The last element that was handed out was answered with a failure. -/
  | failed (e : Failure)
  deriving DecidableEq, Repr

/-- Whether the pass failed. -/
def Ending.isFailed : Ending → Bool
  | failed _ => true
  | _ => false

/-- What a pass leaves behind. -/
structure Pass (ω β : Type) where
  ending : Ending
  world : ω
  log : List Record := []
  /-- The outputs of the elements that were answered, in order. -/
  out : List β := []
  /-- How many elements were handed out, the one that ended the pass included. -/
  pulled : Nat := 0
  /-- How many of the replies were expansions. -/
  expansions : Nat := 0

namespace Pass

variable {ω τ β : Type}

/-- The same pass seen in another world. -/
def mapWorld (f : ω → τ) (p : Pass ω β) : Pass τ β where
  ending := p.ending
  world := f p.world
  log := p.log
  out := p.out
  pulled := p.pulled
  expansions := p.expansions

/-- The pass with `records` logged before everything else. -/
def after (p : Pass ω β) (records : List Record) : Pass ω β :=
  { p with log := records ++ p.log }

/-- The pass that first gets the reply `r`, while `records` are logged, and then goes on as `p`. -/
def afterReply (p : Pass ω β) (r : Reply β) (records : List Record) : Pass ω β where
  ending := p.ending
  world := p.world
  log := records ++ p.log
  out := r.outputs ++ p.out
  pulled := p.pulled + 1
  expansions := p.expansions + r.isExpansion.toNat

/-- What the pass did, in numbers. It counts as a run only for a runner. -/
def stats (p : Pass ω β) : Stats where
  evaluated := p.pulled
  emitted := p.out.length
  expansions := p.expansions
  aborts := if p.ending = .aborted then 1 else 0

/-- The outputs as the value of an action, which is how a pass inside a reply is used. An abort
only ends the pass, and a failed one has no value. -/
def toOutcome (p : Pass ω β) : Outcome ω (List β) where
  result :=
    match p.ending with
    | .failed e => .error e
    | _ => .ok p.out
  world := p.world
  log := p.log

/-- Go on with another pass from the world that this one leaves, if it exhausted its elements. -/
def andThen (p : Pass ω β) (q : ω → Pass ω β) : Pass ω β :=
  match p.ending with
  | .exhausted =>
    let rest := q p.world
    { ending := rest.ending
      world := rest.world
      log := p.log ++ rest.log
      out := p.out ++ rest.out
      pulled := p.pulled + rest.pulled
      expansions := p.expansions + rest.expansions }
  | _ => p

end Pass

/-- Hand the elements of a list to `step` until one of them ends the pass. The element that ends it
counts as handed out and puts out nothing. -/
def feed {ω α β : Type} (step : α → Action ω (Reply β)) : List α → ω → Pass ω β
  | [], w => { ending := .exhausted, world := w }
  | x :: xs, w =>
    match step x w with
    | { result := .error e, world := w', log := l } =>
      { ending := .failed e, world := w', log := l, pulled := 1 }
    | { result := .ok .abort, world := w', log := l } =>
      { ending := .aborted, world := w', log := l, pulled := 1 }
    | { result := .ok r, world := w', log := l } =>
      (feed step xs w').afterReply r l

section

variable {ω α β : Type} {step : α → Action ω (Reply β)} {x : α} {xs : List α} {w w' : ω}
  {l : List Record}

@[simp] theorem feed_nil (step : α → Action ω (Reply β)) (w : ω) :
    feed step [] w = { ending := .exhausted, world := w } := rfl

theorem feed_cons_of_error {e : Failure}
    (h : step x w = { result := .error e, world := w', log := l }) :
    feed step (x :: xs) w = { ending := .failed e, world := w', log := l, pulled := 1 } := by
  simp [feed, h]

theorem feed_cons_of_abort
    (h : step x w = { result := .ok .abort, world := w', log := l }) :
    feed step (x :: xs) w = { ending := .aborted, world := w', log := l, pulled := 1 } := by
  simp [feed, h]

theorem feed_cons_of_ok {r : Reply β}
    (h : step x w = { result := .ok r, world := w', log := l }) (hr : r.isAbort = false) :
    feed step (x :: xs) w = (feed step xs w').afterReply r l := by
  cases r <;> simp_all [feed, Reply.isAbort]

end

end PlanFusion
