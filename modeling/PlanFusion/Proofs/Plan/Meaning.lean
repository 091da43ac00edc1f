import PlanFusion.Plan.Meaning
import PlanFusion.Proofs.Machine.Transducer
import PlanFusion.Proofs.Plan.Exhausted

/-!
# PlanFusion — running a plan means what it says

A plan whose callables are functions has two readings. Its machine takes one element at a time,
remembers counts and accumulators, and stops at an abort. Its meaning takes whole lists and knows
nothing of all that. They give the same list.

The bridge is the transducer of the plan, which its machine runs in any world:

* `Plan.transducer`, `Plan.initial` — the transducer, and the state that it starts in;
* `Plan.runs_lift`, `Plan.start_lift` — running the plan is running the transducer;
* `Operator.pass_out` — each operator puts out what it means;
* `Plan.pass_out` — so does each plan, because plans close when they abort;
* `Plan.pass_gives` — the same of a pass in any world.
-/

namespace PlanFusion

variable {ω α β γ : Type}

-- ---------------------------------------------------------------------------
-- The transducers of operators
-- ---------------------------------------------------------------------------

namespace Transducer

/-- A transducer that remembers nothing. -/
def ofReply (f : α → Reply β) : Transducer Unit α β where
  next s x := (f x, s)

/-- Repeat the first `n` elements, and abort at the next one. -/
def take (n : Nat) : Transducer Nat α α where
  next count x := if count < n then (.one x, count + 1) else (.abort, count)

/-- Repeat all but the first `n` elements. -/
def drop (n : Nat) : Transducer Nat α α where
  next count x := if count < n then (.skip, count + 1) else (.one x, count)

/-- Put out an image that depends on an accumulator. -/
def accum {σ : Type} (step : σ → α → σ × β) : Transducer σ α β where
  next s x := (.one (step s x).2, (step s x).1)

theorem pass_out_ofReply {f : α → Reply β} (hf : ∀ x, (f x).isAbort = false) (xs : List α) :
    ((ofReply f).pass () xs).out = xs.flatMap fun x => (f x).outputs := by
  induction xs with
  | nil => rfl
  | cons x xs ih =>
    have hnext : (ofReply f).next () x = (f x, ()) := rfl
    rw [pass_cons hnext (hf x), List.flatMap_cons, ← ih]
    rfl

theorem pass_out_take (n count : Nat) (xs : List α) :
    ((take n).pass count xs).out = xs.take (n - count) := by
  induction xs generalizing count with
  | nil => simp [pass]
  | cons x xs ih =>
    by_cases h : count < n
    · have hnext : (take n).next count x = (.one x, count + 1) := if_pos h
      have hleft : n - count = (n - (count + 1)) + 1 := by omega
      rw [pass_cons hnext rfl, hleft, List.take_succ_cons, ← ih (count + 1)]
      rfl
    · have hnext : (take n).next count x = (.abort, count) := if_neg h
      have hleft : n - count = 0 := by omega
      rw [pass_cons_of_abort hnext, hleft, List.take_zero]

theorem pass_out_drop (n count : Nat) (xs : List α) :
    ((drop n).pass count xs).out = xs.drop (n - count) := by
  induction xs generalizing count with
  | nil => simp [pass]
  | cons x xs ih =>
    by_cases h : count < n
    · have hnext : (drop n).next count x = (.skip, count + 1) := if_pos h
      have hleft : n - count = (n - (count + 1)) + 1 := by omega
      rw [pass_cons hnext rfl, hleft, List.drop_succ_cons, ← ih (count + 1)]
      rfl
    · -- from here on nothing is held back
      have hnext : (drop n).next count x = (.one x, count) := if_neg h
      have hleft : n - count = 0 := by omega
      have hrest := ih count
      rw [hleft, List.drop_zero] at hrest
      rw [pass_cons hnext rfl, hleft, List.drop_zero]
      exact congrArg (x :: ·) hrest

theorem pass_out_accum {σ : Type} (step : σ → α → σ × β) (s : σ) (xs : List α) :
    ((accum step).pass s xs).out = accumulate step s xs := by
  induction xs generalizing s with
  | nil => rfl
  | cons x xs ih =>
    have hnext : (accum step).next s x = (.one (step s x).2, (step s x).1) := rfl
    rw [pass_cons hnext rfl, accumulate, ← ih (step s x).1]
    rfl

end Transducer

namespace Operator

/-- Run functions as callables of a world. -/
def lift (o : Operator Id α β) : Operator (Action ω) α β :=
  o.trans fun x => pure x.run

/-- The transducer that the machine of the operator runs. -/
def transducer {α β : Type} : (o : Operator Id α β) →
    Transducer (o.lift : Operator (Action ω) α β).machine.State α β
  | identity => .ofReply .one
  | map f => .ofReply fun x => .one (f x).run
  | filter p => .ofReply fun x => if (p x).run then .one x else .skip
  | filterMap f => .ofReply fun x => .ofOption (f x).run
  | flatMap f => .ofReply fun x => .ofList (f x).run
  | take n => .take n
  | drop n => .drop n
  | mapAccum _ step => .accum fun s x => (step s x).run

/-- The state that the transducer starts in. -/
def initial {α β : Type} : (o : Operator Id α β) →
    (o.lift : Operator (Action ω) α β).machine.State
  | identity => ()
  | map _ => ()
  | filter _ => ()
  | filterMap _ => ()
  | flatMap _ => ()
  | take _ => (0 : Nat)
  | drop _ => (0 : Nat)
  | mapAccum init _ => init.run

theorem runs_lift (o : Operator Id α β) :
    (o.lift : Operator (Action ω) α β).machine.Runs o.transducer := by
  intro x
  refine funext fun v => ?_
  cases o with
  | identity => rfl
  | map f => rfl
  | filter p =>
    obtain ⟨s, w⟩ := v
    show (if (p x).run = true then pure (.one x) else pure .skip : Action ω (Reply α)).onSecond
        (s, w) =
      { result := .ok (if (p x).run = true then .one x else .skip), world := (s, w) }
    cases (p x).run with
    | true => rfl
    | false => rfl
  | filterMap f => rfl
  | flatMap f => rfl
  | take n =>
    obtain ⟨(count : Nat), w⟩ := v
    by_cases h : count < n
    · simp only [Action.onFirst_apply, Transducer.act, transducer, Transducer.take, if_pos h]
      exact step_take_of_lt h x w
    · simp only [Action.onFirst_apply, Transducer.act, transducer, Transducer.take, if_neg h]
      exact step_take_of_le (Nat.not_lt.mp h) x w
  | drop n =>
    obtain ⟨(count : Nat), w⟩ := v
    by_cases h : count < n
    · simp only [Action.onFirst_apply, Transducer.act, transducer, Transducer.drop, if_pos h]
      exact step_drop_of_lt h x w
    · simp only [Action.onFirst_apply, Transducer.act, transducer, Transducer.drop, if_neg h]
      exact step_drop_of_le (Nat.not_lt.mp h) x w
  | mapAccum init step => rfl

theorem start_lift (o : Operator Id α β) :
    (o.lift : Operator (Action ω) α β).start = pure o.initial := by
  cases o <;> rfl

-- ---------------------------------------------------------------------------
-- Operators on whole lists
-- ---------------------------------------------------------------------------

theorem flatMap_outputs_filter (p : α → Bool) (xs : List α) :
    (xs.flatMap fun x => (if p x then Reply.one x else .skip).outputs) = xs.filter p := by
  induction xs with
  | nil => rfl
  | cons x xs ih =>
    rw [List.flatMap_cons, ih]
    by_cases h : p x = true
    · rw [List.filter_cons_of_pos h, if_pos h]
      rfl
    · rw [List.filter_cons_of_neg h, if_neg h]
      rfl

theorem flatMap_outputs_ofOption (f : α → Option β) (xs : List α) :
    (xs.flatMap fun x => (Reply.ofOption (f x)).outputs) = xs.filterMap f := by
  induction xs with
  | nil => rfl
  | cons x xs ih =>
    rw [List.flatMap_cons, ih, Reply.outputs_ofOption]
    cases h : f x with
    | some y =>
      rw [List.filterMap_cons_some h]
      rfl
    | none =>
      rw [List.filterMap_cons_none h]
      rfl

/-- An operator puts out what it means. -/
theorem pass_out (o : Operator Id α β) (xs : List α) :
    ((o.transducer (ω := ω)).pass o.initial xs).out = o.meaning xs := by
  cases o with
  | identity =>
    have hpass := Transducer.pass_out_ofReply (f := Reply.one) (fun x => rfl) xs
    exact hpass.trans (List.flatMap_singleton' xs)
  | map f =>
    have hpass := Transducer.pass_out_ofReply (f := fun x => .one (f x).run) (fun x => rfl) xs
    exact hpass.trans List.map_eq_flatMap.symm
  | filter p =>
    have hpass := Transducer.pass_out_ofReply
      (f := fun x => if (p x).run then .one x else .skip) (fun x => by cases (p x).run <;> rfl) xs
    exact hpass.trans (flatMap_outputs_filter (fun x => (p x).run) xs)
  | filterMap f =>
    have hpass := Transducer.pass_out_ofReply (f := fun x => .ofOption (f x).run)
      (fun x => Reply.isAbort_ofOption _) xs
    exact hpass.trans (flatMap_outputs_ofOption (fun x => (f x).run) xs)
  | flatMap f =>
    have hpass := Transducer.pass_out_ofReply (f := fun x => .ofList (f x).run)
      (fun x => Reply.isAbort_ofList _) xs
    simp only [Reply.outputs_ofList] at hpass
    exact hpass
  | take n => exact Transducer.pass_out_take n 0 xs
  | drop n => exact Transducer.pass_out_drop n 0 xs
  | mapAccum init step => exact Transducer.pass_out_accum (fun s x => (step s x).run) init.run xs

end Operator

namespace Plan

/-- The transducer that the machine of the plan runs. -/
def transducer {α β : Type} : (p : Pure α β) →
    Transducer (p.lift : Plan (Action ω) α β).machine.State α β
  | operator o => o.transducer
  | seq left right => left.transducer.seq right.transducer

/-- The state that the transducer starts in. -/
def initial {α β : Type} : (p : Pure α β) → (p.lift : Plan (Action ω) α β).machine.State
  | operator o => o.initial
  | seq left right => (left.initial, right.initial)

theorem runs_lift (p : Pure α β) :
    (p.lift : Plan (Action ω) α β).machine.Runs p.transducer := by
  induction p with
  | operator o => exact o.runs_lift
  | seq left right ihl ihr => exact Machine.runs_seq ihl ihr

theorem start_lift (p : Pure α β) : (p.lift : Plan (Action ω) α β).start = pure p.initial := by
  induction p with
  | operator o => exact o.start_lift
  | seq left right ihl ihr =>
    show (left.lift.start >>= fun s => right.lift.start >>= fun t => pure (s, t)) = _
    rw [ihl, ihr]
    rfl

/-- A pass of a plan of functions is a pass of its transducer. It leaves the world alone. -/
theorem pass_lift (p : Pure α β) (xs : List α) (w : ω) :
    p.lift.pass xs w = ((p.transducer (ω := ω)).pass p.initial xs).mapWorld fun _ => w := by
  have hstart : p.lift.start w = { result := .ok p.initial, world := w } := by
    rw [start_lift]
    rfl
  simp only [pass, hstart]
  rw [Machine.feed_of_runs p.runs_lift]
  rfl

/-- A plan puts out what it means. -/
theorem pass_out (p : Pure α β) (xs : List α) (w : ω) :
    ((p.transducer (ω := ω)).pass p.initial xs).out = p.meaning xs := by
  induction p with
  | operator o => exact o.pass_out xs
  | seq left right ihl ihr =>
    -- the right plan closes, so that an abort inside an expansion loses nothing
    have hcloses := right.runs_lift.closes right.lift.closes w
    have hseq := Transducer.pass_seq (T := left.transducer (ω := ω)) hcloses xs left.initial
      right.initial
    calc (((seq left right).transducer (ω := ω)).pass (seq left right).initial xs).out
      _ = (right.transducer.pass right.initial (left.transducer.pass left.initial xs).out).out :=
        hseq.out
      _ = right.meaning (left.meaning xs) := by rw [ihl, ihr]

end Plan

/-- The pass succeeded, left the world `w` alone, and put out `ys`. -/
structure Pass.Gives (w : ω) (ys : List β) (pass : Pass ω β) : Prop where
  ending : pass.ending.isFailed = false
  world : pass.world = w
  out : pass.out = ys

/-- A plan of functions never fails, changes nothing, and puts out what it means. -/
theorem Plan.pass_gives (p : Pure α β) (xs : List α) (w : ω) :
    (p.lift.pass xs w).Gives w (p.meaning xs) := by
  obtain ⟨hending, -⟩ := (p.transducer (ω := ω)).pass_unfailing p.initial xs
  rw [pass_lift]
  exact ⟨hending, rfl, p.pass_out xs w⟩

end PlanFusion
