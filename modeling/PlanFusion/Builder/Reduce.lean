import PlanFusion.Builder.Basic

/-!
# PlanFusion — reducing the outputs of a plan

To reduce the outputs of a plan to one value, an operator that absorbs every element is put behind
a copy of the plan, in the mode of its builder, and the copy is run. The absorbing operator keeps
the accumulator in a slot of the world. It takes the value out of the slot, combines it with the
element, and puts the result back; it never puts out anything, so the list of outputs is empty.

* `absorb` — the callable of that operator;
* `Reduction` — what a reduction leaves behind;
* `Builder.reduce` — the reduction;
* `Plan.foldOutputs` — the loop that a reader has in mind: run the plan and combine the outputs of
  each reply as they come.
-/

namespace PlanFusion

variable {ω α β κ : Type}

/-- Combine the value in the slot with an element. While the combination runs the slot is empty,
and if it fails the slot stays so. -/
def absorb (f : κ → β → Action ω κ) (y : β) : Action (ω × Option κ) (Option Empty) := fun w =>
  match w.2 with
  | none => { result := .ok none, world := w }
  | some acc =>
    match f acc y w.1 with
    | { result := .ok acc', world := w', log := l } =>
      -- Nothing is ever put out; the result lives in the slot.
      { result := .ok none, world := (w', some acc'), log := l }
    | { result := .error e, world := w', log := l } =>
      { result := .error e, world := (w', none), log := l }

/-- What a reduction leaves behind. -/
structure Reduction (ω κ : Type) where
  result : Except Failure κ
  world : ω
  log : List Record
  /-- How many elements were handed to the plan. -/
  pulled : Nat

/-- The value in the slot after a pass that was to fill it. An empty slot after a pass that did not
fail is a defect. -/
def Reduction.ofPass (pass : Pass (ω × Option κ) Empty) : Reduction ω κ :=
  match pass.ending, pass.world with
  | .failed e, (w, _) => { result := .error e, world := w, log := pass.log, pulled := pass.pulled }
  | _, (w, some acc) => { result := .ok acc, world := w, log := pass.log, pulled := pass.pulled }
  | _, (w, none) =>
    let o := Action.raise (.invariant "reduce accumulator missing after run") w
    { result := o.result, world := o.world, log := pass.log ++ o.log, pulled := pass.pulled }

/-- Combine the outputs of the plan so far, from left to right. The builder stays as it is. -/
def Builder.reduce (b : Builder (Action ω) α β) (xs : List α) (acc : κ) (f : κ → β → Action ω κ)
    (w : ω) : Reduction ω κ :=
  let absorbing := b.widen.filterMap (absorb f)
  let pass := absorbing.value.run xs (w, some acc)
  .ofPass (pass.after absorbing.log)

/-! ## The loop -/

/-- Combine a list with an accumulator from left to right. -/
def foldAction (f : κ → β → Action ω κ) : κ → List β → Action ω κ
  | acc, [] => pure acc
  | acc, y :: ys => do
    let acc' ← f acc y
    foldAction f acc' ys

/-- Hand elements to a step, combine the outputs of each reply with the accumulator before the next
element is handed out, and stop at an abort. -/
def foldSteps (step : α → Action ω (Reply β)) (f : κ → β → Action ω κ) :
    κ → List α → ω → Reduction ω κ
  | acc, [], w => { result := .ok acc, world := w, log := [], pulled := 0 }
  | acc, x :: xs, w =>
    match step x w with
    | { result := .error e, world := w', log := l } =>
      { result := .error e, world := w', log := l, pulled := 1 }
    | { result := .ok .abort, world := w', log := l } =>
      { result := .ok acc, world := w', log := l, pulled := 1 }
    | { result := .ok r, world := w', log := l } =>
      match foldAction f acc r.outputs w' with
      | { result := .error e, world := w'', log := l' } =>
        { result := .error e, world := w'', log := l ++ l', pulled := 1 }
      | { result := .ok acc', world := w'', log := l' } =>
        let rest := foldSteps step f acc' xs w''
        { rest with log := l ++ l' ++ rest.log, pulled := rest.pulled + 1 }

/-- Start the plan afresh and combine the outputs of each reply as they come. -/
def Plan.foldOutputs (p : Plan (Action ω) α β) (xs : List α) (acc : κ) (f : κ → β → Action ω κ)
    (w : ω) : Reduction ω κ :=
  match p.start w with
  | { result := .error e, world := w', log := l } =>
    { result := .error e, world := w', log := l, pulled := 0 }
  | { result := .ok s, world := w', log := l } =>
    let loop := foldSteps p.machine.step (fun acc y => (f acc y).onSecond) acc xs (s, w')
    { result := loop.result, world := loop.world.2, log := l ++ loop.log, pulled := loop.pulled }

end PlanFusion
