import PlanFusion.Proofs.Machine.Closing
import PlanFusion.Proofs.Plan.Alike

/-!
# PlanFusion — exhausted plans

Only counted operators abort, and they do so once their count is used up, which it then stays. A
plan is *exhausted* as soon as one of its operators is: no element gets past that one any more.

* `Plan.Exhausted` — the states in which a plan is exhausted;
* `Plan.closes` — a plan that has aborted is exhausted, stays so, and puts out nothing.
-/

namespace PlanFusion

variable {ω α β : Type}

namespace Operator

theorem step_take_of_lt {n count : Nat} (h : count < n) (x : α) (w : ω) :
    (take n : Operator (Action ω) α α).machine.step x (count, w) =
      { result := .ok (.one x), world := (count + 1, w) } := by
  simp only [machine, Machine.ofTransition, if_pos h]
  rfl

theorem step_take_of_le {n count : Nat} (h : n ≤ count) (x : α) (w : ω) :
    (take n : Operator (Action ω) α α).machine.step x (count, w) =
      { result := .ok .abort, world := (count, w) } := by
  simp only [machine, Machine.ofTransition, if_neg (Nat.not_lt.mpr h)]
  rfl

theorem step_drop_of_lt {n count : Nat} (h : count < n) (x : α) (w : ω) :
    (drop n : Operator (Action ω) α α).machine.step x (count, w) =
      { result := .ok .skip, world := (count + 1, w) } := by
  simp only [machine, Machine.ofTransition, if_pos h]
  rfl

theorem step_drop_of_le {n count : Nat} (h : n ≤ count) (x : α) (w : ω) :
    (drop n : Operator (Action ω) α α).machine.step x (count, w) =
      { result := .ok (.one x), world := (count, w) } := by
  simp only [machine, Machine.ofTransition, if_neg (Nat.not_lt.mpr h)]
  rfl

/-- The count of the operator is used up. -/
def Exhausted {α β : Type} : (o : Operator (Action ω) α β) → o.machine.State → Prop
  | take n => fun (count : Nat) => n ≤ count
  | _ => fun _ => False

theorem closes_take (n : Nat) :
    Closes (take n : Operator (Action ω) α α).machine.step fun v => (take n).Exhausted v.1 where
  quiet := by
    rintro x ⟨(count : Nat), w⟩ r (hcount : n ≤ count) hr
    rw [step_take_of_le hcount] at hr
    cases hr
    rfl
  stays := by
    rintro x ⟨(count : Nat), w⟩ (hcount : n ≤ count)
    rw [step_take_of_le hcount]
    exact hcount
  abort := by
    rintro x ⟨(count : Nat), w⟩ hr
    by_cases hcount : count < n
    · rw [step_take_of_lt hcount] at hr
      cases hr
    · rw [step_take_of_le (Nat.not_lt.mp hcount)]
      exact Nat.not_lt.mp hcount

/-- An operator that never aborts is never exhausted. -/
theorem closes_of_not_take {o : Operator (Action ω) α β} (ho : ∀ n, o.form ≠ .take n)
    (hexhausted : ∀ s, ¬ o.Exhausted s) : Closes o.machine.step fun v => o.Exhausted v.1 where
  quiet := fun x v r hv => absurd hv (hexhausted v.1)
  stays := fun x v hv => absurd hv (hexhausted v.1)
  abort := by
    intro x v hr
    have hallowed := o.yields_allowed x v _ hr
    cases o <;> simp [form, Form.Allows] at hallowed ho

theorem closes (o : Operator (Action ω) α β) : Closes o.machine.step fun v => o.Exhausted v.1 := by
  cases o with
  | take n => exact closes_take n
  | _ =>
    refine closes_of_not_take (fun n => ?_) fun s => ?_
    · simp [form]
    · exact id

end Operator

namespace Plan

/-- One of the operators of the plan is exhausted. -/
def Exhausted {α β : Type} : (p : Plan (Action ω) α β) → p.machine.State → Prop
  | operator o => o.Exhausted
  | seq left right => fun s => left.Exhausted s.1 ∨ right.Exhausted s.2

/-- An abort exhausts the plan, and an exhausted plan puts out nothing. -/
theorem closes (p : Plan (Action ω) α β) : Closes p.machine.step fun v => p.Exhausted v.1 := by
  induction p with
  | operator o => exact o.closes
  | seq left right ihl ihr => exact Machine.closes_seq ihl ihr

end Plan

end PlanFusion
