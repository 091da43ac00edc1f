import PlanFusion.Plan.Run
import PlanFusion.Proofs.Machine.Sequencing

/-!
# PlanFusion — plans that run alike

Two plans are *alike* when an observer who starts them and hands them elements always sees the
same: how they start, what they reply, how they fail, and what happens to the world and the log.
Alike plans give equal passes over every list, and one may stand for the other inside any plan.

Which plans are alike is a question of algebra from here on:

* `alike_seq` — likeness is a congruence;
* `identity_seq_alike`, `seq_identity_alike` — an identity beside a plan does nothing. On the
  right this needs that no plan replies with an empty expansion (`Plan.settled`), which the
  identity would turn into a skip;
* `seq_assoc_alike` — plans in sequence may be regrouped if the first one never expands an
  element. Otherwise the regrouped plan gives up an expansion at another moment.
-/

namespace PlanFusion

-- ---------------------------------------------------------------------------
-- What operators reply
-- ---------------------------------------------------------------------------

/-- The replies that an operator of a form may give. -/
def Form.Allows {β : Type} (r : Reply β) : Form → Prop
  | .identity | .map | .mapAccum => ∃ y, r = .one y
  | .filter | .filterMap | .drop _ => r = .skip ∨ ∃ y, r = .one y
  | .flatMap => r = .skip ∨ ∃ y ys, r = .many (y :: ys)
  | .take _ => r = .abort ∨ ∃ y, r = .one y

theorem Operator.yields_allowed {ω α β : Type} (o : Operator (Action ω) α β) (x : α) :
    (o.machine.step x).Yields fun r => o.form.Allows r := by
  cases o with
  | identity => exact Action.yields_on (Action.yields_pure ⟨x, rfl⟩) .second
  | map f => exact Action.yields_on (Action.yields_map _ fun y => ⟨y, rfl⟩) .second
  | filter p =>
    refine Action.yields_on (Action.yields_bind fun b => ?_) .second
    cases b with
    | true => exact Action.yields_pure (.inr ⟨x, rfl⟩)
    | false => exact Action.yields_pure (.inl rfl)
  | filterMap f =>
    refine Action.yields_on (Action.yields_map _ fun y => ?_) .second
    cases y with
    | some y => exact .inr ⟨y, rfl⟩
    | none => exact .inl rfl
  | flatMap f =>
    refine Action.yields_on (Action.yields_map _ fun ys => ?_) .second
    cases ys with
    | cons y ys => exact .inr ⟨y, ys, rfl⟩
    | nil => exact .inl rfl
  | take n =>
    refine Machine.yields_ofTransition (fun count y => ?_) x
    by_cases h : count < n
    · rw [if_pos h]
      exact Action.yields_pure (.inr ⟨y, rfl⟩)
    · rw [if_neg h]
      exact Action.yields_pure (.inl rfl)
  | drop n =>
    refine Machine.yields_ofTransition (fun count y => ?_) x
    by_cases h : count < n
    · rw [if_pos h]
      exact Action.yields_pure (.inl rfl)
    · rw [if_neg h]
      exact Action.yields_pure (.inr ⟨y, rfl⟩)
  | mapAccum init step =>
    refine Machine.yields_ofTransition (fun s y => ?_) x
    exact Action.yields_bind fun q => Action.yields_pure ⟨q.2, rfl⟩

namespace Operator

variable {ω α β : Type} (o : Operator (Action ω) α β)

theorem settled : o.machine.Settled := by
  intro x w r hr
  have hallowed := o.yields_allowed x w r hr
  rintro rfl
  cases o <;> simp [form, Form.Allows] at hallowed

theorem unexpanding (h : o.form ≠ .flatMap) : o.machine.Unexpanding := by
  intro x w r hr
  have hallowed := o.yields_allowed x w r hr
  cases o with
  | flatMap f => exact absurd rfl h
  | identity | map | mapAccum =>
    obtain ⟨y, rfl⟩ := hallowed
    rfl
  | filter | filterMap | drop | take =>
    obtain rfl | ⟨y, rfl⟩ := hallowed
    · rfl
    · rfl

theorem bundled (h : o.form = .flatMap) : o.machine.Bundled := by
  intro x w r hr
  have hallowed := o.yields_allowed x w r hr
  rw [h] at hallowed
  obtain rfl | ⟨y, ys, rfl⟩ := hallowed
  · exact nofun
  · exact nofun

end Operator

namespace Plan

variable {ω α β γ δ : Type}

/-- No plan replies with an empty expansion. -/
theorem settled (p : Plan (Action ω) α β) : p.machine.Settled := by
  induction p with
  | operator o => exact o.settled
  | seq left right _ ihr => exact Machine.settled_seq left.machine ihr

/-- A plan without an operator that expands never expands. -/
theorem unexpanding (p : Plan (Action ω) α β) (hp : .flatMap ∉ p.shape.forms) :
    p.machine.Unexpanding := by
  induction p with
  | operator o =>
    refine o.unexpanding fun ho => hp ?_
    show Form.flatMap ∈ [o.form]
    rw [ho]
    exact List.mem_singleton_self _
  | seq left right ihl ihr =>
    have hl : .flatMap ∉ left.shape.forms := fun h => hp (List.mem_append_left _ h)
    have hr : .flatMap ∉ right.shape.forms := fun h => hp (List.mem_append_right _ h)
    exact Machine.unexpanding_seq (ihl hl) (ihr hr)

/-- A plan with an operator that expands, be it anywhere, never puts out a single element. -/
theorem bundled (p : Plan (Action ω) α β) (hp : .flatMap ∈ p.shape.forms) :
    p.machine.Bundled := by
  induction p with
  | operator o => exact o.bundled (List.mem_singleton.mp hp).symm
  | seq left right ihl ihr =>
    obtain hl | hr := List.mem_append.mp hp
    · exact Machine.bundled_seq_left (ihl hl) right.machine
    · exact Machine.bundled_seq_right left.machine (ihr hr)

-- ---------------------------------------------------------------------------
-- Likeness of plans
-- ---------------------------------------------------------------------------

/-- No observer can tell the two plans apart. -/
def Alike (p q : Plan (Action ω) α β) : Prop :=
  ∀ calls w, p.history calls w = q.history calls w

theorem Alike.refl (p : Plan (Action ω) α β) : p.Alike p :=
  fun _ _ => rfl

theorem Alike.symm {p q : Plan (Action ω) α β} (h : p.Alike q) : q.Alike p :=
  fun calls w => (h calls w).symm

theorem Alike.trans {p q r : Plan (Action ω) α β} (hpq : p.Alike q) (hqr : q.Alike r) :
    p.Alike r :=
  fun calls w => (hpq calls w).trans (hqr calls w)

instance : Trans (Alike : Plan (Action ω) α β → Plan (Action ω) α β → Prop) Alike Alike :=
  ⟨Alike.trans⟩

/-- States of the two plans from which no observer can tell them apart. -/
def AlikeFrom (p q : Plan (Action ω) α β) (s : p.machine.State) (t : q.machine.State) : Prop :=
  Process.Alike { machine := p.machine, state := s } { machine := q.machine, state := t }

/-- Plans are alike if they start alike, into states that a bisimulation relates. -/
theorem alike_of_start {p q : Plan (Action ω) α β} {S : p.machine.State → q.machine.State → Prop}
    (hM : Machine.Bisim Eq p.machine q.machine S) (hS : Action.Agree S Eq p.start q.start) :
    p.Alike q := by
  intro calls w
  simp only [history, spawn]
  obtain ⟨e, w', _, l, rfl, hp, hq⟩ | ⟨s, t, w', _, l, hst, rfl, hp, hq⟩ :=
    (hS w w rfl).result_cases
  · rw [hp, hq]
    rfl
  · -- both start, in related states, and from there the machines decide
    rw [hp, hq]
    have hoffers := Process.alike_of_bisim hM hst calls
    exact Outcome.ext (congrArg Except.ok hoffers) rfl rfl

/-- Alike plans start alike, into states from which they stay alike. -/
theorem Alike.start {p q : Plan (Action ω) α β} (h : p.Alike q) :
    Action.Agree (AlikeFrom p q) Eq p.start q.start := by
  rintro w v rfl
  have hcalls := fun calls => h calls w
  simp only [history, spawn] at hcalls
  have hnone := hcalls []
  refine ⟨?_, congrArg Outcome.world hnone, congrArg Outcome.log hnone⟩
  rcases hp : (p.start w).result with e | s <;> rcases hq : (q.start w).result with e' | t
  · -- both fail to start, and the history says how
    have hresult := congrArg Outcome.result hnone
    simp only [hp, hq, Except.map] at hresult
    cases hresult
    exact .error e
  · have hresult := congrArg Outcome.result hnone
    simp [hp, hq, Except.map] at hresult
  · have hresult := congrArg Outcome.result hnone
    simp [hp, hq, Except.map] at hresult
  · refine .ok fun calls => ?_
    have hresult := congrArg Outcome.result (hcalls calls)
    simp only [hp, hq, Except.map] at hresult
    exact Except.ok.inj hresult

/-- Alike plans give equal passes, from the first action to the last number. -/
theorem Alike.pass_eq {p q : Plan (Action ω) α β} (h : p.Alike q) (xs : List α) (w : ω) :
    p.pass xs w = q.pass xs w := by
  simp only [pass]
  obtain ⟨e, w', _, l, rfl, hp, hq⟩ | ⟨s, t, w', _, l, hst, rfl, hp, hq⟩ :=
    (h.start w w rfl).result_cases
  · rw [hp, hq]
  · rw [hp, hq]
    have hfeed := Process.feed_eq_of_alike hst xs w'
    exact congrArg (fun pass => pass.after l) hfeed

/-- Alike plans give equal runs, but for the record that names the plan. -/
theorem Alike.run_eq {p q : Plan (Action ω) α β} (h : p.Alike q) (xs : List α) (w : ω) :
    p.run xs w = { q.run xs w with log := (p.run xs w).log } := by
  unfold run
  rw [h.pass_eq xs w]
  by_cases hfailed : (q.pass xs w).ending.isFailed = true
  · simp [hfailed]
  · simp [hfailed]

/-- Plans in sequence may be replaced by plans that are alike. -/
theorem alike_seq {l l' : Plan (Action ω) α β} {r r' : Plan (Action ω) β γ} (hl : l.Alike l')
    (hr : r.Alike r') : (seq l r).Alike (seq l' r') := by
  have hM := Process.bisim_alike (seq l r).machine (seq l' r').machine
  refine alike_of_start hM ?_
  refine Action.agree_bind hl.start fun s s' hs => ?_
  refine Action.agree_bind hr.start fun t t' ht => ?_
  exact Action.agree_pure (Process.alike_seq hs ht)

-- ---------------------------------------------------------------------------
-- The laws of sequencing
-- ---------------------------------------------------------------------------

/-- An identity in front of a plan hands every element on. -/
theorem identity_seq_alike (p : Plan (Action ω) α β) : (seq (operator .identity) p).Alike p := by
  refine alike_of_start (Machine.bisim_identity_seq p.machine) ?_
  exact Action.agree_bind_pure p.start fun s => rfl

/-- An identity behind a plan hands every output on. -/
theorem seq_identity_alike (p : Plan (Action ω) α β) : (seq p (operator .identity)).Alike p := by
  refine alike_of_start (Machine.bisim_seq_identity p.settled) ?_
  exact Action.agree_bind_pure p.start fun s => rfl

/-- Plans in sequence may be regrouped behind a plan that does not expand. -/
theorem seq_assoc_alike {a : Plan (Action ω) α β} (ha : a.machine.Unexpanding)
    (b : Plan (Action ω) β γ) (c : Plan (Action ω) γ δ) :
    (seq (seq a b) c).Alike (seq a (seq b c)) :=
  alike_of_start (Machine.bisim_seq_assoc ha b.machine c.machine)
    (Machine.agree_regrouped_pairs a.start b.start c.start)

end Plan

end PlanFusion
