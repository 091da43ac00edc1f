import PlanFusion.Plan.Fusion
import PlanFusion.Proofs.Plan.Alike
import PlanFusion.Runner

/-!
# PlanFusion — fusion is transparent

No observer can tell a plan from its normal form, whatever the callables of the plan do. This is
shown from the bottom up:

* `fuse?_operator_alike` — each row of the fusion table gives an operator that is alike the two
  operators in sequence. Fused operators remember nothing, so that there are no states to relate;
* `fuse_alike`, `joinNormalized_alike`, `normalize_alike` — fusing two plans, and all plans within
  a plan, because likeness is a congruence;
* `normalize_transparent` — the same as an equality of everything that can be observed.
-/

namespace PlanFusion

open Machine (stateless onSome)

variable {ω α β γ : Type}

-- ---------------------------------------------------------------------------
-- Operators that remember nothing
-- ---------------------------------------------------------------------------

namespace Operator

/-- The operator answers each element with the action `a` and remembers nothing. -/
structure Memoryless (o : Operator (Action ω) α β) (a : α → Action ω (Reply β)) : Prop where
  machine : o.machine = stateless a
  start : ∃ s, o.start = pure s

/-- In fusion the image of an element is one that might have been missing. -/
theorem memoryless_map (f : α → Action ω β) :
    (map f).Memoryless fun x => .ofOption <$> (f x >>= fun y => pure (some y)) where
  machine := by
    refine congrArg stateless (funext fun x => ?_)
    simp only [map_eq_pure_bind, bind_assoc, pure_bind]
    rfl
  start := ⟨(), rfl⟩

/-- In fusion a test gives the element itself or nothing. -/
theorem memoryless_filter (p : α → Action ω Bool) :
    (filter p).Memoryless fun x =>
      .ofOption <$> (p x >>= fun b => pure (if b then some x else none)) where
  machine := by
    refine congrArg stateless (funext fun x => ?_)
    simp only [map_eq_pure_bind, bind_assoc, pure_bind]
    refine bind_congr fun b => ?_
    cases b with
    | true => rfl
    | false => rfl
  start := ⟨(), rfl⟩

theorem memoryless_filterMap (f : α → Action ω (Option β)) :
    (filterMap f).Memoryless fun x => .ofOption <$> f x :=
  ⟨rfl, (), rfl⟩

theorem memoryless_flatMap (f : α → Action ω (List β)) :
    (flatMap f).Memoryless fun x => .ofList <$> f x :=
  ⟨rfl, (), rfl⟩

end Operator

namespace Plan

/-- Two operators that remember nothing are alike one that does both at once. -/
theorem seq_alike_operator {o : Operator (Action ω) α β} {o' : Operator (Action ω) β γ}
    {f : Operator (Action ω) α γ} {a : α → Action ω (Option β)} {b : β → Action ω (Reply γ)}
    {c : α → Action ω (Reply γ)} (ho : o.Memoryless fun x => .ofOption <$> a x)
    (ho' : o'.Memoryless b) (hf : f.Memoryless c) (hc : ∀ x, c x = a x >>= onSome b) :
    (seq (operator o) (operator o')).Alike (operator f) := by
  have hM : Machine.Bisim Eq (o.machine.seq o'.machine) f.machine fun _ _ => True := by
    rw [ho.machine, ho'.machine, hf.machine, funext hc]
    exact Machine.bisim_stateless_seq a b
  refine alike_of_start hM ?_
  obtain ⟨s, hs⟩ := ho.start
  obtain ⟨t, ht⟩ := ho'.start
  obtain ⟨u, hu⟩ := hf.start
  show Action.Agree _ Eq (o.start >>= fun s => o'.start >>= fun t => pure (s, t)) f.start
  rw [hs, ht, hu]
  exact Action.agree_pure trivial

/-- Every row of the fusion table is sound. -/
theorem fuse?_operator_alike {o : Operator (Action ω) α β} {o' : Operator (Action ω) β γ}
    {f : Operator (Action ω) α γ} (h : o.fuse? o' = some f) :
    (seq (operator o) (operator o')).Alike (operator f) := by
  cases o <;> cases o' <;> simp only [Operator.fuse?, Option.some.injEq, reduceCtorEq] at h <;>
    subst h
  -- In each row both sides run the same callables up to the laws of the monad. A test then decides
  -- between two continuations, which are compared one by one.
  case map.map f g =>
    refine seq_alike_operator (Operator.memoryless_map f) (Operator.memoryless_map g)
      (Operator.memoryless_map _) ?_
    intro x
    simp only [map_eq_pure_bind, bind_assoc, pure_bind, onSome]
  case map.filter f q =>
    refine seq_alike_operator (Operator.memoryless_map f) (Operator.memoryless_filter q)
      (Operator.memoryless_filterMap _) ?_
    intro x
    simp only [map_eq_pure_bind, bind_assoc, pure_bind, onSome]
    refine bind_congr fun y => bind_congr fun b => ?_
    cases b with
    | true => rfl
    | false => rfl
  case map.flatMap f g =>
    refine seq_alike_operator (Operator.memoryless_map f) (Operator.memoryless_flatMap g)
      (Operator.memoryless_flatMap _) ?_
    intro x
    simp only [map_eq_pure_bind, bind_assoc, pure_bind, onSome]
  case filter.map p g =>
    refine seq_alike_operator (Operator.memoryless_filter p) (Operator.memoryless_map g)
      (Operator.memoryless_filterMap _) ?_
    intro x
    simp only [map_eq_pure_bind, bind_assoc, pure_bind]
    refine bind_congr fun b => ?_
    cases b with
    | true => simp only [if_true, bind_assoc, pure_bind, onSome]
    | false => rfl
  case filter.filter p q =>
    refine seq_alike_operator (Operator.memoryless_filter p) (Operator.memoryless_filter q)
      (Operator.memoryless_filter _) ?_
    intro x
    simp only [map_eq_pure_bind, bind_assoc, pure_bind]
    refine bind_congr fun b => ?_
    cases b with
    | true => rfl
    | false => rfl
  case filter.filterMap p g =>
    refine seq_alike_operator (Operator.memoryless_filter p) (Operator.memoryless_filterMap g)
      (Operator.memoryless_filterMap _) ?_
    intro x
    simp only [map_eq_pure_bind, bind_assoc, pure_bind]
    refine bind_congr fun b => ?_
    cases b with
    | true => rfl
    | false => rfl
  case filterMap.map f g =>
    refine seq_alike_operator (Operator.memoryless_filterMap f) (Operator.memoryless_map g)
      (Operator.memoryless_filterMap _) ?_
    intro x
    simp only [map_eq_pure_bind, bind_assoc]
    refine bind_congr fun y => ?_
    cases y with
    | some y => simp only [bind_assoc, pure_bind, onSome]
    | none => rfl
  case filterMap.filter f q =>
    refine seq_alike_operator (Operator.memoryless_filterMap f) (Operator.memoryless_filter q)
      (Operator.memoryless_filterMap _) ?_
    intro x
    simp only [map_eq_pure_bind, bind_assoc]
    refine bind_congr fun y => ?_
    cases y with
    | some y =>
      simp only [bind_assoc, onSome]
      refine bind_congr fun b => ?_
      cases b with
      | true => rfl
      | false => rfl
    | none => rfl
  case filterMap.flatMap f g =>
    refine seq_alike_operator (Operator.memoryless_filterMap f) (Operator.memoryless_flatMap g)
      (Operator.memoryless_flatMap _) ?_
    intro x
    simp only [map_eq_pure_bind, bind_assoc]
    refine bind_congr fun y => ?_
    cases y with
    | some y => rfl
    | none => rfl

/-- Two plans that become one are alike that one. -/
theorem Fuses.alike {l : Plan (Action ω) α β} {r : Plan (Action ω) β γ} {p : Plan (Action ω) α γ}
    (h : Fuses l r p) : (seq l r).Alike p := by
  cases h with
  | identity_left => exact identity_seq_alike _
  | identity_right => exact seq_identity_alike _
  | operators hrule => exact fuse?_operator_alike hrule

theorem fuse_alike (l : Plan (Action ω) α β) (r : Plan (Action ω) β γ) :
    (l.fuse r).value.Alike (seq l r) := by
  rcases fuse_cases l r with ⟨p, hp, hfuse⟩ | ⟨-, hfuse⟩
  · rw [hfuse]
    exact hp.alike.symm
  · rw [hfuse]
    exact Alike.refl (seq l r)

/-- A plan and its normal form are alike. -/
theorem normalize_alike (p : Plan (Action ω) α β) : p.normalize.value.Alike p := by
  induction p with
  | operator o => exact Alike.refl (operator o)
  | seq l r ihl ihr =>
    calc (seq l r).normalize.value
      _ = (l.normalize.value.fuse r.normalize.value).value := rfl
      Alike _ (seq l.normalize.value r.normalize.value) := fuse_alike _ _
      Alike _ (seq l r) := alike_seq ihl ihr

theorem joinNormalized_alike (l : Plan (Action ω) α β) (r : Plan (Action ω) β γ) :
    (l.joinNormalized r).value.Alike (seq l r) :=
  alike_seq (normalize_alike l) (normalize_alike r)

/-- **Fusion is transparent.** A plan and its normal form start alike, with the same accumulators
made in the same order, and then reply alike to any elements in any worlds, also after aborts and
failures. Hence they give the same pass over every list, and a runner completes the same runs of
both, with the same outputs and numbers, or sees the same failure. Only the record of a completed
run differs, because it names the plan. -/
theorem normalize_transparent (p : Plan (Action ω) α β) :
    (∀ calls w, p.normalize.value.history calls w = p.history calls w) ∧
    (∀ xs w, p.normalize.value.pass xs w = p.pass xs w) ∧
    (∀ (runner : Runner) xs w, runner.run p.normalize.value xs w =
      ({ (runner.run p xs w).1 with log := (runner.run p.normalize.value xs w).1.log },
        (runner.run p xs w).2)) := by
  have halike := normalize_alike p
  refine ⟨halike, halike.pass_eq, fun runner xs w => ?_⟩
  have hrun := halike.run_eq xs w
  refine Prod.ext hrun ?_
  show runner.record (p.normalize.value.run xs w) = runner.record (p.run xs w)
  rw [hrun]
  rfl

end Plan

end PlanFusion
