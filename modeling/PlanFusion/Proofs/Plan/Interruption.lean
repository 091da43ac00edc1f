import Mathlib.Logic.Equiv.Prod
import PlanFusion.Proofs.Action.Results
import PlanFusion.Proofs.Plan.Exhausted
import PlanFusion.Proofs.Plan.Regrouping

/-!
# PlanFusion — what a failure leaves behind

A failure cuts through all the operators that an element has reached, and nothing is rolled back.
In a plan that never expands an element this has a simple shape. The operators before the one that
failed have let the element pass, so their counts and accumulators have moved on. The one that
failed and those behind it are as they were.

How the joins of the plan are nested does not enter. The states of its operators can be laid out
along its path, and a plan in these states does what the plan of the path does.

* `Operator.Passes`, `Operator.Fails` — what one operator does with an element that it hands on and
  with one that its callable fails at;
* `Path.FailsAt` — the failure of an element at a position of a path, with the states before and
  after it;
* `Plan.leafStates`, `Plan.bisim_leafStates` — the states of the operators along the path;
* `Plan.failure_position` — the result.
-/

namespace PlanFusion

variable {ω σ α β γ : Type}

-- ---------------------------------------------------------------------------
-- One operator
-- ---------------------------------------------------------------------------

namespace Machine

variable {x : α} {r : Reply β} {e : Failure}

theorem gives_stateless {f : α → Action ω (Reply β)} {v v' : Unit × ω} :
    ((stateless f).step x).Gives v r v' ↔ (f x).Gives v.2 r v'.2 := by
  simp only [Action.Gives, stateless, Action.onSecond_apply, Outcome.mapWorld, Prod.ext_iff,
    true_and]

theorem failsWith_stateless {f : α → Action ω (Reply β)} {v v' : Unit × ω} :
    ((stateless f).step x).FailsWith v e v' ↔ (f x).FailsWith v.2 e v'.2 := by
  simp only [Action.FailsWith, stateless, Action.onSecond_apply, Outcome.mapWorld, Prod.ext_iff,
    true_and]

theorem gives_ofTransition {f : σ → α → Action ω (σ × Reply β)} {v v' : σ × ω} :
    ((ofTransition f).step x).Gives v r v' ↔ (f v.1 x).Gives v.2 (v'.1, r) v'.2 := by
  rcases hf : f v.1 x v.2 with ⟨e | ⟨s, q⟩, w, l⟩
  · simp [Action.Gives, ofTransition, hf]
  · simp [Action.Gives, ofTransition, hf, Prod.ext_iff, and_comm, and_assoc]

/-- A transition that fails leaves the state as it was. -/
theorem failsWith_ofTransition {f : σ → α → Action ω (σ × Reply β)} {v v' : σ × ω} :
    ((ofTransition f).step x).FailsWith v e v' ↔
      (f v.1 x).FailsWith v.2 e v'.2 ∧ v'.1 = v.1 := by
  rcases hf : f v.1 x v.2 with ⟨e' | ⟨s, q⟩, w, l⟩
  · simp only [Action.FailsWith, ofTransition, hf, Prod.ext_iff]
    grind
  · simp [Action.FailsWith, ofTransition, hf]

end Machine

namespace Operator

/-- The operator hands on `y` for `x`. A `take` that does so has one place less from then on, a
`drop` has none left to hold back, and an accumulator is what its step makes of it. An operator
that expands hands on a list and no single element. -/
def Passes {α β : Type} : (o : Operator (Action ω) α β) → (x : α) → (v : o.machine.State × ω) →
    (y : β) → (v' : o.machine.State × ω) → Prop
  | identity => fun x v y v' => y = x ∧ v' = v
  | map f => fun x v y v' => (f x).Gives v.2 y v'.2
  | filter p => fun x v y v' => (p x).Gives v.2 true v'.2 ∧ y = x
  | filterMap f => fun x v y v' => (f x).Gives v.2 (some y) v'.2
  | flatMap _ => fun _ _ _ _ => False
  | take n => fun x ((count : Nat), w) y v' => count < n ∧ y = x ∧ v' = (count + 1, w)
  | drop n => fun x ((count : Nat), w) y v' => n ≤ count ∧ y = x ∧ v' = (count, w)
  | mapAccum _ step => fun x v y v' => (step v.1 x).Gives v.2 (v'.1, y) v'.2

/-- The callable of the operator fails at `x`. Operators without a callable do not fail. -/
def Fails {α β : Type} : (o : Operator (Action ω) α β) → (x : α) → (v : o.machine.State × ω) →
    (e : Failure) → (w' : ω) → Prop
  | map f => fun x v e w' => (f x).FailsWith v.2 e w'
  | filter p => fun x v e w' => (p x).FailsWith v.2 e w'
  | filterMap f => fun x v e w' => (f x).FailsWith v.2 e w'
  | flatMap f => fun x v e w' => (f x).FailsWith v.2 e w'
  | mapAccum _ step => fun x v e w' => (step v.1 x).FailsWith v.2 e w'
  | identity | take _ | drop _ => fun _ _ _ _ => False

theorem gives_one_iff (o : Operator (Action ω) α β) {x : α} {y : β} {v v' : o.machine.State × ω} :
    (o.machine.step x).Gives v (.one y) v' ↔ o.Passes x v y v' := by
  cases o with
  | identity =>
    refine Machine.gives_stateless.trans (Action.gives_pure.trans ?_)
    have hstate : v'.1 = v.1 := rfl
    simp [Passes, Prod.ext_iff, hstate]
  | map f =>
    refine Machine.gives_stateless.trans (Action.gives_map.trans ?_)
    simp [Passes]
  | filter p =>
    refine Machine.gives_stateless.trans (Action.gives_bind.trans ?_)
    constructor
    · rintro ⟨b, w', hp, h⟩
      cases b with
      | true =>
        obtain ⟨hy, hw⟩ := Action.gives_pure.mp h
        cases hy
        rw [← hw] at hp
        exact ⟨hp, rfl⟩
      | false => cases (Action.gives_pure.mp h).1
    · rintro ⟨hp, rfl⟩
      exact ⟨true, v'.2, hp, Action.gives_pure.mpr ⟨rfl, rfl⟩⟩
  | filterMap f =>
    refine Machine.gives_stateless.trans (Action.gives_map.trans ?_)
    constructor
    · rintro ⟨z, hz, hf⟩
      cases z with
      | some z =>
        cases hz
        exact hf
      | none => cases hz
    · intro hf
      exact ⟨some y, rfl, hf⟩
  | flatMap f =>
    refine Machine.gives_stateless.trans (Action.gives_map.trans (iff_of_false ?_ id))
    rintro ⟨_ | ⟨z, zs⟩, hz, -⟩ <;> cases hz
  | take n =>
    obtain ⟨(count : Nat), w⟩ := v
    by_cases h : count < n
    · refine (Action.gives_iff_of_ok (step_take_of_lt h x w)).trans ?_
      rw [Reply.one.injEq]
      exact (and_iff_right h).symm
    · refine (Action.gives_iff_of_ok (step_take_of_le (Nat.not_lt.mp h) x w)).trans ?_
      exact iff_of_false (fun hreply => nomatch hreply.1) fun hpasses => h hpasses.1
  | drop n =>
    obtain ⟨(count : Nat), w⟩ := v
    by_cases h : count < n
    · refine (Action.gives_iff_of_ok (step_drop_of_lt h x w)).trans ?_
      exact iff_of_false (fun hreply => nomatch hreply.1) fun hpasses => Nat.not_le.mpr h hpasses.1
    · refine (Action.gives_iff_of_ok (step_drop_of_le (Nat.not_lt.mp h) x w)).trans ?_
      rw [Reply.one.injEq]
      exact (and_iff_right (Nat.not_lt.mp h)).symm
  | mapAccum init step =>
    refine (Machine.gives_ofTransition
      (f := fun s x => step s x >>= fun q => pure (q.1, .one q.2))).trans ?_
    rw [Action.gives_bind]
    constructor
    · rintro ⟨q, w, hstep, h⟩
      obtain ⟨hq, hw⟩ := Action.gives_pure.mp h
      obtain ⟨hs, hy⟩ := Prod.mk.inj hq
      cases hy
      show (step v.1 x).Gives v.2 (v'.1, q.2) v'.2
      rw [hs, hw]
      exact hstep
    · intro hstep
      exact ⟨(v'.1, y), v'.2, hstep, Action.gives_pure.mpr ⟨rfl, rfl⟩⟩

theorem failsWith_iff (o : Operator (Action ω) α β) {x : α} {e : Failure}
    {v v' : o.machine.State × ω} :
    (o.machine.step x).FailsWith v e v' ↔ o.Fails x v e v'.2 ∧ v'.1 = v.1 := by
  cases o with
  | identity =>
    refine Machine.failsWith_stateless.trans (iff_of_false Action.not_failsWith_pure ?_)
    exact fun h => h.1
  | map f =>
    exact Machine.failsWith_stateless.trans (Action.failsWith_map.trans (and_iff_left rfl).symm)
  | filter p =>
    refine Machine.failsWith_stateless.trans (Action.failsWith_bind.trans ?_)
    refine Iff.trans (or_iff_left ?_) (and_iff_left rfl).symm
    rintro ⟨b, w', -, h⟩
    cases b with
    | true => exact Action.not_failsWith_pure h
    | false => exact Action.not_failsWith_pure h
  | filterMap f =>
    exact Machine.failsWith_stateless.trans (Action.failsWith_map.trans (and_iff_left rfl).symm)
  | flatMap f =>
    exact Machine.failsWith_stateless.trans (Action.failsWith_map.trans (and_iff_left rfl).symm)
  | take n =>
    obtain ⟨(count : Nat), w⟩ := v
    refine iff_of_false ?_ fun h => h.1
    by_cases h : count < n
    · exact Action.not_failsWith_of_ok (step_take_of_lt h x w)
    · exact Action.not_failsWith_of_ok (step_take_of_le (Nat.not_lt.mp h) x w)
  | drop n =>
    obtain ⟨(count : Nat), w⟩ := v
    refine iff_of_false ?_ fun h => h.1
    by_cases h : count < n
    · exact Action.not_failsWith_of_ok (step_drop_of_lt h x w)
    · exact Action.not_failsWith_of_ok (step_drop_of_le (Nat.not_lt.mp h) x w)
  | mapAccum init step =>
    refine (Machine.failsWith_ofTransition
      (f := fun s x => step s x >>= fun q => pure (q.1, .one q.2))).trans ?_
    refine and_congr_left' (Action.failsWith_bind.trans (or_iff_left ?_))
    rintro ⟨q, w', -, h⟩
    exact Action.not_failsWith_pure h

end Operator

-- ---------------------------------------------------------------------------
-- Paths
-- ---------------------------------------------------------------------------

section

variable {L : Machine ω α β} {R : Machine ω β γ} {x : α} {e : Failure}

theorem Machine.failsWith_seq {s s' : L.State} {t t' : R.State} {w w' : ω} :
    ((L.seq R).step x).FailsWith ((s, t), w) e ((s', t'), w') ↔
      ((L.step x).FailsWith (s, w) e (s', w') ∧ t' = t) ∨
      ∃ r v, (L.step x).Gives (s, w) r (s', v) ∧ (R.follow r).FailsWith (t, v) e (t', w') := by
  rcases hx : L.step x (s, w) with ⟨e' | r, ⟨s₁, w₁⟩, l⟩
  · rw [Action.FailsWith, step_seq_of_error hx]
    constructor
    · rintro ⟨he, hw⟩
      cases he
      cases hw
      exact .inl ⟨⟨by rw [hx], by rw [hx]⟩, rfl⟩
    · rintro (⟨⟨he, hw⟩, rfl⟩ | ⟨r, v, ⟨hr, -⟩, -⟩)
      · rw [hx] at he hw
        cases he
        cases hw
        exact ⟨rfl, rfl⟩
      · rw [hx] at hr
        cases hr
  · rw [Action.FailsWith, step_seq_of_ok hx]
    constructor
    · rintro ⟨he, hw⟩
      obtain ⟨hstates, hworld⟩ := Prod.mk.inj hw
      obtain ⟨rfl, ht⟩ := Prod.mk.inj hstates
      exact .inr ⟨r, w₁, ⟨by rw [hx], by rw [hx]⟩, he, Prod.ext ht hworld⟩
    · rintro (h | ⟨q, v, hq, he, hw⟩)
      · exact absurd h.1 (Action.not_failsWith_of_ok hx)
      · obtain ⟨rfl, hv⟩ := (Action.gives_iff_of_ok hx).mp hq
        cases hv
        exact ⟨he, congrArg (fun u : R.State × ω => ((s', u.1), u.2)) hw⟩

end

namespace Path

/-- The callable of the operator at the position `j` of the path fails at what the operators before
it have made of `x`. The latter have let the element pass. The states of the failed operator and of
those behind it stay as they are. -/
inductive FailsAt {β : Type} : {α : Type} → (p : Path (Action ω) α β) → (j : Nat) → (x : α) →
    (v : p.plan.machine.State × ω) → (e : Failure) → (v' : p.plan.machine.State × ω) → Prop where
  | here {α γ : Type} {o : Operator (Action ω) α γ} {rest : Path (Action ω) γ β} {x : α}
      {s : o.machine.State} {t : rest.plan.machine.State} {w w' : ω} {e : Failure}
      (h : o.Fails x (s, w) e w') : FailsAt (cons o rest) 0 x ((s, t), w) e ((s, t), w')
  | later {α γ : Type} {o : Operator (Action ω) α γ} {rest : Path (Action ω) γ β} {j : Nat} {x : α}
      {y : γ} {s s' : o.machine.State} {t t' : rest.plan.machine.State} {w w' w'' : ω} {e : Failure}
      (h : o.Passes x (s, w) y (s', w')) (hrest : FailsAt rest j y (t, w') e (t', w'')) :
      FailsAt (cons o rest) (j + 1) x ((s, t), w) e ((s', t'), w'')

theorem failsWith_iff (p : Path (Action ω) α β) (hp : .flatMap ∉ p.forms) {x : α} {e : Failure}
    {v v' : p.plan.machine.State × ω} :
    (p.plan.machine.step x).FailsWith v e v' ↔ ∃ j, p.FailsAt j x v e v' := by
  induction p with
  | nil =>
    refine iff_of_false (fun h => ?_) fun h => ?_
    · exact (Operator.failsWith_iff .identity).mp h |>.1
    · obtain ⟨j, hj⟩ := h
      cases hj
  | cons o rest ih =>
    obtain ⟨⟨s, t⟩, w⟩ := v
    obtain ⟨⟨s', t'⟩, w'⟩ := v'
    obtain ⟨ho, hrest⟩ := not_or.mp (List.mem_cons.not.mp hp)
    refine Machine.failsWith_seq.trans ⟨?_, ?_⟩
    · rintro (⟨hleft, rfl⟩ | ⟨r, u, hleft, hright⟩)
      · obtain ⟨hfails, hstate⟩ := o.failsWith_iff.mp hleft
        cases hstate
        exact ⟨0, .here hfails⟩
      · -- only a single element gets any further, and only then can something else fail
        cases r with
        | one y =>
          obtain ⟨j, hj⟩ := (ih hrest).mp hright
          exact ⟨j + 1, .later (o.gives_one_iff.mp hleft) hj⟩
        | many ys => cases o.unexpanding (Ne.symm ho) x (s, w) (.many ys) hleft.1
        | skip => cases Action.not_failsWith_pure hright
        | abort => cases Action.not_failsWith_pure hright
    · rintro ⟨j, hj⟩
      cases hj with
      | here h => exact .inl ⟨o.failsWith_iff.mpr ⟨h, rfl⟩, rfl⟩
      | later h hj => exact .inr ⟨_, _, o.gives_one_iff.mpr h, (ih hrest).mpr ⟨_, hj⟩⟩

/-- The states along two paths are those along the one behind the other. -/
def appendStates {α β γ : Type} : (p : Path (Action ω) α β) → (q : Path (Action ω) β γ) →
    p.plan.machine.State × q.plan.machine.State ≃ (p.append q).plan.machine.State
  | nil, _ => Equiv.punitProd _
  | cons _ rest, q =>
    (Equiv.prodAssoc ..).trans (Equiv.prodCongr (Equiv.refl _) (rest.appendStates q))

/-- A path behind another one is the two of them in sequence, in the same states. -/
theorem bisim_appendStates (p : Path (Action ω) α β) (q : Path (Action ω) β γ)
    (hp : .flatMap ∉ p.forms) :
    Machine.Bisim Eq (p.plan.machine.seq q.plan.machine) (p.append q).plan.machine
      fun s t => p.appendStates q s = t := by
  induction p with
  | nil => exact Machine.bisim_identity_seq q.plan.machine
  | cons o rest ih =>
    obtain ⟨ho, hrest⟩ := not_or.mp (List.mem_cons.not.mp hp)
    have hmoved := Machine.bisim_seq_assoc (o.unexpanding (Ne.symm ho)) rest.plan.machine
      q.plan.machine
    have hbehind := Machine.bisim_seq (Machine.bisim_refl o.machine) (ih q hrest)
    refine (hmoved.trans hbehind).of_iff ?_
    rintro ⟨⟨s, t⟩, u⟩ v
    constructor
    · rintro rfl
      exact ⟨_, rfl, rfl, rfl⟩
    · rintro ⟨_, rfl, hfirst, hsecond⟩
      exact Prod.ext hfirst hsecond

end Path

-- ---------------------------------------------------------------------------
-- Plans
-- ---------------------------------------------------------------------------

namespace Plan

/-- The states of the operators of a plan, laid out along its path. -/
def leafStates {α β : Type} :
    (p : Plan (Action ω) α β) → p.machine.State ≃ p.path.plan.machine.State
  | operator _ => (Equiv.prodPUnit _).symm
  | seq left right =>
    (Equiv.prodCongr left.leafStates right.leafStates).trans (left.path.appendStates right.path)

/-- A plan that does not expand does what the plan of its path does in the same states. -/
theorem bisim_leafStates (p : Plan (Action ω) α β) (hp : .flatMap ∉ p.path.forms) :
    Machine.Bisim Eq p.machine p.path.plan.machine fun s t => p.leafStates s = t := by
  induction p with
  | operator o =>
    -- the path ends in an identity, which the operator by itself does not have
    refine (Machine.bisim_seq_identity o.settled).symm.of_iff ?_
    rintro s ⟨t, u⟩
    constructor
    · intro h
      cases h
      rfl
    · rintro rfl
      rfl
  | seq left right ihl ihr =>
    have hforms : (seq left right).path.forms = left.path.forms ++ right.path.forms :=
      Path.forms_append left.path right.path
    rw [hforms, List.mem_append, not_or] at hp
    have hsides := Machine.bisim_seq (ihl hp.1) (ihr hp.2)
    refine (hsides.trans (left.path.bisim_appendStates right.path hp.1)).of_iff ?_
    rintro ⟨s, t⟩ u
    constructor
    · rintro rfl
      exact ⟨_, ⟨rfl, rfl⟩, rfl⟩
    · rintro ⟨⟨s', t'⟩, ⟨hs, ht⟩, rfl⟩
      cases hs
      cases ht
      rfl

/-- **A failure leaves the states of a position.** Let a plan not expand, be it nested in any way,
and let its operators be in any states. Handing it an element fails exactly if the callable of one
of its operators does, after those before it have let the element pass. In the states that are
left, the operators before that position have moved on as for any element that they let pass, and
the one there and those behind it are as they were. The plan goes on from these states, as the plan
of its path would. -/
theorem failure_position (p : Plan (Action ω) α β) (hp : .flatMap ∉ p.shape.forms)
    (s : p.machine.State) (x : α) (w : ω) :
    let offered := Process.offer { machine := p.machine, state := s } x w
    (∀ e, offered.1.result = .error e ↔ ∃ j v', p.path.FailsAt j x (p.leafStates s, w) e v') ∧
    (∀ j e t w', p.path.FailsAt j x (p.leafStates s, w) e (t, w') →
      offered.1.result = .error e ∧ offered.1.world = w' ∧
      offered.2 = { machine := p.machine, state := p.leafStates.symm t } ∧
      offered.2.Alike { machine := p.path.plan.machine, state := t }) := by
  intro offered
  have hpath : .flatMap ∉ p.path.forms := by
    rw [p.forms_path]
    exact hp
  have hbisim := p.bisim_leafStates hpath
  obtain ⟨hresults, ⟨hstates, hworlds⟩, -⟩ := hbisim x (s, w) (p.leafStates s, w) ⟨rfl, rfl⟩
  have hresult : offered.1.result = (p.path.plan.machine.step x (p.leafStates s, w)).result :=
    resultRel_eq_iff.mp hresults
  constructor
  · intro e
    constructor
    · intro he
      have hfails := (p.path.failsWith_iff hpath).mp ⟨hresult.symm.trans he, rfl⟩
      obtain ⟨j, hj⟩ := hfails
      exact ⟨j, _, hj⟩
    · rintro ⟨j, v', hj⟩
      have hfails := (p.path.failsWith_iff hpath).mpr ⟨j, hj⟩
      exact hresult.trans hfails.1
  · intro j e t w' hj
    obtain ⟨he, hv⟩ := (p.path.failsWith_iff hpath).mpr ⟨j, hj⟩
    rw [hv] at hstates hworlds
    have hstate : offered.2 = { machine := p.machine, state := p.leafStates.symm t } :=
      congrArg (Process.mk p.machine) ((Equiv.eq_symm_apply _).mpr hstates)
    exact ⟨hresult.trans he, hworlds, hstate, Process.alike_of_bisim hbisim hstates⟩

/-- Let three elements through, add them up but give up at a nine, and hold back the first sum. -/
def budgeted : Plan (Action (List Nat)) Nat Nat :=
  .seq
    (.seq (.operator (.take 3)) (.operator (.mapAccum (pure 0) fun sum x => do
      Action.modify (x :: ·)
      if x = 9 then Action.fail (.callable "nine") else pure (sum + x, sum + x))))
    (.operator (.drop 1))

/-- The plan `budgeted` with these counts and this sum. -/
def budgetedAt (taken sum dropped : Nat) : Process (List Nat) Nat Nat where
  machine := budgeted.machine
  state := (show (Nat × Nat) × Nat from ((taken, sum), dropped))

theorem failure_position_budgeted :
    let reached := ((budgetedAt 0 0 0).offer 5 []).2
    let failed := reached.offer 9 [5]
    .flatMap ∉ budgeted.shape.forms ∧ reached = budgetedAt 1 5 1 ∧
    failed.1.result = .error (.callable "nine") ∧ failed.1.world = [9, 5] ∧
    failed.2 = budgetedAt 2 5 1 ∧
    (failed.2.offers [(4, []), (2, [])]).map Outcome.result = [.ok (.one 9), .ok .abort] := by
  intro reached failed
  have hforms : .flatMap ∉ budgeted.shape.forms := by decide
  have hposition := budgeted.failure_position hforms reached.state 9 [5]
  have htake : (1 : Nat) < 3 := by decide
  have hfails : budgeted.path.FailsAt 1 9 (budgeted.leafStates reached.state, [5])
      (.callable "nine") (((2 : Nat), ((5 : Nat), ((1 : Nat), ()))), [9, 5]) :=
    .later ⟨htake, rfl, rfl⟩ (.here ⟨rfl, rfl⟩)
  obtain ⟨hresult, hworld, hstate, -⟩ := hposition.2 1 _ _ _ hfails
  exact ⟨hforms, rfl, hresult, hworld, hstate, rfl⟩

end Plan

end PlanFusion
