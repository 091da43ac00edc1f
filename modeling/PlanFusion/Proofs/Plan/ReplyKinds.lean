import PlanFusion.Proofs.Machine.Replies
import PlanFusion.Proofs.Plan.Interruption
import PlanFusion.Proofs.Process.Resumption

/-!
# PlanFusion — what the forms of a plan say about its replies

Whether a plan expands can be read off its forms, and it is all or nothing: without a `flatMap` it
never replies with an expansion, and with one it never replies with a single output. No expansion
is ever empty. An abort comes from an exhausted `take`, and only from one that single elements
reach, which are those in front of the first `flatMap`.

All this holds in every state, so also after aborts and failures. What the numbers of a run say
follows from it.

* `Machine.HandsOn`, `abort_seq_iff`, `handsOn_seq_iff` — single outputs and aborts of two machines
  in sequence;
* `Path.AbortsAt` — an element that an exhausted operator of a path does not let through;
* `Plan.abort_iff_abortsAt` — a plan aborts exactly at such an element, however its joins are
  nested;
* `Plan.Permits`, `Plan.Explains` — what its forms say about a reply, and about the numbers of a
  pass;
* `Plan.replies_follow_forms` — the result.
-/

namespace PlanFusion

variable {ω α β γ : Type}

-- ---------------------------------------------------------------------------
-- Machines
-- ---------------------------------------------------------------------------

namespace Machine

/-- The machine replies to `x` with the single output `y` and leaves the world `w'`. -/
def HandsOn (M : Machine ω α β) (x : α) (v : M.State × ω) (y : β) (w' : ω) : Prop :=
  (M.step x v).result = .ok (.one y) ∧ (M.step x v).world.2 = w'

theorem handsOn_iff_gives {M : Machine ω α β} {x : α} {v : M.State × ω} {y : β} {w' : ω} :
    M.HandsOn x v y w' ↔ ∃ s', (M.step x).Gives v (.one y) (s', w') := by
  constructor
  · rintro ⟨hreply, rfl⟩
    exact ⟨_, hreply, rfl⟩
  · rintro ⟨s', hreply, hworld⟩
    exact ⟨hreply, congrArg Prod.snd hworld⟩

/-- Machines in related states hand on the same. -/
theorem Bisim.handsOn_iff {M N : Machine ω α β} {S : M.State → N.State → Prop} (h : Bisim Eq M N S)
    {s : M.State} {t : N.State} (hst : S s t) {x : α} {w : ω} {y : β} {w' : ω} :
    M.HandsOn x (s, w) y w' ↔ N.HandsOn x (t, w) y w' := by
  obtain ⟨hresult, ⟨-, hworld⟩, -⟩ := h x (s, w) (t, w) ⟨hst, rfl⟩
  rw [HandsOn, HandsOn, resultRel_eq_iff.mp hresult, hworld]

/-- A machine that puts out nothing but expansions hands on nothing. -/
theorem Bundled.not_handsOn {M : Machine ω α β} (hM : M.Bundled) {x : α} {v : M.State × ω} {y : β}
    {w' : ω} : ¬ M.HandsOn x v y w' :=
  fun h => hM x v _ h.1 y rfl

section Seq

variable {L : Machine ω α β} {R : Machine ω β γ} {x : α} {s : L.State} {t : R.State} {w : ω}

/-- What two machines in sequence reply when the left one has handed on `y`. -/
theorem step_seq_of_handsOn {y : β} {w' : ω} (h : L.HandsOn x (s, w) y w') :
    ((L.seq R).step x ((s, t), w)).result = (R.step y (t, w')).result ∧
      ((L.seq R).step x ((s, t), w)).world.2 = (R.step y (t, w')).world.2 := by
  obtain ⟨hreply, rfl⟩ := h
  rcases hx : L.step x (s, w) with ⟨r, ⟨s', v⟩, l⟩
  rw [hx] at hreply
  cases hreply
  rw [step_seq_of_ok hx]
  exact ⟨rfl, rfl⟩

/-- What does not come out of an expansion comes from the left machine alone, if it is an abort, or
from a single output that the left machine hands on. -/
theorem step_seq_cases {q : Reply γ} (hq : ∀ zs, q ≠ .ofList zs)
    (h : ((L.seq R).step x ((s, t), w)).result = .ok q) :
    (q = .abort ∧ (L.step x (s, w)).result = .ok .abort) ∨ ∃ y w', L.HandsOn x (s, w) y w' := by
  rcases hx : L.step x (s, w) with ⟨e | r, ⟨s', v⟩, l⟩
  · rw [step_seq_of_error hx] at h
    cases h
  · rw [step_seq_of_ok hx] at h
    cases r with
    | one y => exact .inr ⟨y, v, congrArg Outcome.result hx, congrArg (fun o => o.world.2) hx⟩
    | many ys =>
      have hlists : (R.follow (.many ys)).Yields fun q => ∃ zs, q = .ofList zs :=
        Action.yields_bind fun zs => Action.yields_pure ⟨zs, rfl⟩
      obtain ⟨zs, hzs⟩ := hlists (t, v) q h
      exact absurd hzs (hq zs)
    | skip =>
      cases h
      exact absurd rfl (hq [])
    | abort =>
      cases h
      exact .inl ⟨rfl, rfl⟩

/-- Two machines abort if the left one does, or if the right one does at what the left one hands
on. -/
theorem abort_seq_iff : ((L.seq R).step x ((s, t), w)).result = .ok .abort ↔
    (L.step x (s, w)).result = .ok .abort ∨
      ∃ y w', L.HandsOn x (s, w) y w' ∧ (R.step y (t, w')).result = .ok .abort := by
  have hno : ∀ zs : List γ, .abort ≠ Reply.ofList zs := by
    rintro (_ | ⟨z, zs⟩) <;> simp [Reply.ofList]
  constructor
  · intro h
    obtain ⟨-, habort⟩ | ⟨y, w', hy⟩ := step_seq_cases hno h
    · exact .inl habort
    · exact .inr ⟨y, w', hy, (step_seq_of_handsOn hy).1.symm.trans h⟩
  · rintro (habort | ⟨y, w', hy, habort⟩)
    · rcases hx : L.step x (s, w) with ⟨r, ⟨s', v⟩, l⟩
      rw [hx] at habort
      cases habort
      rw [step_seq_of_ok hx]
      rfl
    · exact (step_seq_of_handsOn hy).1.trans habort

/-- Two machines hand on what the right one hands on of what the left one does. -/
theorem handsOn_seq_iff {z : γ} {w'' : ω} : (L.seq R).HandsOn x ((s, t), w) z w'' ↔
    ∃ y w', L.HandsOn x (s, w) y w' ∧ R.HandsOn y (t, w') z w'' := by
  have hno : ∀ zs : List γ, .one z ≠ Reply.ofList zs := fun zs => (ofList_ne_one zs z).symm
  constructor
  · rintro ⟨hreply, hworld⟩
    obtain ⟨habort, -⟩ | ⟨y, w', hy⟩ := step_seq_cases hno hreply
    · cases habort
    · obtain ⟨hresult, hleft⟩ := step_seq_of_handsOn (R := R) (t := t) hy
      exact ⟨y, w', hy, hresult.symm.trans hreply, hleft.symm.trans hworld⟩
  · rintro ⟨y, w', hy, hz, hworld⟩
    obtain ⟨hresult, hleft⟩ := step_seq_of_handsOn (R := R) (t := t) hy
    exact ⟨hresult.trans hz, hleft.trans hworld⟩

end Seq

end Machine

-- ---------------------------------------------------------------------------
-- Paths
-- ---------------------------------------------------------------------------

namespace Operator

theorem form_of_exhausted {o : Operator (Action ω) α β} {s : o.machine.State}
    (h : o.Exhausted s) : ∃ n, o.form = .take n := by
  cases o with
  | take n => exact ⟨n, rfl⟩
  | _ => exact h.elim

theorem form_of_passes {o : Operator (Action ω) α β} {x : α} {v v' : o.machine.State × ω} {y : β}
    (h : o.Passes x v y v') : o.form ≠ .flatMap := by
  cases o with
  | flatMap f => exact h.elim
  | _ => simp [form]

/-- An operator aborts exactly when it is exhausted. -/
theorem abort_iff (o : Operator (Action ω) α β) {x : α} {v : o.machine.State × ω} :
    (o.machine.step x v).result = .ok .abort ↔ o.Exhausted v.1 := by
  cases o with
  | take n =>
    obtain ⟨(count : Nat), w⟩ := v
    by_cases h : count < n
    · rw [step_take_of_lt h]
      exact iff_of_false nofun (Nat.not_le.mpr h)
    · rw [step_take_of_le (Nat.not_lt.mp h)]
      exact iff_of_true rfl (Nat.not_lt.mp h)
  | identity | map | filter | filterMap | flatMap | drop | mapAccum =>
    refine iff_of_false (fun h => ?_) id
    have hallowed := yields_allowed _ x v _ h
    simp [form, Form.Allows] at hallowed

end Operator

namespace Path

/-- The operator at the position `j` of the path is exhausted and gets what those before it have
made of `x`: each of them has handed on a single element. -/
inductive AbortsAt {β : Type} : {α : Type} → (p : Path (Action ω) α β) → (j : Nat) → (x : α) →
    (v : p.plan.machine.State × ω) → Prop where
  | here {α γ : Type} {o : Operator (Action ω) α γ} {rest : Path (Action ω) γ β} {x : α}
      {s : o.machine.State} {t : rest.plan.machine.State} {w : ω} (h : o.Exhausted s) :
      AbortsAt (cons o rest) 0 x ((s, t), w)
  | later {α γ : Type} {o : Operator (Action ω) α γ} {rest : Path (Action ω) γ β} {j : Nat} {x : α}
      {y : γ} {s s' : o.machine.State} {t : rest.plan.machine.State} {w w' : ω}
      (h : o.Passes x (s, w) y (s', w')) (hrest : AbortsAt rest j y (t, w')) :
      AbortsAt (cons o rest) (j + 1) x ((s, t), w)

/-- Such an operator is a `take`, and none of those before it expands. -/
theorem AbortsAt.position {p : Path (Action ω) α β} {j : Nat} {x : α}
    {v : p.plan.machine.State × ω} (h : p.AbortsAt j x v) :
    ∃ n, p.forms[j]? = some (.take n) ∧ .flatMap ∉ p.forms.take j := by
  induction h with
  | here h =>
    obtain ⟨n, hn⟩ := Operator.form_of_exhausted h
    exact ⟨n, congrArg some hn, List.not_mem_nil⟩
  | later h hrest ih =>
    obtain ⟨n, hn, hbefore⟩ := ih
    refine ⟨n, hn, ?_⟩
    rw [forms, List.take_succ_cons, List.mem_cons, not_or]
    exact ⟨(Operator.form_of_passes h).symm, hbefore⟩

/-- The plan of a path aborts exactly at an exhausted operator. -/
theorem abort_iff (p : Path (Action ω) α β) {x : α} {v : p.plan.machine.State × ω} :
    (p.plan.machine.step x v).result = .ok .abort ↔ ∃ j, p.AbortsAt j x v := by
  induction p with
  | nil =>
    refine iff_of_false nofun ?_
    rintro ⟨j, hj⟩
    cases hj
  | cons o rest ih =>
    obtain ⟨⟨s, t⟩, w⟩ := v
    refine Machine.abort_seq_iff.trans ⟨?_, ?_⟩
    · rintro (hleft | ⟨y, w', hy, hright⟩)
      · exact ⟨0, .here (o.abort_iff.mp hleft)⟩
      · obtain ⟨s', hgives⟩ := Machine.handsOn_iff_gives.mp hy
        obtain ⟨j, hj⟩ := ih.mp hright
        exact ⟨j + 1, .later (o.gives_one_iff.mp hgives) hj⟩
    · rintro ⟨j, hj⟩
      cases hj with
      | here h => exact .inl (o.abort_iff.mpr h)
      | later h hrest =>
        have hy := Machine.handsOn_iff_gives.mpr ⟨_, o.gives_one_iff.mpr h⟩
        exact .inr ⟨_, _, hy, ih.mpr ⟨_, hrest⟩⟩

/-- A path behind another one aborts when the two of them in sequence do, in the same states. -/
theorem abort_appendStates_iff (p : Path (Action ω) α β) (q : Path (Action ω) β γ) {x : α}
    {s : p.plan.machine.State} {t : q.plan.machine.State} {w : ω} :
    ((p.append q).plan.machine.step x (p.appendStates q (s, t), w)).result = .ok .abort ↔
      ((p.plan.machine.seq q.plan.machine).step x ((s, t), w)).result = .ok .abort := by
  induction p generalizing w with
  | nil =>
    have hunit := Machine.bisim_identity_seq q.plan.machine x ((s, t), w) (t, w) ⟨rfl, rfl⟩
    have hsame := resultRel_eq_iff.mp hunit.result
    exact ⟨hsame.trans, hsame.symm.trans⟩
  | cons o rest ih =>
    obtain ⟨s₁, s₂⟩ := s
    refine Machine.abort_seq_iff.trans (Iff.trans ⟨?_, ?_⟩ Machine.abort_seq_iff.symm)
    · rintro (hfirst | ⟨y, w', hy, hrest⟩)
      · exact .inl (Machine.abort_seq_iff.mpr (.inl hfirst))
      · obtain hsecond | ⟨z, w'', hz, hthird⟩ := Machine.abort_seq_iff.mp ((ih q).mp hrest)
        · exact .inl (Machine.abort_seq_iff.mpr (.inr ⟨y, w', hy, hsecond⟩))
        · exact .inr ⟨z, w'', Machine.handsOn_seq_iff.mpr ⟨y, w', hy, hz⟩, hthird⟩
    · rintro (hboth | ⟨z, w'', hz, hthird⟩)
      · obtain hfirst | ⟨y, w', hy, hsecond⟩ := Machine.abort_seq_iff.mp hboth
        · exact .inl hfirst
        · exact .inr ⟨y, w', hy, (ih q).mpr (Machine.abort_seq_iff.mpr (.inl hsecond))⟩
      · obtain ⟨y, w', hy, hz'⟩ := Machine.handsOn_seq_iff.mp hz
        exact .inr ⟨y, w', hy, (ih q).mpr (Machine.abort_seq_iff.mpr (.inr ⟨z, w'', hz', hthird⟩))⟩

theorem flatMap_mem_plan {p : Path (Action ω) α β} (h : .flatMap ∈ p.forms) :
    .flatMap ∈ p.plan.shape.forms := by
  induction p with
  | nil => cases h
  | cons o rest ih =>
    obtain ho | hrest := List.mem_cons.mp h
    · exact List.mem_append_left _ (List.mem_singleton.mpr ho)
    · exact List.mem_append_right _ (ih hrest)

end Path

-- ---------------------------------------------------------------------------
-- Plans
-- ---------------------------------------------------------------------------

namespace Plan

/-- A plan hands on what the plan of its path does in the same states. -/
theorem handsOn_leafStates_iff (p : Plan (Action ω) α β) {x : α} {s : p.machine.State} {w : ω}
    {y : β} {w' : ω} :
    p.machine.HandsOn x (s, w) y w' ↔
      p.path.plan.machine.HandsOn x (p.leafStates s, w) y w' := by
  by_cases hp : .flatMap ∈ p.path.forms
  · have hplan : .flatMap ∈ p.shape.forms := by
      rw [← p.forms_path]
      exact hp
    exact iff_of_false (p.bundled hplan).not_handsOn
      (p.path.plan.bundled (Path.flatMap_mem_plan hp)).not_handsOn
  · exact (p.bisim_leafStates hp).handsOn_iff rfl

/-- A plan aborts when the plan of its path does in the same states, also if it expands. -/
theorem abort_leafStates_iff (p : Plan (Action ω) α β) {x : α} {s : p.machine.State} {w : ω} :
    (p.machine.step x (s, w)).result = .ok .abort ↔
      (p.path.plan.machine.step x (p.leafStates s, w)).result = .ok .abort := by
  induction p generalizing w with
  | operator o =>
    -- the path of a single operator ends in the identity, which never aborts
    refine (or_iff_left ?_).symm.trans Machine.abort_seq_iff.symm
    rintro ⟨y, w', -, habort⟩
    cases habort
  | seq left right ihl ihr =>
    obtain ⟨s, t⟩ := s
    have hsides : ((left.machine.seq right.machine).step x ((s, t), w)).result = .ok .abort ↔
        ((left.path.plan.machine.seq right.path.plan.machine).step x
          ((left.leafStates s, right.leafStates t), w)).result = .ok .abort := by
      rw [Machine.abort_seq_iff, Machine.abort_seq_iff, ihl]
      simp only [left.handsOn_leafStates_iff, ihr]
    exact hsides.trans (left.path.abort_appendStates_iff right.path).symm

/-- A plan aborts exactly at an element that an operator of its path which is exhausted gets from
those before it. -/
theorem abort_iff_abortsAt (p : Plan (Action ω) α β) {x : α} {s : p.machine.State} {w : ω} :
    (p.machine.step x (s, w)).result = .ok .abort ↔ ∃ j, p.path.AbortsAt j x (p.leafStates s, w) :=
  p.abort_leafStates_iff.trans p.path.abort_iff

/-- What a plan in the state `s` can reply to `x`. -/
structure Permits (p : Plan (Action ω) α β) (s : p.machine.State) (x : α) (w : ω) (r : Reply β) :
    Prop where
  settled : r ≠ .many []
  unexpanding : .flatMap ∉ p.shape.forms → r.isExpansion = false
  bundled : .flatMap ∈ p.shape.forms → ∀ y, r ≠ .one y
  abort : r = .abort → ∃ j n, p.shape.forms[j]? = some (.take n) ∧
    .flatMap ∉ p.shape.forms.take j ∧ p.path.AbortsAt j x (p.leafStates s, w)

theorem permits_reply (p : Plan (Action ω) α β) {s : p.machine.State} {x : α} {w : ω} {r : Reply β}
    (h : (p.machine.step x (s, w)).result = .ok r) : p.Permits s x w r where
  settled := p.settled x (s, w) r h
  unexpanding := fun hp => p.unexpanding hp x (s, w) r h
  bundled := fun hp => p.bundled hp x (s, w) r h
  abort := by
    rintro rfl
    obtain ⟨j, hj⟩ := p.abort_iff_abortsAt.mp h
    obtain ⟨n, hn, hbefore⟩ := hj.position
    rw [p.forms_path] at hn hbefore
    exact ⟨j, n, hn, hbefore, hj⟩

-- ---------------------------------------------------------------------------
-- The numbers of a run
-- ---------------------------------------------------------------------------

/-- Every `take` stands behind a `flatMap`. -/
def TakesBehindExpansion (p : Plan (Action ω) α β) : Prop :=
  ∀ j n, p.shape.forms[j]? = some (.take n) → .flatMap ∈ p.shape.forms.take j

/-- What the forms of a plan say about a pass over `xs` with the outputs `out` and the numbers
`stats`. The replies in it are `rs`, one for each element that is handed out. -/
structure Explains (p : Plan (Action ω) α β) (xs : List α) (rs : List (Reply β)) (out : List β)
    (stats : Stats) : Prop where
  outputs : out = rs.flatMap Reply.outputs
  emitted : stats.emitted = out.length
  evaluated : stats.evaluated = rs.length
  unexpanding : .flatMap ∉ p.shape.forms →
    stats.expansions = 0 ∧ stats.emitted ≤ stats.evaluated
  bundled : .flatMap ∈ p.shape.forms → stats.expansions = rs.countP fun r => !r.isEmpty
  whole : p.TakesBehindExpansion → stats.aborts = 0 ∧ stats.evaluated = xs.length

end Plan

/-- Replies that are no expansions put out one element each at most. -/
theorem length_flatMap_outputs_le {rs : List (Reply β)} (h : ∀ r ∈ rs, r.isExpansion = false) :
    (rs.flatMap Reply.outputs).length ≤ rs.length := by
  induction rs with
  | nil => exact Nat.le_refl 0
  | cons r rs ih =>
    obtain ⟨hr, hrs⟩ := List.forall_mem_cons.mp h
    have hrest := ih hrs
    have hone : r.outputs.length ≤ 1 := by
      cases r with
      | many ys => cases hr
      | one | skip | abort => simp [Reply.outputs]
    rw [List.flatMap_cons, List.length_append, List.length_cons]
    omega

/-- Without single outputs and empty expansions, to expand is to put something out. -/
theorem Reply.isExpansion_eq_not_isEmpty {r : Reply β} (hsettled : r ≠ .many [])
    (hbundled : ∀ y, r ≠ .one y) : r.isExpansion = !r.isEmpty := by
  cases r with
  | one y => exact absurd rfl (hbundled y)
  | many ys =>
    cases ys with
    | nil => exact absurd rfl hsettled
    | cons y ys => rfl
  | skip | abort => rfl

namespace Plan

theorem feed_explained (p : Plan (Action ω) α β) (s : p.machine.State) (xs : List α) (w : ω)
    (hok : (feed p.machine.step xs (s, w)).ending.isFailed = false) :
    p.Explains xs (PlanFusion.replies p.machine.step xs (s, w))
      (feed p.machine.step xs (s, w)).out (feed p.machine.step xs (s, w)).stats := by
  have hhears := feed_hears p.machine.step xs (s, w)
  have hpulled := hhears.pulled
  rw [hok] at hpulled
  refine ⟨hhears.out, rfl, hpulled, ?_, ?_, ?_⟩
  · intro hp
    have hsingle := forall_replies (p.unexpanding hp) xs (s, w)
    refine ⟨?_, ?_⟩
    · show (feed p.machine.step xs (s, w)).expansions = 0
      rw [hhears.expansions, List.countP_eq_zero]
      intro r hr
      rw [hsingle r hr]
      exact Bool.false_ne_true
    · show (feed p.machine.step xs (s, w)).out.length ≤ (feed p.machine.step xs (s, w)).pulled
      rw [hhears.out, hpulled]
      exact length_flatMap_outputs_le hsingle
  · intro hp
    have hsettled := forall_replies p.settled xs (s, w)
    have hbundled := forall_replies (p.bundled hp) xs (s, w)
    show (feed p.machine.step xs (s, w)).expansions = _
    rw [hhears.expansions]
    refine List.countP_congr fun r hr => ?_
    rw [Reply.isExpansion_eq_not_isEmpty (hsettled r hr) (hbundled r hr)]
  · intro hp
    have hgoes : ∀ x, (p.machine.step x).Yields fun r => r ≠ .abort := by
      rintro x ⟨s, w⟩ r hr rfl
      obtain ⟨j, n, hn, hbefore, -⟩ := (p.permits_reply hr).abort rfl
      exact hbefore (hp j n hn)
    have hne : (feed p.machine.step xs (s, w)).ending ≠ .aborted := by
      intro habort
      exact forall_replies hgoes xs (s, w) _ (hhears.aborted.mp habort) rfl
    refine ⟨if_neg hne, feed_pulled_of_exhausted ?_⟩
    cases hend : (feed p.machine.step xs (s, w)).ending with
    | exhausted => rfl
    | aborted => exact absurd hend hne
    | failed e =>
      rw [hend] at hok
      cases hok

/-- The replies in a run. -/
def replies (p : Plan (Action ω) α β) (xs : List α) (w : ω) : List (Reply β) :=
  match p.start w with
  | { result := .ok s, world := w', log := _ } => PlanFusion.replies p.machine.step xs (s, w')
  | { result := .error _, world := _, log := _ } => []

theorem run_explained (p : Plan (Action ω) α β) (xs : List α) (w : ω)
    (hok : (p.run xs w).ending.isFailed = false) :
    p.Explains xs (p.replies xs w) (p.run xs w).out (p.run xs w).runStats := by
  rw [run_eq] at hok ⊢
  rcases hstart : p.start w with ⟨e | s, w', l⟩
  · simp only [pass, hstart] at hok
    cases hok
  · simp only [pass, hstart] at hok ⊢
    simp only [replies, hstart]
    have h := p.feed_explained s xs w' hok
    exact ⟨h.outputs, h.emitted, h.evaluated, h.unexpanding, h.bundled, h.whole⟩

/-- **The replies of a plan follow its forms.** Whatever the state is, also after aborts and
failures: no expansion is empty, a plan without a `flatMap` never expands, one with a `flatMap`
never replies with a single output, and an abort means that an exhausted `take` in front of the
first `flatMap` has been handed an element. So it is for the numbers of a drain or of a run that
does not fail. Without a `flatMap` there are no expansions and no more outputs than elements that
were handed out. With one, the expansions are the elements that something came out of. If no `take`
stands in front of the first `flatMap`, nothing aborts and every element is handed out. -/
theorem replies_follow_forms (p : Plan (Action ω) α β) :
    (∀ s x w r, (Process.offer { machine := p.machine, state := s } x w).1.result = .ok r →
      p.Permits s x w r) ∧
    (∀ s xs initial w,
      let pass := (Process.drain { machine := p.machine, state := s } xs initial w).pass
      pass.ending.isFailed = false →
        p.Explains xs (PlanFusion.replies p.machine.step xs (s, w)) pass.out pass.stats) ∧
    (∀ xs w, (p.run xs w).ending.isFailed = false →
      p.Explains xs (p.replies xs w) (p.run xs w).out (p.run xs w).runStats) :=
  ⟨fun _ _ _ _ h => p.permits_reply h, fun s xs _ w hok => p.feed_explained s xs w hok,
    p.run_explained⟩

/-- The numbers below each element, and two of them all in all. -/
def cutRanges : Plan (Action Unit) Nat Nat :=
  seq (operator (.flatMap fun n => pure (List.range n))) (operator (.take 2))

/-- The same in the other order: the numbers below the first two elements. -/
def rangesOfTwo : Plan (Action Unit) Nat Nat :=
  seq (operator (.take 2)) (operator (.flatMap fun n => pure (List.range n)))

theorem replies_follow_forms_cutRanges :
    (cutRanges.replies [3, 0, 2] () = [.many [0, 1], .skip, .skip] ∧
      (cutRanges.run [3, 0, 2] ()).runStats.expansions = 1 ∧
      (cutRanges.run [3, 0, 2] ()).runStats.aborts = 0 ∧
      (cutRanges.run [3, 0, 2] ()).runStats.evaluated = 3) ∧
    (rangesOfTwo.replies [3, 0, 2] () = [.many [0, 1, 2], .skip, .abort] ∧
      (rangesOfTwo.run [3, 0, 2] ()).runStats.evaluated = 3 ∧
      ∃ j n, rangesOfTwo.shape.forms[j]? = some (.take n) ∧
        rangesOfTwo.path.AbortsAt j 2 (rangesOfTwo.leafStates ((2 : Nat), ()), ())) := by
  have hbehind : cutRanges.TakesBehindExpansion := by
    rintro (_ | _ | j) n h
    · cases h
    · exact List.mem_cons_self
    · cases h
  obtain ⟨-, -, hcut⟩ := cutRanges.replies_follow_forms
  obtain ⟨hreplies, -, htwo⟩ := rangesOfTwo.replies_follow_forms
  have h := hcut [3, 0, 2] () rfl
  obtain ⟨haborts, hevaluated⟩ := h.whole hbehind
  obtain ⟨j, n, hn, -, hj⟩ := (hreplies ((2 : Nat), ()) 2 () .abort rfl).abort rfl
  exact ⟨⟨rfl, h.bundled List.mem_cons_self, haborts, hevaluated⟩,
    rfl, (htwo [3, 0, 2] () rfl).evaluated, j, n, hn, hj⟩

end Plan

end PlanFusion
