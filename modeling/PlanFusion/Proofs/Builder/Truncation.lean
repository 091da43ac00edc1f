import PlanFusion.Proofs.Builder.Meaning

/-!
# PlanFusion — when a `take` ends a run

A `take` behind a plan cuts its outputs, but it ends the run only if it can. It learns that it is
used up from the first output too many, and what this does depends on how that output reaches it.
A single output makes it abort, and that ends the run at the element which the output comes from.
Inside an expansion the abort only cuts the expansion short, and the run goes on to its own end.

A plan that expands anywhere puts out nothing but expansions, and one that expands nowhere puts out
nothing but single outputs. So it is one or the other throughout a run.

* `Pass.EndsLike` — two passes that end in the same way after the same number of elements;
* `Transducer.Reaches` — the element at which a transducer puts out its value number `m + 1`;
* `Single.pass_take_of_le`, `Single.pass_take_of_lt`, `Bundled.pass_take` — a `take` behind a
  transducer with single outputs or with expansions;
* `Builder.take_truncates` — the result.
-/

namespace PlanFusion

variable {ω σ τ α β γ : Type}

/-- The two passes end in the same way, and after the same number of elements. -/
def Pass.EndsLike (p : Pass ω β) (q : Pass τ γ) : Prop :=
  p.ending = q.ending ∧ p.pulled = q.pulled

/-- Passes that end alike count the same elements and the same aborts. -/
theorem Pass.EndsLike.runStats_eq {p : Pass ω β} {q : Pass τ γ} (h : p.EndsLike q) :
    p.runStats.aborts = q.runStats.aborts ∧ p.runStats.evaluated = q.runStats.evaluated := by
  obtain ⟨hending, hpulled⟩ := h
  refine ⟨?_, hpulled⟩
  simp only [runStats, stats, hending]

namespace Transducer

/-- The transducer puts out at most one element at a time. -/
def Single (T : Transducer σ α β) : Prop :=
  ∀ s x, (T.next s x).1.isExpansion = false

/-- The transducer puts out elements in expansions only. -/
def Bundled (T : Transducer σ α β) : Prop :=
  ∀ s x y, (T.next s x).1 ≠ .one y

/-- The element at the position `k` of `xs`, counted from one, is the one at which the transducer
puts out its value number `m + 1`. Before it there are `m` values. -/
def Reaches (T : Transducer σ α β) (s : σ) (xs : List α) (m k : Nat) : Prop :=
  ∃ before x after, xs = before ++ x :: after ∧ k = before.length + 1 ∧
    (T.pass s before).out = (T.pass s xs).out.take m ∧
    (T.pass s (before ++ [x])).out = (T.pass s xs).out.take (m + 1)

variable {T : Transducer σ α β} {U : Transducer τ α γ} {s s' : σ} {t t' : τ} {x : α} {xs : List α}

-- ---------------------------------------------------------------------------
-- Passes, element by element
-- ---------------------------------------------------------------------------

/-- Passes end alike as long as both transducers abort at the same element. -/
theorem endsLike_cons {r : Reply β} {q : Reply γ} (hT : T.next s x = (r, s'))
    (hU : U.next t x = (q, t')) (habort : q = .abort ↔ r = .abort)
    (hrest : (U.pass t' xs).EndsLike (T.pass s' xs)) :
    (U.pass t (x :: xs)).EndsLike (T.pass s (x :: xs)) := by
  by_cases hr : r = .abort
  · rw [hr] at hT
    rw [habort.mpr hr] at hU
    rw [pass_cons_of_abort hT, pass_cons_of_abort hU]
    exact ⟨rfl, rfl⟩
  · have hq : q ≠ .abort := fun h => hr (habort.mp h)
    rw [pass_cons hT (Reply.isAbort_of_ne hr), pass_cons hU (Reply.isAbort_of_ne hq)]
    exact ⟨hrest.1, congrArg (· + 1) hrest.2⟩

theorem out_cons {r : Reply β} (h : T.next s x = (r, s')) (hr : r.isAbort = false) (xs : List α) :
    (T.pass s (x :: xs)).out = r.outputs ++ (T.pass s' xs).out := by
  rw [pass_cons h hr]
  rfl

theorem reaches_here {y : β} (h : T.next s x = (.one y, s')) : T.Reaches s (x :: xs) 0 1 := by
  refine ⟨[], x, xs, rfl, rfl, rfl, ?_⟩
  rw [List.nil_append, out_cons h rfl, out_cons h rfl]
  rfl

theorem Reaches.cons {r : Reply β} {m k : Nat} (hrest : T.Reaches s' xs m k)
    (h : T.next s x = (r, s')) (hr : r.isAbort = false) :
    T.Reaches s (x :: xs) (r.outputs.length + m) (k + 1) := by
  obtain ⟨before, y, after, rfl, rfl, hbefore, hthere⟩ := hrest
  refine ⟨x :: before, y, after, rfl, rfl, ?_, ?_⟩
  · rw [out_cons h hr, out_cons h hr, List.take_length_add_append, hbefore]
  · rw [List.cons_append, out_cons h hr, out_cons h hr, Nat.add_assoc,
      List.take_length_add_append, hthere]

-- ---------------------------------------------------------------------------
-- A `take` behind a transducer
-- ---------------------------------------------------------------------------

variable {n count : Nat}

theorem next_seq_take_of_lt {y : β} (h : T.next s x = (.one y, s')) (hn : count < n) :
    (T.seq (take n)).next (s, count) x = (.one y, (s', count + 1)) := by
  simp only [seq, h, take, if_pos hn]

theorem next_seq_take_of_le {y : β} (h : T.next s x = (.one y, s')) (hn : n ≤ count) :
    (T.seq (take n)).next (s, count) x = (.abort, (s', count)) := by
  simp only [seq, h, take, if_neg (Nat.not_lt.mpr hn)]

/-- What is not a single output leaves the `take` no occasion to end a pass. -/
theorem next_seq_take_of_ne_one {r : Reply β} (h : T.next s x = (r, s')) (hr : ∀ y, r ≠ .one y)
    (n count : Nat) :
    ∃ q count', (T.seq (take n)).next (s, count) x = (q, (s', count')) ∧
      (q = .abort ↔ r = .abort) := by
  cases r with
  | one y => exact absurd rfl (hr y)
  | many ys =>
    have hseq : (T.seq (take n)).next (s, count) x =
        (.ofList ((take n).pass count ys).out, (s', ((take n).pass count ys).world)) := by
      simp only [seq, h]
    refine ⟨_, _, hseq, iff_of_false ?_ (by simp)⟩
    intro hq
    have habort := congrArg Reply.isAbort hq
    rw [Reply.isAbort_ofList] at habort
    cases habort
  | skip => exact ⟨.skip, count, by simp only [seq, h], Iff.rfl⟩
  | abort => exact ⟨.abort, count, by simp only [seq, h], Iff.rfl⟩

/-- Behind expansions a `take` never ends a pass. -/
theorem Bundled.pass_take (hT : T.Bundled) (n : Nat) (xs : List α) :
    ((T.seq (take n)).pass (s, count) xs).EndsLike (T.pass s xs) := by
  induction xs generalizing s count with
  | nil => exact ⟨rfl, rfl⟩
  | cons x xs ih =>
    rcases hx : T.next s x with ⟨r, s'⟩
    have hr : ∀ y, r ≠ .one y := by
      intro y
      have hne := hT s x y
      rw [hx] at hne
      exact hne
    obtain ⟨q, count', hseq, habort⟩ := next_seq_take_of_ne_one hx hr n count
    exact endsLike_cons hx hseq habort ih

theorem Single.next_cases (hT : T.Single) (s : σ) (x : α) :
    (∃ s', T.next s x = (.abort, s')) ∨ (∃ s', T.next s x = (.skip, s')) ∨
      ∃ y s', T.next s x = (.one y, s') := by
  have hr := hT s x
  rcases hx : T.next s x with ⟨r, s'⟩
  rw [hx] at hr
  cases r with
  | one y => exact .inr (.inr ⟨y, s', rfl⟩)
  | many ys => cases hr
  | skip => exact .inr (.inl ⟨s', rfl⟩)
  | abort => exact .inl ⟨s', rfl⟩

/-- Behind single outputs a `take` does not end a pass if it lets all of them through. -/
theorem Single.pass_take_of_le (hT : T.Single) (xs : List α)
    (hn : count + (T.pass s xs).out.length ≤ n) :
    ((T.seq (take n)).pass (s, count) xs).EndsLike (T.pass s xs) := by
  induction xs generalizing s count with
  | nil => exact ⟨rfl, rfl⟩
  | cons x xs ih =>
    obtain ⟨s', hx⟩ | ⟨s', hx⟩ | ⟨y, s', hx⟩ := hT.next_cases s x
    · have hseq : (T.seq (take n)).next (s, count) x = (.abort, (s', count)) := by
        simp only [seq, hx]
      rw [pass_cons_of_abort hx, pass_cons_of_abort hseq]
      exact ⟨rfl, rfl⟩
    · have hseq : (T.seq (take n)).next (s, count) x = (.skip, (s', count)) := by
        simp only [seq, hx]
      have hout : (T.pass s (x :: xs)).out = (T.pass s' xs).out := out_cons hx rfl xs
      rw [hout] at hn
      exact endsLike_cons hx hseq (by simp) (ih hn)
    · have hout : (T.pass s (x :: xs)).out = y :: (T.pass s' xs).out := out_cons hx rfl xs
      rw [hout, List.length_cons] at hn
      have hlt : count < n := by omega
      have hrest : count + 1 + (T.pass s' xs).out.length ≤ n := by omega
      have hseq := next_seq_take_of_lt hx hlt
      exact endsLike_cons hx hseq (by simp) (ih hrest)

/-- Behind single outputs a `take` ends a pass at the first one that it does not let through. -/
theorem Single.pass_take_of_lt (hT : T.Single) (xs : List α) (hcount : count ≤ n)
    (hn : n < count + (T.pass s xs).out.length) :
    ((T.seq (take n)).pass (s, count) xs).ending = .aborted ∧
      T.Reaches s xs (n - count) ((T.seq (take n)).pass (s, count) xs).pulled := by
  induction xs generalizing s count with
  | nil => exact absurd hn (Nat.not_lt.mpr hcount)
  | cons x xs ih =>
    obtain ⟨s', hx⟩ | ⟨s', hx⟩ | ⟨y, s', hx⟩ := hT.next_cases s x
    · rw [pass_cons_of_abort hx] at hn
      exact absurd hn (Nat.not_lt.mpr hcount)
    · have hseq : (T.seq (take n)).next (s, count) x = (.skip, (s', count)) := by
        simp only [seq, hx]
      have hout : (T.pass s (x :: xs)).out = (T.pass s' xs).out := out_cons hx rfl xs
      rw [hout] at hn
      obtain ⟨hending, hreaches⟩ := ih hcount hn
      have hlater := hreaches.cons hx rfl
      rw [pass_cons hseq rfl]
      rw [Reply.outputs, List.length_nil, Nat.zero_add] at hlater
      exact ⟨hending, hlater⟩
    · have hout : (T.pass s (x :: xs)).out = y :: (T.pass s' xs).out := out_cons hx rfl xs
      rw [hout, List.length_cons] at hn
      by_cases hlt : count < n
      · have hrest : n < count + 1 + (T.pass s' xs).out.length := by omega
        obtain ⟨hending, hreaches⟩ := ih hlt hrest
        have hlater := hreaches.cons hx rfl
        have hleft : (Reply.one y).outputs.length + (n - (count + 1)) = n - count := by
          show 1 + (n - (count + 1)) = n - count
          omega
        rw [hleft] at hlater
        rw [pass_cons (next_seq_take_of_lt hx hlt) rfl]
        exact ⟨hending, hlater⟩
      · -- the `take` is used up, and `y` is the first value that it does not let through
        have hfull : n - count = 0 := by omega
        rw [hfull, pass_cons_of_abort (next_seq_take_of_le hx (Nat.not_lt.mp hlt))]
        exact ⟨rfl, reaches_here hx⟩

end Transducer

-- ---------------------------------------------------------------------------
-- Plans
-- ---------------------------------------------------------------------------

namespace Plan

/-- A run of a plan of functions is a pass of its transducer. It leaves the world alone and adds a
record. -/
theorem run_lift (p : Pure α β) (xs : List α) (w : ω) :
    p.lift.run xs w =
      { ((p.transducer (ω := ω)).pass p.initial xs).mapWorld (fun _ => w) with
        log := (p.lift.run xs w).log } := by
  have hrun := (p.lift : Plan (Action ω) α β).run_eq xs w
  rw [pass_lift] at hrun
  rw [hrun]

theorem transducer_single (p : Pure α β) (w : ω) (hp : .flatMap ∉ p.shape.forms) :
    (p.transducer (ω := ω)).Single := by
  intro s x
  have hforms : .flatMap ∉ (p.lift : Plan (Action ω) α β).shape.forms := by
    rw [lift, shape_trans]
    exact hp
  refine (p.lift : Plan (Action ω) α β).unexpanding hforms x (s, w) _ ?_
  rw [p.runs_lift.step_eq]

theorem transducer_bundled (p : Pure α β) (w : ω) (hp : .flatMap ∈ p.shape.forms) :
    (p.transducer (ω := ω)).Bundled := by
  intro s x
  have hforms : .flatMap ∈ (p.lift : Plan (Action ω) α β).shape.forms := by
    rw [lift, shape_trans]
    exact hp
  refine (p.lift : Plan (Action ω) α β).bundled hforms x (s, w) _ ?_
  rw [p.runs_lift.step_eq]

end Plan

-- ---------------------------------------------------------------------------
-- Builders
-- ---------------------------------------------------------------------------

namespace Builder

/-- The element at the position `k` of `xs`, counted from one, is the one at which the builder puts
out its value number `n + 1`. What comes before it makes for the first `n` values. -/
def PutsOutAt (b : Builder (Action ω) α β) (xs : List α) (w : ω) (n k : Nat) : Prop :=
  ∃ before x after, xs = before ++ x :: after ∧ k = before.length + 1 ∧
    (b.run before w).out = (b.run xs w).out.take n ∧
    (b.run (before ++ [x]) w).out = (b.run xs w).out.take (n + 1)

section

variable (b : Builder Id α β) (n : Nat) (xs : List α) (w : ω)

theorem run_lift_out : (b.lift.run xs w).out =
    ((b.plan.transducer (ω := ω)).pass b.plan.initial xs).out :=
  congrArg Pass.out (b.plan.run_lift xs w)

theorem run_lift_endsLike : (b.lift.run xs w).EndsLike
    ((b.plan.transducer (ω := ω)).pass b.plan.initial xs) :=
  ⟨congrArg Pass.ending (b.plan.run_lift xs w), congrArg Pass.pulled (b.plan.run_lift xs w)⟩

/-- Whatever fusion makes of it, a `take` is put behind the plan of the builder. -/
theorem run_take_eq : (b.lift.take n).value.run xs w =
    { (Plan.seq b.plan (.operator (.take n))).lift.run xs w with
      log := ((b.lift.take n).value.run xs w).log } := by
  have halike := (b.lift : Builder (Action ω) α β).append_alike (.operator (.take n))
  exact halike.run_eq xs w

theorem run_take_endsLike : ((b.lift.take n).value.run xs w).EndsLike
    (((b.plan.transducer (ω := ω)).seq (.take n)).pass (b.plan.initial, 0) xs) := by
  have hplan := (Plan.seq b.plan (.operator (.take n))).run_lift xs w
  rw [run_take_eq]
  exact ⟨congrArg Pass.ending hplan, congrArg Pass.pulled hplan⟩

theorem run_take_gives :
    ((b.lift.take n).value.run xs w).Gives w ((b.lift.run xs w).out.take n) := by
  have hwhole := Plan.run_gives (b.plan.pass_gives xs w)
  have hcut := Plan.run_gives ((Plan.seq b.plan (.operator (.take n))).pass_gives xs w)
  have hout : (b.lift.run xs w).out = b.plan.meaning xs := hwhole.out
  rw [run_take_eq, hout]
  exact ⟨hcut.ending, hcut.world, hcut.out⟩

end

/-- **When a `take` ends a run.** A `take` behind a builder of functions gives the first `n` of its
values. If the builder does not expand and has more of them, the run is aborted at the element that
the first value too many comes from. Otherwise it goes as far as without the `take`, and ends in
the same way. -/
theorem take_truncates (b : Builder Id α β) (n : Nat) (xs : List α) (w : ω) :
    let whole := b.lift.run xs w
    let cut := (b.lift.take n).value.run xs w
    cut.Gives w (whole.out.take n) ∧
    (.flatMap ∉ b.plan.shape.forms → n < whole.out.length →
      cut.runStats.aborts = 1 ∧ b.lift.PutsOutAt xs w n cut.runStats.evaluated) ∧
    (.flatMap ∈ b.plan.shape.forms ∨ whole.out.length ≤ n →
      cut.runStats.aborts = whole.runStats.aborts ∧
        cut.runStats.evaluated = whole.runStats.evaluated) := by
  intro whole cut
  have hwhole : whole.out = _ := b.run_lift_out xs w
  have hends := (b.run_lift_endsLike xs w).runStats_eq
  obtain ⟨haborts, hevaluated⟩ := (b.run_take_endsLike n xs w).runStats_eq
  refine ⟨b.run_take_gives n xs w, ?_, ?_⟩
  · intro hforms hlong
    have hsingle := b.plan.transducer_single w hforms
    rw [hwhole, ← Nat.zero_add (Pass.out _).length] at hlong
    obtain ⟨hending, before, x, after, hxs, hpulled, hbefore, hthere⟩ :=
      hsingle.pass_take_of_lt xs (Nat.zero_le n) hlong
    refine ⟨haborts.trans ?_, before, x, after, hxs, hevaluated.trans hpulled, ?_, ?_⟩
    · simp only [Pass.runStats, Pass.stats, hending, if_pos]
    · rw [run_lift_out, run_lift_out]
      exact hbefore
    · rw [run_lift_out, run_lift_out]
      exact hthere
  · intro hcase
    have hlike : (((b.plan.transducer (ω := ω)).seq (.take n)).pass (b.plan.initial, 0) xs).EndsLike
        ((b.plan.transducer (ω := ω)).pass b.plan.initial xs) := by
      by_cases hforms : .flatMap ∈ b.plan.shape.forms
      · exact (b.plan.transducer_bundled w hforms).pass_take n xs
      · have hshort := hcase.resolve_left hforms
        rw [hwhole, ← Nat.zero_add (Pass.out _).length] at hshort
        exact (b.plan.transducer_single w hforms).pass_take_of_le xs hshort
    obtain ⟨haborts', hevaluated'⟩ := hlike.runStats_eq
    exact ⟨haborts.trans (haborts'.trans hends.1.symm),
      hevaluated.trans (hevaluated'.trans hends.2.symm)⟩

/-- Leave out the first element and the odd ones. -/
def laterEvens : Builder Id Nat Nat where
  plan := .seq (.operator (.drop 1)) (.operator (.filter fun x => x % 2 == 0))

/-- Put out all smaller numbers, with their successors. -/
def countingUp : Builder Id Nat Nat where
  plan := .seq (.operator (.flatMap List.range)) (.operator (.map (· + 1)))
  mode := .disabled

theorem take_truncates_laterEvens :
    let xs := [2, 3, 4, 5, 6, 8, 10]
    let two := ((laterEvens.lift : Builder (Action Unit) Nat Nat).take 2).value.run xs ()
    let four := ((laterEvens.lift : Builder (Action Unit) Nat Nat).take 4).value.run xs ()
    let expanding := ((countingUp.lift : Builder (Action Unit) Nat Nat).take 2).value.run xs ()
    (two.Gives () [4, 6] ∧ two.runStats.aborts = 1 ∧
      (laterEvens.lift : Builder (Action Unit) Nat Nat).PutsOutAt xs () 2 6) ∧
    (four.Gives () [4, 6, 8, 10] ∧ four.runStats.aborts = 0 ∧ four.runStats.evaluated = 7) ∧
    (expanding.Gives () [1, 2] ∧ expanding.runStats.aborts = 0 ∧
      expanding.runStats.evaluated = 7) := by
  intro xs two four expanding
  obtain ⟨htwo, habort, -⟩ := laterEvens.take_truncates 2 xs ()
  obtain ⟨hfour, -, hall⟩ := laterEvens.take_truncates 4 xs ()
  obtain ⟨hexpanding, -, hwhole⟩ := countingUp.take_truncates 2 xs ()
  exact ⟨⟨htwo, habort (by decide) (by decide)⟩, ⟨hfour, hall (.inr (by decide))⟩,
    hexpanding, hwhole (.inl (by decide))⟩

end Builder

end PlanFusion
