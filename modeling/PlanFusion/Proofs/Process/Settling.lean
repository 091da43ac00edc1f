import Mathlib.Data.List.Forall2
import PlanFusion.Proofs.Machine.Replies
import PlanFusion.Proofs.Machine.Sequencing

/-!
# PlanFusion — empty expansions

A machine may expand an element into nothing, although no plan ever does. Whether it does or skips
the element makes no difference to another machine behind it. It makes one to a drain, which counts
all expansions among the replies that it gets, the empty ones included. Beyond that count the two
cannot be told apart.

* `Reply.settle`, `Reply.Settles` — an empty expansion made a skip, and two replies that may differ
  in this;
* `PartlySettled` — machines that are put together from the same parts, some of which have been
  settled in the second one;
* `PartlySettled.agree`, `feed_settles` — what one step and what a whole pass makes of it;
* `Process.empty_expansions_only_count` — the result;
* `Process.empty_expansions_counted` — that the number cannot be left out of it.
-/

namespace PlanFusion

variable {ω σ τ α β γ : Type}

-- ---------------------------------------------------------------------------
-- Replies
-- ---------------------------------------------------------------------------

namespace Reply

/-- The same reply, but a skip if it is an empty expansion. -/
def settle : Reply β → Reply β
  | many ys => ofList ys
  | r => r

/-- The same reply twice, or a skip in place of an empty expansion. -/
inductive Settles : Reply β → Reply β → Prop where
  | same (r : Reply β) : Settles r r
  | empty : Settles (many []) skip

theorem settles_settle (r : Reply β) : r.Settles r.settle := by
  cases r with
  | many ys =>
    cases ys with
    | nil => exact .empty
    | cons y ys => exact .same _
  | one | skip | abort => exact .same _

/-- The element was expanded, but into nothing. -/
def isEmptyExpansion (r : Reply β) : Bool :=
  r.isExpansion && r.isEmpty

theorem isEmptyExpansion_eq_false {r : Reply β} (h : r ≠ .many []) :
    r.isEmptyExpansion = false := by
  cases r with
  | many ys =>
    cases ys with
    | nil => exact absurd rfl h
    | cons y ys => rfl
  | one | skip | abort => rfl

theorem Settles.outputs {r r' : Reply β} (h : r.Settles r') : r'.outputs = r.outputs := by
  cases h with
  | same | empty => rfl

theorem Settles.isAbort {r r' : Reply β} (h : r.Settles r') : r'.isAbort = r.isAbort := by
  cases h with
  | same | empty => rfl

end Reply

/-- How many of the replies are empty expansions. -/
def emptyExpansions (rs : List (Reply β)) : Nat :=
  rs.countP Reply.isEmptyExpansion

section Replies

variable {rs rs' : List (Reply β)}

theorem outputs_of_settles (h : List.Forall₂ Reply.Settles rs rs') :
    rs'.flatMap Reply.outputs = rs.flatMap Reply.outputs := by
  induction h with
  | nil => rfl
  | cons hr _ ih => rw [List.flatMap_cons, List.flatMap_cons, hr.outputs, ih]

/-- The expansions that are not empty stay. -/
theorem expansions_of_settles (h : List.Forall₂ Reply.Settles rs rs') :
    rs.countP Reply.isExpansion + emptyExpansions rs' =
        rs'.countP Reply.isExpansion + emptyExpansions rs ∧
      emptyExpansions rs' ≤ emptyExpansions rs := by
  induction h with
  | nil => exact ⟨rfl, Nat.le_refl 0⟩
  | cons hr _ ih =>
    unfold emptyExpansions at ih ⊢
    simp only [List.countP_cons]
    cases hr with
    | same r => omega
    | empty =>
      have hcounted : (.many [] : Reply β).isExpansion = true := rfl
      have hempty : (.many [] : Reply β).isEmptyExpansion = true := rfl
      have hskip : (.skip : Reply β).isExpansion = false := rfl
      have hnot : (.skip : Reply β).isEmptyExpansion = false := rfl
      simp only [hcounted, hempty, hskip, hnot, if_true, Bool.false_eq_true, if_false]
      omega

/-- Without empty expansions there is nothing to settle. -/
theorem emptyExpansions_eq_zero (h : ∀ r ∈ rs, r ≠ .many []) : emptyExpansions rs = 0 := by
  refine List.countP_eq_zero.mpr fun r hr => ?_
  rw [Reply.isEmptyExpansion_eq_false (h r hr)]
  exact Bool.false_ne_true

end Replies

-- ---------------------------------------------------------------------------
-- Machines
-- ---------------------------------------------------------------------------

/-- The steps of two machines that are put together in the same way and remember the same. Some
parts of the first one have been settled in the second one. -/
inductive PartlySettled {ω : Type} : {σ α β : Type} → (step : α → Action (σ × ω) (Reply β)) →
    (step' : α → Action (σ × ω) (Reply β)) → Prop where
  /-- A part that stays as it is, such as the machine of a plan. -/
  | kept {σ α β : Type} (step : α → Action (σ × ω) (Reply β)) : PartlySettled step step
  /-- A part that skips an element wherever it would expand it into nothing. -/
  | settled {σ α β : Type} (step : α → Action (σ × ω) (Reply β)) :
      PartlySettled step fun x => Reply.settle <$> step x
  /-- Two parts in sequence. -/
  | seq {σ τ α β γ : Type} {left left' : α → Action (σ × ω) (Reply β)}
      {right right' : β → Action (τ × ω) (Reply γ)} (hleft : PartlySettled left left')
      (hright : PartlySettled right right') :
      PartlySettled
        ((Machine.seq { State := σ, step := left } { State := τ, step := right }).step :
          α → Action ((σ × τ) × ω) (Reply γ))
        (Machine.seq { State := σ, step := left' } { State := τ, step := right' }).step

-- ---------------------------------------------------------------------------
-- Passes
-- ---------------------------------------------------------------------------

/-- The pass `q` gets the replies `rs'` where `p` gets `rs`, and these are the same but for empty
expansions. -/
structure Pass.Settles (p q : Pass ω β) (rs rs' : List (Reply β)) : Prop where
  ending : q.ending = p.ending
  world : q.world = p.world
  log : q.log = p.log
  replies : List.Forall₂ Reply.Settles rs rs'

theorem Pass.Settles.afterReply {p q : Pass ω β} {rs rs' : List (Reply β)}
    (h : p.Settles q rs rs') {r r' : Reply β} (hr : r.Settles r') (l : List Record) :
    (p.afterReply r l).Settles (q.afterReply r' l) (r :: rs) (r' :: rs') where
  ending := h.ending
  world := h.world
  log := congrArg (l ++ ·) h.log
  replies := .cons hr h.replies

theorem feed_settles {step step' : α → Action ω (Reply β)}
    (h : ∀ x, Action.Agree Reply.Settles Eq (step x) (step' x)) (xs : List α) (w : ω) :
    (feed step xs w).Settles (feed step' xs w) (replies step xs w) (replies step' xs w) := by
  induction xs generalizing w with
  | nil => exact ⟨rfl, rfl, rfl, .nil⟩
  | cons x xs ih =>
    obtain ⟨e, w', _, l, rfl, hx, hx'⟩ | ⟨r, r', w', _, l, hr, rfl, hx, hx'⟩ :=
      (h x w w rfl).result_cases
    · rw [feed_cons_of_error hx, feed_cons_of_error hx', replies_cons_of_error hx,
        replies_cons_of_error hx']
      exact ⟨rfl, rfl, rfl, .nil⟩
    · by_cases habort : r = .abort
      · subst habort
        cases hr
        rw [feed_cons_of_abort hx, feed_cons_of_abort hx', replies_cons_of_abort hx,
          replies_cons_of_abort hx']
        exact ⟨rfl, rfl, rfl, .cons (.same _) .nil⟩
      · have hgoes := Reply.isAbort_of_ne habort
        have hgoes' := hr.isAbort.trans hgoes
        rw [feed_cons_of_ok hx hgoes, feed_cons_of_ok hx' hgoes', replies_cons_of_ok hx hgoes,
          replies_cons_of_ok hx' hgoes']
        exact (ih w').afterReply hr l

section Passes

variable {p q : Pass ω β} {rs rs' : List (Reply β)}

theorem Pass.Settles.out (h : p.Settles q rs rs') (hp : p.Hears rs) (hq : q.Hears rs') :
    q.out = p.out := by
  rw [hp.out, hq.out, outputs_of_settles h.replies]

theorem Pass.Settles.pulled (h : p.Settles q rs rs') (hp : p.Hears rs) (hq : q.Hears rs') :
    q.pulled = p.pulled := by
  rw [hp.pulled, hq.pulled, h.ending, h.replies.length_eq]

/-- An empty expansion is worth a skip, except that it counts as an expansion. -/
theorem Pass.Settles.stats (h : p.Settles q rs rs') (hp : p.Hears rs) (hq : q.Hears rs') :
    { q.stats with expansions := 0 } = { p.stats with expansions := 0 } ∧
      p.stats.expansions + emptyExpansions rs' = q.stats.expansions + emptyExpansions rs ∧
      emptyExpansions rs' ≤ emptyExpansions rs := by
  refine ⟨?_, ?_⟩
  · simp only [Pass.stats, h.pulled hp hq, h.out hp hq, h.ending]
  · have hcount := expansions_of_settles h.replies
    rw [← hp.expansions, ← hq.expansions] at hcount
    exact hcount

end Passes

-- ---------------------------------------------------------------------------
-- Steps
-- ---------------------------------------------------------------------------

namespace Machine

/-- What comes out of an expansion does not show whether the machine was settled. -/
theorem agree_collect_of_settles {R R' : β → Action (τ × ω) (Reply γ)}
    (h : ∀ y, Action.Agree Reply.Settles Eq (R y) (R' y)) (ys : List β) :
    Action.Agree Eq Eq (collect { State := τ, step := R } ys)
      (collect { State := τ, step := R' } ys) := by
  rintro v _ rfl
  have hpass := feed_settles h ys v
  have hout := hpass.out (feed_hears R ys v) (feed_hears R' ys v)
  refine ⟨resultRel_eq_iff.mpr ?_, hpass.world.symm, hpass.log.symm⟩
  simp only [collect, Pass.toOutcome, hpass.ending, hout]

/-- The right machine makes the same of an empty expansion as of a skip. -/
theorem agree_follow_of_settles {R R' : β → Action (τ × ω) (Reply γ)}
    (h : ∀ y, Action.Agree Reply.Settles Eq (R y) (R' y)) {r r' : Reply β} (hr : r.Settles r') :
    Action.Agree Reply.Settles Eq (follow { State := τ, step := R } r)
      (follow { State := τ, step := R' } r') := by
  cases hr with
  | same =>
    cases r with
    | one y => exact h y
    | many ys =>
      -- what is collected is the same, and it is settled in both machines
      refine Action.agree_bind (agree_collect_of_settles h ys) fun zs zs' hzs => ?_
      rw [hzs]
      exact Action.agree_pure (.same _)
    | skip | abort => exact Action.agree_pure (.same _)
  | empty =>
    -- a pass over no elements leaves the right machine alone
    rintro v _ rfl
    exact ⟨.ok (.same _), rfl, rfl⟩

end Machine

/-- Machines in the same state give the same reply but for an empty expansion, and reach the same
state. -/
theorem PartlySettled.agree {step step' : α → Action (σ × ω) (Reply β)}
    (h : PartlySettled step step') (x : α) :
    Action.Agree Reply.Settles Eq (step x) (step' x) := by
  induction h with
  | kept step =>
    have hsame : Action.Agree Eq Eq (step x) (step x) := Action.agree_eq_iff.mpr rfl
    rw [← id_map (step x)]
    exact Action.agree_map hsame fun r r' hr => hr ▸ .same _
  | settled step =>
    have hsame : Action.Agree Eq Eq (step x) (step x) := Action.agree_eq_iff.mpr rfl
    rw [← id_map (step x)]
    exact Action.agree_map hsame fun r r' hr => hr ▸ r.settles_settle
  | seq _ _ ihleft ihright =>
    refine Action.agree_bind (Action.agree_on_eq .outer (ihleft x)) fun r r' hr => ?_
    exact Action.agree_on_eq .inner (Machine.agree_follow_of_settles ihright hr)

-- ---------------------------------------------------------------------------
-- Drains
-- ---------------------------------------------------------------------------

namespace Process

/-- **An empty expansion is a skip that is counted.** Put two machines together from the same parts,
except that some parts of the second one skip every element that those of the first one expand into
nothing. Drained from the same state, they put out the same and reach the same state, the same
world and the same end, with the same log. The numbers are the same too, but for the expansions.
These differ by as many as there are empty ones among the replies to the drain, which the settled
machine gives no more of. If the first machine never gives one, as when it ends in a plan, then
nothing differs. -/
theorem empty_expansions_only_count {step step' : α → Action (σ × ω) (Reply β)}
    (h : PartlySettled step step') (s : σ) (xs : List α) (initial : List β) (w : ω) :
    let loose := drain { machine := { State := σ, step := step }, state := s } xs initial w
    let tight := drain { machine := { State := σ, step := step' }, state := s } xs initial w
    let empty := emptyExpansions (replies step xs (s, w))
    let empty' := emptyExpansions (replies step' xs (s, w))
    tight.out = loose.out ∧ (tight.process.state : σ) = loose.process.state ∧
    tight.pass.ending = loose.pass.ending ∧ tight.pass.world = loose.pass.world ∧
    tight.pass.log = loose.pass.log ∧
    { tight.pass.stats with expansions := 0 } = { loose.pass.stats with expansions := 0 } ∧
    loose.pass.stats.expansions + empty' = tight.pass.stats.expansions + empty ∧
    empty' ≤ empty ∧
    (Machine.Settled { State := σ, step := step } → tight.pass.stats = loose.pass.stats) := by
  intro loose tight empty empty'
  have hpass := feed_settles h.agree xs (s, w)
  have hloose := feed_hears step xs (s, w)
  have htight := feed_hears step' xs (s, w)
  have hout : tight.out = loose.out := congrArg (initial ++ ·) (hpass.out hloose htight)
  have hnumbers : { tight.pass.stats with expansions := 0 } =
    { loose.pass.stats with expansions := 0 } := (hpass.stats hloose htight).1
  have hcount : loose.pass.stats.expansions + empty' = tight.pass.stats.expansions + empty :=
    (hpass.stats hloose htight).2.1
  have hle : empty' ≤ empty := (hpass.stats hloose htight).2.2
  refine ⟨hout, congrArg Prod.fst hpass.world, hpass.ending, congrArg Prod.snd hpass.world,
    hpass.log, hnumbers, hcount, hle, fun hsettled => ?_⟩
  have hnone : empty = 0 := emptyExpansions_eq_zero (forall_replies hsettled xs (s, w))
  have hexpansions : tight.pass.stats.expansions = loose.pass.stats.expansions := by omega
  exact congrArg₂ (fun (n : Stats) k => { n with expansions := k }) hnumbers hexpansions

/-- Count the elements and reply to each. -/
def counting (f : Nat → Reply Nat) : Nat → Action (Nat × Unit) (Reply Nat) :=
  (Machine.ofTransition fun n x => pure (n + 1, f x)).step

/-- Two of each even number and none of each odd one. -/
def twoOfEven : Nat → Action (Nat × Unit) (Reply Nat) :=
  counting fun n => .many (if n % 2 = 0 then [n, n] else [])

/-- Two such steps in sequence, as a process of which neither has seen an element yet. -/
def inSequence (left right : Nat → Action (Nat × Unit) (Reply Nat)) : Process Unit Nat Nat :=
  seq { machine := { State := Nat, step := left }, state := (0 : Nat) }
    { machine := { State := Nat, step := right }, state := (0 : Nat) }

theorem empty_expansions_only_count_twoOfEven :
    let settled := fun x => Reply.settle <$> twoOfEven x
    let front := (inSequence twoOfEven (counting .one)).drain [2, 3, 4] [7] ()
    let frontSettled := (inSequence settled (counting .one)).drain [2, 3, 4] [7] ()
    let back := (inSequence (counting .one) twoOfEven).drain [2, 3, 4] [7] ()
    let backSettled := (inSequence (counting .one) settled).drain [2, 3, 4] [7] ()
    front.out = [7, 2, 2, 4, 4] ∧ frontSettled.out = front.out ∧
    frontSettled.pass.stats = front.pass.stats ∧
    backSettled.out = back.out ∧
    back.pass.stats.expansions = backSettled.pass.stats.expansions + 1 := by
  intro settled front frontSettled back backSettled
  have hfront : PartlySettled (inSequence twoOfEven (counting .one)).machine.step
    (inSequence settled (counting .one)).machine.step := .seq (.settled twoOfEven) (.kept _)
  have hback : PartlySettled (inSequence (counting .one) twoOfEven).machine.step
    (inSequence (counting .one) settled).machine.step := .seq (.kept _) (.settled twoOfEven)
  have hone : Machine.Settled { State := Nat, step := counting .one } := by
    rintro x v r ⟨⟩
    nofun
  obtain ⟨hout, -, -, -, -, -, -, -, hstats⟩ :=
    empty_expansions_only_count hfront (0, 0) [2, 3, 4] [7] ()
  obtain ⟨hout', -, -, -, -, -, hcount, -⟩ :=
    empty_expansions_only_count hback (0, 0) [2, 3, 4] [7] ()
  exact ⟨rfl, hout, hstats (Machine.settled_seq _ hone), hout', hcount⟩

/-- The numbers of a drain do show an empty expansion. -/
theorem empty_expansions_counted :
    ¬ ∀ (σ α β : Type) (step step' : α → Action (σ × Unit) (Reply β)), PartlySettled step step' →
      ∀ (s : σ) (xs : List α) (initial : List β),
        let loose := drain { machine := { State := σ, step := step }, state := s } xs initial ()
        let tight := drain { machine := { State := σ, step := step' }, state := s } xs initial ()
        tight.pass.stats = loose.pass.stats := by
  intro h
  let settled := fun x => Reply.settle <$> twoOfEven x
  have hback : PartlySettled (inSequence (counting .one) twoOfEven).machine.step
    (inSequence (counting .one) settled).machine.step := .seq (.kept _) (.settled twoOfEven)
  have hstats := h _ _ _ _ _ hback (0, 0) [5] []
  exact Nat.zero_ne_one (congrArg Stats.expansions hstats)

end Process

end PlanFusion
