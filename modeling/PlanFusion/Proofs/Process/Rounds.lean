import PlanFusion.Proofs.Plan.Meaning
import PlanFusion.Proofs.Process.Composition

/-!
# PlanFusion — two processes in sequence, round by round

A pass of two processes in sequence goes in rounds, one for each element. In a round the left
process answers the element, and then the right one answers what it is handed of that: a single
output, or the parts of an expansion up to and including the first one that it aborts at. An abort
ends the pass if it is the left process that aborts, or the right one on a single output.

To see this without trusting the account that a process gives of itself, both processes take notes:
a list beside the world gets an entry for every evaluation. Taking notes changes nothing else.

* `Machine.noting`, `bisim_noting` — a machine that takes notes, and that it is the machine;
* `Served` — elements that are handed out one after the other, and none after an abort;
* `Round`, `Schedule` — one element in a pass, and the whole pass;
* `feed_noting`, `follow_noting`, `step_seq_noting`, `feed_seq_noting` — what is noted in a pass of
  one machine, in an expansion, in a round and in a pass of two machines;
* `Process.quietAfterAbort_of_closes` — machines that close are quiet after an abort;
* `Process.seq_goes_in_rounds` — the result, with what it means for whole drains.
-/

namespace PlanFusion

variable {ω ε α β γ : Type}

-- ---------------------------------------------------------------------------
-- Notes
-- ---------------------------------------------------------------------------

/-- The machine with a list of notes beside its world. Every evaluation adds one, also a failed
one. -/
def Machine.noting (M : Machine ω α β) (note : α → Except Failure (Reply β) → ε) :
    Machine (ω × List ε) α β where
  State := M.State
  step x := fun (s, (w, notes)) =>
    let o := M.step x (s, w)
    { result := o.result
      world := (o.world.1, (o.world.2, notes ++ [note x o.result]))
      log := o.log }

theorem Machine.step_noting {M : Machine ω α β} {x : α} {s s' : M.State} {w w' : ω}
    {result : Except Failure (Reply β)} {l : List Record}
    (h : M.step x (s, w) = { result, world := (s', w'), log := l })
    (note : α → Except Failure (Reply β) → ε) (notes : List ε) :
    (M.noting note).step x (s, (w, notes)) =
      { result, world := (s', (w', notes ++ [note x result])), log := l } := by
  simp only [noting, h]

/-- Taking notes changes nothing else. -/
theorem Machine.bisim_noting (M : Machine ω α β) (note : α → Except Failure (Reply β) → ε) :
    Bisim (fun v w => v.1 = w) (M.noting note) M Eq := by
  rintro x ⟨s, w, notes⟩ ⟨_, _⟩ ⟨rfl, rfl⟩
  exact ⟨resultRel_eq_iff.mpr rfl, ⟨rfl, rfl⟩, rfl⟩

/-- The process with a list of notes beside its world. -/
def Process.noting (process : Process ω α β) (note : α → Except Failure (Reply β) → ε) :
    Process (ω × List ε) α β where
  machine := process.machine.noting note
  state := process.state

/-- The elements are handed out one after the other, each is answered once, and an abort is the
last answer. -/
inductive Served : List α → List (α × Reply β) → Prop where
  | nil : Served [] []
  | abort (x : α) (xs : List α) : Served (x :: xs) [(x, .abort)]
  | cons {x : α} {xs : List α} {r : Reply β} {answers : List (α × Reply β)}
    (hr : r.isAbort = false) (h : Served xs answers) : Served (x :: xs) ((x, r) :: answers)

theorem served_singleton (x : α) (r : Reply β) : Served [x] [(x, r)] := by
  by_cases hr : r = .abort
  · subst hr
    exact .abort x []
  · exact .cons (Reply.isAbort_of_ne hr) .nil

/-- What the notes of a pass that does not fail say. -/
theorem feed_noting (M : Machine ω α β) (note : α → Except Failure (Reply β) → ε) (xs : List α)
    {s : M.State} {w : ω} {notes : List ε}
    (hok : (feed (M.noting note).step xs (s, (w, notes))).ending.isFailed = false) :
    ∃ answers, Served xs answers ∧
      (feed (M.noting note).step xs (s, (w, notes))).world.2.2 =
        notes ++ answers.map (fun (x, r) => note x (.ok r)) ∧
      (feed (M.noting note).step xs (s, (w, notes))).out =
        answers.flatMap fun (_, r) => r.outputs := by
  induction xs generalizing s w notes with
  | nil => exact ⟨[], .nil, (List.append_nil notes).symm, rfl⟩
  | cons x xs ih =>
    rcases hx : M.step x (s, w) with ⟨e | r, ⟨s', w'⟩, l⟩
    · rw [feed_cons_of_error (Machine.step_noting hx note notes)] at hok
      cases hok
    · have hnoted := Machine.step_noting hx note notes
      by_cases hr : r = .abort
      · subst hr
        rw [feed_cons_of_abort hnoted]
        exact ⟨[(x, .abort)], .abort x xs, rfl, rfl⟩
      · have hgoes := Reply.isAbort_of_ne hr
        rw [feed_cons_of_ok hnoted hgoes] at hok ⊢
        obtain ⟨answers, hserved, hnotes, hout⟩ := ih hok
        refine ⟨(x, r) :: answers, .cons hgoes hserved, ?_, congrArg (r.outputs ++ ·) hout⟩
        exact hnotes.trans (List.append_assoc ..)

-- ---------------------------------------------------------------------------
-- Rounds
-- ---------------------------------------------------------------------------

/-- One evaluation of the left or of the right one of two machines, and what became of it. -/
inductive Evaluation (α β γ : Type) where
  | left (x : α) (result : Except Failure (Reply β))
  | right (y : β) (result : Except Failure (Reply γ))

/-- What happens to one element: the left machine replies, and the right one answers what it is
handed of the reply. -/
structure Round (α β γ : Type) where
  element : α
  reply : Reply β
  answers : List (β × Reply γ)

namespace Round

/-- The evaluations of a round, in order. -/
def evaluations (round : Round α β γ) : List (Evaluation α β γ) :=
  .left round.element (.ok round.reply) :: round.answers.map fun (y, r) => .right y (.ok r)

/-- What comes out of a round. -/
def outputs (round : Round α β γ) : List γ :=
  round.answers.flatMap fun (_, r) => r.outputs

/-- The left machine aborts, or the right one does so on a single output of the left one. -/
def EndsPass (round : Round α β γ) : Prop :=
  round.reply = .abort ∨ ∃ y, round.reply = .one y ∧ round.answers = [(y, .abort)]

/-- The round is what happens to the element `x`, and `q` is the reply of both machines to it. -/
structure Gives (round : Round α β γ) (x : α) (q : Reply γ) : Prop where
  element : round.element = x
  served : Served round.reply.outputs round.answers
  outputs : q.outputs = round.outputs
  abort : q = .abort ↔ round.EndsPass

end Round

section

variable {L : Machine ω α β} {R : Machine ω β γ}

/-- What the right machine notes about a reply of the left one. -/
theorem follow_noting (x : α) {r : Reply β} {t : R.State} {w : ω}
    {notes : List (Evaluation α β γ)} {q : Reply γ}
    (h : ((R.noting .right).follow r (t, (w, notes))).result = .ok q) :
    ∃ answers, Round.Gives { element := x, reply := r, answers } x q ∧
      ((R.noting .right).follow r (t, (w, notes))).world.2.2 =
        notes ++ answers.map fun (y, r) => .right y (.ok r) := by
  cases r with
  | abort =>
    cases h
    exact ⟨[], ⟨rfl, .nil, rfl, ⟨fun _ => .inl rfl, fun _ => rfl⟩⟩, (List.append_nil notes).symm⟩
  | skip =>
    cases h
    refine ⟨[], ⟨rfl, .nil, rfl, ⟨nofun, ?_⟩⟩, (List.append_nil notes).symm⟩
    rintro (h | ⟨y, h, -⟩) <;> cases h
  | one y =>
    rcases hy : R.step y (t, w) with ⟨result, ⟨s, v⟩, k⟩
    have hnoted := Machine.step_noting hy .right notes
    rw [Machine.follow, hnoted] at h ⊢
    cases h
    refine ⟨[(y, q)], ⟨rfl, served_singleton y q, (List.append_nil _).symm, ?_⟩, rfl⟩
    constructor
    · rintro rfl
      exact .inr ⟨y, rfl, rfl⟩
    · rintro (h | ⟨_, -, h⟩)
      · cases h
      · cases h
        rfl
  | many ys =>
    obtain ⟨e, hys⟩ | hys :=
      (feed (R.noting Evaluation.right).step ys (t, (w, notes))).ending.failed_cases
    · rw [Machine.follow_many_of_failed hys] at h
      cases h
    · obtain ⟨answers, hserved, hnotes, hout⟩ := feed_noting R _ ys hys
      rw [Machine.follow_many_of_completed hys] at h ⊢
      cases h
      refine ⟨answers, ⟨rfl, hserved, (Reply.outputs_ofList _).trans hout, ?_⟩, hnotes⟩
      -- an abort of the right machine among the parts is no abort of both
      constructor
      · intro h
        have habort := congrArg Reply.isAbort h
        rw [Reply.isAbort_ofList] at habort
        cases habort
      · rintro (h | ⟨_, h, -⟩) <;> cases h

/-- What both machines note about one element. -/
theorem step_seq_noting {x : α} {s : L.State} {t : R.State} {w : ω}
    {notes : List (Evaluation α β γ)} {q : Reply γ}
    (h : (((L.noting .left).seq (R.noting .right)).step x ((s, t), (w, notes))).result = .ok q) :
    ∃ round : Round α β γ, round.Gives x q ∧
      (((L.noting .left).seq (R.noting .right)).step x ((s, t), (w, notes))).world.2.2 =
        notes ++ round.evaluations := by
  rcases hx : L.step x (s, w) with ⟨e | r, ⟨s₁, w₁⟩, k⟩
  · have hnoted := Machine.step_noting hx (.left : α → _ → Evaluation α β γ) notes
    have hseq := Machine.step_seq_of_error (R := R.noting Evaluation.right) hnoted t
    cases (congrArg Outcome.result hseq).symm.trans h
  · have hnoted := Machine.step_noting hx (.left : α → _ → Evaluation α β γ) notes
    have hseq := Machine.step_seq_of_ok (R := R.noting Evaluation.right) hnoted t
    have hfollow := (congrArg Outcome.result hseq).symm.trans h
    obtain ⟨answers, hgives, hnotes⟩ := follow_noting x hfollow
    have hworld := congrArg (fun o : Outcome _ (Reply γ) => o.world.2.2) hseq
    exact ⟨_, hgives, hworld.trans (hnotes.trans (List.append_assoc ..))⟩

end

-- ---------------------------------------------------------------------------
-- Passes in rounds
-- ---------------------------------------------------------------------------

/-- The pass goes over the list in these rounds: one for each element that is handed out. In each
the right machine is handed what the left one puts out until it aborts. The pass is aborted exactly
at a round that ends it, and goes over the whole list if there is none. -/
structure Schedule (xs : List α) (pass : Pass ω γ) (rounds : List (Round α β γ)) : Prop where
  elements : rounds.map Round.element = xs.take pass.pulled
  pulled : rounds.length = pass.pulled
  served : ∀ round ∈ rounds, Served round.reply.outputs round.answers
  out : pass.out = rounds.flatMap Round.outputs
  aborted : pass.ending = .aborted ↔ ∃ round ∈ rounds, round.EndsPass
  goesOn : ∀ round ∈ rounds.dropLast, ¬ round.EndsPass
  exhausted : pass.ending = .exhausted → pass.pulled = xs.length

theorem Schedule.nil (w : ω) (l : List Record) :
    Schedule [] ({ ending := .exhausted, world := w, log := l } : Pass ω γ)
      ([] : List (Round α β γ)) where
  elements := rfl
  pulled := rfl
  served := nofun
  out := rfl
  aborted := ⟨nofun, nofun⟩
  goesOn := nofun
  exhausted := fun _ => rfl

theorem Schedule.last {round : Round α β γ} {x : α} (h : round.Gives x .abort) (xs : List α)
    (w : ω) (l : List Record) :
    Schedule (x :: xs) { ending := .aborted, world := w, log := l, pulled := 1 } [round] where
  elements := by
    rw [List.map_singleton, h.element]
    rfl
  pulled := rfl
  served := List.forall_mem_singleton.mpr h.served
  out := by
    rw [List.flatMap_singleton, ← h.outputs]
    rfl
  aborted := ⟨fun _ => ⟨round, List.mem_singleton_self round, h.abort.mp rfl⟩, fun _ => rfl⟩
  goesOn := nofun
  exhausted := nofun

theorem Schedule.cons {round : Round α β γ} {rounds : List (Round α β γ)} {x : α} {xs : List α}
    {q : Reply γ} {pass : Pass ω γ} (hround : round.Gives x q) (hq : q.isAbort = false)
    (h : Schedule xs pass rounds) (l : List Record) :
    Schedule (x :: xs) (pass.afterReply q l) (round :: rounds) := by
  have hgoes : ¬ round.EndsPass := by
    intro hends
    rw [hround.abort.mpr hends] at hq
    cases hq
  exact {
    elements := by
      rw [List.map_cons, hround.element, h.elements]
      rfl
    pulled := congrArg (· + 1) h.pulled
    served := List.forall_mem_cons.mpr ⟨hround.served, h.served⟩
    out := by
      rw [List.flatMap_cons, ← hround.outputs, ← h.out]
      rfl
    aborted := by
      simp only [List.mem_cons, exists_eq_or_imp]
      exact h.aborted.trans (or_iff_right hgoes).symm
    goesOn := by
      cases rounds with
      | nil => exact nofun
      | cons second rest => exact List.forall_mem_cons.mpr ⟨hgoes, h.goesOn⟩
    exhausted := fun hend => congrArg (· + 1) (h.exhausted hend) }

/-- A pass that cannot be told apart goes in the same rounds. -/
theorem Schedule.of_agree {τ : Type} {W : ω → τ → Prop} {xs : List α} {p : Pass ω γ} {q : Pass τ γ}
    {rounds : List (Round α β γ)} (h : Schedule xs p rounds) (hpq : p.Agree W q) :
    Schedule xs q rounds := by
  obtain ⟨hending, -, -, hout, hpulled, -⟩ := hpq
  obtain ⟨helements, hlength, hserved, houtputs, haborted, hgoesOn, hexhausted⟩ := h
  rw [hpulled] at helements hlength hexhausted
  rw [hending] at haborted hexhausted
  rw [hout] at houtputs
  exact ⟨helements, hlength, hserved, houtputs, haborted, hgoesOn, hexhausted⟩

/-- A pass of two machines that take notes goes in rounds, and the notes are those of the rounds. -/
theorem feed_seq_noting (L : Machine ω α β) (R : Machine ω β γ) (xs : List α) {s : L.State}
    {t : R.State} {w : ω} {notes : List (Evaluation α β γ)}
    (hok : (feed ((L.noting .left).seq (R.noting .right)).step xs
      ((s, t), (w, notes))).ending.isFailed = false) :
    let pass := feed ((L.noting .left).seq (R.noting .right)).step xs ((s, t), (w, notes))
    ∃ rounds, Schedule xs pass rounds ∧
      pass.world.2.2 = notes ++ rounds.flatMap Round.evaluations := by
  induction xs generalizing s t w notes with
  | nil => exact ⟨[], Schedule.nil _ _, (List.append_nil notes).symm⟩
  | cons x xs ih =>
    obtain ⟨e, w', l, hx⟩ | ⟨⟨⟨s', t'⟩, w', notes'⟩, l, hx⟩ |
        ⟨q, ⟨⟨s', t'⟩, w', notes'⟩, l, hq, hx⟩ :=
      (((L.noting .left).seq (R.noting .right)).step x ((s, t), (w, notes))).reply_cases
    · rw [feed_cons_of_error hx] at hok
      cases hok
    · obtain ⟨round, hround, hnotes⟩ := step_seq_noting (congrArg Outcome.result hx)
      rw [hx] at hnotes
      rw [feed_cons_of_abort hx]
      refine ⟨[round], Schedule.last hround xs _ l, ?_⟩
      rw [List.flatMap_singleton]
      exact hnotes
    · obtain ⟨round, hround, hnotes⟩ := step_seq_noting (congrArg Outcome.result hx)
      rw [hx] at hnotes
      rw [feed_cons_of_ok hx hq] at hok ⊢
      obtain ⟨rounds, hrounds, hrest⟩ := ih hok
      refine ⟨round :: rounds, hrounds.cons hround hq l, ?_⟩
      rw [List.flatMap_cons, ← List.append_assoc, ← hnotes]
      exact hrest

-- ---------------------------------------------------------------------------
-- Processes in rounds
-- ---------------------------------------------------------------------------

namespace Process

/-- A machine in a state in which it is closed is quiet. -/
theorem quiet_of_closed {M : Machine ω α β} {D : M.State → Prop}
    (hM : Closes M.step fun v => D v.1) {s : M.State} (hs : D s) :
    Quiet { machine := M, state := s } := by
  intro calls
  induction calls generalizing s with
  | nil => exact nofun
  | cons call calls ih =>
    obtain ⟨x, w⟩ := call
    refine List.forall_mem_cons.mpr ⟨fun r hr => hM.quiet x (s, w) r hs hr, ?_⟩
    exact ih (hM.stays x (s, w) hs)

/-- A machine that closes is quiet after an abort, in whatever state it is. -/
theorem quietAfterAbort_of_closes {M : Machine ω α β} {D : M.State → Prop}
    (hM : Closes M.step fun v => D v.1) (s : M.State) :
    QuietAfterAbort { machine := M, state := s } := by
  intro calls
  induction calls generalizing s with
  | nil => exact .nil
  | cons call calls ih =>
    obtain ⟨x, w⟩ := call
    refine List.pairwise_cons.mpr ⟨fun o ho habort => ?_, ih _⟩
    have hclosed : D (M.step x (s, w)).world.1 := hM.abort x (s, w) habort
    exact quiet_of_closed hM hclosed calls o ho

/-- **Two processes in sequence go in rounds.** Let a drain of two processes in sequence not fail.
If the processes take notes, the drain is the same. The notes show that it goes in rounds: the left
process answers every element that is handed out once and in order, the right one answers what the
left one puts out, once and in order and within an expansion up to its first abort, and the drain
ends early exactly at an abort of the left process or of the right one on a single output. If both
processes are autonomous and the right one is quiet after an abort, the outputs are those of a
drain of the right process over all that a drain of the left one puts out. -/
theorem seq_goes_in_rounds (p : Process ω α β) (q : Process ω β γ) (xs : List α)
    (initial : List γ) (w : ω)
    (hok : ((p.seq q).drain xs initial w).pass.ending.isFailed = false) :
    let drained := (p.seq q).drain xs initial w
    let noted := ((p.noting .left).seq (q.noting .right)).drain xs initial (w, [])
    (noted.pass.Agree (fun v u => v.1 = u) drained.pass ∧ noted.out = drained.out) ∧
    (∃ rounds : List (Round α β γ), Schedule xs drained.pass rounds ∧
      noted.pass.world.2 = rounds.flatMap Round.evaluations) ∧
    (p.machine.Autonomous → q.machine.Autonomous → q.QuietAfterAbort → ∀ w₁ w₂,
      let staged := q.drain (p.drain xs [] w₁).out initial w₂
      staged.out = drained.out ∧ staged.pass.ending.isFailed = false) := by
  intro drained noted
  have hbisim := Machine.bisim_seq (p.machine.bisim_noting Evaluation.left)
    (q.machine.bisim_noting Evaluation.right)
  have hfeed := feed_agree hbisim xs (w := ((p.state, q.state), (w, [])))
    (v := ((p.state, q.state), w)) ⟨⟨rfl, rfl⟩, rfl⟩
  have hagree : noted.pass.Agree (fun v u => v.1 = u) drained.pass :=
    ⟨hfeed.ending, hfeed.world.2, hfeed.log, hfeed.out, hfeed.pulled, hfeed.expansions⟩
  refine ⟨⟨hagree, congrArg (initial ++ ·) hagree.out⟩, ?_, ?_⟩
  · have hnoted : noted.pass.ending.isFailed = false := by
      rw [hagree.ending]
      exact hok
    obtain ⟨rounds, hrounds, hnotes⟩ := feed_seq_noting p.machine q.machine xs hnoted
    have hschedule : Schedule xs drained.pass rounds := hrounds.of_agree (W := fun v u => v.2.1 = u)
      ⟨hfeed.ending, hfeed.world.2, hfeed.log, hfeed.out, hfeed.pulled, hfeed.expansions⟩
    exact ⟨rounds, hschedule, hnotes⟩
  · intro hp hq hquiet w₁ w₂ staged
    obtain ⟨hout, hcompleted⟩ := Machine.feed_seq_out hp hq xs hquiet hok w₁ w₂
    refine ⟨?_, hcompleted⟩
    exact congrArg (initial ++ ·) hout.symm

/-- Reply in every way there is, and keep the sum of the elements: nothing for zero, the sum for
one, a list for a little more, and an abort for twenty. -/
def answering : Process Unit Nat Nat :=
  .ofTransition 0 fun sum x => pure (sum + x,
    match x with
    | 0 => .skip
    | 1 => .one (sum + x)
    | 20 => .abort
    | _ => .many (List.range (x - 2)))

/-- Let even numbers through, but three of them at most. -/
def evens : Plan.Pure Nat Nat :=
  .seq (.operator (.filter fun x => x % 2 == 0)) (.operator (.take 3))

/-- The plan `evens`, started. -/
def threeEven : Process Unit Nat Nat where
  machine := evens.lift.machine
  state := evens.initial

theorem seq_goes_in_rounds_threeEven :
    let drained := (answering.seq threeEven).drain [0, 5, 4, 6, 1, 20] [] ()
    (drained.pass.ending = .aborted ∧ drained.pass.pulled = 5 ∧ drained.out = [0, 2, 0]) ∧
    (threeEven.drain (answering.drain [0, 5, 4, 6, 1, 20] [] ()).out [] ()).out = drained.out ∧
    ∃ rounds : List (Round Nat Nat Nat), Schedule [0, 5, 4, 6, 1, 20] drained.pass rounds ∧
      rounds.flatMap Round.evaluations =
        [.left 0 (.ok .skip),
          .left 5 (.ok (.many [0, 1, 2])), .right 0 (.ok (.one 0)), .right 1 (.ok .skip),
            .right 2 (.ok (.one 2)),
          .left 4 (.ok (.many [0, 1])), .right 0 (.ok (.one 0)), .right 1 (.ok .skip),
          .left 6 (.ok (.many [0, 1, 2, 3])), .right 0 (.ok .abort),
          .left 1 (.ok (.one 16)), .right 16 (.ok .abort)] := by
  intro drained
  have hleft : answering.machine.Autonomous :=
    Machine.autonomous_ofTransition fun _ _ => Action.agree_pure rfl
  have hright : threeEven.machine.Autonomous := evens.runs_lift.autonomous
  have hquiet : threeEven.QuietAfterAbort := quietAfterAbort_of_closes evens.lift.closes _
  obtain ⟨-, ⟨rounds, hrounds, hnotes⟩, hout⟩ :=
    answering.seq_goes_in_rounds threeEven [0, 5, 4, 6, 1, 20] [] () rfl
  exact ⟨⟨rfl, rfl, rfl⟩, (hout hleft hright hquiet () ()).1, rounds, hrounds, hnotes.symm⟩

end Process

end PlanFusion
