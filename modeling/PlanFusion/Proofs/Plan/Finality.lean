import PlanFusion.Proofs.Plan.Callables
import PlanFusion.Proofs.Plan.Exhausted

/-!
# PlanFusion — an abort is final

Whoever holds a process may hand it elements one by one and in lists, in any order, and may go on
after aborts and failures. Once the process of a plan has aborted, nothing comes out of it any more,
whatever is done with it. The abort need not come from the operator that the element reaches first:
operators to the left of the exhausted one go on as before, and what they put out comes to nothing.

* `Process.Use`, `Process.useAll` — what can be done with a process, and the process after that;
* `Process.HearsAbort` — the uses in which the process aborts;
* `Process.InStates` — a process that is a machine in one of certain states, and what uses do to it;
* `Plan.abort_is_final` — the result.
-/

namespace PlanFusion

variable {ω α β : Type}

namespace Process

/-- What the holder of a process can do with it. Others may change the world before each use. -/
inductive Use (ω α β : Type) where
  /-- Hand out one element. -/
  | offer (x : α) (w : ω)
  /-- Hand out the elements of a list, and put the outputs behind `initial`. -/
  | drain (xs : List α) (initial : List β) (w : ω)

/-- The process after a use, be it a failed one. -/
def use (process : Process ω α β) : Use ω α β → Process ω α β
  | .offer x w => (process.offer x w).2
  | .drain xs initial w => (process.drain xs initial w).process

/-- The process after one use and then the other. -/
def useAll (process : Process ω α β) : List (Use ω α β) → Process ω α β
  | [] => process
  | u :: rest => (process.use u).useAll rest

/-- The process aborts in this use. -/
def HearsAbort (process : Process ω α β) : Use ω α β → Prop
  | .offer x w => (process.offer x w).1.result = .ok .abort
  | .drain xs initial w => (process.drain xs initial w).pass.ending = .aborted

theorem useAll_append (process : Process ω α β) (us vs : List (Use ω α β)) :
    process.useAll (us ++ vs) = (process.useAll us).useAll vs := by
  induction us generalizing process with
  | nil => rfl
  | cons u us ih => exact ih (process.use u)

/-- What every use preserves is preserved by any number of them. -/
theorem useAll_induction {I : Process ω α β → Prop} (h : ∀ process u, I process → I (process.use u))
    {process : Process ω α β} (hprocess : I process) (us : List (Use ω α β)) :
    I (process.useAll us) := by
  induction us generalizing process with
  | nil => exact hprocess
  | cons u us ih => exact ih (h process u hprocess)

-- ---------------------------------------------------------------------------
-- The states of a process
-- ---------------------------------------------------------------------------

/-- The process is the machine in one of the states in `D`. -/
def InStates (M : Machine ω α β) (D : M.State → Prop) (process : Process ω α β) : Prop :=
  ∃ s, D s ∧ process = { machine := M, state := s }

variable {M : Machine ω α β} {D : M.State → Prop} {process : Process ω α β}

/-- A use moves the process to another state of the same machine. -/
theorem InStates.use_any (h : process.InStates M fun _ => True) (u : Use ω α β) :
    (process.use u).InStates M fun _ => True := by
  obtain ⟨s, -, rfl⟩ := h
  cases u with
  | offer x w => exact ⟨_, trivial, rfl⟩
  | drain xs initial w => exact ⟨_, trivial, rfl⟩

/-- No use leads out of the states in which a machine is closed. -/
theorem InStates.use_closed (hM : Closes M.step fun v => D v.1) (h : process.InStates M D)
    (u : Use ω α β) : (process.use u).InStates M D := by
  obtain ⟨s, hs, rfl⟩ := h
  cases u with
  | offer x w =>
    have hstays := hM.stays x (s, w) hs
    exact ⟨_, hstays, rfl⟩
  | drain xs initial w =>
    obtain ⟨-, hstays⟩ := feed_quiet hM xs (w := (s, w)) hs
    exact ⟨_, hstays, rfl⟩

/-- An abort closes the machine. -/
theorem InStates.use_abort (hM : Closes M.step fun v => D v.1)
    (h : process.InStates M fun _ => True) {u : Use ω α β} (hu : process.HearsAbort u) :
    (process.use u).InStates M D := by
  obtain ⟨s, -, rfl⟩ := h
  cases u with
  | offer x w =>
    have hcloses := hM.abort x (s, w) hu
    exact ⟨_, hcloses, rfl⟩
  | drain xs initial w =>
    have hcloses := feed_closed hM xs (w := (s, w)) hu
    exact ⟨_, hcloses, rfl⟩

/-- A closed process leaves a list as it is, whether or not the pass fails. -/
theorem InStates.drain_out (hM : Closes M.step fun v => D v.1) (h : process.InStates M D)
    (xs : List α) (initial : List β) (w : ω) : (process.drain xs initial w).out = initial := by
  obtain ⟨s, hs, rfl⟩ := h
  obtain ⟨hout, -⟩ := feed_quiet hM xs (w := (s, w)) hs
  show initial ++ (feed M.step xs (s, w)).out = initial
  rw [hout, List.append_nil]

/-- A closed process that never puts out an empty expansion replies with a skip or an abort. -/
theorem InStates.offer_reply (hM : Closes M.step fun v => D v.1) (hsettled : M.Settled)
    (h : process.InStates M D) {x : α} {w : ω} {r : Reply β}
    (hr : (process.offer x w).1.result = .ok r) : r = .abort ∨ r = .skip := by
  obtain ⟨s, hs, rfl⟩ := h
  have hquiet := hM.quiet x (s, w) r hs hr
  have hne := hsettled x (s, w) r hr
  cases r with
  | one y => cases hquiet
  | many ys =>
    cases hquiet
    exact absurd rfl hne
  | skip => exact .inr rfl
  | abort => exact .inl rfl

end Process

-- ---------------------------------------------------------------------------
-- Plans
-- ---------------------------------------------------------------------------

namespace Plan

open Process

/-- A plan starts as its own machine. -/
theorem spawn_inStates {p : Plan (Action ω) α β} {w : ω} {process : Process ω α β}
    (h : (p.spawn w).result = .ok process) : process.InStates p.machine fun _ => True := by
  unfold spawn at h
  cases hstart : (p.start w).result with
  | error e =>
    simp only [hstart] at h
    cases h
  | ok s =>
    simp only [hstart] at h
    cases h
    exact ⟨s, trivial, rfl⟩

/-- Once a plan has aborted, it is exhausted for good. -/
theorem exhausted_of_abort {p : Plan (Action ω) α β} {w : ω} {process : Process ω α β}
    (hspawn : (p.spawn w).result = .ok process) (earlier : List (Use ω α β)) {u : Use ω α β}
    (habort : (process.useAll earlier).HearsAbort u) (later : List (Use ω α β)) :
    (process.useAll (earlier ++ u :: later)).InStates p.machine p.Exhausted := by
  have hbefore : (process.useAll earlier).InStates p.machine fun _ => True :=
    useAll_induction (fun _ v h => h.use_any v) (spawn_inStates hspawn) earlier
  have hafter := hbefore.use_abort p.closes habort
  rw [useAll_append]
  exact useAll_induction (fun _ v h => h.use_closed p.closes v) hafter later

/-- **An abort is final.** Once the process of a plan has aborted, and whatever has been done with
it before and since, failures included, it answers every element with an abort, with a skip or with
the failure of a callable, and no list that it puts its outputs behind gets any longer. -/
theorem abort_is_final {p : Plan (Action ω) α β} {w₀ : ω} {process : Process ω α β}
    (hspawn : (p.spawn w₀).result = .ok process) (earlier : List (Use ω α β)) {u : Use ω α β}
    (habort : (process.useAll earlier).HearsAbort u) (later : List (Use ω α β)) :
    (∀ x w,
      let reply := ((process.useAll (earlier ++ u :: later)).offer x w).1.result
      reply = .ok .abort ∨ reply = .ok .skip ∨ ∃ e, reply = .error e ∧ p.MayFail e) ∧
    (∀ xs initial w,
      ((process.useAll (earlier ++ u :: later)).drain xs initial w).out = initial) := by
  have hclosed := exhausted_of_abort hspawn earlier habort later
  refine ⟨fun x w => ?_, fun xs initial w => hclosed.drain_out p.closes xs initial w⟩
  cases hreply : ((process.useAll (earlier ++ u :: later)).offer x w).1.result with
  | error e =>
    obtain ⟨s, -, hprocess⟩ := hclosed
    rw [hprocess] at hreply
    exact .inr (.inr ⟨e, rfl, p.step_mayFail hreply⟩)
  | ok r =>
    obtain rfl | rfl := hclosed.offer_reply p.closes p.settled hreply
    · exact .inl rfl
    · exact .inr (.inl rfl)

/-- The number before, of the first element only. It gives up at zero, and still does so when it is
exhausted. -/
def firstPredecessor : Plan (Action Unit) Nat Nat :=
  .seq
    (.operator <| .map fun
      | 0 => Action.fail (.callable "zero")
      | y + 1 => pure y)
    (.operator (.take 1))

theorem abort_is_final_firstPredecessor :
    let process : Process Unit Nat Nat :=
      { machine := firstPredecessor.machine, state := ((), (0 : Nat)) }
    let uses : List (Use Unit Nat Nat) :=
      [.offer 5 (), .drain [3, 0] [9] (), .offer 0 (), .drain [4, 0, 7] [9] ()]
    (firstPredecessor.spawn ()).result = .ok process ∧
    (process.offer 5 ()).1.result = .ok (.one 4) ∧
    (process.useAll [.offer 5 ()]).HearsAbort (.drain [3, 0] [9] ()) ∧
    ((process.useAll uses).offer 0 ()).1.result = .error (.callable "zero") ∧
    (∀ xs initial w, ((process.useAll uses).drain xs initial w).out = initial) := by
  intro process uses
  have hspawn : (firstPredecessor.spawn ()).result = .ok process := rfl
  have habort : (process.useAll [.offer 5 ()]).HearsAbort (.drain [3, 0] [9] ()) := rfl
  obtain ⟨-, hdrain⟩ := abort_is_final hspawn [.offer 5 ()] habort
    [.offer 0 (), .drain [4, 0, 7] [9] ()]
  exact ⟨hspawn, rfl, habort, rfl, hdrain⟩

end Plan

end PlanFusion
