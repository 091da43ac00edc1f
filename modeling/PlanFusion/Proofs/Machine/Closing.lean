import PlanFusion.Proofs.Machine.Sequencing

/-!
# PlanFusion — machines that close

A machine *closes* when an abort is the last that is heard of it: from then on it may fail, but it
never puts out anything again. Without this, feeding a machine through another one element by
element would not be the same as feeding it whole lists, because an abort inside an expansion does
not end the pass.

* `Closes` — a set of worlds that every abort leads into, that no step leaves, and in which
  nothing is put out;
* `feed_quiet`, `feed_closed` — what follows for passes;
* `closes_seq` — two machines that close do so in sequence as well. It takes only one of them to
  be closed: if it is the left one, nothing reaches the right one, and if it is the right one, what
  the left one puts out comes to nothing.
-/

namespace PlanFusion

variable {ω α β γ : Type}

/-- Every abort leads into `D`, no step leaves `D`, and no step from `D` puts out anything. -/
structure Closes (step : α → Action ω (Reply β)) (D : ω → Prop) : Prop where
  quiet : ∀ x w r, D w → (step x w).result = .ok r → r.outputs = []
  stays : ∀ x w, D w → D (step x w).world
  abort : ∀ x w, (step x w).result = .ok .abort → D (step x w).world

section Passes

variable {step : α → Action ω (Reply β)} {D : ω → Prop}

/-- A pass that starts closed puts out nothing and ends closed. -/
theorem feed_quiet (h : Closes step D) (xs : List α) {w : ω} (hw : D w) :
    (feed step xs w).out = [] ∧ D (feed step xs w).world := by
  induction xs generalizing w with
  | nil => exact ⟨rfl, hw⟩
  | cons x xs ih =>
    have hquiet := fun r => h.quiet x w r hw
    have hstays := h.stays x w hw
    obtain ⟨e, w', l, hx⟩ | ⟨w', l, hx⟩ | ⟨r, w', l, hr, hx⟩ := (step x w).reply_cases
    · rw [hx] at hstays
      rw [feed_cons_of_error hx]
      exact ⟨rfl, hstays⟩
    · rw [hx] at hstays
      rw [feed_cons_of_abort hx]
      exact ⟨rfl, hstays⟩
    · rw [hx] at hstays hquiet
      rw [feed_cons_of_ok hx hr]
      obtain ⟨hout, hworld⟩ := ih hstays
      refine ⟨?_, hworld⟩
      show r.outputs ++ (feed step xs w').out = []
      rw [hquiet r rfl, hout, List.append_nil]

/-- A pass that was aborted ends closed. -/
theorem feed_closed (h : Closes step D) (xs : List α) {w : ω}
    (hend : (feed step xs w).ending = .aborted) : D (feed step xs w).world := by
  induction xs generalizing w with
  | nil => cases hend
  | cons x xs ih =>
    obtain ⟨e, w', l, hx⟩ | ⟨w', l, hx⟩ | ⟨r, w', l, hr, hx⟩ := (step x w).reply_cases
    · rw [feed_cons_of_error hx] at hend
      cases hend
    · have habort := h.abort x w
      rw [hx] at habort
      rw [feed_cons_of_abort hx]
      exact habort rfl
    · rw [feed_cons_of_ok hx hr] at hend ⊢
      exact ih hend

end Passes

namespace Machine

variable {L : Machine ω α β} {R : Machine ω β γ} {D : L.State → Prop} {E : R.State → Prop}

/-- A closed machine makes nothing of any reply. -/
theorem follow_quiet (hR : Closes R.step fun v => E v.1) (r : Reply β) {v : R.State × ω}
    (hv : E v.1) :
    (∀ q, (R.follow r v).result = .ok q → q.outputs = []) ∧ E (R.follow r v).world.1 := by
  cases r with
  | one y => exact ⟨fun q => hR.quiet y v q hv, hR.stays y v hv⟩
  | many ys =>
    obtain ⟨hout, hworld⟩ := feed_quiet hR ys hv
    rw [follow_many, Action.map_apply]
    refine ⟨fun q hq => ?_, hworld⟩
    rcases hend : (feed R.step ys v).ending with _ | _ | e <;>
      simp only [collect, Pass.toOutcome, hend, hout, Except.map] at hq <;> cases hq
    · rfl
    · rfl
  | skip => exact ⟨fun q hq => by cases hq; rfl, hv⟩
  | abort => exact ⟨fun q hq => by cases hq; rfl, hv⟩

/-- A machine makes nothing of a reply without outputs, and does not notice it. -/
theorem follow_of_outputs_nil (R : Machine ω β γ) {r : Reply β} (hr : r.outputs = [])
    (v : R.State × ω) :
    ∃ q : Reply γ, q.outputs = [] ∧ R.follow r v = { result := .ok q, world := v } := by
  cases r with
  | one y => cases hr
  | many ys =>
    cases hr
    exact ⟨.skip, rfl, rfl⟩
  | skip => exact ⟨.skip, rfl, rfl⟩
  | abort => exact ⟨.abort, rfl, rfl⟩

/-- Two machines in sequence abort because one of them does. -/
theorem follow_abort (hR : Closes R.step fun v => E v.1) (r : Reply β) {v : R.State × ω}
    (h : (R.follow r v).result = .ok .abort) : r = .abort ∨ E (R.follow r v).world.1 := by
  cases r with
  | one y => exact .inr (hR.abort y v h)
  | many ys =>
    rw [follow_many, Action.map_apply] at h
    rcases hres : (R.collect ys v).result with e | zs
    · rw [hres] at h
      cases h
    · rw [hres] at h
      have habort := congrArg Reply.isAbort (Except.ok.inj h)
      rw [Reply.isAbort_ofList] at habort
      cases habort
  | skip => cases h
  | abort => exact .inl rfl

theorem closes_seq (hL : Closes L.step fun v => D v.1) (hR : Closes R.step fun v => E v.1) :
    Closes (L.seq R).step fun v => D v.1.1 ∨ E v.1.2 where
  quiet := by
    rintro x ⟨⟨s, t⟩, w⟩ q hclosed hq
    rcases hx : L.step x (s, w) with ⟨_ | r, ⟨s', w'⟩, l⟩
    · rw [step_seq_of_error hx] at hq
      cases hq
    · rw [step_seq_of_ok hx] at hq
      rcases hclosed with hs | ht
      · have hr : r.outputs = [] := hL.quiet x (s, w) r hs (congrArg Outcome.result hx)
        obtain ⟨q', hq', hfollow⟩ := follow_of_outputs_nil R hr (t, w')
        rw [hfollow] at hq
        cases hq
        exact hq'
      · exact (follow_quiet hR r (v := (t, w')) ht).1 q hq
  stays := by
    rintro x ⟨⟨s, t⟩, w⟩ hclosed
    have hstays := hL.stays x (s, w)
    rcases hx : L.step x (s, w) with ⟨_ | r, ⟨s', w'⟩, l⟩
    · rw [hx] at hstays
      rw [step_seq_of_error hx]
      exact hclosed.imp_left hstays
    · rw [hx] at hstays
      rw [step_seq_of_ok hx]
      exact hclosed.imp hstays fun ht => (follow_quiet hR r (v := (t, w')) ht).2
  abort := by
    rintro x ⟨⟨s, t⟩, w⟩ hq
    rcases hx : L.step x (s, w) with ⟨_ | r, ⟨s', w'⟩, l⟩
    · rw [step_seq_of_error hx] at hq
      cases hq
    · have habort := hL.abort x (s, w)
      rw [step_seq_of_ok hx] at hq ⊢
      rcases follow_abort hR r hq with rfl | ht
      · rw [hx] at habort
        exact .inl (habort rfl)
      · exact .inr ht

end Machine

end PlanFusion
