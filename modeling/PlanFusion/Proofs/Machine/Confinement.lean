import PlanFusion.Proofs.Machine.Sequencing

/-!
# PlanFusion — where failures and records come from

An action is *confined* to some failures and some records if it fails in no other way and logs
nothing else. Confinement goes through everything that actions, passes and machines are made of, as
nothing in them fails or logs by itself. So all that can ever be seen to fail or to be logged while
a machine runs comes from the actions that it was built from.

* `Outcome.Confined`, `Action.Confined`, `Pass.Confined`, `Machine.Confined` — the notion;
* `confined_bind`, `feed_confined`, `confined_seq` — how it is carried from the parts to the whole.
-/

namespace PlanFusion

/-- Only failures in `P` and records in `Q`. -/
structure Outcome.Confined {ω α : Type} (P : Failure → Prop) (Q : Record → Prop)
    (o : Outcome ω α) : Prop where
  failure : ∀ e, o.result = .error e → P e
  log : ∀ record ∈ o.log, Q record

/-- The action fails only in the ways of `P` and logs only what is in `Q`. -/
def Action.Confined {ω α : Type} (P : Failure → Prop) (Q : Record → Prop) (a : Action ω α) : Prop :=
  ∀ w, (a w).Confined P Q

/-- The pass failed, if it did, in a way of `P`, and logged only what is in `Q`. -/
structure Pass.Confined {ω β : Type} (P : Failure → Prop) (Q : Record → Prop) (p : Pass ω β) :
    Prop where
  failure : ∀ e, p.ending = .failed e → P e
  log : ∀ record ∈ p.log, Q record

/-- Every step of the machine is confined. -/
def Machine.Confined {ω α β : Type} (P : Failure → Prop) (Q : Record → Prop)
    (M : Machine ω α β) : Prop :=
  ∀ x, (M.step x).Confined P Q

variable {ω τ σ α β γ : Type} {P : Failure → Prop} {Q : Record → Prop}

-- ---------------------------------------------------------------------------
-- Actions
-- ---------------------------------------------------------------------------

theorem Outcome.Confined.after {o : Outcome ω α} (h : o.Confined P Q) {l : List Record}
    (hl : ∀ record ∈ l, Q record) : (o.after l).Confined P Q where
  failure := h.failure
  log := List.forall_mem_append.mpr ⟨hl, h.log⟩

theorem Outcome.confined_error {e : Failure} {l : List Record} (he : P e)
    (hl : ∀ record ∈ l, Q record) (w : ω) :
    ({ result := .error e, world := w, log := l } : Outcome ω α).Confined P Q where
  failure := by
    rintro e' ⟨⟩
    exact he
  log := hl

theorem Outcome.confined_ok {l : List Record} (hl : ∀ record ∈ l, Q record) (x : α) (w : ω) :
    ({ result := .ok x, world := w, log := l } : Outcome ω α).Confined P Q where
  failure := by
    rintro e ⟨⟩
  log := hl

theorem Outcome.Confined.mapWorld {o : Outcome ω α} (h : o.Confined P Q) (g : ω → τ) :
    (o.mapWorld g).Confined P Q :=
  ⟨h.failure, h.log⟩

namespace Action

theorem confined_pure (x : α) : (pure x : Action ω α).Confined P Q :=
  fun w => Outcome.confined_ok (List.forall_mem_nil Q) x w

theorem confined_bind {a : Action ω α} {f : α → Action ω β} (ha : a.Confined P Q)
    (hf : ∀ x, (f x).Confined P Q) : (a >>= f).Confined P Q := by
  intro w
  have haw := ha w
  rcases h : a w with ⟨e | x, w', l⟩
  · rw [h] at haw
    rw [bind_of_error h]
    exact Outcome.confined_error (haw.failure e rfl) haw.log w'
  · rw [h] at haw
    rw [bind_of_ok h]
    exact (hf x w').after haw.log

theorem confined_map {a : Action ω α} (ha : a.Confined P Q) (f : α → β) :
    (f <$> a).Confined P Q := by
  rw [map_eq_pure_bind]
  exact confined_bind ha fun x => confined_pure (f x)

theorem confined_on {a : Action ω α} (ha : a.Confined P Q) (p : Part τ ω) : (a.on p).Confined P Q :=
  fun w => (ha (p.get w)).mapWorld _

end Action

-- ---------------------------------------------------------------------------
-- Passes
-- ---------------------------------------------------------------------------

theorem Pass.Confined.afterReply {p : Pass ω β} (h : p.Confined P Q) (r : Reply β)
    {l : List Record} (hl : ∀ record ∈ l, Q record) : (p.afterReply r l).Confined P Q where
  failure := h.failure
  log := List.forall_mem_append.mpr ⟨hl, h.log⟩

theorem Pass.Confined.toOutcome {p : Pass ω β} (h : p.Confined P Q) :
    p.toOutcome.Confined P Q where
  failure := by
    intro e he
    cases hend : p.ending with
    | failed e' =>
      simp only [Pass.toOutcome, hend] at he
      cases he
      exact h.failure e hend
    | exhausted | aborted =>
      simp only [Pass.toOutcome, hend] at he
      cases he
  log := h.log

theorem feed_confined {step : α → Action ω (Reply β)} (h : ∀ x, (step x).Confined P Q)
    (xs : List α) (w : ω) : (feed step xs w).Confined P Q := by
  induction xs generalizing w with
  | nil => exact ⟨nofun, List.forall_mem_nil Q⟩
  | cons x xs ih =>
    have hx := h x w
    obtain ⟨e, w', l, heq⟩ | ⟨w', l, heq⟩ | ⟨r, w', l, hr, heq⟩ := (step x w).reply_cases
    · rw [heq] at hx
      rw [feed_cons_of_error heq]
      refine ⟨?_, hx.log⟩
      rintro e' ⟨⟩
      exact hx.failure e rfl
    · rw [heq] at hx
      rw [feed_cons_of_abort heq]
      exact ⟨nofun, hx.log⟩
    · rw [heq] at hx
      rw [feed_cons_of_ok heq hr]
      exact (ih w').afterReply r hx.log

-- ---------------------------------------------------------------------------
-- Machines
-- ---------------------------------------------------------------------------

namespace Machine

theorem confined_stateless {f : α → Action ω (Reply β)} (h : ∀ x, (f x).Confined P Q) :
    (stateless f).Confined P Q :=
  fun x => Action.confined_on (h x) .second

theorem confined_ofTransition {f : σ → α → Action ω (σ × Reply β)}
    (h : ∀ s x, (f s x).Confined P Q) : (ofTransition f).Confined P Q := by
  rintro x ⟨s, w⟩
  have hx := h s x w
  simp only [ofTransition]
  rcases ho : f s x w with ⟨e | ⟨s', r⟩, w', l⟩
  · rw [ho] at hx
    exact Outcome.confined_error (hx.failure e rfl) hx.log _
  · rw [ho] at hx
    exact Outcome.confined_ok hx.log _ _

theorem confined_follow {R : Machine ω β γ} (h : R.Confined P Q) (r : Reply β) :
    (R.follow r).Confined P Q := by
  cases r with
  | one y => exact h y
  | many ys =>
    have hcollect : (R.collect ys).Confined P Q := fun v => (feed_confined h ys v).toOutcome
    exact Action.confined_bind hcollect fun zs => Action.confined_pure _
  | skip => exact Action.confined_pure _
  | abort => exact Action.confined_pure _

theorem confined_seq {L : Machine ω α β} {R : Machine ω β γ} (hL : L.Confined P Q)
    (hR : R.Confined P Q) : (L.seq R).Confined P Q :=
  fun x => Action.confined_bind (Action.confined_on (hL x) .outer) fun r =>
    Action.confined_on (confined_follow hR r) .inner

end Machine

end PlanFusion
