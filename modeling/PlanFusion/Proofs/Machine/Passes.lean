import PlanFusion.Machine.Pass
import PlanFusion.Proofs.Action.Agreement

/-!
# PlanFusion — what passes have in common

Facts about `feed` for any step whatever. Each is an induction on the list, and in each the first
element ends the pass by a failure, ends it by an abort, or is followed by the others
(`Outcome.reply_cases`).

* `feed_agree` — passes of agreeing steps agree;
* `feed_onFirst` — a pass of steps on one component of the world leaves the other one alone;
* `feed_expansions_le` — a pass has no more expansions than elements;
* `feed_append` — a pass over two lists is a pass over the first one and then, if that did not end
  early, one over the second.
-/

namespace PlanFusion

theorem Reply.isAbort_of_ne {β : Type} {r : Reply β} (h : r ≠ .abort) : r.isAbort = false := by
  cases r with
  | abort => exact absurd rfl h
  | one | many | skip => rfl

/-- How one element can go in a pass. -/
theorem Outcome.reply_cases {ω β : Type} (o : Outcome ω (Reply β)) :
    (∃ e w l, o = { result := .error e, world := w, log := l }) ∨
    (∃ w l, o = { result := .ok .abort, world := w, log := l }) ∨
    (∃ r w l, r.isAbort = false ∧ o = { result := .ok r, world := w, log := l }) := by
  obtain ⟨e | r, w, l⟩ := o
  · exact .inl ⟨e, w, l, rfl⟩
  · by_cases h : r = .abort
    · subst h
      exact .inr (.inl ⟨w, l, rfl⟩)
    · exact .inr (.inr ⟨r, w, l, Reply.isAbort_of_ne h, rfl⟩)

/-- What two passes leave behind if their steps agree. -/
structure Pass.Agree {ω τ β : Type} (W : ω → τ → Prop) (p : Pass ω β) (q : Pass τ β) : Prop where
  ending : p.ending = q.ending
  world : W p.world q.world
  log : p.log = q.log
  out : p.out = q.out
  pulled : p.pulled = q.pulled
  expansions : p.expansions = q.expansions

variable {ω τ α β : Type} {W : ω → τ → Prop}

section Agreement

variable {p : Pass ω β} {q : Pass τ β}

theorem Pass.Agree.afterReply (h : p.Agree W q) (r : Reply β) (l : List Record) :
    (p.afterReply r l).Agree W (q.afterReply r l) where
  ending := h.ending
  world := h.world
  log := by rw [Pass.afterReply, Pass.afterReply, h.log]
  out := by rw [Pass.afterReply, Pass.afterReply, h.out]
  pulled := by rw [Pass.afterReply, Pass.afterReply, h.pulled]
  expansions := by rw [Pass.afterReply, Pass.afterReply, h.expansions]

theorem Pass.Agree.toOutcome (h : p.Agree W q) : p.toOutcome.Agree Eq W q.toOutcome where
  result := by rw [Pass.toOutcome, Pass.toOutcome, h.ending, h.out, resultRel_eq_iff]
  world := h.world
  log := h.log

theorem Pass.agree_eq_iff {p q : Pass ω β} : p.Agree Eq q ↔ p = q := by
  constructor
  · intro h
    obtain ⟨he, hw, hl, ho, hp, hx⟩ := h
    cases p
    cases q
    simp_all
  · rintro rfl
    exact ⟨rfl, rfl, rfl, rfl, rfl, rfl⟩

end Agreement

/-- A pass fails or it does not. -/
theorem Ending.failed_cases (ending : Ending) :
    (∃ e, ending = .failed e) ∨ ending.isFailed = false := by
  cases ending with
  | failed e => exact .inl ⟨e, rfl⟩
  | exhausted | aborted => exact .inr rfl

/-- A pass that does not fail has its outputs for a value. -/
theorem Pass.toOutcome_result {p : Pass ω β} (h : p.ending.isFailed = false) :
    p.toOutcome.result = .ok p.out := by
  cases hend : p.ending with
  | exhausted | aborted => simp only [toOutcome, hend]
  | failed e =>
    rw [hend] at h
    cases h

/-- Passes of agreeing steps over the same list agree. -/
theorem feed_agree {step : α → Action ω (Reply β)} {step' : α → Action τ (Reply β)}
    (h : ∀ x, Action.Agree Eq W (step x) (step' x)) (xs : List α) {w : ω} {v : τ} (hW : W w v) :
    (feed step xs w).Agree W (feed step' xs v) := by
  induction xs generalizing w v with
  | nil => exact ⟨rfl, hW, rfl, rfl, rfl, rfl⟩
  | cons x xs ih =>
    obtain ⟨e, w', v', l, hW', ha, hb⟩ | ⟨r, r', w', v', l, hr, hW', ha, hb⟩ :=
      (h x w v hW).result_cases
    · rw [feed_cons_of_error ha, feed_cons_of_error hb]
      exact ⟨rfl, hW', rfl, rfl, rfl, rfl⟩
    · subst hr
      by_cases habort : r = .abort
      · subst habort
        rw [feed_cons_of_abort ha, feed_cons_of_abort hb]
        exact ⟨rfl, hW', rfl, rfl, rfl, rfl⟩
      · have hgoes := Reply.isAbort_of_ne habort
        rw [feed_cons_of_ok ha hgoes, feed_cons_of_ok hb hgoes]
        exact (ih hW').afterReply r l

/-- Steps that see only the first component of the world leave the second one as it is. -/
theorem feed_onFirst (step : α → Action ω (Reply β)) (xs : List α) (w : ω) (v : τ) :
    feed (fun x => (step x).onFirst) xs (w, v) = (feed step xs w).mapWorld fun w' => (w', v) := by
  have hstep : ∀ x, Action.Agree Eq (fun (p : ω × τ) w' => p = (w', v)) (step x).onFirst
      (step x) :=
    fun x => Action.agree_onFirst v (step x)
  obtain ⟨he, hw, hl, ho, hp, hx⟩ := feed_agree hstep xs (w := (w, v)) (v := w) rfl
  exact Pass.agree_eq_iff.mp ⟨he, hw, hl, ho, hp, hx⟩

theorem Reply.isExpansion_toNat_le (r : Reply β) : r.isExpansion.toNat ≤ 1 := by
  cases r with
  | many => exact Nat.le_refl 1
  | one | skip | abort => exact Nat.zero_le 1

/-- Every expansion answers an element of its own. -/
theorem feed_expansions_le (step : α → Action ω (Reply β)) (xs : List α) (w : ω) :
    (feed step xs w).expansions ≤ (feed step xs w).pulled := by
  induction xs generalizing w with
  | nil => exact Nat.le_refl 0
  | cons x xs ih =>
    obtain ⟨e, w', l, h⟩ | ⟨w', l, h⟩ | ⟨r, w', l, hr, h⟩ := (step x w).reply_cases
    · rw [feed_cons_of_error h]
      exact Nat.zero_le 1
    · rw [feed_cons_of_abort h]
      exact Nat.zero_le 1
    · rw [feed_cons_of_ok h hr]
      exact Nat.add_le_add (ih w') r.isExpansion_toNat_le

-- ---------------------------------------------------------------------------
-- Passes over two lists
-- ---------------------------------------------------------------------------

theorem Pass.afterReply_andThen (p : Pass ω β) (r : Reply β) (l : List Record)
    (q : ω → Pass ω β) : (p.afterReply r l).andThen q = (p.andThen q).afterReply r l := by
  cases h : p.ending with
  | exhausted =>
    simp only [andThen, afterReply, h, List.append_assoc, Pass.mk.injEq, true_and]
    omega
  | aborted => simp only [andThen, afterReply, h]
  | failed e => simp only [andThen, afterReply, h]

theorem feed_append (step : α → Action ω (Reply β)) (xs ys : List α) (w : ω) :
    feed step (xs ++ ys) w = (feed step xs w).andThen (feed step ys) := by
  induction xs generalizing w with
  | nil => simp [Pass.andThen]
  | cons x xs ih =>
    rw [List.cons_append]
    obtain ⟨e, w', l, h⟩ | ⟨w', l, h⟩ | ⟨r, w', l, hr, h⟩ := (step x w).reply_cases
    · rw [feed_cons_of_error h, feed_cons_of_error h]
      rfl
    · rw [feed_cons_of_abort h, feed_cons_of_abort h]
      rfl
    · rw [feed_cons_of_ok h hr, feed_cons_of_ok h hr, ih, Pass.afterReply_andThen]

end PlanFusion
