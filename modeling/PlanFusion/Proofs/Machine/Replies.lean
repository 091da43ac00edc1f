import Mathlib.Data.List.Basic
import PlanFusion.Proofs.Machine.Passes

/-!
# PlanFusion — the replies of a pass

A pass keeps what comes out of the replies that it gets, and counts some of them, but not the
replies themselves. They say more than the numbers do: which element an output came from, and in
what manner. Everything that a pass counts can be counted in the list of its replies.

* `replies` — the replies that a pass gets;
* `Pass.Hears`, `feed_hears` — what a pass makes of them;
* `forall_replies` — what all replies of a step have in common holds of those in a pass.
-/

namespace PlanFusion

variable {ω α β : Type}

/-- The replies that a pass gets, in order, with the abort that may end it. A failure is no
reply. -/
def replies (step : α → Action ω (Reply β)) : List α → ω → List (Reply β)
  | [], _ => []
  | x :: xs, w =>
    match step x w with
    | { result := .error _, world := _, log := _ } => []
    | { result := .ok .abort, world := _, log := _ } => [.abort]
    | { result := .ok r, world := w', log := _ } => r :: replies step xs w'

section

variable {step : α → Action ω (Reply β)} {x : α} {w w' : ω} {l : List Record}

theorem replies_cons_of_error {e : Failure}
    (h : step x w = { result := .error e, world := w', log := l }) (xs : List α) :
    replies step (x :: xs) w = [] := by
  simp [replies, h]

theorem replies_cons_of_abort (h : step x w = { result := .ok .abort, world := w', log := l })
    (xs : List α) : replies step (x :: xs) w = [.abort] := by
  simp [replies, h]

theorem replies_cons_of_ok {r : Reply β}
    (h : step x w = { result := .ok r, world := w', log := l }) (hr : r.isAbort = false)
    (xs : List α) : replies step (x :: xs) w = r :: replies step xs w' := by
  cases r <;> simp_all [replies, Reply.isAbort]

end

/-- The pass gets the replies `rs`: its outputs are theirs, its numbers can be counted in them, and
one of them is an abort if it was aborted. An element that fails is handed out without a reply. -/
structure Pass.Hears (p : Pass ω β) (rs : List (Reply β)) : Prop where
  out : p.out = rs.flatMap Reply.outputs
  expansions : p.expansions = rs.countP Reply.isExpansion
  pulled : p.pulled = rs.length + p.ending.isFailed.toNat
  aborted : p.ending = .aborted ↔ .abort ∈ rs

theorem Pass.Hears.afterReply {p : Pass ω β} {rs : List (Reply β)} (h : p.Hears rs) {r : Reply β}
    (hr : r.isAbort = false) (l : List Record) : (p.afterReply r l).Hears (r :: rs) where
  out := by
    rw [List.flatMap_cons, ← h.out]
    rfl
  expansions := by
    rw [List.countP_cons, ← h.expansions]
    show p.expansions + r.isExpansion.toNat = _
    cases r.isExpansion <;> rfl
  pulled := by
    have hrest := h.pulled
    show p.pulled + 1 = rs.length + 1 + p.ending.isFailed.toNat
    omega
  aborted := by
    have hne : .abort ≠ r := by
      rintro rfl
      cases hr
    rw [List.mem_cons, or_iff_right hne]
    exact h.aborted

/-- A pass keeps and counts the replies that it gets. -/
theorem feed_hears (step : α → Action ω (Reply β)) (xs : List α) (w : ω) :
    (feed step xs w).Hears (replies step xs w) := by
  induction xs generalizing w with
  | nil => exact ⟨rfl, rfl, rfl, iff_of_false nofun List.not_mem_nil⟩
  | cons x xs ih =>
    obtain ⟨e, w', l, hx⟩ | ⟨w', l, hx⟩ | ⟨r, w', l, hr, hx⟩ := (step x w).reply_cases
    · rw [feed_cons_of_error hx, replies_cons_of_error hx]
      exact ⟨rfl, rfl, rfl, iff_of_false nofun List.not_mem_nil⟩
    · rw [feed_cons_of_abort hx, replies_cons_of_abort hx]
      exact ⟨rfl, rfl, rfl, iff_of_true rfl (List.mem_singleton_self _)⟩
    · rw [feed_cons_of_ok hx hr, replies_cons_of_ok hx hr]
      exact (ih w').afterReply hr l

/-- Replies in a pass are replies of the step. -/
theorem forall_replies {P : Reply β → Prop} {step : α → Action ω (Reply β)}
    (h : ∀ x, (step x).Yields P) (xs : List α) (w : ω) : ∀ r ∈ replies step xs w, P r := by
  induction xs generalizing w with
  | nil => exact List.forall_mem_nil P
  | cons x xs ih =>
    have hx := h x w
    obtain ⟨e, w', l, heq⟩ | ⟨w', l, heq⟩ | ⟨r, w', l, hr, heq⟩ := (step x w).reply_cases
    · rw [replies_cons_of_error heq]
      exact List.forall_mem_nil P
    · rw [heq] at hx
      rw [replies_cons_of_abort heq]
      exact List.forall_mem_singleton.mpr (hx .abort rfl)
    · rw [heq] at hx
      rw [replies_cons_of_ok heq hr]
      exact List.forall_mem_cons.mpr ⟨hx r rfl, ih w'⟩

end PlanFusion
