import PlanFusion.Proofs.Builder.Modes
import PlanFusion.Proofs.Plan.Meaning

/-!
# PlanFusion — running a builder means what it says

Whatever fusion does to the plan of a builder, running it gives the list that the unfused plan
means. To merge two builders of functions is therefore to compose two functions on lists, in
whatever modes they have grown.

* `Recipe.lift` — a recipe of functions as one whose callables run in a world;
* `Recipe.run_gives` — its builder gives the list that the additions mean;
* `run_gives_meaning` — what plans and builders of functions put out when they are run.
-/

namespace PlanFusion

variable {m n : Type → Type} {ω α β γ : Type}

-- ---------------------------------------------------------------------------
-- Recipes of functions
-- ---------------------------------------------------------------------------

namespace Recipe

/-- The recipe with its callables carried into another monad. -/
def trans (t : {α : Type} → m α → n α) {α β : Type} : Recipe m α β → Recipe n α β
  | empty => empty
  | ofPlan p => ofPlan (p.trans t)
  | add r o => add (r.trans t) (o.trans t)
  | merge r other => merge (r.trans t) (other.trans t)
  | normalize r => normalize (r.trans t)
  | withMode r mode => withMode (r.trans t) mode

theorem plain_trans (t : {α : Type} → m α → n α) (r : Recipe m α β) :
    (r.trans t).plain = r.plain.trans t := by
  induction r with
  | empty => rfl
  | ofPlan p => rfl
  | add r o ih =>
    show Plan.seq (r.trans t).plain (.operator (o.trans t)) = _
    rw [ih]
    rfl
  | merge r other ihr iho =>
    show Plan.seq (r.trans t).plain (other.trans t).plain = _
    rw [ihr, iho]
    rfl
  | normalize r ih => exact ih
  | withMode r mode ih => exact ih

/-- Run functions as callables of a world. -/
def lift (r : Recipe Id α β) : Recipe (Action ω) α β :=
  r.trans fun x => pure x.run

end Recipe

-- ---------------------------------------------------------------------------
-- Runs
-- ---------------------------------------------------------------------------

/-- A run that succeeds gives what its pass gives, and adds a record. -/
theorem Plan.run_gives {p : Plan (Action ω) α β} {xs : List α} {w v : ω} {ys : List β}
    (h : (p.pass xs w).Gives v ys) : (p.run xs w).Gives v ys := by
  obtain ⟨hending, hworld, hout⟩ := h
  unfold run
  dsimp only
  rw [hending]
  exact ⟨hending, hworld, hout⟩

/-- In whatever modes a builder of functions has grown, its runs give the list that the plan in
which nothing is fused means. -/
theorem Recipe.run_gives (r : Recipe Id α β) (xs : List α) (w : ω) :
    (r.lift.build.value.run xs w).Gives w (r.plain.meaning xs) := by
  have halike : (r.lift : Recipe (Action ω) α β).build.value.plan.Alike r.plain.lift := by
    have hbuild := (r.lift : Recipe (Action ω) α β).build_alike
    have hplain : (r.lift : Recipe (Action ω) α β).plain = r.plain.lift := r.plain_trans _
    rw [hplain] at hbuild
    exact hbuild
  have hpass := r.plain.pass_gives xs w
  rw [← halike.pass_eq xs w] at hpass
  exact Plan.run_gives hpass

/-- **Running means what it says.** A plan whose callables are functions runs without failing,
leaves the world alone, and puts out the list that it means. Two plans in sequence run as one after
the other, each on a whole list. The same holds of builders of functions and of merging them, in
whatever modes they have grown. -/
theorem run_gives_meaning (p : Plan.Pure α β) (q : Plan.Pure β γ) (r : Recipe Id α β)
    (s : Recipe Id β γ) (xs : List α) (w : ω) :
    (p.lift.run xs w).Gives w (p.meaning xs) ∧
    ((Plan.seq p q).lift.run xs w).Gives w (q.lift.run (p.lift.run xs w).out w).out ∧
    (r.lift.build.value.run xs w).Gives w (r.plain.meaning xs) ∧
    ((r.lift.merge s.lift).build.value.run xs w).Gives w
      (s.lift.build.value.run (r.lift.build.value.run xs w).out w).out := by
  have hp := Plan.run_gives (p.pass_gives xs w)
  have hq := Plan.run_gives (q.pass_gives (p.meaning xs) w)
  have hpq := Plan.run_gives ((Plan.seq p q).pass_gives xs w)
  have hr := r.run_gives xs w
  have hs := s.run_gives (r.plain.meaning xs) w
  have hrs := (r.merge s).run_gives xs w
  refine ⟨hp, ?_, hr, ?_⟩
  · rw [hp.out, hq.out]
    exact hpq
  · rw [hr.out, hs.out]
    exact hrs

end PlanFusion
