import PlanFusion.Builder.Basic

/-!
# PlanFusion — recipes

A recipe records how a builder came about: where it started and what was done to it, with the
recipes of the builders that were merged into it. Building it does all that. What a recipe says
about plans is independent of the modes in it, which is how eager and late fusion can be compared.

* `Recipe` — the history of a builder;
* `Recipe.build` — the builder, with all records of its history;
* `Recipe.mode`, `Recipe.EndsFused` — the mode at the end, and whether the plan is fused then;
* `Recipe.plain` — the plan that the same additions make if nothing is ever fused;
* `Recipe.SameAdditions` — two recipes that add the same things in the same order and may differ in
  their modes and in when they fuse.
-/

namespace PlanFusion

/-- The history of a builder. -/
inductive Recipe (m : Type → Type) : Type → Type → Type 1 where
  | empty {α : Type} : Recipe m α α
  | ofPlan {α β : Type} (p : Plan m α β) : Recipe m α β
  | add {α β γ : Type} (r : Recipe m α β) (o : Operator m β γ) : Recipe m α γ
  | merge {α β γ : Type} (r : Recipe m α β) (other : Recipe m β γ) : Recipe m α γ
  | normalize {α β : Type} (r : Recipe m α β) : Recipe m α β
  | withMode {α β : Type} (r : Recipe m α β) (mode : FusionMode) : Recipe m α β

namespace Recipe

variable {m : Type → Type}

/-- Do what the recipe says. -/
def build [Monad m] {α β : Type} : Recipe m α β → Logged (Builder m α β)
  | empty => pure .empty
  | ofPlan p => pure (.ofPlan p)
  | add r o => do
    let b ← r.build
    b.add o
  | merge r other => do
    let b ← r.build
    let c ← other.build
    b.merge c
  | normalize r => do
    let b ← r.build
    b.normalize
  | withMode r mode => do
    let b ← r.build
    return b.withMode mode

/-- The plan of the recipe with every join as it was made. -/
def plain {α β : Type} : Recipe m α β → Plan m α β
  | empty => .operator .identity
  | ofPlan p => p
  | add r o => .seq r.plain (.operator o)
  | merge r other => .seq r.plain other.plain
  | normalize r => r.plain
  | withMode r _ => r.plain

/-- The recipe without its modes and its requests to fuse. -/
def additions {α β : Type} : Recipe m α β → Recipe m α β
  | empty => empty
  | ofPlan p => ofPlan p
  | add r o => add r.additions o
  | merge r other => merge r.additions other.additions
  | normalize r => r.additions
  | withMode r _ => r.additions

/-- The same things are added in the same order. -/
def SameAdditions {α β : Type} (r s : Recipe m α β) : Prop :=
  r.additions = s.additions

/-- The mode of the builder that the recipe makes. -/
def mode {α β : Type} : Recipe m α β → FusionMode
  | empty => .enabled
  | ofPlan _ => .enabled
  | add r _ => r.mode
  | merge r _ => r.mode
  | normalize r => r.mode
  | withMode _ mode => mode

/-- The last thing done to the plan fused it. -/
def EndsFused {α β : Type} : Recipe m α β → Prop
  | empty => False
  | ofPlan _ => False
  | add r _ => r.mode = .enabled
  | merge r _ => r.mode = .enabled
  | normalize _ => True
  | withMode r _ => r.EndsFused

/-- The recipe that adds the operators of a path, one at a time, to what `r` builds and in its
mode. -/
def ofPath {α β γ : Type} (r : Recipe m α β) : Path m β γ → Recipe m α γ
  | .nil => r
  | .cons o p => (r.add o).ofPath p

end Recipe

end PlanFusion
