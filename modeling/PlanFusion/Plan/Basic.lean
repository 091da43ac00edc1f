import PlanFusion.Log.Logged
import PlanFusion.Operator

/-!
# PlanFusion — plans

A plan says what one pass over a list does: one operator, or two plans in sequence, the right one
on what the left one puts out.

* `Plan m α β` — the plans from `α` to `β`, as trees;
* `Plan.shape` — the plan without its callables; its text, kind and number of operators are those
  of the shape;
* `Plan.join` — two plans in sequence, with a record;
* `Path m α β` — operators in sequence without any nesting; `Plan.path` is the path of a plan and
  forgets how its joins are nested;
* `Plan.Pure` — a plan whose callables are functions; `Plan.lift` runs it in any world.
-/

namespace PlanFusion

/-- What one pass over a list does. -/
inductive Plan (m : Type → Type) : Type → Type → Type 1 where
  | operator {α β : Type} (o : Operator m α β) : Plan m α β
  | seq {α β γ : Type} (left : Plan m α β) (right : Plan m β γ) : Plan m α γ

/-- Operators in sequence, from left to right. -/
inductive Path (m : Type → Type) : Type → Type → Type 1 where
  | nil {α : Type} : Path m α α
  | cons {α β γ : Type} (o : Operator m α β) (rest : Path m β γ) : Path m α γ

namespace Path

variable {m : Type → Type} {α β γ δ : Type}

/-- One path behind the other. -/
def append {α β γ : Type} : Path m α β → Path m β γ → Path m α γ
  | nil, q => q
  | cons o p, q => cons o (p.append q)

/-- The path without its identities, which do nothing. -/
def active {α β : Type} : Path m α β → Path m α β
  | nil => nil
  | cons .identity p => p.active
  | cons o p => cons o p.active

/-- The forms of the operators. -/
def forms {α β : Type} : Path m α β → List Form
  | nil => []
  | cons o p => o.form :: p.forms

@[simp] theorem append_nil (p : Path m α β) : p.append nil = p := by
  induction p with
  | nil => rfl
  | cons o p ih => simp [append, ih]

theorem append_assoc (p : Path m α β) (q : Path m β γ) (r : Path m γ δ) :
    (p.append q).append r = p.append (q.append r) := by
  induction p with
  | nil => rfl
  | cons o p ih => simp [append, ih]

theorem active_cons {o : Operator m α β} (ho : o.form ≠ .identity) (p : Path m β γ) :
    (cons o p).active = cons o p.active := by
  cases o with
  | identity => exact absurd rfl ho
  | _ => rfl

@[simp] theorem active_append (p : Path m α β) (q : Path m β γ) :
    (p.append q).active = p.active.append q.active := by
  induction p with
  | nil => rfl
  | cons o p ih => cases o <;> simp [append, active, ih]

/-- A path without identities has nothing to leave out. -/
theorem active_eq_self {p : Path m α β} (h : .identity ∉ p.forms) : p.active = p := by
  induction p with
  | nil => rfl
  | cons o p ih =>
    rw [forms, List.mem_cons, not_or] at h
    rw [active_cons (Ne.symm h.1), ih h.2]

@[simp] theorem forms_append (p : Path m α β) (q : Path m β γ) :
    (p.append q).forms = p.forms ++ q.forms := by
  induction p with
  | nil => rfl
  | cons o p ih => simp [append, forms, ih]

end Path

namespace Plan

variable {m n : Type → Type} {ω α β γ : Type}

/-- The plan without its callables. -/
def shape {α β : Type} : Plan m α β → Shape
  | operator o => .operator o.form
  | seq left right => .seq left.shape right.shape

/-- What fusion looks at. -/
def kind (p : Plan m α β) : Kind :=
  p.shape.kind

/-- The number of operators. -/
def leaves (p : Plan m α β) : Nat :=
  p.shape.leaves

/-- The plan as text. -/
def text (p : Plan m α β) : String :=
  p.shape.text

/-- The operators of the plan in the order in which an element meets them. -/
def path {α β : Type} : Plan m α β → Path m α β
  | operator o => .cons o .nil
  | seq left right => left.path.append right.path

/-- The plan with its callables carried into another monad. -/
def trans {α β : Type} (t : {α : Type} → m α → n α) : Plan m α β → Plan n α β
  | operator o => operator (o.trans t)
  | seq left right => seq (left.trans t) (right.trans t)

/-- Two plans in sequence, as they are. -/
def join (left : Plan m α β) (right : Plan m β γ) : Logged (Plan m α γ) where
  value := seq left right
  log := [.joined left.kind right.kind]

/-- Plans whose callables are functions: they change no world and do not fail. -/
abbrev Pure : Type → Type → Type 1 :=
  Plan Id

/-- Run functions as callables of a world. -/
def lift (p : Pure α β) : Plan (Action ω) α β :=
  p.trans fun x => pure x.run

/-- Run the callables in the first component of a larger world. -/
def widen {τ : Type} (p : Plan (Action ω) α β) : Plan (Action (ω × τ)) α β :=
  p.trans Action.onFirst

@[simp] theorem shape_trans (t : {α : Type} → m α → n α) (p : Plan m α β) :
    (p.trans t).shape = p.shape := by
  induction p with
  | operator o => simp [trans, shape]
  | seq left right ihl ihr => simp [trans, shape, ihl, ihr]

theorem leaves_seq (left : Plan m α β) (right : Plan m β γ) :
    (seq left right).leaves = left.leaves + right.leaves := rfl

theorem leaves_pos (p : Plan m α β) : 0 < p.leaves :=
  p.shape.leaves_pos

theorem forms_path (p : Plan m α β) : p.path.forms = p.shape.forms := by
  induction p with
  | operator o => rfl
  | seq left right ihl ihr => simp [path, shape, Shape.forms, ihl, ihr]

end Plan

end PlanFusion
