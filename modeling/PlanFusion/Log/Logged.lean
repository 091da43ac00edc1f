import PlanFusion.Log.Record

/-!
# PlanFusion — computations that write to the log

`Logged α` is a value together with the records that making it wrote, oldest first. Building and
fusing plans happens here: it cannot fail and calls nothing of the user.
-/

namespace PlanFusion

universe u v

/-- A value and what was logged while it was made. -/
structure Logged (α : Type u) where
  value : α
  log : List Record := []

namespace Logged

variable {α : Type u} {β : Type v}

@[ext] theorem ext {a b : Logged α} (hv : a.value = b.value) (hl : a.log = b.log) : a = b := by
  cases a; cases b; simp_all

instance : Monad Logged where
  pure a := { value := a }
  bind a f := { value := (f a.value).value, log := a.log ++ (f a.value).log }

@[simp] theorem value_pure (a : α) : (pure a : Logged α).value = a := rfl

@[simp] theorem log_pure (a : α) : (pure a : Logged α).log = [] := rfl

@[simp] theorem value_bind {α β : Type u} (a : Logged α) (f : α → Logged β) :
    (a >>= f).value = (f a.value).value := rfl

@[simp] theorem log_bind {α β : Type u} (a : Logged α) (f : α → Logged β) :
    (a >>= f).log = a.log ++ (f a.value).log := rfl

instance : LawfulMonad Logged := LawfulMonad.mk'
  Logged
  (fun a => ext rfl (List.append_nil a.log))
  (fun _ _ => rfl)
  (fun a f g => ext rfl (List.append_assoc a.log (f a.value).log _))

@[simp] theorem value_map {α β : Type u} (f : α → β) (a : Logged α) :
    (f <$> a).value = f a.value := rfl

@[simp] theorem log_map {α β : Type u} (f : α → β) (a : Logged α) : (f <$> a).log = a.log := by
  simp [Functor.map]

end Logged

end PlanFusion
