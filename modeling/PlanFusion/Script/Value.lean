/-!
# PlanFusion — values of scripts

A script has one type of elements: `Value` is null, a truth value, an integer of 64 bits, a string,
or a list of values. Equality of values is decidable, and evaluates.
-/

namespace PlanFusion.Script

/-- An element of a list that a script feeds to a plan. -/
inductive Value where
  | null
  | bool (b : Bool)
  | int (n : Int64)
  | str (s : String)
  | list (items : List Value)

namespace Value

mutual

/-- Equality of values, as a test. -/
def same : Value → Value → Bool
  | null, null => true
  | bool a, bool b => a == b
  | int a, int b => a == b
  | str a, str b => a == b
  | list as, list bs => sameItems as bs
  | _, _ => false

/-- Equality of lists of values, as a test. -/
def sameItems : List Value → List Value → Bool
  | [], [] => true
  | a :: as, b :: bs => same a b && sameItems as bs
  | _, _ => false

end

mutual

theorem same_iff : (a b : Value) → (same a b = true ↔ a = b)
  | null, b => by cases b <;> simp [same]
  | bool a, b => by cases b <;> simp [same]
  | int a, b => by cases b <;> simp [same]
  | str a, b => by cases b <;> simp [same]
  | list as, b => by
    cases b with
    | list bs => simp [same, sameItems_iff as bs]
    | _ => simp [same]

theorem sameItems_iff : (as bs : List Value) → (sameItems as bs = true ↔ as = bs)
  | [], bs => by cases bs <;> simp [sameItems]
  | a :: as, bs => by
    cases bs with
    | nil => simp [sameItems]
    | cons b bs => simp [sameItems, same_iff a b, sameItems_iff as bs]

end

instance : DecidableEq Value := fun a b =>
  decidable_of_iff (same a b = true) (same_iff a b)

/-- The integers from `a` on, below `b`. -/
def range (a b : Int64) : List Value :=
  (List.range (b.toInt - a.toInt).toNat).map fun i => int (a + Int64.ofNat i)

end Value

end PlanFusion.Script
