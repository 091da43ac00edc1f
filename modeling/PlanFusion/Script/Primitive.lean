import PlanFusion.Script.Fault
import PlanFusion.Text.Integer

/-!
# PlanFusion — primitive operations of scripts

The operations that need nothing but the values of their operands. Arithmetic is that of 64 bits:
results wrap around, division goes toward zero, and a remainder has the sign of the dividend. On
operands of other types than those listed an operation is a type mismatch under its own name.
-/

namespace PlanFusion.Script

/-- Operations on one value. -/
inductive Unary where
  | not
  | len
  | rev
  | chars
  | upper
  | str
  | parse
  deriving DecidableEq, Repr

/-- Operations on two values. -/
inductive Binary where
  | add
  | sub
  | mul
  | div
  | mod
  | eq
  | ne
  | lt
  | le
  | gt
  | ge
  | rep
  | range
  | cat
  | nth
  deriving DecidableEq, Repr

namespace Unary

def name : Unary → String
  | not => "not"
  | len => "len"
  | rev => "rev"
  | chars => "chars"
  | upper => "upper"
  | str => "str"
  | parse => "parse"

/-- The integer that a string writes, or null if there is none or it needs more than 64 bits. -/
def parseInt (s : String) : Value :=
  match Text.Integer.decode s.toList with
  | some n =>
    if Int64.minValue.toInt ≤ n ∧ n ≤ Int64.maxValue.toInt then .int (Int64.ofInt n) else .null
  | none => .null

/-- A string is as long as it has characters, and only the letters of ASCII change case. -/
def apply : Unary → Value → Except Fault Value
  | not, .bool b => .ok (.bool !b)
  | len, .list xs => .ok (.int (Int64.ofNat xs.length))
  | len, .str s => .ok (.int (Int64.ofNat s.length))
  | rev, .list xs => .ok (.list xs.reverse)
  | chars, .str s => .ok (.list (s.toList.map fun c => .str (String.singleton c)))
  | upper, .str s => .ok (.str (s.map Char.toUpper))
  | str, .int n => .ok (.str (toString n.toInt))
  | str, .str s => .ok (.str s)
  | parse, .str s => .ok (parseInt s)
  | op, _ => .error (.typeMismatch op.name)

end Unary

namespace Binary

def name : Binary → String
  | add => "add"
  | sub => "sub"
  | mul => "mul"
  | div => "div"
  | mod => "mod"
  | eq => "eq"
  | ne => "ne"
  | lt => "lt"
  | le => "le"
  | gt => "gt"
  | ge => "ge"
  | rep => "rep"
  | range => "range"
  | cat => "cat"
  | nth => "nth"

/-- The element at position `i` from zero on, or null where there is none. -/
def element (xs : List Value) (i : Int64) : Value :=
  if i < 0 then .null else xs[i.toInt.toNat]?.getD .null

/-- Equality is that of values of any types; order is that of integers. -/
def apply : Binary → Value → Value → Except Fault Value
  | add, .int a, .int b => .ok (.int (a + b))
  | sub, .int a, .int b => .ok (.int (a - b))
  | mul, .int a, .int b => .ok (.int (a * b))
  | div, .int a, .int b => if b = 0 then .error .divisionByZero else .ok (.int (a / b))
  | mod, .int a, .int b => if b = 0 then .error .divisionByZero else .ok (.int (a % b))
  | eq, a, b => .ok (.bool (decide (a = b)))
  | ne, a, b => .ok (.bool (decide (a ≠ b)))
  | lt, .int a, .int b => .ok (.bool (decide (a < b)))
  | le, .int a, .int b => .ok (.bool (decide (a ≤ b)))
  | gt, .int a, .int b => .ok (.bool (decide (b < a)))
  | ge, .int a, .int b => .ok (.bool (decide (b ≤ a)))
  | rep, v, .int n => .ok (.list (List.replicate n.toInt.toNat v))
  | range, .int a, .int b => .ok (.list (Value.range a b))
  | cat, .list xs, .list ys => .ok (.list (xs ++ ys))
  | cat, .str s, .str t => .ok (.str (s ++ t))
  | nth, .list xs, .int i => .ok (element xs i)
  | op, _, _ => .error (.typeMismatch op.name)

end Binary

end PlanFusion.Script
