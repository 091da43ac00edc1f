/-!
# PlanFusion — integers in text

`decode` reads a decimal integer: an optional sign, then at least one ASCII digit, and nothing
else. It has no limit; whoever needs one checks the number.
-/

namespace PlanFusion.Text.Integer

/-- The number that a list of digits writes, most significant digit first. -/
def ofDigits (digits : List Char) : Nat :=
  digits.foldl (fun n c => 10 * n + (c.toNat - '0'.toNat)) 0

/-- A number without a sign. -/
def decodeNat (digits : List Char) : Option Nat :=
  if !digits.isEmpty && digits.all Char.isDigit then some (ofDigits digits) else none

/-- A number with or without a sign. -/
def decode : List Char → Option Int
  | '+' :: digits => (decodeNat digits).map fun n => n
  | '-' :: digits => (decodeNat digits).map fun n => -n
  | digits => (decodeNat digits).map fun n => n

end PlanFusion.Text.Integer
