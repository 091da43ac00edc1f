import PlanFusion.Text.Extending
import PlanFusion.Text.Unprintable

/-!
# PlanFusion — quoted text

A diagnostic shows a string between double quotes. `encode` escapes what a reader could not tell
apart otherwise:

* the quote and the backslash, each behind a backslash;
* newline, tab, carriage return and NUL by their usual letters;
* every other character that cannot be printed, and every mark that attaches to the character before
  it, by its code in hexadecimal, `\u{1b}`.
-/

namespace PlanFusion.Text.Quoted

/-- Characters that a reader cannot see for themselves. -/
def isHidden (c : Char) : Bool :=
  extendingMarks.holds c || unprintable.holds c

/-- The written form of one character. -/
def encodeChar (c : Char) : List Char :=
  match c with
  | '"' => ['\\', '"']
  | '\\' => ['\\', '\\']
  | '\n' => ['\\', 'n']
  | '\t' => ['\\', 't']
  | '\r' => ['\\', 'r']
  | '\x00' => ['\\', '0']
  | c =>
    if isHidden c then
      ['\\', 'u', '\x7b'] ++ Nat.toDigits 16 c.toNat ++ ['\x7d']
    else [c]

/-- The string between quotes, with every character in its written form. -/
def encode (s : String) : String :=
  String.ofList ('"' :: (s.toList.flatMap encodeChar ++ ['"']))

end PlanFusion.Text.Quoted
