/-
Numbers written in decimal: ASCII digits, at least one, after an optional sign.
-/
namespace SimpleGrammar.Text

/-- the number that decimal digits spell, `none` when other characters or no digits are given -/
def readDigits (digits : List Char) : Option Nat :=
  if digits ≠ [] ∧ digits.all Char.isDigit then
    some (digits.foldl (fun n c => 10 * n + (c.toNat - '0'.toNat)) 0)
  else none

/-- a natural number, a plus sign before it allowed -/
def readNat : List Char → Option Nat
  | '+' :: digits => readDigits digits
  | digits => readDigits digits

/-- an integer -/
def readInt : List Char → Option Int
  | '-' :: digits => (readDigits digits).map fun n => -(n : Int)
  | text => (readNat text).map Int.ofNat

end SimpleGrammar.Text
