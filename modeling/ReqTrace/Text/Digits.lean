/-
Module: ReqTrace.Text.Digits
Purpose: Digits and the numbers that they write.
Main exports: Digit.value, Digit.hex?, Digit.number, Text.number?, Text.count?
-/
import ReqTrace.Text.Basic

namespace ReqTrace

namespace Digit

/-- The value of a decimal digit. -/
def value (c : Char) : Nat :=
  c.toNat - '0'.toNat

/-- The value of a hexadecimal digit in either case. -/
def hex? (c : Char) : Option Nat :=
  if c.isDigit then some (value c)
  else if 'a' ≤ c ∧ c ≤ 'f' then some (c.toNat - 'a'.toNat + 10)
  else if 'A' ≤ c ∧ c ≤ 'F' then some (c.toNat - 'A'.toNat + 10)
  else none

/-- The number whose digits have given values, the most significant one first. -/
def number (base : Nat) (values : List Nat) : Nat :=
  values.foldl (fun n v => n * base + v) 0

end Digit

namespace Text

/-- The number that digits write in a base of at most sixteen. No digits write zero. -/
def number? (base : Nat) (t : Text) : Option Nat := do
  let values ← t.mapM Digit.hex?
  guard (values.all (· < base))
  return Digit.number base values

/-- The count that a text writes: decimal digits, with a plus sign or without, below `2 ^ 64`. -/
def count? (t : Text) : Option Nat := do
  let digits := (dropLead? ['+'] t).getD t
  guard (digits ≠ [])
  let n ← number? 10 digits
  guard (n < Nat.pow 2 64)
  return n

example : number? 16 "fF".toList = some 255 := by decide
example : number? 8 "18".toList = none := by decide
example : count? "+007".toList = some 7 := by decide
example : ["", "+", "-1", "1a", "18446744073709551616"].map (count? ·.toList) =
    [none, none, none, none, none] := by decide

end Text

end ReqTrace
