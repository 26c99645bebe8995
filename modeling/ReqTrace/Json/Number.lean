/-
Module: ReqTrace.Json.Number
Purpose: JSON numbers: whole numbers of 64 bits and, for all others, numbers of double precision.
Main exports: Json.Number, Json.readNumber, Json.Number.text
-/
import ReqTrace.Json.Error
import ReqTrace.Text.Digits
import ReqTrace.Decimal.Shortest

namespace ReqTrace

namespace Json

/-- A number as it is held after reading. -/
inductive Number where
  | natural (n : Nat)
  /-- The number below zero with magnitude `n`. -/
  | negative (n : Nat)
  | float (x : Float)

/-! ### Reading -/

/-- Appends leading digits of a text to a significand as long as it fits into 64 bits; says how many
    were taken and what is left. -/
def absorb (significand taken : Nat) : Text → Nat × Nat × Text
  | [] => (significand, taken, [])
  | c :: cs =>
      if c.isDigit ∧ significand * 10 + Digit.value c < Nat.pow 2 64 then
        absorb (significand * 10 + Digit.value c) (taken + 1) cs
      else (significand, taken, c :: cs)

/-- Whether a text starts with a digit. -/
def startsWithDigit (t : Text) : Bool :=
  t.head?.any Char.isDigit

/-- A number divided by a power of ten, in steps that double precision can hold. -/
def scaleDown (x : Float) (e : Nat) : Float :=
  if e ≤ 308 then x / Float.ofScientific 1 false e
  else if x == 0 then x
  else scaleDown (x / Float.ofScientific 1 false 308) (e - 308)
termination_by e

/-- The number `significand · 10 ^ e` in double precision; `rest` is the text after it. -/
def toFloat (positive : Bool) (significand : Nat) (e : Int) (rest : Text) : Step Number :=
  let sign (x : Float) : Number := .float (if positive then x else -x)
  let x := Float.ofScientific significand false 0
  if e < 0 then .ok (sign (scaleDown x e.natAbs), rest)
  else if e ≤ 308 then
    let y := x * Float.ofScientific 1 false e.natAbs
    if y.isInf then .error ⟨.numberOutOfRange, rest, 0⟩ else .ok (sign y, rest)
  else if significand = 0 then .ok (sign x, rest)
  else .error ⟨.numberOutOfRange, rest, 0⟩

/-- Reads the digits of an exponent. One that needs more than 31 bits gives the text after the digit
    that is too many instead. -/
def absorbExponent (e : Nat) : Text → Except Text (Nat × Text)
  | [] => .ok (e, [])
  | c :: cs =>
      if c.isDigit then
        if e * 10 + Digit.value c < Nat.pow 2 31 then absorbExponent (e * 10 + Digit.value c) cs
        else .error cs
      else .ok (e, c :: cs)

/-- Reads an exponent after its letter. -/
def readExponent (positive : Bool) (significand : Nat) (before : Int) (t : Text) : Step Number :=
  let (upwards, digits) :=
    match t with
    | '+' :: rest => (true, rest)
    | '-' :: rest => (false, rest)
    | _ => (true, t)
  if digits = [] then .error ⟨.eofInValue, [], 0⟩
  else if !startsWithDigit digits then .error ⟨.invalidNumber, digits, 1⟩
  else
    match absorbExponent 0 digits with
    | .ok (e, rest) => toFloat positive significand (if upwards then before + e else before - e) rest
    | .error rest =>
        if upwards ∧ significand ≠ 0 then .error ⟨.numberOutOfRange, rest, 0⟩
        else .ok (.float (if positive then 0 else -0), rest.dropWhile Char.isDigit)

/-- Reads an exponent if there is one. -/
def readExponent? (positive : Bool) (significand : Nat) (before : Int) : Text → Step Number
  | 'e' :: rest => readExponent positive significand before rest
  | 'E' :: rest => readExponent positive significand before rest
  | rest => toFloat positive significand before rest

/-- Reads the digits after a decimal point. Digits that do not fit are passed over. -/
def readFraction (positive : Bool) (significand : Nat) (before : Int) (t : Text) : Step Number :=
  let (significand, taken, rest) := absorb significand 0 t
  if taken = 0 ∧ !startsWithDigit rest then
    .error ⟨if rest = [] then .eofInValue else .invalidNumber, rest, 1⟩
  else readExponent? positive significand (before - taken) (rest.dropWhile Char.isDigit)

/-- Reads a number after its sign. A zero is not followed by another digit. Digits before the point
    that do not fit count as powers of ten. -/
def readNumber (positive : Bool) : Text → Step Number
  | [] => .error ⟨.eofInValue, [], 0⟩
  | first :: others =>
      if !first.isDigit then .error ⟨.invalidNumber, first :: others, 1⟩
      else if first = '0' ∧ startsWithDigit others then .error ⟨.invalidNumber, others, 1⟩
      else
        let (significand, _, rest) := absorb 0 0 (first :: others)
        let excess := rest.takeWhile Char.isDigit
        match rest.dropWhile Char.isDigit with
        | '.' :: rest => readFraction positive significand excess.length rest
        | rest =>
            if excess ≠ [] ∨ rest.head? = some 'e' ∨ rest.head? = some 'E' then
              readExponent? positive significand excess.length rest
            else if positive then .ok (.natural significand, rest)
            else if significand = 0 ∨ Nat.pow 2 63 < significand then
              toFloat false significand 0 rest
            else .ok (.negative significand, rest)

/-! ### Writing -/

/-- Writes a decimal: positional notation if the first digit stands for `10 ^ -5` to `10 ^ 15`, and
    else one digit before the point and a signed exponent. -/
def decimalText (d : Decimal) : Text :=
  let digits := Text.decimal d.digits
  let exponent := d.exponent + digits.length - 1
  if d.digits = 0 then "0.0".toList
  else if 0 ≤ exponent ∧ exponent ≤ 15 then
    let whole := exponent.toNat + 1
    let fraction := digits.drop whole
    digits.take whole ++ List.replicate (whole - digits.length) '0' ++
      '.' :: (if fraction = [] then ['0'] else fraction)
  else if -5 ≤ exponent ∧ exponent < 0 then
    "0.".toList ++ List.replicate (-exponent - 1).toNat '0' ++ digits
  else
    let fraction := digits.drop 1
    digits.take 1 ++ (if fraction = [] then [] else '.' :: fraction) ++
      (if exponent < 0 then "e-".toList else "e+".toList) ++ Text.decimal exponent.natAbs

/-- Writes a number of double precision with the fewest digits that read back. -/
def floatText (x : Float) : Text :=
  let sign := if Nat.pow 2 63 ≤ x.toBits.toNat then ['-'] else []
  let magnitude := Binary.ofFloat x
  sign ++ decimalText (if magnitude.mantissa = 0 then ⟨0, 0⟩ else magnitude.shortest)

/-- How a number is called in an error message. -/
def Number.text : Number → Text
  | natural n => "integer `".toList ++ Text.decimal n ++ ['`']
  | negative n => "integer `-".toList ++ Text.decimal n ++ ['`']
  | float x => "floating point `".toList ++ floatText x ++ ['`']

end Json

end ReqTrace
