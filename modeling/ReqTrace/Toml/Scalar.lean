/-
Module: ReqTrace.Toml.Scalar
Purpose: TOML strings, numbers, booleans and dates.
Main exports: Toml.readString?, Toml.readQuoted?, Toml.readPlain?
-/
import ReqTrace.Text.Digits
import ReqTrace.Toml.Value

namespace ReqTrace

namespace Toml

/-- Whether a character is a control character other than the tab. -/
def isControl (c : Char) : Bool :=
  (c < ' ' && c != '\t') || c == '\x7f'

/-- Whether a character is a space or a tab. -/
def isSpace (c : Char) : Bool :=
  c == ' ' || c == '\t'

/-- Whether a character is part of a line break, which is a line feed with or without a carriage return
    before it. -/
def isBreak (c : Char) : Bool :=
  c == '\n' || c == '\r'

/-! ### Strings -/

/-- The character whose code point is written with `width` hexadecimal digits at the start of a text. -/
def hexChar? (width : Nat) (t : Text) : Option Char := do
  let digits := t.take width
  guard (digits.length = width)
  let code ← Text.number? 16 digits
  guard (code.isValidChar)
  return Char.ofNat code

/-- What an escape stands for, given the text after its backslash, and how many characters it has. In a
    string of several lines, a backslash at the end of a line takes away the blanks and line breaks that
    follow it. -/
def readEscape? (multi : Bool) : Text → Option (Text × Nat)
  | 'b' :: _ => some (['\x08'], 1)
  | 't' :: _ => some (['\t'], 1)
  | 'n' :: _ => some (['\n'], 1)
  | 'f' :: _ => some (['\x0c'], 1)
  | 'r' :: _ => some (['\r'], 1)
  | 'e' :: _ => some (['\x1b'], 1)
  | '"' :: _ => some (['"'], 1)
  | '\\' :: _ => some (['\\'], 1)
  | 'x' :: rest => (hexChar? 2 rest).map fun c => ([c], 3)
  | 'u' :: rest => (hexChar? 4 rest).map fun c => ([c], 5)
  | 'U' :: rest => (hexChar? 8 rest).map fun c => ([c], 9)
  | t =>
      if multi && (t.dropWhile isSpace).head?.any isBreak then
        some ([], (t.takeWhile fun c => isSpace c || isBreak c).length)
      else none

/-- Reads a string after its opening quotes. `skip` characters belong to the escape before. Three quotes
    close a string of several lines, and up to two quotes right before them belong to the string. -/
def readQuotedFrom? (quote : Char) (multi : Bool) : (skip : Nat) → Text → Option (Text × Text)
  | _, [] => none
  | skip + 1, _ :: cs => readQuotedFrom? quote multi skip cs
  | 0, c :: cs =>
      if c = '\\' ∧ quote = '"' then do
        let (found, length) ← readEscape? multi cs
        let (t, rest) ← readQuotedFrom? quote multi length cs
        return (found ++ t, rest)
      else if c = quote ∧ !multi then some ([], cs)
      else if c = quote ∧ cs.take 2 = [quote, quote] then
        let extra := ((cs.drop 2).takeWhile (· == quote)).take 2
        some (extra, cs.drop (2 + extra.length))
      else if isControl c ∧ !(multi ∧ isBreak c) then none
      else do
        let (t, rest) ← readQuotedFrom? quote multi 0 cs
        return (c :: t, rest)

/-- Reads a string on one line. -/
def readQuoted? : Text → Option (Text × Text)
  | '"' :: rest => readQuotedFrom? '"' false 0 rest
  | '\'' :: rest => readQuotedFrom? '\'' false 0 rest
  | _ => none

/-- A text without a line break at its start. -/
def dropBreak : Text → Text
  | '\n' :: rest => rest
  | '\r' :: '\n' :: rest => rest
  | t => t

/-- Reads a string of either kind. A line break right after the opening quotes is not part of it. -/
def readString? : Text → Option (Text × Text)
  | '"' :: '"' :: '"' :: rest => readQuotedFrom? '"' true 0 (dropBreak rest)
  | '\'' :: '\'' :: '\'' :: rest => readQuotedFrom? '\'' true 0 (dropBreak rest)
  | t => readQuoted? t

/-! ### Numbers -/

/-- The digits of a text that holds nothing else but single underscores between them. -/
def digits? (t : Text) : Option Text :=
  let groups := t.splitOn '_'
  if groups.all (· ≠ []) then some groups.flatten else none

/-- The digits of a decimal number without leading zeros. -/
def decimalDigits? (t : Text) : Option Text := do
  let digits ← digits? t
  guard (digits.all Char.isDigit)
  guard (digits.length = 1 ∨ digits.head? ≠ some '0')
  return digits

/-- A sign, if there is one, and what follows it. -/
def cutSign : Text → Option Char × Text
  | '+' :: rest => (some '+', rest)
  | '-' :: rest => (some '-', rest)
  | t => (none, t)

/-- The digits of a number from the first one on that is not zero. -/
def significant (digits : Text) : Text :=
  digits.dropWhile (· == '0')

/-- The number that digits write, unless it has more than 64 significant digits and so needs more than
    64 bits. -/
def magnitude? (base : Nat) (digits : Text) : Option Nat := do
  guard ((significant digits).length ≤ 64)
  Text.number? base (significant digits)

/-- Integers have 64 bits, with a sign or without. -/
def integerInRange? (n : Int) : Option Value :=
  if -(Nat.pow 2 63 : Int) ≤ n ∧ n < (Nat.pow 2 64 : Int) then some (.integer n) else none

/-- Reads an integer. A base other than ten is written without a sign. -/
def integer? (t : Text) : Option Value :=
  match t with
  | '0' :: 'x' :: rest => do integerInRange? (← magnitude? 16 (← digits? rest))
  | '0' :: 'o' :: rest => do integerInRange? (← magnitude? 8 (← digits? rest))
  | '0' :: 'b' :: rest => do integerInRange? (← magnitude? 2 (← digits? rest))
  | t => do
      let (sign, rest) := cutSign t
      let magnitude ← magnitude? 10 (← decimalDigits? rest)
      integerInRange? (if sign = some '-' then -(magnitude : Int) else magnitude)

/-- The least whole number that is too large for double precision: half a step above the largest
    finite one. It has 309 digits. -/
def hugeBound : Nat :=
  Nat.pow 2 1024 - Nat.pow 2 970

/-- Whether `digits · 10 ^ exponent` is too large for double precision. With 309 digits before its point
    a number is compared with the bound without what follows the point. -/
def isHuge (digits : Text) (exponent : Int) : Bool :=
  let leading := significant digits
  let places := exponent + leading.length
  if leading = [] ∨ places < 309 then false
  else if 309 < places then true
  else (Text.number? 10 ((leading ++ List.replicate 309 '0').take 309)).any (hugeBound ≤ ·)

/-- The size of an exponent. Twenty significant digits outweigh every mantissa, so more of them are
    passed over. -/
def exponentSize? (t : Text) : Option Nat := do
  let digits ← digits? t
  guard (digits.all Char.isDigit)
  Text.number? 10 ((significant digits).take 20)

/-- Reads a number with a fraction or an exponent, or one of the two names of special numbers. -/
def float? (t : Text) : Option Value :=
  let (_, body) := cutSign t
  if body = "inf".toList ∨ body = "nan".toList then some (.float t)
  else do
    let (mantissa, exponent) :=
      match body.dropWhile fun c => c != 'e' && c != 'E' with
      | [] => (body, none)
      | _ :: after => (body.takeWhile fun c => c != 'e' && c != 'E', some after)
    let (whole, fraction) :=
      match Text.cut? '.' mantissa with
      | some (whole, fraction) => (whole, some fraction)
      | none => (mantissa, none)
    guard (fraction.isSome ∨ exponent.isSome)
    let whole ← decimalDigits? whole
    let fraction ←
      match fraction with
      | some fraction => digits? fraction
      | none => some []
    let exponent ←
      match exponent with
      | none => some (0 : Int)
      | some exponent => do
          let (sign, rest) := cutSign exponent
          let size ← exponentSize? rest
          pure (if sign = some '-' then -(size : Int) else (size : Int))
    guard ((whole ++ fraction).all Char.isDigit)
    guard (!isHuge (whole ++ fraction) (exponent - fraction.length))
    return .float t

/-! ### Dates and times -/

/-- Reads a number of `width` decimal digits that is at most `bound`. -/
def readBounded? (width low bound : Nat) (t : Text) : Option (Nat × Text) := do
  let digits := t.take width
  guard (digits.length = width)
  let n ← Text.number? 10 digits
  guard (low ≤ n ∧ n ≤ bound)
  return (n, t.drop width)

/-- The number of days of a month. -/
def daysIn (year month : Nat) : Nat :=
  if month = 2 then
    if year % 4 = 0 ∧ (year % 100 ≠ 0 ∨ year % 400 = 0) then 29 else 28
  else if month = 4 ∨ month = 6 ∨ month = 9 ∨ month = 11 then 30
  else 31

/-- Reads a date and gives what follows it. -/
def readDate? (t : Text) : Option Text := do
  let (year, rest) ← readBounded? 4 0 9999 t
  let rest ← Text.dropLead? ['-'] rest
  let (month, rest) ← readBounded? 2 1 12 rest
  let rest ← Text.dropLead? ['-'] rest
  let (_, rest) ← readBounded? 2 1 (daysIn year month) rest
  return rest

/-- Reads a time of day and gives what follows it. The seconds may be missing. -/
def readTime? (t : Text) : Option Text := do
  let (_, rest) ← readBounded? 2 0 23 t
  let rest ← Text.dropLead? [':'] rest
  let (_, rest) ← readBounded? 2 0 59 rest
  match rest with
  | ':' :: rest => do
      let (_, rest) ← readBounded? 2 0 60 rest
      match rest with
      | '.' :: rest => do
          guard (rest.head?.any Char.isDigit)
          return rest.dropWhile Char.isDigit
      | rest => return rest
  | rest => return rest

/-- Whether a text is empty or the offset of a time zone. -/
def isOffset (t : Text) : Bool :=
  match t with
  | [] => true
  | ['Z'] => true
  | ['z'] => true
  | sign :: rest =>
      (sign == '+' || sign == '-') &&
        ((do
          let (_, rest) ← readBounded? 2 0 23 rest
          let rest ← Text.dropLead? [':'] rest
          let (_, rest) ← readBounded? 2 0 59 rest
          guard (rest = [])) : Option Unit).isSome

/-- Whether a text is a date, a time of day, or both. -/
def isDate (t : Text) : Bool :=
  match readDate? t with
  | some [] => true
  | some (separator :: rest) =>
      (separator == 'T' || separator == 't' || separator == ' ') &&
        (readTime? rest).any isOffset
  | none => (readTime? t).any (· == [])

/-! ### Values without quotes or brackets -/

/-- Whether a character may stand in a number, a boolean or a date. -/
def isPlainChar (c : Char) : Bool :=
  c.isAlphanum || c == '+' || c == '-' || c == '.' || c == '_' || c == ':'

/-- The value of a plain text. -/
def plain? (t : Text) : Option Value :=
  if t = "true".toList then some (.boolean true)
  else if t = "false".toList then some (.boolean false)
  else if isDate t then some (.date t)
  else (integer? t).or (float? t)

/-- Reads a plain value. A time of day may follow a date after one space. -/
def readPlain? (t : Text) : Option (Value × Text) :=
  let first := t.takeWhile isPlainChar
  let rest := t.drop first.length
  let second := (rest.drop 1).takeWhile isPlainChar
  if rest.head? = some ' ' ∧ readDate? first = some [] ∧ second.head?.any Char.isDigit then
    (plain? (first ++ ' ' :: second)).map fun value => (value, rest.drop (1 + second.length))
  else (plain? first).map fun value => (value, rest)

end Toml

end ReqTrace
