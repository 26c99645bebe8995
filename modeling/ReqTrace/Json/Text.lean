/-
Module: ReqTrace.Json.Text
Purpose: JSON strings: escapes on writing and on reading.
Main exports: Json.quote, Json.readText
-/
import ReqTrace.Json.Error
import ReqTrace.Text.Digits

namespace ReqTrace

namespace Json

/-! ### Writing -/

/-- Two hexadecimal digits of a number below 256. -/
def hexPair (n : Nat) : Text :=
  [Nat.digitChar (n / 16), Nat.digitChar (n % 16)]

/-- A character inside a string. Quotes, backslashes and control characters are escaped, the common
    control characters by a letter. -/
def escapeChar (c : Char) : Text :=
  if c = '"' ∨ c = '\\' then ['\\', c]
  else if c = '\x08' then ['\\', 'b']
  else if c = '\x0c' then ['\\', 'f']
  else if c = '\n' then ['\\', 'n']
  else if c = '\r' then ['\\', 'r']
  else if c = '\t' then ['\\', 't']
  else if c < ' ' then "\\u00".toList ++ hexPair c.toNat
  else [c]

/-- A text as it stands inside quotes. -/
def escape (t : Text) : Text :=
  t.flatMap escapeChar

/-- A text in quotes. -/
def quote (t : Text) : Text :=
  '"' :: escape t ++ ['"']

/-! ### Reading -/

/-- The value of four hexadecimal digits. -/
def hexValue4? (a b c d : Char) : Option Nat :=
  Text.number? 16 [a, b, c, d]

/-- What is wrong with a text that does not start with four hexadecimal digits. The four bytes where
    they should be are read in any case. -/
def hexStop (t : Text) : Stop :=
  if Text.byteLength t < 4 then ⟨.eofInString, [], 0⟩ else ⟨.invalidEscape, t, 4⟩

/-- The character that a letter after a backslash stands for. -/
def shortEscape? : Char → Option Char
  | '"' => some '"'
  | '\\' => some '\\'
  | '/' => some '/'
  | 'b' => some '\x08'
  | 'f' => some '\x0c'
  | 'n' => some '\n'
  | 'r' => some '\r'
  | 't' => some '\t'
  | _ => none

/-- Whether a code unit is the first half of a surrogate pair. -/
def isLeading (n : Nat) : Bool :=
  0xD800 ≤ n && n ≤ 0xDBFF

/-- Whether a code unit is the second half of a surrogate pair. -/
def isTrailing (n : Nat) : Bool :=
  0xDC00 ≤ n && n ≤ 0xDFFF

/-- The character of a surrogate pair. -/
def pairChar (lead trail : Nat) : Char :=
  Char.ofNat ((lead - 0xD800) * 0x400 + (trail - 0xDC00) + 0x10000)

/-- Puts a character in front of what is read. -/
def prepend (c : Char) : Step Text → Step Text
  | .ok (t, rest) => .ok (c :: t, rest)
  | .error stop => .error stop

/-- Reads a string after its opening quote. After the escape of a leading surrogate, `lead`, the escape
    of its trailing half has to follow. -/
def readText (lead : Option Nat) : Text → Step Text
  | [] => .error ⟨.eofInString, [], 0⟩
  | ['\\'] => .error ⟨.eofInString, [], 0⟩
  | '\\' :: 'u' :: a :: b :: c :: d :: rest =>
      match hexValue4? a b c d, lead with
      | none, _ => .error (hexStop (a :: b :: c :: d :: rest))
      | some n, some lead =>
          if isTrailing n then prepend (pairChar lead n) (readText none rest)
          else .error ⟨.loneSurrogate, rest, 0⟩
      | some n, none =>
          if isTrailing n then .error ⟨.loneSurrogate, rest, 0⟩
          else if isLeading n then readText (some n) rest
          else prepend (Char.ofNat n) (readText none rest)
  | '\\' :: 'u' :: short => .error (hexStop short)
  | '\\' :: c :: rest =>
      match lead, shortEscape? c with
      | some _, _ => .error ⟨.shortHexEscape, c :: rest, 1⟩
      | none, some found => prepend found (readText none rest)
      | none, none => .error ⟨.invalidEscape, c :: rest, 1⟩
  | c :: rest =>
      if lead.isSome then .error ⟨.shortHexEscape, c :: rest, 1⟩
      else if c = '"' then .ok ([], rest)
      else if c < ' ' then .error ⟨.controlCharacter, rest, 0⟩
      else prepend c (readText none rest)

example : (readText none "a\\n\\u00e9\\ud83d\\ude00\\/\"z".toList).toOption =
    some ("a\né😀/".toList, ['z']) := by decide
example : (readText none (quote "\"\\\x00\x1f\x7f\n".toList).tail).toOption =
    some ("\"\\\x00\x1f\x7f\n".toList, []) := by decide

end Json

end ReqTrace
