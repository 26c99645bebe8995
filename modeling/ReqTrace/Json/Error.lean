/-
Module: ReqTrace.Json.Error
Purpose: Why a text is not the expected JSON value, and where.
Main exports: Json.Fault, Json.ReadError, Json.ReadError.message, Json.Stop, Json.Step
-/
import ReqTrace.Text.Basic

namespace ReqTrace

namespace Json

/-- What can be wrong with a JSON text. -/
inductive Fault where
  | eofInList
  | eofInObject
  | eofInString
  | eofInValue
  | expectedColon
  | expectedCommaOrEnd
  | expectedIdent
  | expectedValue
  | invalidEscape
  | invalidNumber
  | numberOutOfRange
  | controlCharacter
  | keyNotString
  | loneSurrogate
  | trailingComma
  | trailingCharacters
  | shortHexEscape
  /-- A value of another kind stands where `expected` is asked for. -/
  | invalidType (found expected : Text)
  deriving DecidableEq, Repr

/-- The wording of a fault. -/
def Fault.message : Fault → Text
  | eofInList => "EOF while parsing a list".toList
  | eofInObject => "EOF while parsing an object".toList
  | eofInString => "EOF while parsing a string".toList
  | eofInValue => "EOF while parsing a value".toList
  | expectedColon => "expected `:`".toList
  | expectedCommaOrEnd => "expected `,` or `\x7d`".toList
  | expectedIdent => "expected ident".toList
  | expectedValue => "expected value".toList
  | invalidEscape => "invalid escape".toList
  | invalidNumber => "invalid number".toList
  | numberOutOfRange => "number out of range".toList
  | controlCharacter => "control character (\\u0000-\\u001F) found while parsing a string".toList
  | keyNotString => "key must be a string".toList
  | loneSurrogate => "lone leading surrogate in hex escape".toList
  | trailingComma => "trailing comma".toList
  | trailingCharacters => "trailing characters".toList
  | shortHexEscape => "unexpected end of hex escape".toList
  | invalidType found expected =>
      "invalid type: ".toList ++ found ++ ", expected ".toList ++ expected

/-- A fault with the line it was met on and the number of bytes read on that line. -/
structure ReadError where
  fault : Fault
  line : Nat
  column : Nat
  deriving DecidableEq, Repr

/-- The wording of an error: the fault and its place. -/
def ReadError.message (e : ReadError) : Text :=
  e.fault.message ++ " at line ".toList ++ Text.decimal e.line ++ " column ".toList ++
    Text.decimal e.column

/-! ### Places

Reading goes from one rest of the text to the next, so a fault is found at a rest. Its place follows
from the whole text. -/

/-- A fault where `rest` is unread, and how many bytes of it belong to the place of the fault. -/
structure Stop where
  fault : Fault
  rest : Text
  ahead : Nat
  deriving DecidableEq, Repr

/-- What a reader finds at the start of a text and the rest of the text, or where it stops. -/
abbrev Step (α : Type) := Except Stop (α × Text)

/-- A line, counted from one, and the number of bytes before the place on that line. -/
structure Place where
  line : Nat
  column : Nat
  deriving DecidableEq, Repr

namespace Place

/-- The start of a text. -/
def start : Place := ⟨1, 0⟩

/-- The place after one more character. -/
def after (p : Place) (c : Char) : Place :=
  if c = '\n' then ⟨p.line + 1, 0⟩ else ⟨p.line, p.column + c.utf8Size⟩

/-- The place some bytes further into a text, or at its end. -/
def forward (p : Place) : Nat → Text → Place
  | 0, _ => p
  | _, [] => p
  | n, c :: cs =>
      if c.utf8Size ≤ n then (p.after c).forward (n - c.utf8Size) cs else ⟨p.line, p.column + n⟩

end Place

/-- The error of a reader that stopped in `whole`. -/
def Stop.toError (whole : Text) (s : Stop) : ReadError :=
  let read := whole.take (whole.length - s.rest.length)
  let place := (read.foldl Place.after Place.start).forward s.ahead s.rest
  { fault := s.fault, line := place.line, column := place.column }

end Json

end ReqTrace
