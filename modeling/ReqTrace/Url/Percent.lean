/-
Module: ReqTrace.Url.Percent
Purpose: Percent-encoding and the classes of characters that each part of a URL encodes.
Main exports: Percent.encode, Percent.decode?, Percent.inPath, Percent.inSegment, Percent.inQuery,
  Percent.inFragment, Percent.inOpaqueHost
-/
import ReqTrace.Text.Digits
import ReqTrace.Text.Utf8

namespace ReqTrace

namespace Percent

/-! ### Encoding -/

/-- A byte as a percent sign and two hexadecimal digits in upper case. -/
def byte (b : Byte) : Text :=
  ['%', (Nat.digitChar (b.toNat / 16)).toUpper, (Nat.digitChar (b.toNat % 16)).toUpper]

/-- A character as it is, or the bytes of its encoding if it is of class `p`. -/
def encodeChar (p : Char → Bool) (c : Char) : Text :=
  if p c then (String.utf8EncodeChar c).flatMap byte else [c]

/-- A text with the characters of class `p` encoded. -/
def encode (p : Char → Bool) (t : Text) : Text :=
  t.flatMap (encodeChar p)

/-! ### Decoding -/

/-- The bytes of a text after percent-decoding. A percent sign without two digits stands for itself. -/
def decodeBytes : Text → List Byte
  | [] => []
  | '%' :: a :: b :: rest =>
      match Digit.hex? a, Digit.hex? b with
      | some high, some low => (high * 16 + low).toUInt8 :: decodeBytes rest
      | _, _ => String.utf8EncodeChar '%' ++ decodeBytes (a :: b :: rest)
  | c :: rest => String.utf8EncodeChar c ++ decodeBytes rest

/-- The text that a text encodes, if its bytes are well formed. -/
def decode? (t : Text) : Option Text :=
  Utf8.decode? (decodeBytes t)

/-! ### What is encoded where -/

/-- Everywhere, control characters and everything outside of ASCII are encoded. -/
def isControlOrWide (c : Char) : Bool :=
  c < ' ' || '~' < c

/-- The characters that are encoded in a host without rules of its own. -/
def inOpaqueHost (c : Char) : Bool :=
  isControlOrWide c

/-- The characters that are encoded in a fragment. -/
def inFragment (c : Char) : Bool :=
  isControlOrWide c || c == ' ' || c == '"' || c == '<' || c == '>' || c.toNat == 0x60

/-- The characters that are encoded in the query of a web URL. -/
def inQuery (c : Char) : Bool :=
  isControlOrWide c || c == ' ' || c == '"' || c == '#' || c == '<' || c == '>' || c == '\''

/-- The characters that are encoded in a path that is read from a URL. -/
def inPath (c : Char) : Bool :=
  inFragment c || c == '#' || c == '?' || c == '{' || c == '}'

/-- The characters that are encoded in a segment that is added to the path of a web URL. -/
def inSegment (c : Char) : Bool :=
  inPath c || c == '/' || c == '%' || c == '\\'

example : encode inSegment "a b%/é(".toList = "a%20b%25%2F%C3%A9(".toList := by decide
example : decode? "a%20b%25%2F%C3%A9(%".toList = some "a b%/é(%".toList := by decide

end Percent

end ReqTrace
