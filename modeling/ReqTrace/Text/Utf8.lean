/-
Module: ReqTrace.Text.Utf8
Purpose: The UTF-8 encoding of texts, with strict and forgiving decoding.
Main exports: Text.utf8, Utf8.decode?, Utf8.decodeLossy
-/
import ReqTrace.Text.Basic

namespace ReqTrace

/-- A byte. -/
abbrev Byte := UInt8

namespace Text

/-- The bytes of a text. -/
def utf8 (t : Text) : List Byte :=
  t.flatMap String.utf8EncodeChar

end Text

namespace Utf8

/-- Whether a byte continues a character. -/
def isTail (b : Byte) : Bool :=
  0x80 ≤ b && b ≤ 0xBF

/-- How many bytes follow the first byte of a character, and which range the second one has to lie in.
    The ranges exclude overlong forms, surrogates and numbers beyond the last code point. -/
def shape? (b : Byte) : Option (Nat × Byte × Byte) :=
  if b < 0x80 then some (0, 0, 0)
  else if 0xC2 ≤ b ∧ b ≤ 0xDF then some (1, 0x80, 0xBF)
  else if b = 0xE0 then some (2, 0xA0, 0xBF)
  else if b = 0xED then some (2, 0x80, 0x9F)
  else if 0xE1 ≤ b ∧ b ≤ 0xEF then some (2, 0x80, 0xBF)
  else if b = 0xF0 then some (3, 0x90, 0xBF)
  else if b = 0xF4 then some (3, 0x80, 0x8F)
  else if 0xF1 ≤ b ∧ b ≤ 0xF3 then some (3, 0x80, 0xBF)
  else none

/-- The number in the low bits of a first byte. -/
def leadBits (follow : Nat) (b : Byte) : Nat :=
  if follow = 0 then b.toNat else b.toNat % Nat.pow 2 (6 - follow)

/-- Reads a character at the start of some bytes. Gives the character, or `none` for a malformed part,
    and the number of bytes after the first one that belong to it. -/
def readFirst (b : Byte) (rest : List Byte) : Option Char × Nat :=
  match shape? b with
  | none => (none, 0)
  | some (0, _) => (some (Char.ofNat b.toNat), 0)
  | some (follow, low, high) =>
      match rest with
      | [] => (none, 0)
      | second :: _ =>
          if second < low ∨ high < second then (none, 0)
          else
            let tails := (rest.take follow).takeWhile isTail
            if tails.length < follow then (none, tails.length)
            else
              let code := tails.foldl (fun code t => code * 64 + t.toNat % 64) (leadBits follow b)
              (some (Char.ofNat code), follow)

/-- The characters of some bytes, with `none` for each malformed part. The first `skip` bytes belong to
    the character before. -/
def scan : (skip : Nat) → List Byte → List (Option Char)
  | _, [] => []
  | skip + 1, _ :: rest => scan skip rest
  | 0, b :: rest =>
      let (found, follow) := readFirst b rest
      found :: scan follow rest

/-- The text of some bytes, if they are well formed. -/
def decode? (bytes : List Byte) : Option Text :=
  (scan 0 bytes).mapM id

/-- The text of some bytes, with a replacement character for each malformed part. -/
def decodeLossy (bytes : List Byte) : Text :=
  (scan 0 bytes).map (·.getD '\ufffd')

example : decode? (Text.utf8 "aé日💥".toList) = some "aé日💥".toList := by decide
example : decodeLossy [0xF0, 0x90, 0x41, 0xC0, 0x80] = "\ufffdA\ufffd\ufffd".toList := by decide
example : decode? [0xED, 0xA0, 0x80] = none := by decide

end Utf8

end ReqTrace
