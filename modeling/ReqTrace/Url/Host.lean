/-
Module: ReqTrace.Url.Host
Purpose: Hosts of URLs: names, numbers and bracketed addresses, each in its one written form.
Main exports: Host.ofWeb?, Host.ofOpaque?
-/
import ReqTrace.Url.Domain
import ReqTrace.Url.Percent

namespace ReqTrace

namespace Host

/-! ### Numbers

A host whose last part is a number is an address of four bytes. Its parts may be decimal, octal after a
zero, or hexadecimal after `0x`. The last part fills the bytes that are left. -/

/-- The number that a part of an address is. A mark of the base alone is zero. -/
def partNumber? (t : Text) : Option Nat :=
  match t with
  | [] => none
  | '0' :: 'x' :: rest => Text.number? 16 rest
  | '0' :: 'X' :: rest => Text.number? 16 rest
  | '0' :: rest => Text.number? 8 rest
  | t => Text.number? 10 t

/-- The parts between the dots of a name, without an empty one after a final dot. -/
def addressParts (name : Text) : List Text :=
  let parts := name.splitOn '.'
  if parts.getLast? = some [] then parts.dropLast else parts

/-- Whether the last part of a name is a number. -/
def endsInNumber (name : Text) : Bool :=
  match (addressParts name).getLast? with
  | none => false
  | some last => (!last.isEmpty && last.all Char.isDigit) || (partNumber? last).isSome

/-- The four bytes of an address. -/
def address4? (name : Text) : Option Nat := do
  let numbers ← (addressParts name).mapM partNumber?
  let last ← numbers.getLast?
  let leading := numbers.dropLast
  guard (leading.length ≤ 3)
  guard (leading.all (· < 256) ∧ last < Nat.pow 256 (4 - leading.length))
  return leading.foldr (fun byte n => byte * Nat.pow 256 3 + n / 256) 0 + last

/-- Writes an address of four bytes. -/
def writeAddress4 (n : Nat) : Text :=
  let bytes := [n / Nat.pow 256 3, n / Nat.pow 256 2, n / 256, n].map (· % 256)
  Text.join ['.'] (bytes.map Text.decimal)

/-! ### Bracketed addresses

An address of eight pieces of sixteen bits. Two colons stand for a row of zeros, once, and the last two
pieces may be written as four bytes. -/

/-- The value of a piece of one to four hexadecimal digits. -/
def piece? (t : Text) : Option Nat := do
  guard (1 ≤ t.length ∧ t.length ≤ 4)
  Text.number? 16 t

/-- A byte in decimal without leading zeros. -/
def decimalByte? (t : Text) : Option Nat := do
  guard (t.all Char.isDigit ∧ t ≠ [] ∧ (t.length = 1 ∨ t.head? ≠ some '0'))
  let n ← Text.number? 10 t
  guard (n < 256)
  return n

/-- The two pieces that four bytes make up. -/
def bytePieces? (t : Text) : Option (List Nat) := do
  match ← (t.splitOn '.').mapM decimalByte? with
  | [a, b, c, d] => some [a * 256 + b, c * 256 + d]
  | _ => none

/-- The pieces between single colons; `last` says whether they end the address. -/
def pieces? (last : Bool) (t : Text) : Option (List Nat) :=
  if t = [] then some []
  else do
    let parts := t.splitOn ':'
    let before ← parts.dropLast.mapM piece?
    let final ← parts.getLast?
    if last ∧ '.' ∈ final then return before ++ (← bytePieces? final)
    else return before ++ [← piece? final]

/-- The parts around the first two colons. -/
def cutColons? : Text → Option (Text × Text)
  | ':' :: ':' :: rest => some ([], rest)
  | c :: rest => (cutColons? rest).map fun (before, after) => (c :: before, after)
  | [] => none

/-- The eight pieces of an address. -/
def address6? (t : Text) : Option (List Nat) := do
  match cutColons? t with
  | none => do
      let pieces ← pieces? true t
      guard (pieces.length = 8)
      return pieces
  | some (before, after) => do
      let left ← pieces? false before
      let right ← pieces? true after
      guard (left.length + right.length ≤ 7)
      return left ++ List.replicate (8 - left.length - right.length) 0 ++ right

/-- How many zeros start a list. -/
def zeroRun (pieces : List Nat) : Nat :=
  (pieces.takeWhile (· == 0)).length

/-- The place and the length of the longest row of zeros, the first one of several; `(0, 0)` if there is
    none. -/
def longestRun (pieces : List Nat) : Nat × Nat :=
  (List.range pieces.length).foldl
    (fun best i =>
      let run := zeroRun (pieces.drop i)
      if best.2 < run then (i, run) else best) (0, 0)

/-- Pieces in hexadecimal with single colons between them. -/
def writePieces (pieces : List Nat) : Text :=
  Text.join [':'] (pieces.map (Nat.toDigits 16))

/-- Writes an address of eight pieces. Two colons replace the longest row of at least two zeros. -/
def writeAddress6 (pieces : List Nat) : Text :=
  let (start, length) := longestRun pieces
  if length < 2 then writePieces pieces
  else writePieces (pieces.take start) ++ "::".toList ++ writePieces (pieces.drop (start + length))

/-- The written form of a bracketed address, given from its opening bracket on. -/
def bracketed? (t : Text) : Option Text := do
  let inner ← Text.dropTail? [']'] (t.drop 1)
  let pieces ← address6? inner
  return '[' :: writeAddress6 pieces ++ [']']

/-! ### Hosts -/

/-- The written form of the host of a web URL. -/
def ofWeb? (t : Text) : Option Text :=
  if t.head? = some '[' then bracketed? t
  else do
    let decoded ← Percent.decode? t
    let name ← Domain.write? decoded
    guard (name ≠ [])
    if endsInNumber name then (address4? name).map writeAddress4 else some name

/-- The characters that a host without rules of its own does not hold. -/
def isForbiddenOpaque (c : Char) : Bool :=
  c == '\x00' || "\t\n\r #/:<>?@[\\]^|".toList.contains c

/-- The written form of the host of a URL of another kind. -/
def ofOpaque? (t : Text) : Option Text :=
  if t.head? = some '[' then bracketed? t
  else if t = [] ∨ t.any isForbiddenOpaque then none
  else some (Percent.encode Percent.inOpaqueHost t)

end Host

end ReqTrace
