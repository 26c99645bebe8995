/-
Module: ReqTrace.Url.Punycode
Purpose: Punycode, which writes the labels of domain names with ASCII letters and digits only.
Main exports: Punycode.encode, Punycode.decode?
-/
import ReqTrace.Text.Basic

namespace ReqTrace

namespace Punycode

/-! ### Parameters

The numbers are those of the standard: base 36, thresholds between 1 and 26, skew 38, damping 700 for the
first difference, and 72 as the first bias. -/

/-- The digit for a value below 36. -/
def digit (n : Nat) : Char :=
  if n < 26 then Char.ofNat ('a'.toNat + n) else Char.ofNat ('0'.toNat + (n - 26))

/-- The value of a digit. -/
def value? (c : Char) : Option Nat :=
  if 'a' ≤ c ∧ c ≤ 'z' then some (c.toNat - 'a'.toNat)
  else if 'A' ≤ c ∧ c ≤ 'Z' then some (c.toNat - 'A'.toNat)
  else if c.isDigit then some (c.toNat - '0'.toNat + 26)
  else none

/-- The threshold of the digit of weight number `k`. -/
def threshold (k bias : Nat) : Nat :=
  min 26 (max 1 (k - bias))

/-- Scales a difference down to the range in which the bias is read off. -/
def scaleDown (k delta : Nat) : Nat :=
  if delta ≤ 455 then k + 36 * delta / (delta + 38) else scaleDown (k + 36) (delta / 35)
termination_by delta

/-- The bias after a difference has been written, with `points` code points written so far. -/
def adapt (delta points : Nat) (first : Bool) : Nat :=
  let delta := if first then delta / 700 else delta / 2
  scaleDown 0 (delta + delta / points)

/-! ### Encoding -/

/-- The digits of a number. Each digit but the last one divides the number, so `fuel` need not exceed
    it. -/
def writeNumber : (fuel k bias n : Nat) → Text
  | 0, _, _, _ => []
  | fuel + 1, k, bias, n =>
      let t := threshold k bias
      if n < t then [digit n]
      else digit (t + (n - t) % (36 - t)) :: writeNumber fuel (k + 36) bias ((n - t) / (36 - t))

/-- What is written so far, the difference that is pending, the bias, and the number of code points
    that are written. -/
structure State where
  written : Text
  delta : Nat
  bias : Nat
  handled : Nat

/-- Passes over a code point of the label while those equal to `n` are written; `basic` code points have
    been written first. -/
def step (basic n : Nat) (s : State) (c : Nat) : State :=
  if c < n then { s with delta := s.delta + 1 }
  else if c = n then
    { written := s.written ++ writeNumber (s.delta + 1) 36 s.bias s.delta
      delta := 0
      bias := adapt s.delta (s.handled + 1) (s.handled == basic)
      handled := s.handled + 1 }
  else s

/-- Writes all code points equal to `n`; the ones up to `before` have been written. -/
def round (basic : Nat) (codes : List Nat) (before n : Nat) (s : State) : State :=
  codes.foldl (step basic n) { s with delta := s.delta + (n - before) * (s.handled + 1) }

/-- Writes all code points of a list of further ones in ascending order. -/
def rounds (basic : Nat) (codes : List Nat) : (before : Nat) → List Nat → State → State
  | _, [], s => s
  | before, n :: ns, s =>
      let s := round basic codes before n s
      rounds basic codes (n + 1) ns { s with delta := s.delta + 1 }

/-- A label in ASCII: the ASCII characters, a hyphen after them, and the others as differences. -/
def encode (label : Text) : Text :=
  let codes := label.map Char.toNat
  let basic := label.filter (·.toNat < 128)
  let others := (codes.filter (128 ≤ ·)).mergeSort.eraseDups
  let written := if basic = [] then [] else basic ++ ['-']
  (rounds basic.length codes 128 others ⟨written, 0, 72, basic.length⟩).written

/-! ### Decoding -/

/-- Reads a number; `weight` is the weight of the next digit. -/
def readNumber? (n weight k bias : Nat) : Text → Option (Nat × Text)
  | [] => none
  | c :: rest => do
      let d ← value? c
      let t := threshold k bias
      if d < t then return (n + d * weight, rest)
      else readNumber? (n + d * weight) (weight * (36 - t)) (k + 36) bias rest

/-- Reads differences and enters the code points that they stand for. Each takes at least one character,
    so `fuel` need not exceed the length of the text. -/
def readAll? : (fuel n i bias : Nat) → (label : Text) → Text → Option Text
  | _, _, _, _, label, [] => some label
  | 0, _, _, _, _, _ => none
  | fuel + 1, n, i, bias, label, t => do
      let (delta, rest) ← readNumber? 0 1 36 bias t
      let points := label.length + 1
      let n := n + (i + delta) / points
      let place := (i + delta) % points
      guard n.isValidChar
      readAll? fuel n (place + 1) (adapt delta points (i == 0)) (label.insertIdx place (Char.ofNat n))
        rest

/-- The label that a text encodes, if there is one. -/
def decode? (t : Text) : Option Text :=
  let tail := (t.reverse.takeWhile (· != '-')).reverse
  let basic := t.take (t.length - tail.length - 1)
  if t.all (·.toNat < 128) then
    if basic = [] then readAll? t.length 128 0 72 [] t else readAll? t.length 128 0 72 basic tail
  else none

example : encode "bücher".toList = "bcher-kva".toList := by decide +kernel
example : encode "日本語".toList = "wgv71a119e".toList := by cbv
example : decode? "bcher-kva".toList = some "bücher".toList := by decide +kernel
example : decode? "wgv71a119e".toList = some "日本語".toList := by decide +kernel

end Punycode

end ReqTrace
