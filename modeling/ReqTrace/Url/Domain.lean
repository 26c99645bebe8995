/-
Module: ReqTrace.Url.Domain
Purpose: Domain names in their one written form, which is in ASCII.
Main exports: Domain.Label, Domain.readLabel?, Domain.write?
-/
import ReqTrace.Text.Composition
import ReqTrace.Text.Direction
import ReqTrace.Text.Folding
import ReqTrace.Text.Joining
import ReqTrace.Url.Punycode

namespace ReqTrace

namespace Domain

/-- The ASCII characters that no domain name holds. -/
def isForbidden (c : Char) : Bool :=
  c ≤ ' ' || c == '\x7f' || "%#/:<>?@[\\]^|".toList.contains c

/-- Whether a text holds ASCII characters only. -/
def isAscii (t : Text) : Bool :=
  t.all (·.toNat < 128)

/-! ### Labels

A label outside of ASCII is in one form, in which it is compared. It does not start with a mark, and it
holds joiners only where a script needs them. -/

/-- Whether a label is the same after folding and composing. -/
def isNormal (label : Text) : Bool :=
  Text.fold? label == some label && Text.compose label == label

/-- Whether a character is the sign that takes away the vowel of a letter. -/
def isVirama (c : Char) : Bool :=
  combiningClass c == 9

/-- Whether the first character across which letters are not joined is of class `p`. -/
def reaches (p : Char → Bool) (t : Text) : Bool :=
  (t.dropWhile isJoiningTransparent).head?.any p

/-- Whether a character may stand between the text before it, in reverse, and the text after it: a joiner
    follows a virama, and a non-joiner may also part two letters that would be joined. -/
def joinerFits (before : Text) (c : Char) (after : Text) : Bool :=
  !isJoiner c || before.head?.any isVirama ||
    (c == '\u200c' && reaches joinsAfter before && reaches joinsBefore after)

/-- Whether all joiners of a label are in their places; `before` is what stands before it, in reverse. -/
def joinersFit (before : Text) : Text → Bool
  | [] => true
  | c :: after => joinerFits before c after && joinersFit (c :: before) after

/-- The most characters of a label outside of ASCII. -/
def maxLength : Nat := 1000

/-- The most characters of a label in Punycode, without the mark of Punycode. -/
def maxCodeLength : Nat := 2000

/-- Whether a label outside of ASCII may be part of a name. -/
def isProper (label : Text) : Bool :=
  isNormal label && !label.head?.any isMark && joinersFit [] label && label.length ≤ maxLength

/-- The start of a label that is written in Punycode. -/
def punycodeMark : Text := "xn--".toList

/-- A label of a name: what it stands for and how it is written. -/
structure Label where
  shown : Text
  written : Text
deriving DecidableEq, Repr

/-- Reads a label that is folded and composed. One in Punycode has to stand for a label outside of ASCII
    and is written as it is. -/
def readLabel? (label : Text) : Option Label := do
  match Text.dropLead? punycodeMark label with
  | some code =>
      guard (isAscii label ∧ code.length ≤ maxCodeLength)
      let shown ← Punycode.decode? code
      guard (!isAscii shown ∧ isProper shown)
      return ⟨shown, label⟩
  | none =>
      if isAscii label then return ⟨label, label⟩
      guard (isProper label)
      return ⟨label, punycodeMark ++ Punycode.encode label⟩

/-! ### Directions

A name with characters that are written from right to left must be read in one way only. So each of its
labels starts with a letter, keeps to the direction of that letter, and ends with a letter or a number,
apart from marks. -/

/-- Whether a character makes a name one that is partly written from right to left. -/
def turns (d : Direction) : Bool :=
  d == .rightToLeft || d == .arabicNumber

/-- Whether a label keeps to one direction, given the directions of its characters. -/
def keepsDirection : List Direction → Bool
  | [] => true
  | first :: rest =>
      let body := (rest.reverse.dropWhile (· == .mark)).reverse
      match first with
      | .leftToRight =>
          !body.any turns && body.getLast?.all fun d => d == .leftToRight || d == .europeanNumber
      | .rightToLeft =>
          !body.contains .leftToRight && body.getLast?.all (fun d => turns d || d == .europeanNumber) &&
            !(body.contains .europeanNumber && body.contains .arabicNumber)
      | _ => false

/-- Whether the labels of a name can be shown side by side. -/
def keepDirections (labels : List Text) : Bool :=
  let directions := labels.map (·.map Direction.ofChar)
  !directions.any (·.any turns) || directions.all keepsDirection

/-! ### Names -/

/-- The written form of a domain name. -/
def write? (t : Text) : Option Text := do
  let folded ← Text.fold? t
  let labels ← ((Text.compose folded).splitOn '.').mapM readLabel?
  guard (keepDirections (labels.map Label.shown))
  let name := Text.join ['.'] (labels.map Label.written)
  guard (!name.any isForbidden)
  return name

example : keepDirections ["אב".toList, [], "com".toList] = true := by decide +kernel
example : keepDirections ["1".toList, "אב".toList] = false := by decide +kernel
example : joinersFit [] "क्\u200dष".toList = true ∧ joinersFit [] "क\u200dष".toList = false := by
  decide +kernel

end Domain

end ReqTrace
