/-
Module: ReqTrace.Text.Blank
Purpose: Blank characters (the Unicode property White_Space) and trimming.
Main exports: isBlankChar, Text.trim, Text.trimStart, Text.trimEnd, Text.isBlank
-/
import ReqTrace.Text.Basic

namespace ReqTrace

/-- The code points with the Unicode property White_Space, as closed ranges in ascending order. -/
def blankRanges : List (Nat × Nat) :=
  [(0x09, 0x0D), (0x20, 0x20), (0x85, 0x85), (0xA0, 0xA0), (0x1680, 0x1680), (0x2000, 0x200A),
    (0x2028, 0x2029), (0x202F, 0x202F), (0x205F, 0x205F), (0x3000, 0x3000)]

/-- Whether a character is white space in the sense of Unicode. -/
def isBlankChar (c : Char) : Bool :=
  Text.inRanges blankRanges c

namespace Text

/-- The text without leading blanks. -/
def trimStart (t : Text) : Text :=
  t.dropWhile isBlankChar

/-- The text without trailing blanks. -/
def trimEnd (t : Text) : Text :=
  dropWhileEnd isBlankChar t

/-- The text without leading and trailing blanks. -/
def trim (t : Text) : Text :=
  trimEnd (trimStart t)

/-- Whether a text holds blanks only. -/
def isBlank (t : Text) : Bool :=
  t.all isBlankChar

end Text

example : (blankRanges.map fun range => range.2 + 1 - range.1).sum = 25 := by decide
example : isBlankChar '\u200b' = false := by decide

end ReqTrace
