/-
Module: ReqTrace.Tag
Purpose: Coverage tags, which may stand anywhere in a source file.
Main exports: TagText, TagText.read?, Tag, ParsedSource, ParsedSource.parse
-/
import ReqTrace.Diagnostic
import ReqTrace.Text.Blank

namespace ReqTrace

/-! ### Tags as written -/

/-- A tag as it is written; its package and name need not be identifiers. -/
structure TagText where
  package : Text
  name : Text
  type : Text
  deriving DecidableEq, Repr

namespace TagText

/-- The whole tag as written. -/
def text (tag : TagText) : Text :=
  "[~".toList ++ tag.package ++ '/' :: tag.name ++ '~' :: tag.type ++ [']']

/-- A name in a tag holds no tilde, closing bracket or blank. -/
def isNameChar (c : Char) : Bool :=
  c != '~' && c != ']' && !isBlankChar c

/-- A package in a tag holds no slash besides. -/
def isPackageChar (c : Char) : Bool :=
  c != '/' && isNameChar c

/-- A coverage type holds ASCII letters, digits, underscores, dots and hyphens. -/
def isTypeChar (c : Char) : Bool :=
  c.isAlphanum || c == '_' || c == '.' || c == '-'

/-- Reads a part of class `p`, which is not empty, and the character `stop` after it. -/
def readPart? (p : Char → Bool) (stop : Char) (t : Text) : Option (Text × Text) := do
  let part := t.takeWhile p
  guard (part ≠ [])
  let rest ← Text.dropLead? [stop] (t.dropWhile p)
  return (part, rest)

/-- Reads a tag at the start of a text and says how many characters it has. -/
def read? (t : Text) : Option (TagText × Nat) := do
  let rest ← Text.dropLead? "[~".toList t
  let (package, rest) ← readPart? isPackageChar '/' rest
  let (name, rest) ← readPart? isNameChar '~' rest
  let (type, _) ← readPart? isTypeChar ']' rest
  let tag : TagText := { package, name, type }
  return (tag, tag.text.length)

end TagText

/-! ### Tags of source files -/

/-- A tag on a line of a source file: it covers a requirement in some way. -/
structure Tag where
  requirement : RequirementId
  type : Text
  line : Nat
  deriving DecidableEq

namespace Tag

/-- The tag that a tag text stands for. -/
def ofText (line : Nat) (tag : TagText) : Except SyntaxFault Tag :=
  match RequirementId.parse (tag.package ++ '/' :: tag.name) with
  | .ok requirement => .ok { requirement, type := tag.type, line }
  | .error _ => .error (.invalidCoverageTag tag.text)

/-- The tags of a line, in order; a tag without a valid requirement gives the reason instead. -/
def ofLine (line : Nat) (t : Text) : List (Except SyntaxFault Tag) :=
  (Text.occurrences TagText.read? t).map fun (_, tag) => ofText line tag

end Tag

/-- The tags of a source file in text order, and every fault with its line. -/
structure ParsedSource where
  tags : List Tag
  faults : List (Nat × SyntaxFault)
  deriving DecidableEq

namespace ParsedSource

/-- Reads a source file. What only resembles a tag is left alone. -/
def parse (t : Text) : ParsedSource :=
  let readings := (Text.lines t).zipIdx 1 |>.flatMap fun (text, line) =>
    (Tag.ofLine line text).map fun reading => (line, reading)
  { tags := readings.filterMap fun (_, reading) => reading.toOption
    faults := readings.filterMap fun
      | (_, .ok _) => none
      | (line, .error fault) => some (line, fault) }

/-- The faults as errors of the source file at a path. -/
def errors (s : ParsedSource) (path : Path) : List SyntaxError :=
  s.faults.map fun (line, fault) => { path, line, fault }

end ParsedSource

end ReqTrace
