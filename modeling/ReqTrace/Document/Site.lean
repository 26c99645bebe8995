/-
Module: ReqTrace.Document.Site
Purpose: Requirement sites. A marker names a requirement between backticks and tildes and may carry an
  annotation: a status word, a footnote reference and a glyph glued to it.
Main exports: Marker, Marker.read?, SiteStatus, Site, Site.ofLine, Site.render
-/
import ReqTrace.Diagnostic

namespace ReqTrace

/-! ### Markers as written -/

/-- The sign at the end of an annotation. -/
inductive Glyph where
  | covered
  | uncovered
  deriving DecidableEq, Repr

namespace Glyph

/-- The character of a glyph. -/
def char : Glyph → Char
  | covered => '✅'
  | uncovered => '❓'

/-- Reads a glyph at the start of a text. -/
def read? : Text → Option (Glyph × Text)
  | [] => none
  | c :: rest =>
      if c = covered.char then some (covered, rest)
      else if c = uncovered.char then some (uncovered, rest)
      else none

end Glyph

/-- A marker as it is written. The word, the reference and the glyph may each be missing, and no part
    need be well formed. -/
structure Marker where
  name : Text
  word : Text
  reference : Option Text
  glyph : Option Glyph
  deriving DecidableEq, Repr

namespace Marker

/-- The quoted name at the front of a marker. -/
def head (m : Marker) : Text :=
  "`~".toList ++ m.name ++ "~`".toList

/-- The reference as written, if there is one. -/
def referenceText (m : Marker) : Text :=
  match m.reference with
  | some reference => "[^~".toList ++ reference ++ "~]".toList
  | none => []

/-- The whole marker as written. -/
def text (m : Marker) : Text :=
  m.head ++ m.word ++ m.referenceText ++ m.glyph.toList.map Glyph.char

/-- A name between tildes holds neither tilde nor backtick. -/
def isNameChar (c : Char) : Bool :=
  c != '~' && c != '`'

/-- A reference holds neither tilde nor closing bracket. -/
def isReferenceChar (c : Char) : Bool :=
  c != '~' && c != ']'

/-- Reads the name between backticks and tildes; it is not empty. -/
def readHead? (t : Text) : Option (Text × Text) := do
  let rest ← Text.dropLead? "`~".toList t
  let name := rest.takeWhile isNameChar
  guard (name ≠ [])
  let rest ← Text.dropLead? "~`".toList (rest.dropWhile isNameChar)
  return (name, rest)

/-- Reads a footnote reference, which may be empty between its tildes. -/
def readReference? (t : Text) : Option (Text × Text) := do
  let rest ← Text.dropLead? "[^~".toList t
  let rest' ← Text.dropLead? "~]".toList (rest.dropWhile isReferenceChar)
  return (rest.takeWhile isReferenceChar, rest')

/-- An optional part: what `read?` finds, or nothing. -/
def optional {α : Type} (read? : Text → Option (α × Text)) (t : Text) : Option α × Text :=
  match read? t with
  | some (found, rest) => (some found, rest)
  | none => (none, t)

/-- Reads the longest marker at the start of a text. -/
def readPrefix? (t : Text) : Option (Marker × Text) := do
  let (name, rest) ← readHead? t
  let word := rest.takeWhile Char.isAlpha
  let (reference, rest) := optional readReference? (rest.dropWhile Char.isAlpha)
  let (glyph, rest) := optional Glyph.read? rest
  return ({ name, word, reference, glyph }, rest)

/-- Reads the longest marker at the start of a text and says how many characters it has. -/
def read? (t : Text) : Option (Marker × Nat) := do
  let (marker, _) ← readPrefix? t
  return (marker, marker.text.length)

end Marker

/-! ### Sites -/

/-- What a document says about the coverage of a requirement. -/
inductive SiteStatus where
  /-- Nothing. -/
  | bare
  | covered
  | uncovered
  deriving DecidableEq, Repr

/-- A range of bytes in a line. -/
structure Span where
  start : Nat
  stop : Nat
  deriving DecidableEq, Repr

/-- The place where a document declares a requirement. -/
structure Site where
  name : Identifier
  line : Nat
  span : Span
  status : SiteStatus
  statusWord : Option Text
  deriving DecidableEq

namespace Site

/-- The word that says "covered" in an annotation. -/
def coveredWord : Text := "covered".toList

/-- The word that says "uncovered" in an annotation. -/
def uncoveredWord : Text := "uncvrd".toList

/-- Whether a marker is annotated. A word other than the two status words is prose glued to the
    marker. -/
def isAnnotated (m : Marker) : Bool :=
  m.reference.isSome || m.glyph.isSome || m.word == coveredWord || m.word == uncoveredWord

/-- The status that a complete annotation says. -/
def annotatedStatus (m : Marker) (name : Identifier) : Except SyntaxFault SiteStatus :=
  match m.reference, m.glyph with
  | some reference, some glyph =>
      if m.word = [] then .error (.incompleteMarker m.text)
      else if reference ≠ name.text then
        .error (.footnoteReferenceMismatch name.text reference)
      else if m.word = coveredWord ∧ glyph = .covered then .ok .covered
      else if m.word = uncoveredWord ∧ glyph = .uncovered then .ok .uncovered
      else .error (.statusMismatch m.word [glyph.char])
  | _, _ => .error (.incompleteMarker m.text)

/-- The site that a marker at byte `start` of a line stands for. The span of a bare site ends at its
    closing backtick. -/
def ofMarker (line start : Nat) (m : Marker) : Except SyntaxFault Site :=
  match Identifier.parse? m.name with
  | none => .error (.invalidRequirementName m.name)
  | some name =>
      if isAnnotated m then
        match annotatedStatus m name with
        | .error fault => .error fault
        | .ok status =>
            .ok { name, line, span := ⟨start, start + Text.byteLength m.text⟩, status,
                  statusWord := some m.word }
      else
        .ok { name, line, span := ⟨start, start + Text.byteLength m.head⟩, status := .bare,
              statusWord := none }

/-- The sites of a line, in order; a malformed marker gives the reason instead. -/
def ofLine (line : Nat) (t : Text) : List (Except SyntaxFault Site) :=
  (Text.occurrences Marker.read? t).map fun (start, marker) => ofMarker line start marker

/-- The marker of a site with a given status. -/
def markerOf (name : Identifier) : SiteStatus → Marker
  | .bare => { name := name.text, word := [], reference := none, glyph := none }
  | .covered =>
      { name := name.text, word := coveredWord, reference := some name.text,
        glyph := some .covered }
  | .uncovered =>
      { name := name.text, word := uncoveredWord, reference := some name.text,
        glyph := some .uncovered }

/-- Writes the marker of a requirement with a given status. -/
def render (name : Identifier) (status : SiteStatus) : Text :=
  (markerOf name status).text

end Site

end ReqTrace
