/-
Module: ReqTrace.Document
Purpose: Requirements documents: a fenced header that names the package, then lines that hold either a
  footnote or any number of requirement sites.
Main exports: Header, Header.ofLines, BodyLine, ParsedDocument, ParsedDocument.parse
-/
import ReqTrace.Document.Site
import ReqTrace.Document.Footnote

namespace ReqTrace

/-! ### The header -/

/-- What the top of a document says about its package. -/
inductive Header where
  /-- There is no header. -/
  | missing
  /-- The header names a package; the body starts after `bodyStart` lines. -/
  | declared (package : Identifier) (bodyStart : Nat)
  /-- The header names no valid package on a line. -/
  | invalid (line : Nat) (value : Text) (bodyStart : Nat)

namespace Header

/-- The fence around a header. -/
def fence : Text := "```".toList

/-- What comes before the package on the line between the fences. -/
def packageKey : Text := "reqmd.package:".toList

/-- Whether a line opens or closes a fence. -/
def isFence (line : Text) : Bool :=
  fence.isPrefixOf (Text.trimStart line)

/-- Reads the header from the three lines that follow the leading blank lines. -/
def ofLines (lines : List Text) : Header :=
  let start := (lines.takeWhile Text.isBlank).length
  match lines.drop start with
  | opening :: inner :: closing :: _ =>
      if isFence opening ∧ isFence closing then
        match Text.dropLead? packageKey (Text.trim inner) with
        | none => missing
        | some value =>
            match Identifier.parse? (Text.trim value) with
            | some package => declared package (start + 3)
            | none => invalid (start + 2) (Text.trim value) (start + 3)
      else missing
  | _ => missing

/-- The package that a header declares. -/
def package? : Header → Option Identifier
  | declared package _ => some package
  | _ => none

/-- How many lines come before the body. -/
def bodyStart : Header → Nat
  | missing => 0
  | declared _ bodyStart => bodyStart
  | invalid _ _ bodyStart => bodyStart

/-- The fault of a header, with its line. -/
def faults : Header → List (Nat × SyntaxFault)
  | invalid line value _ => [(line, .invalidPackage value)]
  | _ => []

end Header

/-! ### The body

A line is read on its own, except that a footnote only counts if it is the first one of its name. -/

/-- What a line of the body holds. -/
inductive BodyLine where
  /-- A line shaped like a footnote. -/
  | footnote (reading : Except SyntaxFault Footnote)
  /-- Any other line, with what is found on it. -/
  | sites (readings : List (Except SyntaxFault Site))

/-- Whether a footnote is the first one of its name among all footnotes of a document, each of which has a
    line of its own. -/
def Footnote.isFirst (all : List Footnote) (f : Footnote) : Bool :=
  (all.find? (·.name == f.name)).any (·.line == f.line)

namespace BodyLine

/-- Reads a line. A line shaped like a footnote is not searched for sites. -/
def read (line : Nat) (t : Text) : BodyLine :=
  match Footnote.ofLine? line t with
  | some reading => footnote reading
  | none => sites (Site.ofLine line t)

/-- The footnote on a line, if there is one and it is well formed. -/
def footnote? : BodyLine → Option Footnote
  | footnote reading => reading.toOption
  | sites _ => none

/-- The well-formed sites on a line. -/
def siteList : BodyLine → List Site
  | footnote _ => []
  | sites readings => readings.filterMap Except.toOption

/-- What is wrong with a line of a document that has the footnotes `all`. -/
def faults (all : List Footnote) : BodyLine → List SyntaxFault
  | footnote (.error fault) => [fault]
  | footnote (.ok f) => if f.isFirst all then [] else [.duplicateFootnote f.name.text]
  | sites readings => readings.filterMap fun
      | .ok _ => none
      | .error fault => some fault

end BodyLine

/-- What a document says: its package, sites and footnotes in line order, and every fault with its
    line. -/
structure ParsedDocument where
  package : Option Identifier
  sites : List Site
  footnotes : List Footnote
  faults : List (Nat × SyntaxFault)
  deriving DecidableEq

namespace ParsedDocument

/-- The lines after a header with their numbers, each one read. -/
def bodyOf (header : Header) (lines : List Text) : List (Nat × BodyLine) :=
  ((lines.drop header.bodyStart).zipIdx (header.bodyStart + 1)).map fun (t, line) =>
    (line, BodyLine.read line t)

/-- Reads a document from its lines. A malformed line never hides the ones after it. -/
def ofLines (lines : List Text) : ParsedDocument :=
  let header := Header.ofLines lines
  let body := bodyOf header lines
  let all := body.filterMap (·.2.footnote?)
  { package := header.package?
    sites := body.flatMap (·.2.siteList)
    footnotes := all.filter (Footnote.isFirst all)
    faults := header.faults ++ body.flatMap fun (line, l) => (l.faults all).map fun fault => (line, fault) }

/-- Reads a document. -/
def parse (t : Text) : ParsedDocument :=
  ofLines (Text.lines t)

/-- The faults as errors of the document at a path. -/
def errors (d : ParsedDocument) (path : Path) : List SyntaxError :=
  d.faults.map fun (line, fault) => { path, line, fault }

end ParsedDocument

end ReqTrace
