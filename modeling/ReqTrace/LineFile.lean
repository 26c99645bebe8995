/-
Module: ReqTrace.LineFile
Purpose: A text file as a sequence of lines, so that a change in one line never moves another. The line
  ending of the file is kept when it is written back.
Main exports: LineFile, LineFile.parse, LineFile.render, LineFile.line?, LineFile.replaceSpan?,
  LineFile.appendFootnotes
-/
import ReqTrace.Document.Site
import ReqTrace.Document.Footnote

namespace ReqTrace

/-- The line break of a file. -/
inductive LineEnding where
  | lf
  | crlf
  deriving DecidableEq, Repr

namespace LineEnding

/-- The characters of a line break. -/
def text : LineEnding → Text
  | lf => ['\n']
  | crlf => ['\r', '\n']

/-- The first line break of a text decides; a text without one has line feeds. -/
def detect : Text → LineEnding
  | [] => lf
  | ['\r'] => lf
  | '\r' :: '\n' :: _ => crlf
  | '\n' :: _ => lf
  | _ :: rest => detect rest

/-- A line between two line feeds, without the carriage return that belongs to its line break. -/
def strip : LineEnding → Text → Text
  | lf, line => line
  | crlf, line => Text.dropReturn line

end LineEnding

/-- The lines of a file and its line break. A file that ends with a line break has an empty last
    line. -/
structure LineFile where
  lines : List Text
  ending : LineEnding
  deriving DecidableEq, Repr

namespace LineFile

/-- Splits a text into lines. -/
def parse (t : Text) : LineFile :=
  let ending := LineEnding.detect t
  { lines := (t.splitOn '\n').map ending.strip, ending }

/-- Joins the lines into a text. -/
def render (f : LineFile) : Text :=
  Text.join f.ending.text f.lines

/-- A line by its number, counted from one. -/
def line? (f : LineFile) (n : Nat) : Option Text :=
  match n with
  | 0 => none
  | n + 1 => f.lines[n]?

/-- The file with another text on a line. -/
def setLine (f : LineFile) (n : Nat) (t : Text) : LineFile :=
  match n with
  | 0 => f
  | n + 1 => { f with lines := f.lines.set n t }

/-- `t` with the bytes of a span replaced, if the span lies in it on the boundaries of characters. -/
def replaceIn? (t : Text) (span : Span) (payload : Text) : Option Text := do
  guard (span.start ≤ span.stop)
  let (before, rest) ← Text.splitAtByte? span.start t
  let (_, after) ← Text.splitAtByte? (span.stop - span.start) rest
  return before ++ payload ++ after

/-- The file with a span of one line replaced, if there is such a span. -/
def replaceSpan? (f : LineFile) (n : Nat) (span : Span) (payload : Text) : Option LineFile := do
  let t ← f.line? n
  let t' ← replaceIn? t span payload
  return f.setLine n t'

/-- The lines without the blank ones at their end. -/
def dropBlankEnd (lines : List Text) : List Text :=
  (lines.reverse.dropWhile Text.isBlank).reverse

/-- The empty line that sets footnotes off from a body that does not end with one. -/
def separator (body : List Text) : List Text :=
  match body.getLast? with
  | none => []
  | some last => if Footnote.isFootnoteLine last then [] else [[]]

/-- Adds footnote lines at the end. Trailing blank lines go, one empty line separates the footnotes from
    a body that does not end with a footnote, and the last footnote ends with a line break. Nothing
    changes if there is nothing to add. -/
def appendFootnotes (f : LineFile) (footnotes : List Text) : LineFile :=
  if footnotes.isEmpty then f
  else
    let body := dropBlankEnd f.lines
    { f with lines := body ++ separator body ++ footnotes ++ [[]] }

end LineFile

end ReqTrace
