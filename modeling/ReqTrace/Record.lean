/-
Module: ReqTrace.Record
Purpose: What a scan learns about a file.
Main exports: DocumentRecord, SourceRecord, FileRecord
-/
import ReqTrace.Document
import ReqTrace.Tag

namespace ReqTrace

/-- A document that was read. -/
structure DocumentRecord where
  path : Path
  package : Option Identifier
  sites : List Site
  footnotes : List Footnote
  deriving DecidableEq

namespace DocumentRecord

/-- The record of a document at a path. -/
def ofParsed (path : Path) (d : ParsedDocument) : DocumentRecord :=
  { path, package := d.package, sites := d.sites, footnotes := d.footnotes }

/-- The first footnote of a name. -/
def footnote? (d : DocumentRecord) (name : Identifier) : Option Footnote :=
  d.footnotes.find? (·.name == name)

end DocumentRecord

/-- A source file that was read. The last three parts come from version control. -/
structure SourceRecord where
  path : Path
  tags : List Tag
  hash : Option Text
  url : Option Text
  relative : Option Text
  deriving DecidableEq

/-- A file that was read. -/
inductive FileRecord where
  | document (d : DocumentRecord)
  | source (s : SourceRecord)
  deriving DecidableEq

namespace FileRecord

/-- The path of a file. -/
def path : FileRecord → Path
  | document d => d.path
  | source s => s.path

/-- The document that a file is, if it is one. -/
def document? : FileRecord → Option DocumentRecord
  | document d => some d
  | source _ => none

/-- The source file that a file is, if it is one. -/
def source? : FileRecord → Option SourceRecord
  | document _ => none
  | source s => some s

end FileRecord

end ReqTrace
