/-
Module: ReqTrace.Config
Purpose: Settings of a run: which files are read and how many workers may read them.
Main exports: Config, Config.setExtensions, Config.allows, Config.ofEntries?, Config.parse?
-/
import ReqTrace.Text.Blank
import ReqTrace.Text.Case
import ReqTrace.Toml.Document

namespace ReqTrace

/-- The settings of a run. -/
structure Config where
  /-- The extensions of the files that are read, in lower case and without a leading dot. -/
  extensions : List Text
  /-- Files with more bytes are passed over. -/
  maxFileSize : Nat
  /-- How many workers read files, if it is said. -/
  workers : Option Nat
  deriving DecidableEq, Repr

namespace Config

/-- The name of a configuration file. -/
def fileName : Text := ".reqmd.toml".toList

/-- The extensions that are read if nothing is said. -/
def defaultExtensions : List Text :=
  ["md", "go", "rs", "py", "js", "ts", "jsx", "tsx", "java", "kt", "c", "h", "cpp", "hpp", "cc", "cs",
    "swift", "rb", "php", "scala", "sh", "sql", "vue"].map String.toList

/-- The largest size that is read if nothing is said. -/
def defaultMaxFileSize : Nat := 128 * 1024

/-- The settings if nothing is said. -/
def default : Config :=
  { extensions := defaultExtensions, maxFileSize := defaultMaxFileSize, workers := none }

/-- An extension without surrounding blanks, without the dots at its start, and in lower case. -/
def normalExtension (t : Text) : Text :=
  Text.toLower ((Text.trim t).dropWhile (· == '.'))

/-- Replaces the extensions by the normal forms of others; empty ones are dropped. -/
def setExtensions (c : Config) (extensions : List Text) : Config :=
  { c with extensions := (extensions.map normalExtension).filter (! ·.isEmpty) }

/-- Sets the number of workers. -/
def setWorkers (c : Config) (workers : Nat) : Config :=
  { c with workers := some workers }

/-- Whether two texts are equal up to the case of ASCII letters. -/
def sameAscii (a b : Text) : Bool :=
  Text.toLowerAscii a == Text.toLowerAscii b

/-- Whether files with an extension are read. -/
def allows (c : Config) (extension : Text) : Bool :=
  c.extensions.any (sameAscii · extension)

/-! ### The written form

A configuration has a version. Version 1 has the keys of the structure, each of them optional; other keys
say nothing. -/

/-- What version 1 of the written form says. -/
structure Version1 where
  extensions : List Text
  maxFileSize : Nat
  workers : Option Nat
  deriving DecidableEq, Repr

/-- The settings that a written form stands for. -/
def ofVersion1 (v : Version1) : Config :=
  Config.setExtensions { extensions := [], maxFileSize := v.maxFileSize, workers := v.workers }
    v.extensions

/-- The written form of settings. -/
def toVersion1 (c : Config) : Version1 :=
  { extensions := c.extensions, maxFileSize := c.maxFileSize, workers := c.workers }

/-- The text of a string value. -/
def textOf? : Toml.Value → Option Text
  | .string text => some text
  | _ => none

/-- The extensions that a value lists. -/
def extensionsOf? : Toml.Value → Option (List Text)
  | .array items => items.mapM textOf?
  | _ => none

/-- The number that a value is, if it is at least `low`. -/
def numberOf? (low : Nat) : Toml.Value → Option Nat
  | .integer n => if (low : Int) ≤ n then some n.toNat else none
  | _ => none

/-- The value of an optional key. -/
def keyOr? {α : Type} (entries : Toml.Entries) (key : String) (absent : α)
    (read? : Toml.Value → Option α) : Option α :=
  match Toml.get? entries key.toList with
  | none => some absent
  | some value => read? value

/-- The settings that the root table of a document says. -/
def ofEntries? (entries : Toml.Entries) : Option Config := do
  let version ← (Toml.get? entries "_version".toList).bind textOf?
  guard (version = ['1'])
  let extensions ← keyOr? entries "extensions" defaultExtensions extensionsOf?
  let maxFileSize ← keyOr? entries "max_file_size" defaultMaxFileSize (numberOf? 0)
  let workers ← keyOr? entries "workers" none fun value => (numberOf? 1 value).map some
  return ofVersion1 { extensions, maxFileSize, workers }

/-- The settings that a text says, if it is a configuration. -/
def parse? (t : Text) : Option Config :=
  (Toml.parse? t).bind ofEntries?

end Config

end ReqTrace
