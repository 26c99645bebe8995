/-
Module: ReqTrace.Scan
Purpose: Finding and reading the files below some directories.
Main exports: ScanRoot, ScanError, scanFile, scan
-/
import ReqTrace.Config
import ReqTrace.FileTree
import ReqTrace.Plan
import ReqTrace.Repository

namespace ReqTrace

/-- A directory to scan and the repository that knows its source files, if there is one. -/
structure ScanRoot where
  path : Path
  repository : Option Repository

/-- A directory that cannot be scanned. -/
structure ScanError where
  path : Path
  error : FileError
  deriving DecidableEq

/-- The wording of the error. -/
def ScanError.message (e : ScanError) : Text :=
  "failed to read ".toList ++ e.path.text ++ ": ".toList ++ e.error.message

/-! ### Directories -/

/-- The directories to read, each with the repository that is asked about its files. -/
abbrev Units := Table Names (Option Repository)

namespace Units

/-- Adds a directory. The first repository that is known for it stays. -/
def add (repository : Option Repository) (units : Units) (directory : Names) : Units :=
  match units.get? directory with
  | some (some _) => units
  | _ => units.insert directory repository

/-- Adds all directories below a root that are not hidden. -/
def addRoot (t : FileTree) (units : Units) (root : ScanRoot) : Except ScanError Units := do
  let top ← (t.destination root.path).mapError fun error => { path := root.path, error }
  return (t.directoriesBelow top).foldl (add root.repository) units

/-- The directories below some roots. A directory below several roots is there once. -/
def ofRoots (t : FileTree) (roots : List ScanRoot) : Except ScanError Units :=
  roots.foldlM (addRoot t) Table.empty

end Units

/-! ### Files -/

/-- What is found in a file or in a directory. -/
structure Findings where
  files : List FileRecord
  manifest : Option Manifest
  errors : List SyntaxError

namespace Findings

/-- Nothing is found. -/
def empty : Findings :=
  { files := [], manifest := none, errors := [] }

/-- What is found in one place after another. A directory has at most one manifest. -/
def concat (all : List Findings) : Findings :=
  { files := all.flatMap (·.files)
    manifest := all.findSome? (·.manifest)
    errors := all.flatMap (·.errors) }

end Findings

/-- The extension of documents. -/
def documentExtension : Text := "md".toList

/-- Reads a manifest. -/
def scanManifest (path : Path) (text : Text) : Findings :=
  match Manifest.parse text with
  | .ok manifest => { Findings.empty with manifest := some manifest }
  | .error error =>
      { Findings.empty with errors := [{ path, line := 1, fault := .malformedManifest error }] }

/-- Reads a document. -/
def scanDocument (path : Path) (text : Text) : Findings :=
  let parsed := ParsedDocument.parse text
  { Findings.empty with
    files := [.document (.ofParsed path parsed)]
    errors := parsed.errors path }

/-- Reads a source file with a given hash. -/
def scanSource (repository : Repository) (path : Path) (hash text : Text) : Findings :=
  let parsed := ParsedSource.parse text
  { Findings.empty with
    files := [.source
      { path, tags := parsed.tags, hash := some hash, url := repository.fileUrl? path
        relative := repository.relative? path }]
    errors := parsed.errors path }

/-- Reads a file if it is a manifest, or a document or tracked source file with an extension that is
    asked for and not too large. Files that are no text are passed over. -/
def scanFile (config : Config) (repository : Option Repository) (path : Path) (name : Text)
    (content : Content) : Findings :=
  match content.text? with
  | none => .empty
  | some text =>
      if name = Manifest.fileName then scanManifest path text
      else
        match Path.extensionOf? name with
        | none => .empty
        | some extension =>
            if !config.allows extension ∨ config.maxFileSize < content.size then .empty
            else if Config.sameAscii extension documentExtension then scanDocument path text
            else
              match repository with
              | none => .empty
              | some repository =>
                  match repository.hash? path with
                  | none => .empty
                  | some hash => scanSource repository path hash text

/-- Reads the files of a directory in the order of their names. -/
def scanDirectory (t : FileTree) (config : Config) (directory : Names)
    (repository : Option Repository) : Findings :=
  .concat ((t.filesIn directory).map fun (name, content) =>
    scanFile config repository (FileTree.pathOf (directory ++ [name])) name content)

/-! ### The scan -/

/-- Errors in the order of their files and lines. -/
def sortSyntaxErrors (errors : List SyntaxError) : List SyntaxError :=
  errors.mergeSort fun a b =>
    (compareLex (compareOn SyntaxError.path) (compareOn SyntaxError.line) a b).isLE

/-- Scans the directories below some roots. Files are taken as they stand in their directories. No path is opened, so
    files are read also under paths that are too long for `FileTree.readText`: the limit on the length of paths is
    not modelled for the walk. -/
def scan (t : FileTree) (roots : List ScanRoot) (config : Config) : Except ScanError ScanResult := do
  let units ← Units.ofRoots t roots
  let found := units.toList.map fun (directory, repository) =>
    (FileTree.pathOf directory, scanDirectory t config directory repository)
  return {
    files := (found.flatMap (·.2.files)).mergeSort fun a b => (compare a.path b.path).isLE
    manifests := Table.ofList (found.filterMap fun (path, findings) =>
      findings.manifest.map fun manifest => (path, manifest))
    errors := sortSyntaxErrors (found.flatMap (·.2.errors)) }

end ReqTrace
