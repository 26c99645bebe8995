/-
Module: ReqTrace.Apply
Purpose: Carrying out planned edits. Every file is read, patched and written once, and an edit whose
  place does not hold what it expects any more is refused.
Main exports: ApplyError, patchDocument, patchManifest, groupByFile, FileTree.apply
-/
import ReqTrace.Action
import ReqTrace.FileTree
import ReqTrace.LineFile
import ReqTrace.Manifest

namespace ReqTrace

/-! ### Errors -/

/-- What an edit expects on its line. -/
inductive Expected where
  | site
  | footnote
  deriving DecidableEq, Repr

/-- The wording of an expectation. -/
def Expected.text : Expected → Text
  | site => "a requirement site".toList
  | footnote => "a footnote".toList

/-- Why edits cannot be carried out. -/
inductive ApplyError where
  /-- The line of an edit is gone. -/
  | lineDrift (path : Path) (line : Nat)
  /-- The line of an edit does not hold what is expected for the requirement. -/
  | unexpectedContent (path : Path) (line : Nat) (requirement : RequirementId) (expected : Expected)
  /-- A document cannot be read or written. -/
  | document (path : Path) (error : FileError)
  /-- A manifest cannot be read, written or removed. -/
  | manifestFile (path : Path) (error : FileError)
  /-- A manifest is malformed. -/
  | manifestText (path : Path) (error : Json.ReadError)
  deriving DecidableEq

namespace ApplyError

/-- The wording of the error. -/
def message : ApplyError → Text
  | lineDrift path line => located path line "line no longer exists".toList
  | unexpectedContent path line requirement expected =>
      located path line
        ("expected ".toList ++ expected.text ++ " for ".toList ++ requirement.text.quoted)
  | document path error => "failed to update ".toList ++ path.text ++ ": ".toList ++ error.message
  | manifestFile path error => "manifest ".toList ++ path.text ++ ": ".toList ++ error.message
  | manifestText path error => "manifest ".toList ++ path.text ++ ": ".toList ++ error.message

/-- The error underneath, if there is one. -/
def cause? : ApplyError → Option Text
  | lineDrift _ _ => none
  | unexpectedContent _ _ _ _ => none
  | document _ error => some error.message
  | manifestFile _ error => some error.message
  | manifestText _ error => some error.message

end ApplyError

/-! ### Patching documents -/

/-- The first site of a name on a line without malformed markers. -/
def siteOn? (line : Nat) (t : Text) (name : Identifier) : Option Site :=
  match (Site.ofLine line t).mapM Except.toOption with
  | some sites => sites.find? (·.name == name)
  | none => none

/-- Whether a line is a well-formed footnote of a name. -/
def isFootnoteOf (line : Nat) (t : Text) (name : Identifier) : Bool :=
  match Footnote.ofLine? line t with
  | some (.ok footnote) => footnote.name == name
  | _ => false

/-- Replaces a marker if its line still holds one for the requirement. -/
def LineFile.patchSite (path : Path) (f : LineFile) (line : Nat) (requirement : RequirementId)
    (payload : Text) : Except ApplyError LineFile :=
  match f.line? line with
  | none => .error (.lineDrift path line)
  | some t =>
      match (siteOn? line t requirement.name).bind fun site => f.replaceSpan? line site.span payload with
      | some patched => .ok patched
      | none => .error (.unexpectedContent path line requirement .site)

/-- Replaces a footnote if its line still holds one for the requirement. -/
def LineFile.patchFootnote (path : Path) (f : LineFile) (line : Nat) (requirement : RequirementId)
    (payload : Text) : Except ApplyError LineFile :=
  match f.line? line with
  | none => .error (.lineDrift path line)
  | some t =>
      if isFootnoteOf line t requirement.name then .ok (f.setLine line payload)
      else .error (.unexpectedContent path line requirement .footnote)

/-- Carries out the edits in place. Edits of manifests and new footnotes change nothing here. -/
def LineFile.patch (path : Path) (f : LineFile) : Action → Except ApplyError LineFile
  | .site _ line requirement payload => f.patchSite path line requirement payload
  | .footnote _ 0 _ _ => .ok f
  | .footnote _ line requirement payload => f.patchFootnote path line requirement payload
  | .setHash _ _ _ => .ok f
  | .dropHash _ _ => .ok f

/-- The footnotes that are added at the end of a document. -/
def newFootnotes (actions : List Action) : List Text :=
  actions.filterMap fun
    | .footnote _ 0 _ payload => some payload
    | _ => none

/-- Carries out the edits of a document on its lines. -/
def LineFile.applyAll (path : Path) (f : LineFile) (actions : List Action) :
    Except ApplyError LineFile := do
  let patched ← actions.foldlM (LineFile.patch path) f
  return patched.appendFootnotes (newFootnotes actions)

/-- Carries out the edits of a document on its text. -/
def patchDocument (path : Path) (t : Text) (actions : List Action) : Except ApplyError Text := do
  let patched ← (LineFile.parse t).applyAll path actions
  return patched.render

/-! ### Patching manifests -/

/-- Carries out an edit of a manifest. -/
def Manifest.patch (m : Manifest) : Action → Manifest
  | .setHash _ url hash => m.insert url hash
  | .dropHash _ url => m.erase url
  | .site _ _ _ _ => m
  | .footnote _ _ _ _ => m

/-- Carries out the edits of a manifest. -/
def patchManifest (m : Manifest) (actions : List Action) : Manifest :=
  actions.foldl Manifest.patch m

/-! ### Files -/

/-- The edits of one file. -/
structure FileEdits where
  path : Path
  actions : List Action

namespace FileEdits

/-- Whether the file is a manifest. -/
def isManifest (e : FileEdits) : Bool :=
  e.actions.any Action.isManifestEdit

end FileEdits

/-- Adds an edit to those of its file, or starts the edits of another file. -/
def addToGroup (action : Action) : List FileEdits → List FileEdits
  | [] => [{ path := action.path, actions := [action] }]
  | group :: groups =>
      if group.path.same action.path then
        { group with actions := group.actions ++ [action] } :: groups
      else group :: addToGroup action groups

/-- The edits file by file, in the order in which the files are first named. -/
def groupByFile (actions : List Action) : List FileEdits :=
  actions.foldl (fun groups action => addToGroup action groups) []

namespace FileTree

/-- The manifest in a file, or the empty one if there is no file. -/
def loadManifest (t : FileTree) (path : Path) : Except ApplyError Manifest :=
  match t.readText path with
  | .error .notFound => .ok Table.empty
  | .error error => .error (.manifestFile path error)
  | .ok text => (Manifest.parse text).mapError (.manifestText path)

/-- Writes a manifest. There is no file for an empty one. -/
def saveManifest (t : FileTree) (path : Path) (m : Manifest) : Except ApplyError FileTree :=
  if m.isEmpty then
    match t.remove path with
    | .error .notFound => .ok t
    | result => result.mapError (.manifestFile path)
  else (t.writeText path m.render).mapError (.manifestFile path)

/-- Carries out the edits of one file. -/
def applyGroup (t : FileTree) (e : FileEdits) : Except ApplyError FileTree := do
  if e.isManifest then
    let m ← t.loadManifest e.path
    t.saveManifest e.path (patchManifest m e.actions)
  else
    let text ← (t.readText e.path).mapError (.document e.path)
    let patched ← patchDocument e.path text e.actions
    (t.writeText e.path patched).mapError (.document e.path)

/-- Carries out the edits of files one after the other and stops at the first file that fails. That file
    and the ones after it stay as they are. -/
def applyGroups (t : FileTree) : List FileEdits → FileTree × Option ApplyError
  | [] => (t, none)
  | e :: rest =>
      match t.applyGroup e with
      | .ok t => t.applyGroups rest
      | .error error => (t, some error)

/-- Carries out edits. Gives the tree that is left and the number of files, or why it stopped. -/
def apply (t : FileTree) (actions : List Action) : FileTree × Except ApplyError Nat :=
  let groups := groupByFile actions
  match t.applyGroups groups with
  | (t, none) => (t, .ok groups.length)
  | (t, some error) => (t, .error error)

end FileTree

end ReqTrace
