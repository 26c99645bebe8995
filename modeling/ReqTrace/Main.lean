/-
Module: ReqTrace.Main
Purpose: The program. Files are read into a tree, the run is computed, and the files that it changed are
  written back. The program starts no other one: what git says is read from the transcript that the
  variable REQMD_GIT names.
Main exports: main
-/
import ReqTrace.Checkout.Transcript
import ReqTrace.Run

namespace ReqTrace.Program

/-- The text of a string of the environment. -/
def textOf (s : String) : Text := s.toList

/-- What a path without links is called in a tree. -/
def namesOf (path : String) : Names :=
  (textOf path).splitOn '/' |>.filter (! ·.isEmpty)

/-- Adds what is found at a path. A link leads to the place where it ends; what is neither a file nor a
    directory is left out. -/
def addEntry (t : FileTree) (names : Names) (path : String) : IO FileTree := do
  try
    match (← (System.mkFilePath [path]).symlinkMetadata).type with
    | .dir => return t.put names .directory
    | .file => return t.put names (.file (.ofBytes (← IO.FS.readBinFile path).toList))
    | .symlink => return t.put names (.link ⟨textOf (← IO.FS.realPath path).toString⟩)
    | .other => return t
  catch _ => return t

/-- Adds the directories and links on the way to an absolute path. -/
def addWay (t : FileTree) (path : String) : IO FileTree := do
  let names := namesOf path
  (List.range names.length).foldlM (fun t i => do
    let way := names.take (i + 1)
    addEntry t way (String.ofList (FileTree.pathOf way).text)) t

/-- Adds all that lies below a directory and is not in a hidden one. -/
partial def addBelow (t : FileTree) (directory : String) : IO FileTree := do
  let mut t := t
  for entry in ← (System.mkFilePath [directory]).readDir do
    let path := entry.path.toString
    let names := namesOf path
    t ← addEntry t names path
    if t.isDirectory names && !entry.fileName.startsWith "." then
      t ← addBelow t path
  return t

/-- Reads the directories that a request names. One that cannot be read is left out. -/
def readTree (directory : String) (paths : List Path) : IO FileTree := do
  let start : FileTree := { FileTree.empty with workingDirectory := namesOf directory }
  paths.foldlM (fun t p => do
    try
      let full := String.ofList (Path.join ⟨textOf directory⟩ p).text
      let t ← addWay t full
      let place := (← IO.FS.realPath full).toString
      addBelow (← addWay t place) place
    catch _ => return t) (← addWay start directory)

/-- The paths that a command reads. -/
def pathsOf : Command → List Path
  | .trace request => request.documents :: request.sources
  | _ => []

/-- The git of the environment. -/
def readGit : IO Git := do
  match ← IO.getEnv "REQMD_GIT" with
  | none => return .absent
  | some file => return .readTranscript (textOf (← IO.FS.readFile file))

/-- Writes the texts that have changed and removes the files that are gone. -/
def writeBack (before after : FileTree) : IO Unit := do
  for (names, node) in after.nodes.toList do
    if before.node? names ≠ some node then
      if let .file (.text t) := node then
        IO.FS.writeFile (String.ofList (FileTree.pathOf names).text) (String.ofList t)
  for names in before.nodes.keys do
    if (after.node? names).isNone then
      IO.FS.removeFile (String.ofList (FileTree.pathOf names).text)

/-- Runs a command line and gives its status. -/
def run (arguments : List String) : IO UInt32 := do
  let command := Command.parse (arguments.map textOf)
  let tree ← readTree (← IO.currentDir).toString (pathsOf command)
  let coloured := wantsColour ((← IO.getEnv "FORCE_COLOR").map textOf)
  let outcome := command.run tree (← readGit) coloured
  writeBack tree outcome.tree
  for line in outcome.output do
    IO.println (String.ofList line)
  for line in outcome.errors do
    IO.eprintln (String.ofList line)
  return UInt32.ofNat outcome.status

end ReqTrace.Program

/-- The program. -/
def main (arguments : List String) : IO UInt32 :=
  ReqTrace.Program.run arguments
