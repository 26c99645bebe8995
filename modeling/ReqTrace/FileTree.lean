/-
Module: ReqTrace.FileTree
Purpose: A tree of files as a value: how paths lead through it, and reading, writing and removing files.
Main exports: FileError, Content, Node, FileTree, FileTree.resolve, FileTree.readText,
  FileTree.writeText, FileTree.remove
-/
import ReqTrace.Path
import ReqTrace.Table
import ReqTrace.Text.Utf8

namespace ReqTrace

/-! ### Errors -/

/-- Why a file cannot be read, written or removed. -/
inductive FileError where
  | notFound
  | notDirectory
  | isDirectory
  | nameTooLong
  | tooManyLinks
  /-- A path holds a zero character. -/
  | zeroInPath
  /-- The bytes of a file are not a text. -/
  | notText
  deriving DecidableEq, Repr

/-- The wording of the error, with the number of the operating system if it has one. -/
def FileError.message : FileError → Text
  | notFound => "No such file or directory (os error 2)".toList
  | notDirectory => "Not a directory (os error 20)".toList
  | isDirectory => "Is a directory (os error 21)".toList
  | nameTooLong => "File name too long (os error 36)".toList
  | tooManyLinks => "Too many levels of symbolic links (os error 40)".toList
  | zeroInPath => "file name contained an unexpected NUL byte".toList
  | notText => "stream did not contain valid UTF-8".toList

/-! ### Files -/

/-- What a file holds. -/
inductive Content where
  | text (t : Text)
  /-- Bytes that are no text. -/
  | binary (bytes : List Byte)
  deriving DecidableEq, Repr

namespace Content

/-- The content with given bytes. -/
def ofBytes (bytes : List Byte) : Content :=
  match Utf8.decode? bytes with
  | some t => text t
  | none => binary bytes

/-- The text that a file holds, if it holds one. -/
def text? : Content → Option Text
  | text t => some t
  | binary _ => none

/-- The number of bytes. -/
def size : Content → Nat
  | text t => Text.byteLength t
  | binary bytes => bytes.length

end Content

/-- What is found under a name. -/
inductive Node where
  | file (content : Content)
  | directory
  | link (target : Path)
  deriving DecidableEq, Repr

/-- The names that lead from the root of the tree to a node. -/
abbrev Names := List Text

/-- Names are ordered one after the other. -/
instance : Std.TransOrd Names := inferInstanceAs (Std.TransOrd (List Text))

/-- A tree of files, by the names that lead to each node, and the directory that relative paths start
    from. The root is a directory without an entry of its own. -/
structure FileTree where
  nodes : Table Names Node
  workingDirectory : Names
  deriving DecidableEq

namespace FileTree

/-- The tree that holds nothing. -/
def empty : FileTree :=
  { nodes := Table.empty, workingDirectory := [] }

/-- The node that some names lead to. -/
def node? (t : FileTree) (names : Names) : Option Node :=
  if names = [] then some .directory else t.nodes.get? names

/-- The tree with another node. -/
def put (t : FileTree) (names : Names) (node : Node) : FileTree :=
  { t with nodes := t.nodes.insert names node }

/-- The tree without a node. -/
def erase (t : FileTree) (names : Names) : FileTree :=
  { t with nodes := t.nodes.erase names }

/-! ### Paths through a tree

A path is a list of steps. Every step but the last one has to arrive at a directory, and so has the last
one if a slash follows it. A link is replaced by the steps of its target. -/

/-- What a path is walked for, which decides what happens at its last name. -/
inductive Purpose where
  /-- To read what is there; a link is followed. -/
  | reading
  /-- To write a file that need not be there yet; a link is followed. -/
  | writing
  /-- To remove what is there; a link is removed itself. -/
  | removing
  deriving DecidableEq, Repr

/-- The steps of a path; a dot is a step to where one is. -/
def steps (p : Path) : List PathComponent :=
  let inner := p.parts.filterMap fun part =>
    if part = ['.'] then some PathComponent.here else PathComponent.ofPart? part
  if p.isAbsolute then .root :: inner else inner

/-- Whether a path ends with a slash, so that only a directory can be meant. -/
def meansDirectory (p : Path) : Bool :=
  p.text.getLast? == some '/'

/-- Where a walk gets without following a link. -/
inductive Progress where
  /-- At the names given, and what is there. -/
  | arrived (names : Names) (node : Option Node)
  /-- At a link, with the steps that are left after it has been replaced, and whether a slash follows
      the last of them. -/
  | linked (names : Names) (left : List PathComponent) (slash : Bool)

/-- The largest number of bytes of a name. -/
def maxNameLength : Nat := 255

/-- Walks up to the end or to the first link that is followed; `slash` says whether a slash follows the
    last step. A file cannot be written under a name before a slash, whatever is there. -/
def advance (t : FileTree) (purpose : Purpose) (slash : Bool) (current : Names) :
    List PathComponent → Except FileError Progress
  | [] => .ok (.arrived current (some .directory))
  | .root :: left => advance t purpose slash [] left
  | .here :: left => advance t purpose slash current left
  | .up :: left => advance t purpose slash current.dropLast left
  | .name name :: left =>
      if left = [] ∧ slash ∧ purpose = .writing then .error .isDirectory
      else if maxNameLength < Text.byteLength name then .error .nameTooLong
      else
        match t.node? (current ++ [name]) with
        | none => if left = [] then .ok (.arrived (current ++ [name]) none) else .error .notFound
        | some .directory => advance t purpose slash (current ++ [name]) left
        | some (.file content) =>
            if left = [] ∧ !slash then .ok (.arrived (current ++ [name]) (some (.file content)))
            else .error .notDirectory
        | some (.link target) =>
            if left ≠ [] then .ok (.linked current (steps target ++ left) slash)
            else if purpose ≠ .removing then
              .ok (.linked current (steps target) (slash || meansDirectory target))
            else if slash then .error .notDirectory
            else .ok (.arrived (current ++ [name]) (some (.link target)))

/-- Walks to the end, following at most `links` links. -/
def walk (t : FileTree) (purpose : Purpose) :
    (links : Nat) → (slash : Bool) → Names → List PathComponent →
      Except FileError (Names × Option Node)
  | links, slash, current, left => do
      match ← t.advance purpose slash current left with
      | .arrived names node => return (names, node)
      | .linked current left slash =>
          match links with
          | 0 => .error .tooManyLinks
          | links + 1 => walk t purpose links slash current left

/-- How many links a path may lead through. -/
def maxLinks : Nat := 40

/-- Where the steps of a path lead, however long it is. The last name may lead to nothing yet. -/
def follow (t : FileTree) (purpose : Purpose) (p : Path) : Except FileError (Names × Option Node) :=
  if '\x00' ∈ p.text then .error .zeroInPath
  else if p.text = [] then .error .notFound
  else t.walk purpose maxLinks (meansDirectory p) t.workingDirectory (steps p)

/-- The largest number of bytes of a path under which files are opened or removed. -/
def maxPathLength : Nat := 4095

/-- Where a path leads that files are opened or removed under. -/
def locate (t : FileTree) (purpose : Purpose) (p : Path) : Except FileError (Names × Option Node) :=
  if '\x00' ∉ p.text ∧ maxPathLength < Text.byteLength p.text then .error .nameTooLong
  else t.follow purpose p

/-- Names that lead to something. -/
def existing : Names × Option Node → Except FileError (Names × Node)
  | (names, some node) => .ok (names, node)
  | (_, none) => .error .notFound

/-- Where a path leads, if something is there. -/
def resolve (t : FileTree) (p : Path) : Except FileError (Names × Node) := do
  existing (← t.locate .reading p)

/-- The names of what a path leads to. They are found step by step, so the path may be of any length. -/
def destination (t : FileTree) (p : Path) : Except FileError Names := do
  return (← existing (← t.follow .reading p)).1

/-- The path that leads to some names from the root without links or dots. -/
def pathOf (names : Names) : Path :=
  ⟨'/' :: Text.join ['/'] names⟩

/-- The path to the same place without links or dots. -/
def canonical (t : FileTree) (p : Path) : Except FileError Path := do
  return pathOf (← t.destination p)

/-! ### Reading and writing -/

/-- The text of a file. -/
def readText (t : FileTree) (p : Path) : Except FileError Text := do
  match ← t.resolve p with
  | (_, .file (.text text)) => return text
  | (_, .file (.binary _)) => .error .notText
  | _ => .error .isDirectory

/-- The tree with a text in a file, which need not have been there. -/
def writeText (t : FileTree) (p : Path) (text : Text) : Except FileError FileTree := do
  match ← t.locate .writing p with
  | (_, some .directory) => .error .isDirectory
  | (names, _) => return t.put names (.file (.text text))

/-- The tree without a file; a link is removed itself. -/
def remove (t : FileTree) (p : Path) : Except FileError FileTree := do
  match ← t.locate .removing p with
  | (_, none) => .error .notFound
  | (_, some .directory) => .error .isDirectory
  | (names, some _) => return t.erase names

/-! ### Directories -/

/-- Whether some names lead to a directory. -/
def isDirectory (t : FileTree) (names : Names) : Bool :=
  t.node? names == some .directory

/-- The files right in a directory, in the order of their names. -/
def filesIn (t : FileTree) (directory : Names) : List (Text × Content) :=
  t.nodes.toList.filterMap fun (names, node) =>
    match node, directory.isPrefixOf? names with
    | .file content, some [name] => some (name, content)
    | _, _ => none

/-- The directories below some names that are reached without passing a hidden one, the first one
    included, in path order. -/
def directoriesBelow (t : FileTree) (top : Names) : List Names :=
  let below := t.nodes.toList.filterMap fun (names, node) =>
    match node, top.isPrefixOf? names with
    | .directory, some rest =>
        if rest ≠ [] ∧ rest.all (·.head? ≠ some '.') then some names else none
    | _, _ => none
  if t.isDirectory top then top :: below else []

end FileTree

end ReqTrace
