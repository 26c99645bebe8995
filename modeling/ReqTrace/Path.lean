/-
Module: ReqTrace.Path
Purpose: File paths. A path keeps the text it was written with and is compared component by component.
Main exports: Path, Path.components, Path.join, Path.parent?, Path.fileName?, Path.extensionOf?,
  Path.relativeTo?
-/
import ReqTrace.Text.Basic

namespace ReqTrace

/-- A file path as written. -/
structure Path where
  text : Text
  deriving DecidableEq, Repr, Inhabited

/-- What a path says, step by step. -/
inductive PathComponent where
  /-- The leading slash. -/
  | root
  /-- A leading dot. -/
  | here
  /-- Two dots. -/
  | up
  /-- A file name. -/
  | name (text : Text)
  deriving DecidableEq, Repr

namespace PathComponent

/-- The kinds of component in their order. -/
def rank : PathComponent → Nat
  | root => 0
  | here => 1
  | up => 2
  | name _ => 3

/-- The spelling of a component between slashes. -/
def text : PathComponent → Text
  | root => []
  | here => ['.']
  | up => ['.', '.']
  | name text => text

instance : Ord PathComponent := ⟨compareLex (compareOn rank) (compareOn text)⟩

instance : Std.TransOrd PathComponent :=
  inferInstanceAs (Std.TransCmp (compareLex (compareOn rank) (compareOn text)))

/-- The component that a part between slashes stands for; empty parts and inner dots stand for none. -/
def ofPart? (part : Text) : Option PathComponent :=
  if part = [] ∨ part = ['.'] then none
  else if part = ['.', '.'] then some up
  else some (name part)

/-- The file name that a component is, if it is one. -/
def name? : PathComponent → Option Text
  | name text => some text
  | _ => none

end PathComponent

namespace Path

/-- The path with a given spelling. -/
def ofString (s : String) : Path :=
  ⟨s.toList⟩

/-- The parts between slashes. -/
def parts (p : Path) : List Text :=
  p.text.splitOn '/'

/-- The components of a path. Repeated slashes, inner dots and a trailing slash leave no trace. -/
def components (p : Path) : List PathComponent :=
  match p.parts with
  | [] => []
  | first :: rest =>
      let start :=
        if first = [] then (if rest.isEmpty then [] else [PathComponent.root])
        else if first = ['.'] then [.here]
        else (PathComponent.ofPart? first).toList
      start ++ rest.filterMap PathComponent.ofPart?

/-- Paths are ordered by their components, so two spellings of one path compare as equal. -/
instance : Ord Path := ⟨compareOn components⟩

instance : Std.TransOrd Path := inferInstanceAs (Std.TransCmp (compareOn components))

/-- Whether two paths have the same components. -/
def same (a b : Path) : Bool :=
  a.components == b.components

/-- Whether a path starts at the root. -/
def isAbsolute (p : Path) : Bool :=
  p.text.head? == some '/'

/-- `p` followed by `q`; an absolute `q` replaces `p`. -/
def join (p q : Path) : Path :=
  if q.isAbsolute then q
  else if p.text = [] ∨ p.text.getLast? = some '/' then ⟨p.text ++ q.text⟩
  else ⟨p.text ++ '/' :: q.text⟩

/-- Whether a part at the end of a path says nothing: it is empty or a dot, and not the first part. -/
def isIdlePart (part : Text) : Bool :=
  part == [] || part == ['.']

/-- The leading parts of a path without the idle ones at their end. -/
def dropIdleParts : List Text → List Text
  | [] => []
  | first :: rest => first :: (rest.reverse.dropWhile isIdlePart).reverse

/-- The path without its last component, if it has one that is not the root. -/
def parent? (p : Path) : Option Path :=
  match dropIdleParts p.parts with
  | [] => none
  | [[]] => none
  | [_] => some ⟨[]⟩
  | parts =>
      match dropIdleParts parts.dropLast with
      | [[]] => some ⟨['/']⟩
      | before => some ⟨Text.join ['/'] before⟩

/-- The file name at the end of a path. -/
def fileName? (p : Path) : Option Text :=
  p.components.getLast?.bind PathComponent.name?

/-- What follows the last dot of a file name; a name that starts with its only dot has no extension. -/
def extensionOf? (name : Text) : Option Text :=
  match name.reverse.dropWhile (· != '.') with
  | [] => none
  | [_] => none
  | _ :: _ => some (name.reverse.takeWhile (· != '.')).reverse

/-- The path of `p` below `top`, with single slashes, if `p` lies below it through file names only. -/
def relativeTo? (top p : Path) : Option Text := do
  let below ← top.components.isPrefixOf? p.components
  let names ← below.mapM PathComponent.name?
  return Text.join ['/'] names

example : (ofString "a//b/./").same (ofString "a/b") = true := by decide
example : compare (ofString "a/b") (ofString "a-b/c") = .lt := by decide
example : (ofString "/a//b/.").parent? = some (ofString "/a") := by decide
example : (ofString "/a").parent? = some (ofString "/") := by decide
example : (ofString "a").parent? = some (ofString "") := by decide
example : (ofString "/").parent? = none := by decide
example : extensionOf? ".md".toList = none := by decide
example : extensionOf? "a.b.md".toList = some "md".toList := by decide

end Path

end ReqTrace
