/-
Module: ReqTrace.Checkout
Purpose: Git checkouts: the questions that are put to git when a repository is opened, and what follows
  from the answers.
Main exports: GitReply, Git, CheckoutError, Checkout.readIndex, Checkout.openAt
-/
import ReqTrace.FileTree
import ReqTrace.Repository

namespace ReqTrace

/-! ### Git -/

/-- What a run of git leaves behind. -/
structure GitReply where
  status : Nat
  output : List Byte
  errors : List Byte
  deriving DecidableEq, Repr

/-- Why git cannot be started. -/
inductive SpawnError where
  /-- The working directory or the executable is not there. -/
  | file (error : FileError)
  /-- An argument or the directory holds a zero character. -/
  | zeroInCommand
  | argumentTooLong
  deriving DecidableEq, Repr

/-- The wording of the error. -/
def SpawnError.message : SpawnError → Text
  | file error => error.message
  | zeroInCommand => "nul byte found in provided data".toList
  | argumentTooLong => "Argument list too long (os error 7)".toList

/-- A git executable: its reply to arguments in a working directory, or why it cannot be started. -/
structure Git where
  reply : Names → List Text → Except FileError GitReply

/-- Why a checkout cannot be opened. -/
inductive CheckoutError where
  /-- Git cannot be started. -/
  | spawn (error : SpawnError)
  /-- Git fails. -/
  | command (arguments : List Text) (directory : Path) (errors : Text)
  /-- There is no remote repository to derive addresses from. -/
  | noRemote (top : Path)
  /-- The top directory is not there. -/
  | unresolved (path : Path) (error : FileError)
  /-- The remote or the revision is not understood. -/
  | location (error : LocationError)
  deriving DecidableEq

namespace CheckoutError

/-- The wording of the error. -/
def message : CheckoutError → Text
  | spawn error => "failed to run git: ".toList ++ error.message
  | command arguments directory errors =>
      "`git ".toList ++ Text.join [' '] arguments ++ "` failed in ".toList ++ directory.text ++
        ": ".toList ++ errors
  | noRemote top => "repository at ".toList ++ top.text ++ " has no remote".toList
  | unresolved path error =>
      "cannot resolve repository root ".toList ++ path.text ++ ": ".toList ++ error.message
  | location error => error.message

/-- The error underneath, if there is one. -/
def cause? : CheckoutError → Option Text
  | spawn error => some error.message
  | command _ _ _ => none
  | noRemote _ => none
  | unresolved _ error => some error.message
  | location _ => none

end CheckoutError

/-- The largest number of bytes of an argument. -/
def maxArgumentLength : Nat := 131071

/-- Starts git in a directory. -/
def Git.start (git : Git) (t : FileTree) (directory : Path) (arguments : List Text) :
    Except SpawnError GitReply := do
  if (directory.text :: arguments).any ('\x00' ∈ ·) then throw .zeroInCommand
  let (names, node) ← (t.resolve directory).mapError .file
  if node ≠ .directory then throw (.file .notDirectory)
  let reply ← (git.reply names arguments).mapError .file
  if arguments.any (maxArgumentLength < Text.byteLength ·) then throw .argumentTooLong
  return reply

/-- Runs git in a directory and gives its output. -/
def Git.run (git : Git) (t : FileTree) (directory : Path) (arguments : List Text) :
    Except CheckoutError Text := do
  let reply ← (git.start t directory arguments).mapError .spawn
  if reply.status = 0 then return Utf8.decodeLossy reply.output
  else throw (.command arguments directory (Text.trim (Utf8.decodeLossy reply.errors)))

/-! ### Checkouts -/

namespace Checkout

/-- Arguments written with spaces between them. -/
def arguments (t : String) : List Text :=
  t.toList.splitOn ' '

/-- An entry of the index: mode, hash and stage with spaces between them, a tab, and the path. -/
def readIndexEntry? (entry : Text) : Option (Text × Text) := do
  let (fields, path) ← Text.cut? '\t' entry
  let hash ← (fields.splitOn ' ')[1]?
  return (path, hash)

/-- The hashes of the tracked files. Every entry of the index ends with a zero character; of several
    entries for one path the last one counts. -/
def readIndex (output : Text) : Table Text Text :=
  Table.ofList ((output.splitOn '\x00').filterMap readIndexEntry?)

/-- The first remote of a list that is not blank. -/
def firstRemote? (output : Text) : Option Text :=
  ((Text.lines output).map Text.trim).find? (! ·.isEmpty)

/-- The remote that addresses are derived from: the usual one, or else the first one that git lists. -/
def remoteUrl (t : FileTree) (git : Git) (top : Path) : Except CheckoutError Text :=
  match git.run t top (arguments "remote get-url origin") with
  | .ok url => .ok (Text.trim url)
  | .error _ => do
      let remotes ← git.run t top (arguments "remote")
      let some first := firstRemote? remotes | throw (.noRemote top)
      return Text.trim (← git.run t top (arguments "remote get-url" ++ [first]))

/-- Opens the checkout that holds a directory. -/
def openAt (t : FileTree) (git : Git) (directory : Path) : Except CheckoutError Repository := do
  let top : Path := ⟨Text.trim (← git.run t directory (arguments "rev-parse --show-toplevel"))⟩
  let root ← (t.canonical top).mapError (.unresolved top)
  let remote ← remoteUrl t git root
  let revision := Text.trim (← git.run t root (arguments "rev-parse HEAD"))
  let location ← (Location.ofRemote remote revision).mapError .location
  let hashes := readIndex (← git.run t root (arguments "ls-files -s -z"))
  return { root, location, hashes }

end Checkout

end ReqTrace
