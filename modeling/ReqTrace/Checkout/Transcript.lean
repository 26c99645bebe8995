/-
Module: ReqTrace.Checkout.Transcript
Purpose: A git whose answers were written down before.
Main exports: Git.absent, Git.ofTranscript
-/
import ReqTrace.Checkout
import ReqTrace.Manifest

namespace ReqTrace

namespace Git

/-- There is no git. -/
def absent : Git where
  reply _ _ := .error .notFound

/-- The command line that a transcript records: the program, its directory and its arguments. -/
def commandLine (directory : Names) (arguments : List Text) : Text :=
  "git -C ".toList ++ (FileTree.pathOf directory).text ++ ' ' :: Text.join [' '] arguments

/-- A git that says what a transcript says: for each command line its output. Everything else fails. -/
def ofTranscript (transcript : Table Text Text) : Git where
  reply directory arguments :=
    match transcript.get? (commandLine directory arguments) with
    | some output => .ok { status := 0, output := Text.utf8 output, errors := [] }
    | none => .ok { status := 128, output := [], errors := Text.utf8 "fatal: not recorded".toList }

/-- Reads a transcript: an object of texts, as in a manifest. A text that is none records nothing. -/
def readTranscript (t : Text) : Git :=
  ofTranscript (((Manifest.parse t).toOption).getD Table.empty)

example : commandLine ["a".toList, "b".toList] ["rev-parse".toList, "HEAD".toList] =
    "git -C /a/b rev-parse HEAD".toList := by decide

end Git

end ReqTrace
