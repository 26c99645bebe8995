/-
Module: ReqTrace.Report
Purpose: What a run tells its user: the edits, a last line, or why the run failed.
Main exports: RunError, RunError.report, RunResult, RunResult.lines
-/
import ReqTrace.Checkout
import ReqTrace.Terminal
import ReqTrace.Trace

namespace ReqTrace

/-! ### Failures -/

/-- Why a run that was asked for fails. -/
inductive RunError where
  /-- A directory of source files does not lie in a usable checkout. -/
  | checkout (path : Path) (error : CheckoutError)
  | trace (error : TraceError)
  deriving DecidableEq

namespace RunError

/-- The wording of the error. -/
def message : RunError → Text
  | checkout path _ => "cannot trace ".toList ++ path.text ++ " without git".toList
  | trace error => error.message

/-- The errors underneath, from the outermost to the innermost one. -/
def causes : RunError → List Text
  | checkout _ error => error.message :: error.cause?.toList
  | trace error => error.cause?.toList

end RunError

/-- A text behind a margin; its further lines are set in as far as the first one. -/
def hang (margin t : Text) : Text :=
  margin ++ Text.join ('\n' :: List.replicate margin.length ' ') (t.splitOn '\n')

/-- The causes of an error. Several of them are numbered. -/
def causeLines : List Text → List Text
  | [cause] => [hang "    ".toList cause]
  | causes =>
      causes.zipIdx.map fun (cause, n) =>
        hang ("    ".toList ++ Text.decimal n ++ ": ".toList) cause

/-- How a failure is told. -/
def RunError.report (e : RunError) : Text :=
  "Error: ".toList ++ e.message ++
    if e.causes = [] then []
    else "\n\nCaused by:\n".toList ++ Text.join ['\n'] (causeLines e.causes)

/-! ### Results -/

/-- How a run ends well. -/
inductive RunResult where
  | upToDate
  /-- These edits would be carried out. -/
  | pending (actions : List Action)
  /-- So many edits were carried out in so many files. -/
  | applied (actions files : Nat)
  deriving DecidableEq

/-- Edits with a heading whenever they go on in another file than the `previous` one. -/
def actionLines (coloured : Bool) : (previous : Option Path) → List Action → List Text
  | _, [] => []
  | previous, action :: rest =>
      let line := "  ".toList ++ Tone.info.paint coloured action.text
      let lines := line :: actionLines coloured (some action.path) rest
      if previous.any action.path.same then lines
      else Tone.warning.paint coloured action.path.text :: lines

/-- The lines that tell a result. -/
def RunResult.lines (coloured : Bool) : RunResult → List Text
  | upToDate => [Tone.success.paint coloured "Requirements are up to date.".toList]
  | pending actions =>
      actionLines coloured none actions ++
        [Tone.warning.paint coloured
          (Text.decimal actions.length ++ " changes pending (dry run)".toList)]
  | applied actions files =>
      [Tone.success.paint coloured
        ("Applied ".toList ++ Text.decimal actions ++ " changes to ".toList ++ Text.decimal files ++
          " files.".toList)]

example : causeLines ["a\nb".toList] = ["    a\n    b".toList] := by decide
example : causeLines ["a\nb".toList, "c".toList] =
    ["    0: a\n       b".toList, "    1: c".toList] := by decide

end ReqTrace
