/-
Module: ReqTrace.Trace
Purpose: Whole runs: scan, plan, apply. Each stage is reached only if the one before found nothing wrong.
Main exports: TraceError, trace, Traced
-/
import ReqTrace.Apply
import ReqTrace.Scan

namespace ReqTrace

/-- Why a run ends early. -/
inductive TraceError where
  | scan (error : ScanError)
  /-- Some files are malformed. -/
  | malformed (errors : List SyntaxError)
  /-- The declarations contradict each other. -/
  | inconsistent (errors : List SemanticError)
  | apply (error : ApplyError)
  deriving DecidableEq

/-- How many errors a summary shows. -/
def shownErrors : Nat := 5

/-- A summary of errors: their number, the first of them, and how many are left out. -/
def summary (kind : Text) (messages : List Text) : Text :=
  "found ".toList ++ Text.decimal messages.length ++ ' ' :: kind ++ " error(s)".toList ++
    (messages.take shownErrors).flatMap (fun message => "\n  ".toList ++ message) ++
    if shownErrors < messages.length then
      "\n  ... (and ".toList ++ Text.decimal (messages.length - shownErrors) ++ " more)".toList
    else []

namespace TraceError

/-- The wording of the error. -/
def message : TraceError → Text
  | scan error => error.message
  | malformed errors => summary "syntax".toList (errors.map SyntaxError.message)
  | inconsistent errors => summary "semantic".toList (errors.map SemanticError.message)
  | apply error => error.message

/-- The error underneath, if there is one. -/
def cause? : TraceError → Option Text
  | scan error => some error.error.message
  | malformed _ => none
  | inconsistent _ => none
  | apply error => error.cause?

end TraceError

/-- What a scan found and which edits follow from it. -/
structure Traced where
  scan : ScanResult
  actions : List Action

/-- Scans some roots and plans the edits. -/
def trace (t : FileTree) (roots : List ScanRoot) (config : Config) : Except TraceError Traced := do
  let result ← (scan t roots config).mapError .scan
  if result.errors ≠ [] then throw (.malformed result.errors)
  let actions ← (plan result).mapError .inconsistent
  return { scan := result, actions }

end ReqTrace
