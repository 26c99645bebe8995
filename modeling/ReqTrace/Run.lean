/-
Module: ReqTrace.Run
Purpose: Whole runs of the program, from the command line to what is printed.
Main exports: Request.run, Outcome, Command.run
-/
import ReqTrace.Command
import ReqTrace.Config.Load
import ReqTrace.Report

namespace ReqTrace

namespace Request

/-- The settings of a run: those of the directory of documents, changed by the command line. -/
def config (t : FileTree) (r : Request) : Config :=
  let c := Config.loadOrDefault t r.documents
  let c := (r.extensions.map c.setExtensions).getD c
  (r.workers.map c.setWorkers).getD c

/-- The directory of documents. It need not lie in a checkout. -/
def documentRoot (t : FileTree) (git : Git) (r : Request) : ScanRoot :=
  { path := r.documents, repository := (Checkout.openAt t git r.documents).toOption }

/-- A directory of source files. It has to lie in a checkout. -/
def sourceRoot (t : FileTree) (git : Git) (path : Path) : Except RunError ScanRoot := do
  let repository ← (Checkout.openAt t git path).mapError (.checkout path)
  return { path, repository := some repository }

/-- The edits that follow from the state of the files. -/
def actions (t : FileTree) (git : Git) (r : Request) : Except RunError (List Action) := do
  let sources ← r.sources.mapM (sourceRoot t git)
  let traced ← (trace t (r.documentRoot t git :: sources) (r.config t)).mapError .trace
  return traced.actions

/-- Carries a request out. Gives the tree that is left and how the run ends. -/
def run (t : FileTree) (git : Git) (r : Request) : FileTree × Except RunError RunResult :=
  match r.actions t git with
  | .error error => (t, .error error)
  | .ok [] => (t, .ok .upToDate)
  | .ok actions =>
      if r.dryRun then (t, .ok (.pending actions))
      else
        match t.apply actions with
        | (t, .ok files) => (t, .ok (.applied actions.length files))
        | (t, .error error) => (t, .error (.trace (.apply error)))

end Request

/-- What a run of the program leaves behind. -/
structure Outcome where
  tree : FileTree
  status : Nat
  /-- The lines of the output. -/
  output : List Text
  /-- The lines that tell what went wrong. -/
  errors : List Text
  deriving DecidableEq

/-- Runs a command. The status is zero if all is well, one if the run fails, and two if the command line
    makes no sense. -/
def Command.run (t : FileTree) (git : Git) (coloured : Bool) : Command → Outcome
  | .help level => { tree := t, status := 0, output := usage level, errors := [] }
  | .version => { tree := t, status := 0, output := [versionText], errors := [] }
  | .misuse error =>
      { tree := t, status := 2, output := [], errors := ["error: ".toList ++ error.message] }
  | .trace request =>
      match request.run t git with
      | (tree, .ok result) => { tree, status := 0, output := result.lines coloured, errors := [] }
      | (tree, .error error) => { tree, status := 1, output := [], errors := [error.report] }

end ReqTrace
