/-
Module: ReqTrace.Config.Load
Purpose: Configuration files.
Main exports: ConfigError, Config.load, Config.loadOrDefault
-/
import ReqTrace.Config
import ReqTrace.FileTree

namespace ReqTrace

/-- Why there is no configuration. -/
inductive ConfigError where
  /-- The file cannot be read. -/
  | unreadable (error : FileError)
  /-- The text is not a configuration. -/
  | malformed
  deriving DecidableEq, Repr

namespace Config

/-- Reads a configuration file. -/
def load (t : FileTree) (path : Path) : Except ConfigError Config :=
  match t.readText path with
  | .error error => .error (.unreadable error)
  | .ok text =>
      match parse? text with
      | some config => .ok config
      | none => .error .malformed

/-- The settings for a directory of documents: those of its configuration file, or the ones that hold if
    nothing is said if there is no such file or it is not a configuration. -/
def loadOrDefault (t : FileTree) (directory : Path) : Config :=
  match load t (directory.join ⟨fileName⟩) with
  | .ok config => config
  | .error _ => default

end Config

end ReqTrace
