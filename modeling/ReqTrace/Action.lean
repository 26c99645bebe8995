/-
Module: ReqTrace.Action
Purpose: Edits of documents and manifests.
Main exports: Action, Action.path, Action.text
-/
import ReqTrace.Identifier
import ReqTrace.Path

namespace ReqTrace

/-- An edit of one file. -/
inductive Action where
  /-- Replaces the marker of a requirement on a line. -/
  | site (path : Path) (line : Nat) (requirement : RequirementId) (payload : Text)
  /-- Replaces the footnote of a requirement, which is a whole line; line zero adds one at the end. -/
  | footnote (path : Path) (line : Nat) (requirement : RequirementId) (payload : Text)
  /-- Records the hash of a cited file in a manifest. -/
  | setHash (path : Path) (url hash : Text)
  /-- Drops a file from a manifest. -/
  | dropHash (path : Path) (url : Text)
  deriving DecidableEq

namespace Action

/-- The file that an action edits. -/
def path : Action → Path
  | site path _ _ _ => path
  | footnote path _ _ _ => path
  | setHash path _ _ => path
  | dropHash path _ => path

/-- Whether an action edits a manifest. -/
def isManifestEdit : Action → Bool
  | site _ _ _ _ => false
  | footnote _ _ _ _ => false
  | setHash _ _ _ => true
  | dropHash _ _ => true

/-- How an action is shown. -/
def text : Action → Text
  | site path line _ payload =>
      path.text ++ ':' :: Text.decimal line ++ ": site ".toList ++ payload
  | footnote path 0 _ payload => path.text ++ ": append ".toList ++ payload
  | footnote path line _ payload =>
      path.text ++ ':' :: Text.decimal line ++ ": footnote ".toList ++ payload
  | setHash path url hash => path.text ++ ": set ".toList ++ url ++ " = ".toList ++ hash
  | dropHash path url => path.text ++ ": remove ".toList ++ url

end Action

end ReqTrace
