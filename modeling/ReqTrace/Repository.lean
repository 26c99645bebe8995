/-
Module: ReqTrace.Repository
Purpose: Version-controlled directories: which files are tracked, with which content hash, and where
  they are found on the web.
Main exports: Repository, Repository.relative?, Repository.hash?, Repository.fileUrl?
-/
import ReqTrace.Location
import ReqTrace.Path
import ReqTrace.Table

namespace ReqTrace

/-- A version-controlled directory. -/
structure Repository where
  root : Path
  location : Location
  /-- The content hash of each tracked file, by its path below the root. -/
  hashes : Table Text Text
  deriving DecidableEq

namespace Repository

/-- The path of a file below the root, with single slashes. -/
def relative? (r : Repository) (p : Path) : Option Text :=
  r.root.relativeTo? p

/-- The content hash of a file, if it is tracked. -/
def hash? (r : Repository) (p : Path) : Option Text :=
  (r.relative? p).bind r.hashes.get?

/-- The web address of a file below the root, tracked or not. -/
def fileUrl? (r : Repository) (p : Path) : Option Text :=
  (r.relative? p).map r.location.fileUrl

end Repository

end ReqTrace
