/-
Module: ReqTrace.Location
Purpose: Stable web addresses of files in hosted repositories.
Main exports: HostFamily, LocationError, Location, Location.ofRemote, Location.fileUrl, lineUrl
-/
import ReqTrace.Text.Blank
import ReqTrace.Url

namespace ReqTrace

/-! ### Families of hosts -/

/-- The providers that lay out the addresses of files in one way. -/
inductive HostFamily where
  | github
  | gitlab
  | bitbucket
  | gitea
  deriving DecidableEq, Repr

namespace HostFamily

/-- The family that a host name suggests. Unknown hosts are laid out as the first family. -/
def ofHost (host : Text) : HostFamily :=
  let host := host.map Char.toLower
  if Text.contains "gitlab".toList host then gitlab
  else if Text.contains "bitbucket".toList host then bitbucket
  else if Text.contains "gitea".toList host || Text.contains "codeberg".toList host then gitea
  else github

/-- The name of a family. -/
def name : HostFamily → Text
  | github => "github".toList
  | gitlab => "gitlab".toList
  | bitbucket => "bitbucket".toList
  | gitea => "gitea".toList

/-- The segments between repository and revision. -/
def infixSegments : HostFamily → List Text
  | github => ["blob".toList]
  | gitlab => ["-".toList, "blob".toList]
  | bitbucket => ["src".toList]
  | gitea => ["src".toList, "commit".toList]

end HostFamily

/-! ### Remotes -/

/-- Why a remote and a revision give no location. -/
inductive LocationError where
  /-- The remote is no address that is understood. -/
  | unsupported (remote : Text)
  /-- The remote names a host but no repository there. -/
  | missingRepository (remote : Text)
  /-- The revision is blank. -/
  | emptyRevision (remote : Text)
  deriving DecidableEq, Repr

namespace LocationError

/-- The wording of the error. -/
def message : LocationError → Text
  | unsupported remote => "unsupported remote URL '".toList ++ remote ++ ['\'']
  | missingRepository remote =>
      "remote URL '".toList ++ remote ++ "' does not name a repository".toList
  | emptyRevision remote => "empty revision for remote '".toList ++ remote ++ ['\'']

end LocationError

/-- What a remote says: host, port and the path of the repository. -/
structure Remote where
  host : Text
  port : Option Nat
  path : Text
  deriving DecidableEq, Repr

namespace Remote

/-- Reads a remote that is a URL. Only web URLs keep their port. -/
def ofUrl? (t : Text) : Option Remote := do
  let url ← Url.parse? t
  return { host := url.host
           port := if url.scheme.isWeb then url.port else none
           path := url.path }

/-- Reads a remote of the short form `user@host:path`. -/
def ofShort? (t : Text) : Option Remote := do
  let (authority, path) ← Text.cut? ':' t
  let host := Url.dropCredentials authority
  guard (host ≠ [] ∧ '/' ∉ host)
  return { host, port := none, path }

/-- Reads a remote of either form. -/
def parse? (t : Text) : Option Remote :=
  let t := Text.trim t
  if Text.contains "://".toList t then ofUrl? t else ofShort? t

/-- The path of the repository without slashes around it and without one `.git` at its end. -/
def repository (r : Remote) : Text :=
  let path := Text.dropWhileEnd (· == '/') (r.path.dropWhile (· == '/'))
  (Text.dropTail? ".git".toList path).getD path

end Remote

/-- The segments of a text that are not empty. -/
def nonemptySegments (t : Text) : List Text :=
  (t.splitOn '/').filter (! ·.isEmpty)

/-! ### Locations -/

/-- Where the files of a repository are found on the web: the address of its root folder at a
    revision. -/
structure Location where
  family : HostFamily
  root : Url
  deriving DecidableEq, Repr

namespace Location

/-- The web address of a repository. -/
def repositoryUrl (remote : Text) : Except LocationError Url := do
  let some r := Remote.parse? remote | throw (.unsupported remote)
  if r.repository = [] then throw (.missingRepository remote)
  let some base := Url.parse? ("https://".toList ++ r.host) | throw (.unsupported remote)
  let port := if r.port = Scheme.https.defaultPort? then none else r.port
  return { base with port, segments := [[]] }.addSegments (nonemptySegments r.repository)

/-- The location of the repository behind a remote at a revision. -/
def ofRemote (remote revision : Text) : Except LocationError Location := do
  let repository ← repositoryUrl remote
  let family := HostFamily.ofHost repository.host
  let revision := Text.trim revision
  if revision = [] then throw (.emptyRevision remote)
  return { family
           root := (repository.dropEmptyEnd.addSegments family.infixSegments).addSegments
             (revision.splitOn '/') }

/-- Parentheses in percent-encoding, so that an address can be the target of a link. -/
def encodeParentheses (t : Text) : Text :=
  t.flatMap fun c =>
    if c = '(' then "%28".toList else if c = ')' then "%29".toList else [c]

/-- The address of a file, given by its path in the repository. -/
def fileUrl (l : Location) (relative : Text) : Text :=
  let url := l.root.addSegments (nonemptySegments relative)
  { url with segments := url.segments.map encodeParentheses }.text

end Location

/-- The address of a line of a file. -/
def lineUrl (fileUrl : Text) (line : Nat) : Text :=
  fileUrl ++ "#L".toList ++ Text.decimal line

end ReqTrace
