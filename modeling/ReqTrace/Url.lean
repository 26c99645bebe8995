/-
Module: ReqTrace.Url
Purpose: URLs of repositories and of the files in them.
Main exports: Scheme, Url, Url.parse?, Url.text, Url.addSegment, Url.addSegments
-/
import ReqTrace.Url.Host

namespace ReqTrace

/-- The schemes of remote repositories. -/
inductive Scheme where
  | http
  | https
  | ssh
  | git
  | gitSsh
  deriving DecidableEq, Repr

namespace Scheme

/-- The spelling of a scheme. -/
def text : Scheme → Text
  | http => "http".toList
  | https => "https".toList
  | ssh => "ssh".toList
  | git => "git".toList
  | gitSsh => "git+ssh".toList

/-- The scheme with a given spelling in any case. -/
def ofText? (t : Text) : Option Scheme :=
  [http, https, ssh, git, gitSsh].find? fun scheme => t.map Char.toLower == scheme.text

/-- Whether URLs of the scheme follow the rules of the web. -/
def isWeb : Scheme → Bool
  | http | https => true
  | _ => false

/-- The port that need not be written. -/
def defaultPort? : Scheme → Option Nat
  | http => some 80
  | https => some 443
  | _ => none

end Scheme

/-- A URL with a host. User names and passwords are read but not kept. -/
structure Url where
  scheme : Scheme
  host : Text
  port : Option Nat
  /-- The encoded segments of the path, the last one first; the path `/` has one empty segment. -/
  segments : List Text
  query : Option Text
  fragment : Option Text
  deriving DecidableEq, Repr

namespace Url

/-! ### Paths

A path is built up from its directories, the innermost one first. -/

/-- Whether a segment means the directory itself. -/
def isHere (segment : Text) : Bool :=
  segment == ['.'] || segment.map Char.toLower == "%2e".toList

/-- Whether a segment means the directory above. -/
def isUp (segment : Text) : Bool :=
  ["..", ".%2e", "%2e.", "%2e%2e"].any fun up => segment.map Char.toLower == up.toList

/-- Whether a segment is the letter of a drive, which is never left upwards. -/
def isDrive : Text → Bool
  | [letter, mark] => letter.isAlpha && (mark == ':' || mark == '|')
  | _ => false

/-- The directories above a directory. -/
def above : List Text → List Text
  | [] => []
  | innermost :: outer => if isDrive innermost then innermost :: outer else outer

/-- Goes from some directories into a segment that a slash follows. -/
def enter (directories : List Text) (segment : Text) : List Text :=
  if isUp segment then above directories
  else if isHere segment then directories
  else segment :: directories

/-- The path that ends with a segment in some directories. -/
def finish (directories : List Text) (segment : Text) : List Text :=
  if isUp segment then [] :: above directories
  else if isHere segment then [] :: directories
  else segment :: directories

/-- The segments of a path that is given by its parts between slashes. -/
def resolve (parts : List Text) : List Text :=
  finish (parts.dropLast.foldl enter []) (parts.getLast?.getD [])

/-! ### Reading -/

/-- Whether a character counts as a slash. -/
def isSlash (scheme : Scheme) (c : Char) : Bool :=
  c == '/' || (scheme.isWeb && c == '\\')

/-- Whether a character ends the part of a URL that names the host. -/
def endsAuthority (scheme : Scheme) (c : Char) : Bool :=
  isSlash scheme c || c == '?' || c == '#'

/-- The text as it is read: without control characters and spaces around it, and without tabs and line
    breaks anywhere. -/
def clean (t : Text) : Text :=
  (Text.dropWhileEnd (· ≤ ' ') (t.dropWhile (· ≤ ' '))).filter fun c =>
    c != '\t' && c != '\n' && c != '\r'

/-- The text before and after the colon that ends a scheme. -/
def cutScheme? (t : Text) : Option (Scheme × Text) := do
  let (name, rest) ← Text.cut? ':' t
  return (← Scheme.ofText? name, rest)

/-- What comes after the slashes in front of the host. -/
def skipSlashes? (scheme : Scheme) (t : Text) : Option Text :=
  if scheme.isWeb then some (t.dropWhile (isSlash scheme)) else Text.dropLead? "//".toList t

/-- What follows the last at sign; all that comes before it is user name and password. -/
def dropCredentials (authority : Text) : Text :=
  (authority.reverse.takeWhile (· != '@')).reverse

/-- The host and what follows it, which is nothing or starts with a colon. A colon between brackets is
    part of the host. -/
def cutHost (inBrackets : Bool) : Text → Text × Text
  | [] => ([], [])
  | c :: rest =>
      if c = ':' ∧ !inBrackets then ([], c :: rest)
      else
        let inside := if c = '[' then true else if c = ']' then false else inBrackets
        let (host, rest) := cutHost inside rest
        (c :: host, rest)

/-- Reads a port with its colon, if there is one, and gives what follows it: nothing or, where they
    are not slashes, a backslash. -/
def readPort? (scheme : Scheme) : Text → Option (Option Nat × Text)
  | ':' :: rest => do
      let digits := rest.takeWhile Char.isDigit
      let after := rest.dropWhile Char.isDigit
      guard (after = [] ∨ after.head? = some '\\')
      let port := Digit.number 10 (digits.map Digit.value)
      guard (port < Nat.pow 2 16)
      return (if digits = [] ∨ some port = scheme.defaultPort? then none else some port, after)
  | _ => some (none, [])

/-- The host in its written form. -/
def readHost? (scheme : Scheme) (t : Text) : Option Text :=
  if scheme.isWeb then Host.ofWeb? t else Host.ofOpaque? t

/-- The parts of a path between slashes; a slash at its start is not needed. -/
def pathParts (scheme : Scheme) (t : Text) : List Text :=
  match t with
  | [] => [[]]
  | c :: rest => (if isSlash scheme c then rest else t).splitOnP (isSlash scheme)

/-- Reads a URL with a host and one of the schemes of remote repositories. -/
def parse? (t : Text) : Option Url := do
  let (scheme, rest) ← cutScheme? (clean t)
  let rest ← skipSlashes? scheme rest
  let authority := rest.takeWhile (! endsAuthority scheme ·)
  let (host, rest') := cutHost false (dropCredentials authority)
  let host ← readHost? scheme host
  let (port, lead) ← readPort? scheme rest'
  let rest := lead ++ rest.drop authority.length
  let path := rest.takeWhile fun c => c != '?' && c != '#'
  let rest := rest.drop path.length
  let query := rest.takeWhile (· != '#')
  let fragment := rest.drop query.length
  return { scheme, host, port
           segments := resolve ((pathParts scheme path).map (Percent.encode Percent.inPath))
           query := if query = [] then none else some (Percent.encode Percent.inQuery (query.drop 1))
           fragment :=
             if fragment = [] then none
             else some (Percent.encode Percent.inFragment (fragment.drop 1)) }

/-! ### Writing -/

/-- The path with its first slash. -/
def path (u : Url) : Text :=
  '/' :: Text.join ['/'] u.segments.reverse

/-- The host with its port. -/
def authority (u : Url) : Text :=
  u.host ++ match u.port with
    | some port => ':' :: Text.decimal port
    | none => []

/-- The part of a URL after its path. -/
def tail (u : Url) : Text :=
  (match u.query with
    | some query => '?' :: query
    | none => []) ++
  (match u.fragment with
    | some fragment => '#' :: fragment
    | none => [])

/-- The written form of a URL. -/
def text (u : Url) : Text :=
  u.scheme.text ++ "://".toList ++ u.authority ++ u.path ++ u.tail

/-! ### Longer paths -/

/-- The directories that a new segment goes into: all segments, except that `/` has none. -/
def directories (u : Url) : List Text :=
  if u.segments = [[]] then [] else u.segments

/-- Adds a segment at the end of the path of a web URL. Segments that mean the directory itself or the
    one above add nothing, and tabs and line breaks are dropped. -/
def addSegment (u : Url) (segment : Text) : Url :=
  if segment = ['.'] ∨ segment = ['.', '.'] then u
  else
    let kept := segment.filter fun c => c != '\t' && c != '\n' && c != '\r'
    { u with segments := finish u.directories (Percent.encode Percent.inSegment kept) }

/-- Adds segments one after the other. -/
def addSegments (u : Url) (segments : List Text) : Url :=
  segments.foldl addSegment u

/-- The URL without an empty segment at the end of its path. -/
def dropEmptyEnd (u : Url) : Url :=
  match u.segments with
  | [] :: segment :: outer => { u with segments := segment :: outer }
  | _ => u

end Url

end ReqTrace
