/-
Module: ReqTrace.Command
Purpose: What a command line asks for.
Main exports: Switch, Request, UsageError, Command, Command.parse
-/
import ReqTrace.Command.Argument
import ReqTrace.Path
import ReqTrace.Text.Digits

namespace ReqTrace

/-! ### Switches -/

/-- The switches of the command line. -/
inductive Switch where
  /-- Says more about the run. It may be repeated and changes no result. -/
  | verbose
  | help
  | version
  | dryRun
  | extensions
  | workers
  deriving DecidableEq, Repr

namespace Switch

/-- The letter of a switch. -/
def letter : Switch → Char
  | verbose => 'v'
  | help => 'h'
  | version => 'V'
  | dryRun => 'n'
  | extensions => 'e'
  | workers => 'j'

/-- The word of a switch. -/
def word : Switch → Text
  | verbose => "verbose".toList
  | help => "help".toList
  | version => "version".toList
  | dryRun => "dry-run".toList
  | extensions => "extensions".toList
  | workers => "workers".toList

/-- Whether a switch has a value. -/
def takesValue : Switch → Bool
  | extensions => true
  | workers => true
  | _ => false

end Switch

/-- Where on the command line one is: before or after the name of the command. -/
inductive Level where
  | program
  | trace
  deriving DecidableEq, Repr

/-- The switches that may stand on a level. -/
def Level.switches : Level → List Switch
  | program => [.verbose, .help, .version]
  | trace => [.verbose, .help, .dryRun, .extensions, .workers]

/-! ### Commands -/

/-- A run that is asked for. -/
structure Request where
  /-- The directory of the documents. -/
  documents : Path
  /-- The directories of the source files; there is at least one. -/
  sources : List Path
  /-- The extensions of the files to read, if they are given. -/
  extensions : Option (List Text)
  /-- Whether edits are only shown. -/
  dryRun : Bool
  /-- How many workers may read files, if it is given. -/
  workers : Option Nat
  deriving DecidableEq, Repr

/-- Why a command line makes no sense. -/
inductive UsageError where
  | missingCommand
  | unknownCommand (name : Text)
  | unknownArgument (argument : Text)
  | missingValue (switch : Switch)
  | valueNotTaken (switch : Switch) (value : Text)
  | repeated (switch : Switch)
  | notPositive (value : Text)
  | emptyPath
  | missingPath
  deriving DecidableEq, Repr

/-- The wording of the error. -/
def UsageError.message : UsageError → Text
  | missingCommand => "a command is required".toList
  | unknownCommand name => "unknown command '".toList ++ name ++ ['\'']
  | unknownArgument argument => "unexpected argument '".toList ++ argument ++ ['\'']
  | missingValue switch => "a value is required for '--".toList ++ switch.word ++ ['\'']
  | valueNotTaken switch value =>
      "unexpected value '".toList ++ value ++ "' for '--".toList ++ switch.word ++ ['\'']
  | repeated switch => "'--".toList ++ switch.word ++ "' is given more than once".toList
  | notPositive value => "'".toList ++ value ++ "' is not a positive number".toList
  | emptyPath => "a path is empty".toList
  | missingPath => "a directory of documents and one of source files are required".toList

/-- What a command line asks for. -/
inductive Command where
  | trace (request : Request)
  | help (level : Level)
  | version
  | misuse (error : UsageError)
  deriving DecidableEq, Repr

/-! ### Reading

Arguments are read from left to right. The first one that settles the command, be it a request for help
or a mistake, ends the reading; so reading gives either a command or what is known so far. -/

/-- What the arguments so far say. -/
structure Draft where
  level : Level
  paths : List Path
  extensions : Option (List Text)
  dryRun : Bool
  workers : Option Nat
  /-- The switch whose value has to follow. -/
  pending : Option Switch
  /-- Whether the end of the switches has passed. -/
  onlyPaths : Bool

namespace Draft

/-- Nothing is said yet. -/
def start (level : Level) : Draft :=
  { level, paths := [], extensions := none, dryRun := false, workers := none, pending := none
    onlyPaths := false }

/-- Adds a path. -/
def addPath (d : Draft) (t : Text) : Except Command Draft :=
  if t = [] then .error (.misuse .emptyPath) else .ok { d with paths := d.paths ++ [⟨t⟩] }

/-- Sets a switch. Its value, if it has one, has to follow. -/
def set (d : Draft) (switch : Switch) : Except Command Draft :=
  match switch with
  | .verbose => .ok d
  | .help => .error (.help d.level)
  | .version => .error .version
  | .dryRun =>
      if d.dryRun then .error (.misuse (.repeated switch)) else .ok { d with dryRun := true }
  | .extensions => .ok { d with pending := some switch }
  | .workers => .ok { d with pending := some switch }

/-- Sets a switch to a value. Extensions are separated by commas and may be given in several parts. -/
def setTo (d : Draft) (switch : Switch) (value : Text) : Except Command Draft :=
  match switch with
  | .extensions =>
      .ok { d with extensions := some (d.extensions.getD [] ++ value.splitOn ',') }
  | .workers =>
      if d.workers.isSome then .error (.misuse (.repeated switch))
      else
        match Text.count? value with
        | some (n + 1) => .ok { d with workers := some (n + 1) }
        | _ => .error (.misuse (.notPositive value))
  | _ => .error (.misuse (.valueNotTaken switch value))

/-- Reads the word of a switch. -/
def readWord (d : Draft) (word : Text) (value : Option Text) : Except Command Draft :=
  match d.level.switches.find? (·.word == word) with
  | none => .error (.misuse (.unknownArgument ("--".toList ++ word)))
  | some switch =>
      match value with
      | some value => d.setTo switch value
      | none => d.set switch

/-- Reads the letters of switches. What follows the letter of a switch with a value is that value, and
    may have an equals sign in front. -/
def readLetters (d : Draft) : Text → Except Command Draft
  | [] => .ok d
  | c :: rest =>
      match d.level.switches.find? (·.letter == c) with
      | none => .error (.misuse (.unknownArgument ['-', c]))
      | some switch =>
          if switch.takesValue ∧ rest ≠ [] then
            d.setTo switch ((Text.dropLead? ['='] rest).getD rest)
          else do (← d.set switch).readLetters rest

/-- Reads an argument after the name of the command. -/
def read (d : Draft) (argument : Text) : Except Command Draft :=
  if d.onlyPaths then d.addPath argument
  else
    match d.pending with
    | some switch =>
        if Argument.isValue argument then { d with pending := none }.setTo switch argument
        else .error (.misuse (.missingValue switch))
    | none =>
        match Argument.ofText argument with
        | .endOfSwitches => .ok { d with onlyPaths := true }
        | .word word value => d.readWord word value
        | .letters letters => d.readLetters letters
        | .value text => d.addPath text

/-- The command after the last argument. -/
def finish (d : Draft) : Command :=
  match d.pending, d.paths with
  | some switch, _ => .misuse (.missingValue switch)
  | none, documents :: first :: more =>
      .trace
        { documents, sources := first :: more, extensions := d.extensions, dryRun := d.dryRun
          workers := d.workers }
  | none, _ => .misuse .missingPath

end Draft

namespace Command

/-- Reads what follows the name of the command. -/
def readTrace (arguments : List Text) : Command :=
  match arguments.foldlM Draft.read (Draft.start .trace) with
  | .ok draft => draft.finish
  | .error command => command

/-- What help is asked for. -/
def readHelp : List Text → Command
  | [] => help .program
  | [name] =>
      if name = "trace".toList then help .trace
      else if name = "help".toList then help .program
      else misuse (.unknownCommand name)
  | _ :: name :: _ => misuse (.unknownCommand name)

/-- Reads a command line. -/
def parse : List Text → Command
  | [] => misuse .missingCommand
  | argument :: rest =>
      let draft := Draft.start .program
      match Argument.ofText argument with
      | .endOfSwitches =>
          misuse (match rest with
            | [] => .missingCommand
            | next :: _ => .unknownArgument next)
      | .word word value =>
          match draft.readWord word value with
          | .ok _ => parse rest
          | .error command => command
      | .letters letters =>
          match draft.readLetters letters with
          | .ok _ => parse rest
          | .error command => command
      | .value name =>
          if name = "trace".toList then readTrace rest
          else if name = "help".toList then readHelp rest
          else misuse (.unknownCommand name)

/-! ### What is printed -/

/-- The name and the version of the program. -/
def versionText : Text := "reqmd 0.1.0".toList

/-- How a level of the command line is used, line by line. -/
def usage (level : Level) : List Text :=
  List.map String.toList <| match level with
    | .program =>
        ["Keeps markdown requirements in sync with coverage tags found in source code",
          "",
          "Usage: reqmd [OPTIONS] <COMMAND>",
          "",
          "Commands:",
          "  trace  Update requirement coverage in markdown documents",
          "  help   Print this message or the help of the given subcommand(s)",
          "",
          "Options:",
          "  -v, --verbose...  Verbosity (-v, -vv, -vvv)",
          "  -h, --help        Print help",
          "  -V, --version     Print version"]
    | .trace =>
        ["Update requirement coverage in markdown documents",
          "",
          "Usage: reqmd trace [OPTIONS] <MARKDOWN_ROOT> <SOURCE_ROOTS>...",
          "",
          "Arguments:",
          "  <MARKDOWN_ROOT>    Directory containing the requirement documents",
          "  <SOURCE_ROOTS>...  Directories containing source code, each inside a git checkout",
          "",
          "Options:",
          "  -e, --extensions <EXTENSIONS>  File extensions to scan, comma separated",
          "  -v, --verbose...               Verbosity (-v, -vv, -vvv)",
          "  -n, --dry-run                  Print the planned changes without writing them",
          "  -j, --workers <WORKERS>        Number of scan workers",
          "  -h, --help                     Print help"]

/-- The command that a line of words stands for. -/
def ofWords (line : String) : Command :=
  parse (line.toList.splitOn ' ')

example : ofWords "-v trace -ne md,.RS docs --workers=+2 -e go src -- -lib" =
    trace
      { documents := .ofString "docs", sources := [.ofString "src", .ofString "-lib"]
        extensions := some ["md".toList, ".RS".toList, "go".toList], dryRun := true
        workers := some 2 } := by decide
example : ofWords "trace docs src -vhx" = help .trace := by decide
example : ofWords "trace -j 0 docs src" = misuse (.notPositive ['0']) := by decide
example : ofWords "trace -e -n docs src" = misuse (.missingValue .extensions) := by decide
example : ofWords "trace -V docs src" = misuse (.unknownArgument "-V".toList) := by decide
example : ofWords "-vV trace" = version := by decide
example : ofWords "-- trace docs src" = misuse (.unknownArgument "trace".toList) := by decide

end Command

end ReqTrace
