/-
Module: ReqTrace.Json.Object
Purpose: JSON objects whose values are strings.
Main exports: Json.readObject, Json.renderObject
-/
import ReqTrace.Json.Number
import ReqTrace.Json.Text
import ReqTrace.Text.Visible

namespace ReqTrace

namespace Json

/-! ### Reading -/

/-- The white space of JSON. -/
def isSpace (c : Char) : Bool :=
  c == ' ' || c == '\n' || c == '\t' || c == '\r'

/-- A text without leading white space. -/
def skipSpace (t : Text) : Text :=
  t.dropWhile isSpace

/-- Reads the characters of a literal name one by one. -/
def readName : (name t : Text) → Except Stop Text
  | [], t => .ok t
  | _ :: _, [] => .error ⟨.eofInValue, [], 0⟩
  | expected :: name, c :: cs =>
      if c = expected then readName name cs else .error ⟨.expectedIdent, c :: cs, 1⟩

/-- The fault of a value that is not of the expected kind. Names, numbers and strings are read to their
    end first, and a fault in them is reported instead. -/
def mismatch (expected : Text) (t : Text) : Stop :=
  let found (what rest : Text) : Stop := ⟨.invalidType what expected, rest, 0⟩
  let name (what tail rest : Text) : Stop :=
    match readName tail rest with
    | .ok rest => found what rest
    | .error stop => stop
  let number (positive : Bool) (rest : Text) : Stop :=
    match readNumber positive rest with
    | .ok (n, rest) => found n.text rest
    | .error stop => stop
  match t with
  | 'n' :: rest => name "null".toList "ull".toList rest
  | 't' :: rest => name "boolean `true`".toList "rue".toList rest
  | 'f' :: rest => name "boolean `false`".toList "alse".toList rest
  | '-' :: rest => number false rest
  | '[' :: _ => found "sequence".toList t
  | '{' :: _ => found "map".toList t
  | '"' :: rest =>
      match readText none rest with
      | .ok (s, rest) => found ("string ".toList ++ Text.visible s) rest
      | .error stop => stop
  | _ => if startsWithDigit t then number true t else ⟨.expectedValue, t, 1⟩

/-- Reads an entry of an object after the opening quote of its key. -/
def readEntry (t : Text) : Except Stop ((Text × Text) × Text) := do
  let (key, rest) ← readText none t
  let rest ←
    match skipSpace rest with
    | [] => .error ⟨.eofInObject, [], 0⟩
    | ':' :: rest => .ok (skipSpace rest)
    | rest => .error ⟨.expectedColon, rest, 1⟩
  let (value, rest) ←
    match rest with
    | [] => .error ⟨.eofInValue, [], 0⟩
    | '"' :: rest => readText none rest
    | rest => .error (mismatch "a string".toList rest)
  return ((key, value), rest)

/-- Reads what follows an entry: further entries or the end of the object. An entry takes at least one
    character, so `fuel` need not exceed the length of the text. -/
def readMore : (fuel : Nat) → Text → Except Stop (List (Text × Text) × Text)
  | 0, t => .error ⟨.eofInObject, t, 0⟩
  | fuel + 1, t =>
      match skipSpace t with
      | [] => .error ⟨.eofInObject, [], 0⟩
      | '}' :: rest => .ok ([], rest)
      | ',' :: rest =>
          match skipSpace rest with
          | [] => .error ⟨.eofInValue, [], 0⟩
          | '"' :: rest => do
              let (entry, rest) ← readEntry rest
              let (entries, rest) ← readMore fuel rest
              return (entry :: entries, rest)
          | '}' :: rest => .error ⟨.trailingComma, '}' :: rest, 1⟩
          | rest => .error ⟨.keyNotString, rest, 1⟩
      | rest => .error ⟨.expectedCommaOrEnd, rest, 1⟩

/-- Reads the entries of an object after its opening brace. -/
def readEntries (t : Text) : Except Stop (List (Text × Text) × Text) :=
  match skipSpace t with
  | [] => .error ⟨.eofInObject, [], 0⟩
  | '}' :: rest => .ok ([], rest)
  | '"' :: rest => do
      let (entry, rest) ← readEntry rest
      let (entries, rest) ← readMore (rest.length + 1) rest
      return (entry :: entries, rest)
  | rest => .error ⟨.keyNotString, rest, 1⟩

/-- Reads a text that is one object of strings, and says where it stops if it is not. -/
def readWhole (t : Text) : Except Stop (List (Text × Text)) :=
  match skipSpace t with
  | [] => .error ⟨.eofInValue, [], 0⟩
  | '{' :: rest => do
      let (entries, rest) ← readEntries rest
      match skipSpace rest with
      | [] => return entries
      | rest => .error ⟨.trailingCharacters, rest, 1⟩
  | rest => .error (mismatch "a map".toList rest)

/-- The entries of a text that is one object of strings, in text order. -/
def readObject (t : Text) : Except ReadError (List (Text × Text)) :=
  (readWhole t).mapError (Stop.toError t)

/-! ### Writing -/

/-- An entry on a line of its own. -/
def renderEntry (entry : Text × Text) : Text :=
  "  ".toList ++ quote entry.1 ++ ": ".toList ++ quote entry.2

/-- Writes an object with one entry per line, indented by two spaces. -/
def renderObject : List (Text × Text) → Text
  | [] => "\x7b\x7d".toList
  | entries => "\x7b\n".toList ++ Text.join ",\n".toList (entries.map renderEntry) ++ "\n\x7d".toList

end Json

end ReqTrace
