/-
Module: ReqTrace.Toml.Document
Purpose: TOML documents: definitions of keys under headers of tables.
Main exports: Toml.readValue?, Toml.parse?
-/
import ReqTrace.Toml.Scalar

namespace ReqTrace

namespace Toml

/-- How deep values are nested and how many parts a key has at most. -/
def maxDepth : Nat := 80

/-! ### Between values -/

/-- A text without leading spaces and tabs. -/
def skipSpace (t : Text) : Text :=
  t.dropWhile isSpace

/-- A text without leading spaces, tabs, line breaks and comments; `none` if a comment holds a control
    character. -/
def skipBreaks? (inComment : Bool) : Text → Option Text
  | [] => some []
  | c :: cs =>
      if isBreak c then skipBreaks? false cs
      else if inComment then (if isControl c then none else skipBreaks? true cs)
      else if isSpace c then skipBreaks? false cs
      else if c = '#' then skipBreaks? true cs
      else some (c :: cs)

/-- Whether only a comment may follow on the line. -/
def endsLine (t : Text) : Bool :=
  match skipSpace t with
  | [] => true
  | c :: _ => isBreak c || c == '#'

/-! ### Keys -/

/-- Whether a character may stand in a key without quotes. -/
def isBareChar (c : Char) : Bool :=
  c.isAlphanum || c == '_' || c == '-'

/-- Reads a key without dots. -/
def readSimpleKey? (t : Text) : Option (Text × Text) :=
  match t with
  | '"' :: _ => readQuoted? t
  | '\'' :: _ => readQuoted? t
  | _ =>
      let key := t.takeWhile isBareChar
      if key = [] then none else some (key, t.dropWhile isBareChar)

/-- Reads at most `count` simple keys with dots between them, and not one more after another dot. -/
def readKeys? : (count : Nat) → Text → Option (List Text × Text)
  | 0, _ => none
  | count + 1, t => do
      let (key, rest) ← readSimpleKey? (skipSpace t)
      match skipSpace rest with
      | '.' :: rest => do
          let (keys, rest) ← readKeys? count rest
          return (key :: keys, rest)
      | rest => return ([key], rest)

/-- Reads a dotted key. -/
def readKey? (t : Text) : Option (List Text × Text) :=
  readKeys? maxDepth t

/-! ### Values -/

/-- Reads the items of an array after its opening bracket or a comma. -/
def readItems? (item : Text → Option (Value × Text)) :
    (fuel : Nat) → Text → Option (List Value × Text)
  | 0, _ => none
  | fuel + 1, t => do
      match ← skipBreaks? false t with
      | ']' :: rest => return ([], rest)
      | t => do
          let (value, rest) ← item t
          match ← skipBreaks? false rest with
          | ']' :: rest => return ([value], rest)
          | ',' :: rest => do
              let (values, rest) ← readItems? item fuel rest
              return (value :: values, rest)
          | _ => none

/-- Reads a dotted key, an equals sign and a value. -/
def readDefinition? (item : Text → Option (Value × Text)) (t : Text) :
    Option (List Text × Value × Text) := do
  let (keys, rest) ← readKey? t
  let rest ← Text.dropLead? ['='] rest
  let (value, rest) ← item (skipSpace rest)
  return (keys, value, rest)

/-- Reads the definitions of a table in braces after its opening brace or a comma. -/
def readFields? (item : Text → Option (Value × Text)) :
    (fuel : Nat) → Entries → Text → Option (Entries × Text)
  | 0, _, _ => none
  | fuel + 1, entries, t => do
      match ← skipBreaks? false t with
      | '}' :: rest => return (entries, rest)
      | t => do
          let (keys, value, rest) ← readDefinition? item t
          let entries ← define? keys value entries
          match ← skipBreaks? false rest with
          | '}' :: rest => return (entries, rest)
          | ',' :: rest => readFields? item fuel entries rest
          | _ => none

/-- Reads a value without brackets or braces. -/
def readLeaf? (t : Text) : Option (Value × Text) :=
  ((readString? t).map fun (s, rest) => (Value.string s, rest)).or (readPlain? t)

/-- Reads a value with at most `depth` brackets and braces inside each other. The items of an array take
    at least one character each, so `fuel` need not exceed the length of the text. -/
def readValue? (fuel : Nat) : (depth : Nat) → Text → Option (Value × Text)
  | 0, t => readLeaf? t
  | depth + 1, t =>
      match t with
      | '[' :: rest => do
          let (items, rest) ← readItems? (readValue? fuel depth) fuel rest
          return (.array items, rest)
      | '{' :: rest => do
          let (entries, rest) ← readFields? (readValue? fuel depth) fuel [] rest
          return (.table .inline entries, rest)
      | t => readLeaf? t

/-! ### Documents -/

/-- Reads a header and says whether it has double brackets. -/
def readHeader? (t : Text) : Option (Bool × List Text × Text) := do
  match ← Text.dropLead? ['['] t with
  | '[' :: rest => do
      let (keys, rest) ← readKey? rest
      return (true, keys, ← Text.dropLead? "]]".toList rest)
  | rest => do
      let (keys, rest) ← readKey? rest
      return (false, keys, ← Text.dropLead? [']'] rest)

/-- Reads headers and definitions. The definitions after a header go into its table. Each takes at least
    one character, so `fuel` need not exceed the length of the text. -/
def readStatements? : (fuel : Nat) → (header : List Text) → Entries → Text → Option Entries
  | 0, _, _, _ => none
  | fuel + 1, header, root, t => do
      match ← skipBreaks? false t with
      | [] => return root
      | '[' :: rest => do
          let (double, keys, rest) ← readHeader? ('[' :: rest)
          guard (endsLine rest)
          let root ← if double then openItem? keys root else openTable? keys root
          readStatements? fuel keys root rest
      | t => do
          let (keys, value, rest) ← readDefinition? (readValue? fuel maxDepth) t
          guard (endsLine rest)
          let root ← changeAt? (define? keys value) header root
          readStatements? fuel header root rest

/-- Whether a line feed follows every carriage return, as it has to. -/
def hasWholeBreaks : Text → Bool
  | [] => true
  | '\r' :: rest => rest.head? == some '\n' && hasWholeBreaks rest
  | _ :: rest => hasWholeBreaks rest

/-- The root table of a document, if the text is one. A byte order mark at the start is passed over. -/
def parse? (t : Text) : Option Entries := do
  guard (hasWholeBreaks t)
  let t := (Text.dropLead? ['\ufeff'] t).getD t
  readStatements? (t.length + 1) [] [] t

end Toml

end ReqTrace
