/-
Module: ReqTrace.Document.Footnote
Purpose: Coverage footnotes: a name, a hint between backticks, and the links to the places that cover
  the requirement of that name.
Main exports: Coverer, Coverer.parseList?, Coverer.renderList, Footnote, Footnote.ofLine?,
  Footnote.render
-/
import ReqTrace.Diagnostic
import ReqTrace.Text.Blank

namespace ReqTrace

/-! ### Coverers -/

/-- A link to a place that covers a requirement. -/
structure Coverer where
  label : Text
  url : Text
  deriving DecidableEq, Repr

namespace Coverer

/-- The characters that a backslash protects inside a label. -/
def isProtected (c : Char) : Bool :=
  c == '\\' || c == '[' || c == ']'

/-- Writes a label so that it neither ends nor nests a link. -/
def escape : Text → Text
  | [] => []
  | c :: cs => if isProtected c then '\\' :: c :: escape cs else c :: escape cs

/-- Reads an escaped label up to the bracket that closes it. A backslash takes the character after it
    into the label; a line feed cannot be taken so. -/
def readLabel? : Text → Option (Text × Text)
  | [] => none
  | ']' :: rest => some ([], rest)
  | ['\\'] => none
  | '\\' :: c :: rest =>
      if c = '\n' then none
      else (readLabel? rest).map fun (label, rest) => (c :: label, rest)
  | c :: rest => (readLabel? rest).map fun (label, rest) => (c :: label, rest)

/-- A link target holds neither a closing parenthesis nor blanks. -/
def isUrlChar (c : Char) : Bool :=
  c != ')' && !isBlankChar c

/-- Reads a link at the start of a text. -/
def read? (t : Text) : Option (Coverer × Text) := do
  let rest ← Text.dropLead? ['['] t
  let (label, rest) ← readLabel? rest
  let rest ← Text.dropLead? ['('] rest
  let rest' ← Text.dropLead? [')'] (rest.dropWhile isUrlChar)
  return ({ label, url := rest.takeWhile isUrlChar }, rest')

/-- Reads one or more links with single commas between them and blanks around the commas. Each link
    takes at least one character, so `fuel` need not exceed the length of the text. -/
def readList? : (fuel : Nat) → Text → Option (List Coverer)
  | 0, _ => none
  | fuel + 1, t => do
      let (coverer, rest) ← read? t
      match Text.trimStart rest with
      | [] => return [coverer]
      | ',' :: rest => do
          let others ← readList? fuel (Text.trimStart rest)
          return coverer :: others
      | _ => none

/-- The coverers that a text lists; a blank text lists none. -/
def parseList? (t : Text) : Option (List Coverer) :=
  match Text.trim t with
  | [] => some []
  | t => readList? t.length t

/-- Writes a coverer as a link. -/
def render (c : Coverer) : Text :=
  '[' :: escape c.label ++ "](".toList ++ c.url ++ [')']

/-- Writes coverers with a comma and a space between them. -/
def renderList (coverers : List Coverer) : Text :=
  Text.join ", ".toList (coverers.map render)

end Coverer

/-! ### Footnotes -/

/-- A coverage footnote on a line of a document. -/
structure Footnote where
  name : Identifier
  line : Nat
  hint : Text
  coverers : List Coverer
  /-- The line as written, without the carriage returns at its end. -/
  raw : Text
  deriving DecidableEq

namespace Footnote

/-- A footnote's name holds neither tilde nor closing bracket. -/
def isNameChar (c : Char) : Bool :=
  c != '~' && c != ']'

/-- The name and the body of a line shaped like a coverage footnote. The body runs to the end of the
    line and holds no line feed. -/
def shape? (t : Text) : Option (Text × Text) := do
  let rest ← Text.dropLead? "[^~".toList t
  let name := rest.takeWhile isNameChar
  guard (name ≠ [])
  let body ← Text.dropLead? "~]:".toList (rest.dropWhile isNameChar)
  guard ('\n' ∉ body)
  return (name, body)

/-- Whether a line is shaped like a coverage footnote, well formed or not. -/
def isFootnoteLine (t : Text) : Bool :=
  (shape? t).isSome

/-- The hint between the backticks that open a body, and what follows them. -/
def readHint? (body : Text) : Option (Text × Text) := do
  let rest ← Text.dropLead? ['`'] (Text.trimStart body)
  Text.cut? '`' rest

/-- The footnote on a line, or what is wrong with it; `none` if the line is not shaped like one. -/
def ofLine? (line : Nat) (t : Text) : Option (Except SyntaxFault Footnote) := do
  let (nameText, body) ← shape? t
  return match Identifier.parse? nameText with
    | none => .error (.invalidFootnoteName nameText)
    | some name =>
        match readHint? body with
        | none => .error (.missingHint nameText)
        | some (hint, tail) =>
            match Coverer.parseList? tail with
            | none => .error (.malformedCoverers nameText)
            | some coverers =>
                .ok { name, line, hint, coverers, raw := Text.dropWhileEnd (· == '\r') t }

/-- Writes a footnote line. -/
def render (name : Identifier) (hint : Text) (coverers : List Coverer) : Text :=
  "[^~".toList ++ name.text ++ "~]: `".toList ++ hint ++ ['`'] ++
    (if coverers.isEmpty then [] else ' ' :: Coverer.renderList coverers)

end Footnote

end ReqTrace
