/-
Module: ReqTrace.Diagnostic
Purpose: What can be wrong with documents, source files and manifests, where, and in which words.
Main exports: SyntaxFault, SyntaxError, SemanticFault, SemanticError
-/
import ReqTrace.Identifier
import ReqTrace.Path
import ReqTrace.Json.Error

namespace ReqTrace

/-! ### Syntax -/

/-- A construct that is malformed on its own. -/
inductive SyntaxFault where
  | invalidPackage (value : Text)
  | invalidRequirementName (name : Text)
  /-- The status word of a site and its glyph disagree, or the word is unknown. -/
  | statusMismatch (status glyph : Text)
  /-- A site that is annotated without having word, reference and glyph. -/
  | incompleteMarker (marker : Text)
  /-- A site whose reference names another requirement. -/
  | footnoteReferenceMismatch (site reference : Text)
  | invalidFootnoteName (name : Text)
  | missingHint (footnote : Text)
  | malformedCoverers (footnote : Text)
  | duplicateFootnote (footnote : Text)
  | invalidCoverageTag (tag : Text)
  | malformedManifest (error : Json.ReadError)
  deriving DecidableEq, Repr

/-- A text between single quotes. -/
def Text.quoted (t : Text) : Text :=
  '\'' :: t ++ ['\'']

/-- The wording of a syntax fault. -/
def SyntaxFault.message : SyntaxFault → Text
  | invalidPackage value => "invalid package identifier ".toList ++ value.quoted
  | invalidRequirementName name => "invalid requirement name ".toList ++ name.quoted
  | statusMismatch status glyph =>
      "status ".toList ++ status.quoted ++ " does not match glyph ".toList ++ glyph.quoted
  | incompleteMarker marker => "incomplete coverage annotation ".toList ++ marker.quoted
  | footnoteReferenceMismatch site reference =>
      "requirement ".toList ++ site.quoted ++ " references footnote ".toList ++ reference.quoted
  | invalidFootnoteName name => "invalid footnote name ".toList ++ name.quoted
  | missingHint footnote => "footnote ".toList ++ footnote.quoted ++ " is missing its hint".toList
  | malformedCoverers footnote =>
      "malformed coverer list in footnote ".toList ++ footnote.quoted
  | duplicateFootnote footnote => "duplicate footnote ".toList ++ footnote.quoted
  | invalidCoverageTag tag => "invalid coverage tag ".toList ++ tag.quoted
  | malformedManifest error => "malformed manifest: ".toList ++ error.message

/-- A place in a file in front of a message. -/
def located (path : Path) (line : Nat) (message : Text) : Text :=
  path.text ++ ':' :: Text.decimal line ++ ": ".toList ++ message

/-- A syntax fault in a file. -/
structure SyntaxError where
  path : Path
  line : Nat
  fault : SyntaxFault
  deriving DecidableEq, Repr

/-- The wording of a syntax error. -/
def SyntaxError.message (e : SyntaxError) : Text :=
  located e.path e.line e.fault.message

/-! ### Semantics -/

/-- What is wrong with documents that are well formed on their own. -/
inductive SemanticFault where
  /-- The requirement is declared before, at the place given. -/
  | duplicateRequirement (id : RequirementId) (firstPath : Path) (firstLine : Nat)
  /-- A document that declares requirements names no package. -/
  | missingPackage
  deriving DecidableEq

/-- The wording of a semantic fault. -/
def SemanticFault.message : SemanticFault → Text
  | duplicateRequirement id firstPath firstLine =>
      "duplicate requirement ".toList ++ id.text.quoted ++ ", first declared at ".toList ++
        firstPath.text ++ ':' :: Text.decimal firstLine
  | missingPackage => "missing package declaration".toList

/-- A semantic fault at a place in a file. -/
structure SemanticError where
  path : Path
  line : Nat
  fault : SemanticFault
  deriving DecidableEq

/-- The wording of a semantic error. -/
def SemanticError.message (e : SemanticError) : Text :=
  located e.path e.line e.fault.message

end ReqTrace
