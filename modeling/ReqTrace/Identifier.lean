/-
Module: ReqTrace.Identifier
Purpose: Dotted identifiers and the ids of requirements, their grammar, order and spelling.
Main exports: Identifier, Identifier.parse, RequirementId, RequirementId.parse, RequirementId.text,
  RequirementId.hint
-/
import ReqTrace.Text.Basic

namespace ReqTrace

/-! ### Dotted identifiers -/

/-- A segment starts with an ASCII letter or an underscore. -/
def isSegmentStart (c : Char) : Bool :=
  c.isAlpha || c == '_'

/-- A segment goes on with ASCII letters, digits and underscores. -/
def isSegmentRest (c : Char) : Bool :=
  c.isAlphanum || c == '_'

/-- One segment of an identifier. -/
def isSegment : Text → Bool
  | [] => false
  | c :: cs => isSegmentStart c && cs.all isSegmentRest

/-- One or more segments with single dots between them. -/
def isIdentifier (t : Text) : Bool :=
  (t.splitOn '.').all isSegment

/-- A text that is an identifier. -/
structure Identifier where
  text : Text
  valid : isIdentifier text = true
  deriving DecidableEq

namespace Identifier

/-- The identifier with a given spelling, if there is one. -/
def parse? (t : Text) : Option Identifier :=
  if h : isIdentifier t = true then some ⟨t, h⟩ else none

instance : Ord Identifier := ⟨compareOn Identifier.text⟩

instance : Std.TransOrd Identifier := inferInstanceAs (Std.TransCmp (compareOn Identifier.text))

/-- Identifiers are compared by their texts. -/
theorem compare_eq (a b : Identifier) : compare a b = compare a.text b.text := rfl

instance : Std.LawfulEqOrd Identifier where
  eq_of_compare {a b} h := by
    have htext : a.text = b.text := Std.LawfulEqCmp.eq_of_compare (by rwa [compare_eq] at h)
    cases a
    cases b
    simp_all

@[simp] theorem parse?_text (i : Identifier) : parse? i.text = some i := by
  simp [parse?, i.valid]

theorem parse?_eq_some_iff {t : Text} {i : Identifier} : parse? t = some i ↔ i.text = t := by
  unfold parse?
  split
  · rename_i h
    constructor
    · intro heq
      cases heq
      rfl
    · intro heq
      subst heq
      rfl
  · rename_i h
    constructor
    · intro heq
      cases heq
    · intro heq
      exact absurd (heq ▸ i.valid) h

end Identifier

/-! ### Requirement ids -/

/-- A requirement is known by the package that declares it and its name there. The order is by package,
    then by name. -/
structure RequirementId where
  package : Identifier
  name : Identifier
  deriving DecidableEq

/-- Why a text names no requirement. -/
inductive IdError where
  /-- The text is no identifier. -/
  | invalidIdentifier (text : Text)
  /-- The text has no slash between package and name. -/
  | missingSlash (text : Text)
  deriving DecidableEq, Repr

namespace IdError

/-- The wording of the error. -/
def message : IdError → Text
  | invalidIdentifier text =>
      "Invalid identifier '".toList ++ text ++
        "': expected dot-separated segments of [A-Za-z_][A-Za-z0-9_]*".toList
  | missingSlash text =>
      "Invalid requirement ID '".toList ++ text ++ "': expected PACKAGE/NAME".toList

end IdError

namespace Identifier

/-- Reads an identifier. -/
def parse (t : Text) : Except IdError Identifier :=
  match parse? t with
  | some identifier => .ok identifier
  | none => .error (.invalidIdentifier t)

end Identifier

namespace RequirementId

instance : Ord RequirementId :=
  ⟨compareLex (compareOn RequirementId.package) (compareOn RequirementId.name)⟩

instance : Std.TransOrd RequirementId :=
  inferInstanceAs
    (Std.TransCmp (compareLex (compareOn RequirementId.package) (compareOn RequirementId.name)))

/-- The spelling `package/name`. -/
def text (id : RequirementId) : Text :=
  id.package.text ++ '/' :: id.name.text

/-- Reads `package/name`. The first slash ends the package, and a malformed package is reported before
    a malformed name. -/
def parse (t : Text) : Except IdError RequirementId :=
  match Text.cut? '/' t with
  | none => .error (.missingSlash t)
  | some (package, name) => do
      let package ← Identifier.parse package
      let name ← Identifier.parse name
      return { package, name }

/-- The tag that covers the requirement when it is pasted into source code. -/
def hint (id : RequirementId) : Text :=
  "[~".toList ++ id.text ++ "~impl]".toList

end RequirementId

end ReqTrace
