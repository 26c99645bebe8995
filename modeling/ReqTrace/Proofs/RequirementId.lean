/-
Module: ReqTrace.Proofs.RequirementId
Purpose: The spelling of requirement ids. Dotted names have a grammar of their own, apart from the check that
  identifiers pass. A text spells an id exactly if it is two dotted names with a slash between them, each id has one
  spelling, and no spelling, hint or tag belongs to two ids.
Main exports: DottedName, isIdentifier_iff, RequirementId.parse_eq_ok_iff_text, RequirementId.one_spelling
-/
import ReqTrace.Proofs.Tag

namespace ReqTrace

open Text

/-! ### Dotted names -/

/-- The ASCII letters and the underscore. -/
def IsLetter (c : Char) : Prop :=
  ('A' ≤ c ∧ c ≤ 'Z') ∨ ('a' ≤ c ∧ c ≤ 'z') ∨ c = '_'

/-- The ASCII digits. -/
def IsDigit (c : Char) : Prop :=
  '0' ≤ c ∧ c ≤ '9'

instance : DecidablePred IsLetter := fun c =>
  inferInstanceAs (Decidable (('A' ≤ c ∧ c ≤ 'Z') ∨ ('a' ≤ c ∧ c ≤ 'z') ∨ c = '_'))

instance : DecidablePred IsDigit := fun c =>
  inferInstanceAs (Decidable ('0' ≤ c ∧ c ≤ '9'))

/-- A segment is a letter and then letters and digits. -/
inductive Segment : Text → Prop where
  | word {c : Char} {rest : Text} (first : IsLetter c) (others : ∀ x ∈ rest, IsLetter x ∨ IsDigit x) :
      Segment (c :: rest)

/-- A dotted name is a segment, or a segment, a dot and a dotted name. -/
inductive DottedName : Text → Prop where
  | one {segment : Text} (first : Segment segment) : DottedName segment
  | more {segment rest : Text} (first : Segment segment) (after : DottedName rest) :
      DottedName (segment ++ '.' :: rest)

theorem isSegmentStart_iff {c : Char} : isSegmentStart c = true ↔ IsLetter c := by
  unfold isSegmentStart IsLetter
  delta Char.isAlpha Char.isUpper Char.isLower
  simp [Char.le_def, or_assoc]

theorem isSegmentRest_iff {c : Char} : isSegmentRest c = true ↔ IsLetter c ∨ IsDigit c := by
  unfold isSegmentRest IsLetter IsDigit
  delta Char.isAlphanum Char.isAlpha Char.isUpper Char.isLower Char.isDigit
  simp [Char.le_def]
  tauto

theorem isSegment_iff {t : Text} : isSegment t = true ↔ Segment t := by
  constructor
  · intro h
    cases t with
    | nil => cases h
    | cons c rest =>
        simp only [isSegment, Bool.and_eq_true, List.all_eq_true] at h
        exact .word (isSegmentStart_iff.mp h.1) fun x hx => isSegmentRest_iff.mp (h.2 x hx)
  · rintro ⟨first, others⟩
    simp only [isSegment, Bool.and_eq_true, List.all_eq_true]
    exact ⟨isSegmentStart_iff.mpr first, fun x hx => isSegmentRest_iff.mpr (others x hx)⟩

theorem Segment.dot_not_mem {segment : Text} (h : Segment segment) : '.' ∉ segment := by
  intro hmem
  have hrest := Identifier.isSegmentRest_of_mem (isSegment_iff.mpr h) hmem
  exact absurd hrest (by decide)

theorem DottedName.join {segments : List Text} (nonempty : segments ≠ []) (h : ∀ segment ∈ segments, Segment segment) :
    DottedName (Text.join ['.'] segments) := by
  induction segments with
  | nil => exact absurd rfl nonempty
  | cons first others ih =>
      obtain ⟨hfirst, hothers⟩ := List.forall_mem_cons.mp h
      cases others with
      | nil =>
          have hjoin : Text.join ['.'] [first] = first := by simp [Text.join]
          rw [hjoin]
          exact .one hfirst
      | cons second others =>
          have hjoin : Text.join ['.'] (first :: second :: others) =
              first ++ '.' :: Text.join ['.'] (second :: others) := by simp [Text.join]
          rw [hjoin]
          exact .more hfirst (ih (by simp) hothers)

/-- The identifiers are the dotted names. -/
theorem isIdentifier_iff {t : Text} : isIdentifier t = true ↔ DottedName t := by
  constructor
  · intro h
    have hjoin : Text.join ['.'] (t.splitOn '.') = t := List.intercalate_splitOn '.'
    rw [← hjoin]
    exact .join (List.splitOn_ne_nil '.' t) fun segment hsegment => isSegment_iff.mp (List.all_eq_true.mp h _ hsegment)
  · intro h
    induction h with
    | one first =>
        rw [isIdentifier, List.splitOn_eq_singleton first.dot_not_mem]
        simp [isSegment_iff.mpr first]
    | more first after ih =>
        rw [isIdentifier, List.splitOn_append_cons_self, List.splitOn_eq_singleton first.dot_not_mem]
        simp only [List.singleton_append, List.all_cons, Bool.and_eq_true]
        exact ⟨isSegment_iff.mpr first, ih⟩

theorem Identifier.dottedName (i : Identifier) : DottedName i.text :=
  isIdentifier_iff.mp i.valid

/-- Each dotted name is the text of an identifier. -/
theorem DottedName.exists_identifier {t : Text} (h : DottedName t) : ∃ i : Identifier, i.text = t :=
  ⟨⟨t, isIdentifier_iff.mpr h⟩, rfl⟩

/-! ### Spellings -/

namespace RequirementId

theorem slash_not_mem_package (id : RequirementId) : '/' ∉ id.package.text :=
  id.package.not_mem_text (by decide)

/-- An id is read from its spelling and from nothing else. -/
theorem parse_eq_ok_iff_text {s : Text} {id : RequirementId} : parse s = .ok id ↔ s = id.text := by
  constructor
  · intro h
    cases hcut : cut? '/' s with
    | none =>
        rw [parse, hcut] at h
        cases h
    | some parts =>
        obtain ⟨package, name⟩ := parts
        obtain ⟨rfl, plain⟩ := cut?_eq_some_iff.mp hcut
        obtain ⟨rfl, rfl⟩ := (parse_eq_ok_iff plain).mp h
        rfl
  · rintro rfl
    exact (parse_eq_ok_iff id.slash_not_mem_package).mpr ⟨rfl, rfl⟩

/-- Only one cut of a text at a slash has a dotted name in front of it. -/
theorem text_eq_iff {id : RequirementId} {package name : Text} (h : DottedName package) :
    id.text = package ++ '/' :: name ↔ id.package.text = package ∧ id.name.text = name := by
  obtain ⟨i, rfl⟩ := h.exists_identifier
  exact append_cons_inj id.slash_not_mem_package (i.not_mem_text (by decide))

theorem text_injective {id id' : RequirementId} (h : id.text = id'.text) : id = id' := by
  have hread := parse_eq_ok_iff_text.mpr h
  rw [parse_eq_ok_iff_text.mpr rfl] at hread
  exact Except.ok.inj hread

/-- The characters of a spelling are those of identifiers, and the slash. -/
theorem isIdentifierChar_or_slash_of_mem {id : RequirementId} {c : Char} (hc : c ∈ id.text) :
    isIdentifierChar c = true ∨ c = '/' := by
  rcases List.mem_append.mp hc with hpackage | hrest
  · exact .inl (id.package.isIdentifierChar_of_mem hpackage)
  · rcases List.mem_cons.mp hrest with hslash | hname
    · exact .inr hslash
    · exact .inl (id.name.isIdentifierChar_of_mem hname)

theorem not_mem_text {id : RequirementId} {c : Char} (other : isIdentifierChar c = false) (notSlash : c ≠ '/') :
    c ∉ id.text := by
  intro hmem
  rcases isIdentifierChar_or_slash_of_mem hmem with hchar | hslash
  · rw [other] at hchar
    cases hchar
  · exact notSlash hslash

theorem count_slash (id : RequirementId) : id.text.count '/' = 1 := by
  have hpackage : id.package.text.count '/' = 0 := List.count_eq_zero.mpr id.slash_not_mem_package
  have hname : id.name.text.count '/' = 0 := List.count_eq_zero.mpr (id.name.not_mem_text (by decide))
  rw [text, List.count_append, List.count_cons_self, hpackage, hname]

/-- A tag ends the id that it is for with its second tilde. -/
theorem eq_of_tag {tag tag' : Tag} (h : tag.written.text = tag'.written.text) :
    tag.requirement = tag'.requirement ∧ tag.type = tag'.type := by
  have hplain : ∀ id : RequirementId, '~' ∉ id.text := fun id => not_mem_text (by decide) (by decide)
  have htext : ∀ tag : Tag, tag.written.text = "[~".toList ++ (tag.requirement.text ++ '~' :: (tag.type ++ [']'])) := by
    intro tag
    simp [Tag.text_written]
  rw [htext, htext, List.append_cancel_left_eq, append_cons_inj (hplain _) (hplain _), List.append_cancel_right_eq] at h
  exact ⟨text_injective h.1, h.2⟩

/-- Requirement ids have one spelling. A text is read exactly if it is two dotted names with a slash between them,
    it is then cut into these in one way only, and the id that is read is written as it was. Every id is read from
    its text. Different ids have different texts, hints and tags, and no text has a character that ends the place
    where ids are written. -/
theorem one_spelling :
    (∀ s : Text, (∃ id, parse s = .ok id) ↔
        ∃ package name, DottedName package ∧ DottedName name ∧ s = package ++ '/' :: name) ∧
      (∀ (s : Text) (id : RequirementId), parse s = .ok id → id.text = s ∧
        ∀ package name, DottedName package → DottedName name → s = package ++ '/' :: name →
          id.package.text = package ∧ id.name.text = name) ∧
      (∀ id : RequirementId, parse id.text = .ok id) ∧
      (∀ id id' : RequirementId, id ≠ id' → id.text ≠ id'.text ∧ id.hint ≠ id'.hint ∧
        ∀ tag tag' : Tag, tag.requirement = id → tag'.requirement = id' → tag.written.text ≠ tag'.written.text) ∧
      ∀ id : RequirementId, '~' ∉ id.text ∧ '`' ∉ id.text ∧ ']' ∉ id.text ∧
        (∀ c ∈ id.text, isBlankChar c = false) ∧ id.text.count '/' = 1 := by
  refine ⟨fun s => ?_, fun s id h => ?_, fun id => parse_eq_ok_iff_text.mpr rfl, fun id id' hne => ?_, fun id => ?_⟩
  · constructor
    · rintro ⟨id, h⟩
      exact ⟨id.package.text, id.name.text, id.package.dottedName, id.name.dottedName, parse_eq_ok_iff_text.mp h⟩
    · rintro ⟨package, name, hpackage, hname, rfl⟩
      obtain ⟨i, rfl⟩ := hpackage.exists_identifier
      obtain ⟨i', rfl⟩ := hname.exists_identifier
      exact ⟨⟨i, i'⟩, parse_eq_ok_iff_text.mpr rfl⟩
  · have htext := (parse_eq_ok_iff_text.mp h).symm
    exact ⟨htext, fun package name hpackage _ hs => (text_eq_iff hpackage).mp (htext.trans hs)⟩
  · have htext : id.text ≠ id'.text := fun heq => hne (text_injective heq)
    refine ⟨htext, fun hhint => htext ?_, ?_⟩
    · rw [hint, hint, List.append_cancel_right_eq, List.append_cancel_left_eq] at hhint
      exact hhint
    · rintro tag tag' rfl rfl hwritten
      exact hne (eq_of_tag hwritten).1
  · have hother : ∀ {c}, isIdentifierChar c = false ∧ c ≠ '/' → c ∉ id.text := fun h => not_mem_text h.1 h.2
    refine ⟨hother (by decide), hother (by decide), hother (by decide), fun c hc => ?_, id.count_slash⟩
    rcases isIdentifierChar_or_slash_of_mem hc with hchar | rfl
    · exact not_isBlankChar_of_isIdentifierChar hchar
    · decide

/-- An id of two dotted names, and the one with package and name exchanged: a text that holds a second slash, or a
    segment that starts with a digit, spells no id. -/
theorem one_spelling_exchanged :
    let package : Identifier := ⟨"server.api.v2".toList, by decide⟩
    let name : Identifier := ⟨"Post.handler".toList, by decide⟩
    let s : Text := "server.api.v2/Post.handler".toList
    let id : RequirementId := ⟨package, name⟩
    let other : RequirementId := ⟨name, package⟩
    (parse s = .ok id ∧ id.text = s ∧ id.package.text = "server.api.v2".toList ∧
        id.name.text = "Post.handler".toList) ∧
      (id.text ≠ other.text ∧ id.hint ≠ other.hint ∧
        (Tag.mk id "impl".toList 1).written.text ≠ (Tag.mk other "impl".toList 1).written.text) ∧
      (parse "server/api/Post".toList).toOption = none ∧ (parse "server.2/Post".toList).toOption = none := by
  intro package name s id other
  have hread : parse s = .ok id := by decide
  have hne : id ≠ other := by decide
  obtain ⟨-, hcut, -, hdifferent, -⟩ := one_spelling
  obtain ⟨htext, hparts⟩ := hcut s id hread
  obtain ⟨hpackage, hname⟩ := hparts package.text name.text package.dottedName name.dottedName rfl
  obtain ⟨hspelling, hhint, htag⟩ := hdifferent id other hne
  refine ⟨⟨hread, htext, hpackage, hname⟩, ⟨hspelling, hhint, ?_⟩, by decide, by decide⟩
  exact htag ⟨id, _, 1⟩ ⟨other, _, 1⟩ rfl rfl

end RequirementId

end ReqTrace
