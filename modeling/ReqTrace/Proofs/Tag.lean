/-
Module: ReqTrace.Proofs.Tag
Purpose: Which tags are found in a source file: every one that stands somewhere in its text, once, with its line, and
  nothing else. No tag starts inside another one, nor inside what is written like a tag.
Main exports: TagText.WellWritten, TagText.read?_eq_some_iff, TagText.apart_read?, Tag.StandsIn,
  ParsedSource.isTypeChar_of_mem_tags, ParsedSource.exists_tags_eq
-/
import ReqTrace.Proofs.Document.Returns
import ReqTrace.Proofs.Identifier
import ReqTrace.Tag

namespace ReqTrace

open Text

/-! ### Tags as written -/

namespace TagText

/-- The parts of a tag that can be read back: none is empty, and each holds characters of its class only. -/
structure WellWritten (tag : TagText) : Prop where
  package_ne_nil : tag.package ≠ []
  isPackageChar : ∀ c ∈ tag.package, isPackageChar c = true
  name_ne_nil : tag.name ≠ []
  isNameChar : ∀ c ∈ tag.name, isNameChar c = true
  type_ne_nil : tag.type ≠ []
  isTypeChar : ∀ c ∈ tag.type, isTypeChar c = true

theorem text_append (tag : TagText) (rest : Text) :
    tag.text ++ rest = '[' :: '~' :: (tag.package ++ '/' :: (tag.name ++ '~' :: (tag.type ++ ']' :: rest))) := by
  simp [text]

theorem readPart?_eq_some_iff {p : Char → Bool} {stop : Char} (hstop : p stop = false) {t part rest : Text} :
    readPart? p stop t = some (part, rest) ↔
      t = part ++ stop :: rest ∧ part ≠ [] ∧ ∀ c ∈ part, p c = true := by
  constructor
  · intro h
    simp only [readPart?, Option.bind_eq_bind, Option.bind_eq_some_iff] at h
    obtain ⟨_, hnonempty, rest', hlead, hpair⟩ := h
    cases hpair
    refine ⟨?_, (Option.guard_eq_some' _).mp hnonempty, fun c hc => List.mem_takeWhile_imp hc⟩
    have hdrop := dropLead?_eq_some_iff.mp hlead
    rw [List.singleton_append] at hdrop
    rw [← hdrop, List.takeWhile_append_dropWhile]
  · intro h
    obtain ⟨rfl, hnonempty, hpart⟩ := h
    have htake := takeWhile_append_cons rest hpart hstop
    have hdrop := dropWhile_append_cons rest hpart hstop
    simp [readPart?, htake, hdrop, hnonempty]

/-- A tag is read at the start of a text exactly if it is well written and the text starts with it. -/
theorem read?_eq_some_iff {t : Text} {tag : TagText} {length : Nat} :
    read? t = some (tag, length) ↔
      tag.WellWritten ∧ length = tag.text.length ∧ ∃ rest, t = tag.text ++ rest := by
  have hpackage : TagText.isPackageChar '/' = false := by decide
  have hname : TagText.isNameChar '~' = false := by decide
  have htype : TagText.isTypeChar ']' = false := by decide
  constructor
  · intro h
    simp only [read?, Option.bind_eq_bind, Option.bind_eq_some_iff] at h
    obtain ⟨inner, hopen, ⟨package, afterPackage⟩, hreadPackage, ⟨name, afterName⟩, hreadName,
      ⟨type, rest⟩, hreadType, hpair⟩ := h
    cases hpair
    obtain ⟨rfl, hpackageNonempty, hpackageChars⟩ := (readPart?_eq_some_iff hpackage).mp hreadPackage
    obtain ⟨rfl, hnameNonempty, hnameChars⟩ := (readPart?_eq_some_iff hname).mp hreadName
    obtain ⟨rfl, htypeNonempty, htypeChars⟩ := (readPart?_eq_some_iff htype).mp hreadType
    refine ⟨⟨hpackageNonempty, hpackageChars, hnameNonempty, hnameChars, htypeNonempty, htypeChars⟩, rfl, rest, ?_⟩
    rw [text_append, dropLead?_eq_some_iff.mp hopen]
    rfl
  · intro h
    obtain ⟨well, rfl, rest, rfl⟩ := h
    have hopen := dropLead?_append "[~".toList
      (tag.package ++ '/' :: (tag.name ++ '~' :: (tag.type ++ ']' :: rest)))
    have hreadPackage := (readPart?_eq_some_iff hpackage).mpr
      ⟨(rfl : tag.package ++ '/' :: (tag.name ++ '~' :: (tag.type ++ ']' :: rest)) = _),
        well.package_ne_nil, well.isPackageChar⟩
    have hreadName := (readPart?_eq_some_iff hname).mpr
      ⟨(rfl : tag.name ++ '~' :: (tag.type ++ ']' :: rest) = _), well.name_ne_nil, well.isNameChar⟩
    have hreadType := (readPart?_eq_some_iff htype).mpr
      ⟨(rfl : tag.type ++ ']' :: rest = _), well.type_ne_nil, well.isTypeChar⟩
    rw [text_append]
    simp only [String.reduceToList, List.cons_append, List.nil_append] at hopen
    simp [read?, hopen, hreadPackage, hreadName, hreadType]

theorem WellWritten.tilde_not_mem {tag : TagText} (well : tag.WellWritten) :
    '~' ∉ tag.package ++ '/' :: tag.name := by
  rw [List.mem_append, List.mem_cons]
  rintro (hmem | hmem | hmem)
  · exact absurd (well.isPackageChar _ hmem) (by decide)
  · exact absurd hmem (by decide)
  · exact absurd (well.isNameChar _ hmem) (by decide)

theorem WellWritten.bracket_not_mem {tag : TagText} (well : tag.WellWritten) : '[' ∉ tag.type ++ [']'] := by
  rw [List.mem_append, List.mem_singleton]
  rintro (hmem | hmem)
  · exact absurd (well.isTypeChar _ hmem) (by decide)
  · exact absurd hmem (by decide)

/-- A bracket closes the type of a tag before there is a slash, so no package starts with the type. -/
theorem WellWritten.type_ne_package {tag tag' : TagText} (well : tag.WellWritten) (well' : tag'.WellWritten)
    (rest rest' : Text) : tag.type ++ ']' :: rest ≠ tag'.package ++ '/' :: rest' := by
  apply append_cons_ne_append_cons (by decide)
  · exact fun hmem => absurd (well.isTypeChar _ hmem) (by decide)
  · exact fun hmem => absurd (well'.isPackageChar _ hmem) (by decide)

/-- No tag starts inside of what is written like a tag: only its second tilde could open another one, but there is no
    slash between that tilde and the bracket that closes it. -/
theorem apart_read? : Apart read? where
  nil := rfl
  le_length := by
    rintro s u ⟨tag, length⟩ hs hread hsome
    obtain ⟨⟨tag', length'⟩, hread'⟩ := Option.isSome_iff_exists.mp hsome
    obtain ⟨well, hlength, rest, htext⟩ := read?_eq_some_iff.mp hread
    obtain ⟨well', -, rest', rfl⟩ := read?_eq_some_iff.mp hread'
    have htilde := well.tilde_not_mem
    rw [text_append, text_append] at htext
    match s, hs with
    | ['['], _ => cases (List.cons.inj (List.cons.inj htext).2).1
    | a :: b :: s, _ =>
        have hinner : (tag.package ++ '/' :: tag.name) ++ '~' :: (tag.type ++ ']' :: rest) =
            s ++ ['['] ++ '~' :: (tag'.package ++ '/' :: (tag'.name ++ '~' :: (tag'.type ++ ']' :: rest'))) := by
          simpa using (List.cons.inj (List.cons.inj htext).2).2.symm
        rcases (append_cons_eq_append_iff (List.cons_ne_nil _ _) (by decide)).mp hinner with
          ⟨right, hfront, hafter⟩ | ⟨inner, hs, htype⟩
        · cases right with
          | nil => exact absurd (List.cons.inj hafter).2.symm (well.type_ne_package well' _ _)
          | cons c right =>
              rw [hfront, ← (List.cons.inj hafter).1] at htilde
              exact absurd (by simp) htilde
        · -- The type of the tag and its closing bracket hold no opening one, so they end before it.
          have hend : inner ++ '[' :: ('~' :: (tag'.package ++ '/' ::
              (tag'.name ++ '~' :: (tag'.type ++ ']' :: rest')))) = [] ++ (tag.type ++ [']']) ++ rest := by
            simpa using htype.symm
          rcases (append_cons_eq_append_iff (by simp) well.bracket_not_mem).mp hend with
            ⟨right, hinside, -⟩ | ⟨left, hnone, -⟩
          · have hwhole := congrArg List.length (text_append tag [])
            simp only [hs, hinside, hlength, List.length_append, List.length_cons, List.length_nil] at hwhole ⊢
            omega
          · exact absurd hnone (by simp)

end TagText

/-! ### Tags of requirements -/

/-- The characters of identifiers lie between the dot and the last small letter. -/
theorem toNat_of_isIdentifierChar {c : Char} (h : isIdentifierChar c = true) : 46 ≤ c.toNat ∧ c.toNat ≤ 122 := by
  have hrange : ∀ {low high : Char}, 46 ≤ low.toNat → high.toNat ≤ 122 → low ≤ c ∧ c ≤ high →
      46 ≤ c.toNat ∧ c.toNat ≤ 122 :=
    fun hlow hhigh hc => ⟨Nat.le_trans hlow (UInt32.le_iff_toNat_le.mp hc.1),
      Nat.le_trans (UInt32.le_iff_toNat_le.mp hc.2) hhigh⟩
  unfold isIdentifierChar isSegmentRest at h
  delta Char.isAlphanum Char.isAlpha Char.isUpper Char.isLower Char.isDigit at h
  simp only [Bool.or_eq_true, decide_eq_true_eq, Bool.and_eq_true, beq_iff_eq] at h
  rcases h with (((hupper | hlower) | hdigit) | rfl) | rfl
  · exact hrange (by decide) (by decide) hupper
  · exact hrange (by decide) (by decide) hlower
  · exact hrange (by decide) (by decide) hdigit
  · decide
  · decide

/-- No character of identifiers is blank. -/
theorem not_isBlankChar_of_isIdentifierChar {c : Char} (h : isIdentifierChar c = true) : isBlankChar c = false := by
  have hrange := toNat_of_isIdentifierChar h
  simp only [isBlankChar, inRanges, blankRanges, List.any_cons, List.any_nil, Bool.or_false, Bool.or_eq_false_iff,
    Bool.and_eq_false_iff, decide_eq_false_iff_not]
  omega

/-- An identifier can stand as a package in a tag. -/
theorem Identifier.isPackageChar_of_mem (i : Identifier) {c : Char} (hc : c ∈ i.text) :
    TagText.isPackageChar c = true := by
  have hchar := i.isIdentifierChar_of_mem hc
  have hslash : c ≠ '/' := fun heq => i.not_mem_text (c := '/') (by decide) (heq ▸ hc)
  have htilde : c ≠ '~' := fun heq => i.not_mem_text (c := '~') (by decide) (heq ▸ hc)
  have hbracket : c ≠ ']' := fun heq => i.not_mem_text (c := ']') (by decide) (heq ▸ hc)
  have hblank := not_isBlankChar_of_isIdentifierChar hchar
  simp [TagText.isPackageChar, TagText.isNameChar, hslash, htilde, hbracket, hblank]

/-- An id is read from its package and name. -/
theorem RequirementId.parse_eq_ok_iff {package name : Text} (plain : '/' ∉ package) {id : RequirementId} :
    parse (package ++ '/' :: name) = .ok id ↔ package = id.package.text ∧ name = id.name.text := by
  have hcut : Text.cut? '/' (package ++ '/' :: name) = some (package, name) :=
    Text.cut?_eq_some_iff.mpr ⟨rfl, plain⟩
  have hparse : ∀ {t : Text} {i : Identifier}, Identifier.parse t = .ok i ↔ t = i.text := by
    intro t i
    rw [Identifier.parse, eq_comm (a := t), ← Identifier.parse?_eq_some_iff]
    cases Identifier.parse? t with
    | none => simp
    | some i' => simp
  obtain ⟨package', name'⟩ := id
  simp only [← hparse, parse, hcut]
  cases Identifier.parse package with
  | error fault => simp [bind, Except.bind]
  | ok i =>
      cases Identifier.parse name with
      | error fault => simp [bind, Except.bind]
      | ok i' => simp [bind, Except.bind, pure, Except.pure]

namespace Tag

/-- The text of a tag. -/
def written (tag : Tag) : TagText :=
  { package := tag.requirement.package.text, name := tag.requirement.name.text, type := tag.type }

/-- What is written like a tag is one for a requirement if its package and name are those of the requirement. -/
theorem ofText_eq_ok_iff {line : Nat} {text : TagText} (well : text.WellWritten) {tag : Tag} :
    ofText line text = .ok tag ↔ text = tag.written ∧ tag.line = line := by
  have hplain : '/' ∉ text.package := fun hmem => absurd (well.isPackageChar _ hmem) (by decide)
  obtain ⟨package, name, type⟩ := text
  obtain ⟨id, type', line'⟩ := tag
  have hid := @RequirementId.parse_eq_ok_iff package name hplain id
  simp only [ofText, written, TagText.mk.injEq]
  cases hparse : RequirementId.parse (package ++ '/' :: name) with
  | error fault =>
      rw [hparse] at hid
      simp only [reduceCtorEq, false_iff] at hid ⊢
      tauto
  | ok id' =>
      rw [hparse] at hid
      simp only [Except.ok.injEq] at hid
      simp only [Except.ok.injEq, Tag.mk.injEq, hid]
      tauto

/-- The text of a tag, with its brackets. -/
theorem text_written (tag : Tag) :
    tag.written.text = "[~".toList ++ tag.requirement.text ++ '~' :: tag.type ++ [']'] := by
  simp [written, TagText.text, RequirementId.text]

theorem isTypeChar_iff (c : Char) :
    TagText.isTypeChar c = true ↔ c.isAlphanum = true ∨ c ∈ ['_', '.', '-'] := by
  simp [TagText.isTypeChar, or_assoc]

theorem wellWritten_iff (tag : Tag) : tag.written.WellWritten ↔
    tag.type ≠ [] ∧ ∀ c ∈ tag.type, c.isAlphanum = true ∨ c ∈ ['_', '.', '-'] := by
  simp only [← isTypeChar_iff]
  constructor
  · exact fun well => ⟨well.type_ne_nil, well.isTypeChar⟩
  · intro htype
    have hname : ∀ c ∈ tag.requirement.name.text, TagText.isNameChar c = true := by
      intro c hc
      have hpackage := tag.requirement.name.isPackageChar_of_mem hc
      exact (Bool.and_eq_true _ _ ▸ hpackage).2
    exact ⟨tag.requirement.package.text_ne_nil, fun c hc => tag.requirement.package.isPackageChar_of_mem hc,
      tag.requirement.name.text_ne_nil, hname, htype.1, htype.2⟩

/-! ### Where tags stand -/

/-- Where a tag stands in a text whose lines are numbered from `first`: the byte at which it starts, and its line. -/
structure StandsIn (tag : Tag) (t : Text) (first p : Nat) : Prop where
  type_ne_nil : tag.type ≠ []
  type_chars : ∀ c ∈ tag.type, c.isAlphanum = true ∨ c ∈ ['_', '.', '-']
  exists_split : ∃ before after,
    t = before ++ ("[~".toList ++ tag.requirement.text ++ '~' :: tag.type ++ [']']) ++ after ∧
      p = byteLength before ∧ tag.line = before.count '\n' + first

theorem standsIn_iff {tag : Tag} {t : Text} {first p : Nat} : tag.StandsIn t first p ↔
    tag.written.WellWritten ∧ ∃ before after, t = before ++ tag.written.text ++ after ∧ p = byteLength before ∧
      tag.line = before.count '\n' + first := by
  rw [wellWritten_iff, text_written]
  exact ⟨fun h => ⟨⟨h.type_ne_nil, h.type_chars⟩, h.exists_split⟩, fun h => ⟨h.1.1, h.1.2, h.2⟩⟩

theorem text_written_ne_nil (tag : Tag) : tag.written.text ≠ [] := by
  simp [text_written]

/-- A tag holds no blanks. -/
theorem not_mem_text_written {tag : Tag} (well : tag.written.WellWritten) {c : Char}
    (blank : TagText.isPackageChar c = false ∧ TagText.isNameChar c = false ∧ TagText.isTypeChar c = false ∧
      c ∉ "[~/]".toList) : c ∉ tag.written.text := by
  obtain ⟨hpackage, hname, htype, hmark⟩ := blank
  have hpackage' : c ∉ tag.written.package := fun hmem => by
    rw [well.isPackageChar c hmem] at hpackage
    cases hpackage
  have hname' : c ∉ tag.written.name := fun hmem => by
    rw [well.isNameChar c hmem] at hname
    cases hname
  have htype' : c ∉ tag.written.type := fun hmem => by
    rw [well.isTypeChar c hmem] at htype
    cases htype
  simp only [String.reduceToList, List.mem_cons, List.not_mem_nil, or_false, not_or] at hmark
  simp [TagText.text, hpackage', hname', htype', hmark]

/-- A tag stands in a line or in what follows the line. -/
theorem standsIn_append_cons {line rest : Text} (plain : '\n' ∉ line) {tag : Tag} {first p : Nat} :
    tag.StandsIn (line ++ '\n' :: rest) first p ↔ tag.StandsIn line first p ∨
      ∃ q, p = byteLength line + 1 + q ∧ tag.StandsIn rest (first + 1) q := by
  simp only [standsIn_iff]
  constructor
  · rintro ⟨well, before, after, ht, rfl, hline⟩
    have hfeed := not_mem_text_written well (c := '\n') (by decide)
    rcases (append_cons_eq_append_iff tag.text_written_ne_nil hfeed).mp ht with
      ⟨right, hleft, -⟩ | ⟨left, rfl, hright⟩
    · exact .inl ⟨well, before, right, hleft, rfl, hline⟩
    · have hcount := List.count_eq_zero.mpr plain
      refine .inr ⟨byteLength left, ?_, well, left, after, hright, rfl, ?_⟩
      · rw [byteLength_append, byteLength_cons, Nat.add_assoc]
        rfl
      · rw [hline, List.count_append, hcount, List.count_cons_self]
        omega
  · rintro (⟨well, before, after, rfl, rfl, hline⟩ | ⟨q, rfl, well, before, after, rfl, rfl, hline⟩)
    · exact ⟨well, before, after ++ '\n' :: rest, by simp, rfl, hline⟩
    · have hcount := List.count_eq_zero.mpr plain
      refine ⟨well, line ++ '\n' :: before, after, by simp, ?_, ?_⟩
      · rw [byteLength_append, byteLength_cons, Nat.add_assoc]
        rfl
      · rw [hline, List.count_append, hcount, List.count_cons_self]
        omega

/-- A carriage return at the end of a line belongs to no tag. -/
theorem standsIn_dropReturn {t : Text} {tag : Tag} {first p : Nat} :
    tag.StandsIn (dropReturn t) first p ↔ tag.StandsIn t first p := by
  rcases eq_dropReturn_or t with h | h
  · rw [← h]
  · generalize dropReturn t = line at h
    subst h
    simp only [standsIn_iff]
    constructor
    · rintro ⟨well, before, after, rfl, hp, hline⟩
      exact ⟨well, before, after ++ ['\r'], by simp, hp, hline⟩
    · rintro ⟨well, before, after, ht, hp, hline⟩
      have hreturn := not_mem_text_written well (c := '\r') (by decide)
      rcases (append_cons_eq_append_iff tag.text_written_ne_nil hreturn).mp ht with
        ⟨right, hleft, -⟩ | ⟨left, -, hright⟩
      · exact ⟨well, before, right, hleft, hp, hline⟩
      · exact absurd hright (by simp [tag.text_written_ne_nil])

/-! ### Tags of a line -/

/-- The tags of a line, each with the byte at which it starts. -/
def foundIn (line : Nat) (t : Text) : List (Nat × Tag) :=
  (occurrences TagText.read? t).filterMap fun (p, text) => (ofText line text).toOption.map fun tag => (p, tag)

theorem map_foundIn (line : Nat) (t : Text) :
    (foundIn line t).map Prod.snd = (ofLine line t).filterMap Except.toOption := by
  rw [foundIn, List.map_filterMap, ofLine, List.filterMap_map]
  refine List.filterMap_congr fun found _ => ?_
  obtain ⟨p, text⟩ := found
  simp only [Function.comp_apply]
  cases ofText line text <;> rfl

theorem foundIn_ascending (line : Nat) (t : Text) : (foundIn line t).Pairwise fun a b => a.1 < b.1 := by
  refine List.pairwise_filterMap.mpr ((occurrencesFrom_ascending 0 0 t).imp fun {a b} hlt x hx y hy => ?_)
  obtain ⟨tag, -, rfl⟩ := Option.map_eq_some_iff.mp hx
  obtain ⟨tag', -, rfl⟩ := Option.map_eq_some_iff.mp hy
  exact hlt

/-- The tags of a line are all that stand in it. -/
theorem mem_foundIn_iff {line p : Nat} {t : Text} (plain : '\n' ∉ t) {tag : Tag} :
    (p, tag) ∈ foundIn line t ↔ tag.StandsIn t line p := by
  have htoOption : ∀ {reading : Except SyntaxFault Tag} {tag : Tag},
      reading.toOption = some tag ↔ reading = .ok tag := by
    intro reading tag
    cases reading <;> simp [Except.toOption]
  have hfound : (p, tag) ∈ foundIn line t ↔
      ∃ text, (p, text) ∈ occurrences TagText.read? t ∧ ofText line text = .ok tag := by
    simp only [foundIn, List.mem_filterMap, Prod.exists, Option.map_eq_some_iff, Prod.mk.injEq, htoOption]
    constructor
    · rintro ⟨p', text, hmem, tag', hok, rfl, rfl⟩
      exact ⟨text, hmem, hok⟩
    · rintro ⟨text, hmem, hok⟩
      exact ⟨p, text, hmem, tag, hok, rfl, rfl⟩
  have hline : ∀ {before after : Text}, t = before ++ after → before.count '\n' = 0 := fun h =>
    List.count_eq_zero.mpr fun hmem => plain (by rw [h]; exact List.mem_append_left _ hmem)
  rw [hfound, standsIn_iff]
  simp only [mem_occurrences_iff TagText.apart_read?]
  constructor
  · rintro ⟨text, ⟨before, u, length, ht, rfl, hread⟩, hok⟩
    obtain ⟨well, -, after, rfl⟩ := TagText.read?_eq_some_iff.mp hread
    obtain ⟨rfl, hnumber⟩ := (ofText_eq_ok_iff well).mp hok
    refine ⟨well, before, after, by rw [ht, List.append_assoc], rfl, ?_⟩
    rw [hline ht, hnumber, Nat.zero_add]
  · rintro ⟨well, before, after, ht, rfl, hnumber⟩
    rw [List.append_assoc] at ht
    rw [hline ht, Nat.zero_add] at hnumber
    exact ⟨tag.written, ⟨before, _, _, ht, rfl, TagText.read?_eq_some_iff.mpr ⟨well, rfl, after, rfl⟩⟩,
      (ofText_eq_ok_iff well).mpr ⟨rfl, hnumber⟩⟩

end Tag

/-! ### Tags of a text -/

namespace ParsedSource

/-- The tags of a text whose lines are numbered from `first`. -/
def tagsFrom (first : Nat) (t : Text) : List Tag :=
  ((lines t).zipIdx first).flatMap fun (text, line) => (Tag.ofLine line text).filterMap Except.toOption

theorem tags_parse (t : Text) : (parse t).tags = tagsFrom 1 t := by
  rw [parse, tagsFrom, List.filterMap_flatMap]
  refine List.flatMap_congr fun entry _ => ?_
  rw [List.filterMap_map]
  rfl

/-- The tags of a text are all that stand in it, from left to right. -/
theorem exists_tagsFrom_eq (first : Nat) (t : Text) : ∃ found : List (Nat × Tag),
    tagsFrom first t = found.map Prod.snd ∧ found.Pairwise (fun a b => a.1 < b.1) ∧
      ∀ p tag, (p, tag) ∈ found ↔ tag.StandsIn t first p := by
  induction lined t generalizing first with
  | @last line plain =>
      refine ⟨Tag.foundIn first line, ?_, Tag.foundIn_ascending first line, fun p tag => Tag.mem_foundIn_iff plain⟩
      rw [Tag.map_foundIn, tagsFrom, lines_eq_filter plain]
      cases line <;> simp [Tag.ofLine, occurrences, occurrencesFrom]
  | @more line rest plain after ih =>
      obtain ⟨found, htags, hascending, hmem⟩ := ih (first + 1)
      have hplain : '\n' ∉ dropReturn line := by
        intro hfeed
        apply plain
        rcases eq_dropReturn_or line with h | h
        · rwa [h]
        · rw [h]
          exact List.mem_append_left _ hfeed
      have hfound : ∀ {p tag}, (p, tag) ∈ Tag.foundIn first (dropReturn line) ↔ tag.StandsIn line first p :=
        (Tag.mem_foundIn_iff hplain).trans Tag.standsIn_dropReturn
      refine ⟨Tag.foundIn first (dropReturn line) ++ found.map fun f => (byteLength line + 1 + f.1, f.2), ?_, ?_, ?_⟩
      · rw [tagsFrom, lines_append_cons plain, List.zipIdx_cons, List.flatMap_cons, List.map_append,
          Tag.map_foundIn, List.map_map]
        exact congrArg _ htags
      · refine List.pairwise_append.mpr ⟨Tag.foundIn_ascending _ _, ?_, ?_⟩
        · exact List.pairwise_map.mpr (hascending.imp fun hlt => Nat.add_lt_add_left hlt _)
        · rintro ⟨p, tag⟩ hp later hlater
          obtain ⟨f, -, rfl⟩ := List.mem_map.mp hlater
          -- What stands in the line starts before its end.
          obtain ⟨before, after, hline, hstart, -⟩ := (hfound.mp hp).exists_split
          have hlength := congrArg byteLength hline
          simp only [byteLength_append] at hlength
          simp only
          omega
      · intro p tag
        rw [List.mem_append, hfound, Tag.standsIn_append_cons plain]
        apply or_congr_right
        constructor
        · intro h
          obtain ⟨⟨q, tag'⟩, hq, hpair⟩ := List.mem_map.mp h
          cases hpair
          exact ⟨q, rfl, (hmem q tag').mp hq⟩
        · rintro ⟨q, rfl, hstands⟩
          exact List.mem_map.mpr ⟨(q, tag), (hmem q tag).mpr hstands, rfl⟩

/-- The type of a tag holds letters, digits and a few marks only. -/
theorem isTypeChar_of_mem_tags {t : Text} {tag : Tag} (h : tag ∈ (parse t).tags) :
    ∀ c ∈ tag.type, TagText.isTypeChar c = true := by
  obtain ⟨found, htags, -, hmem⟩ := exists_tagsFrom_eq 1 t
  rw [tags_parse, htags] at h
  obtain ⟨⟨p, tag⟩, hfound, rfl⟩ := List.mem_map.mp h
  have hstands := (hmem p tag).mp hfound
  exact fun c hc => (Tag.isTypeChar_iff c).mpr (hstands.type_chars c hc)

/-- Which tags a source file has. A tag is an id between brackets and tildes with a type of letters, digits and a few
    marks; each place of the text where one stands gives one tag, with its line, in the order of the places,
    whatever stands around it. In particular the hint of a requirement is a tag for it wherever it is pasted. -/
theorem exists_tags_eq :
    (∀ t : Text, ∃ found : List (Nat × Tag), (parse t).tags = found.map Prod.snd ∧
      found.Pairwise (fun a b => a.1 < b.1) ∧ ∀ p tag, (p, tag) ∈ found ↔ tag.StandsIn t 1 p) ∧
    ∀ (before : Text) (id : RequirementId) (after : Text),
      ⟨id, "impl".toList, before.count '\n' + 1⟩ ∈ (parse (before ++ id.hint ++ after)).tags := by
  have hall : ∀ t : Text, ∃ found : List (Nat × Tag), (parse t).tags = found.map Prod.snd ∧
      found.Pairwise (fun a b => a.1 < b.1) ∧ ∀ p tag, (p, tag) ∈ found ↔ tag.StandsIn t 1 p := by
    intro t
    rw [tags_parse]
    exact exists_tagsFrom_eq 1 t
  refine ⟨hall, fun before id after => ?_⟩
  obtain ⟨found, htags, -, hmem⟩ := hall (before ++ id.hint ++ after)
  have hstands : Tag.StandsIn ⟨id, "impl".toList, before.count '\n' + 1⟩ (before ++ id.hint ++ after) 1
      (byteLength before) := by
    have htype : "impl".toList.all TagText.isTypeChar = true := by decide
    refine ⟨by simp, fun c hc => ?_, before, after, ?_, rfl, rfl⟩
    · exact (Tag.isTypeChar_iff c).mp (List.all_eq_true.mp htype c hc)
    · simp [RequirementId.hint]
  rw [htags]
  exact List.mem_map.mpr ⟨_, (hmem _ _).mpr hstands, rfl⟩

/-- A tag is found right after what only starts like one. -/
example : (parse "[~9/x[~p/A~impl] [~p/A~]\n[~p/B~x]".toList).tags =
    [⟨⟨⟨['p'], by decide⟩, ⟨['A'], by decide⟩⟩, "impl".toList, 1⟩,
      ⟨⟨⟨['p'], by decide⟩, ⟨['B'], by decide⟩⟩, ['x'], 2⟩] := by
  decide +kernel

end ParsedSource

end ReqTrace
