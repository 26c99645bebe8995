/-
Module: ReqTrace.Proofs.Document.Coverers
Purpose: The lists of links that are read after the hint of a footnote. Lists as they are written are data: each part
  of a label, each target and the blanks around each comma. What is read is what some list says, and a text is written
  by one list only.
Main exports: Coverer.LabelPart, Coverer.LinkText, Coverer.LinkList, Coverer.readLabel?_eq_some_iff,
  Coverer.read?_eq_some_iff, Coverer.readList?_eq_some_iff, Coverer.parseList?_linkList
-/
import ReqTrace.Proofs.Document.Footnote
import ReqTrace.Proofs.Text.Trimmed

namespace ReqTrace

open Text

namespace Coverer

/-! ### Lists of links as they are written -/

/-- A character of a label as it is written. -/
inductive LabelPart where
  /-- A character that stands for itself. -/
  | plain (c : Char) (other : c ≠ ']' ∧ c ≠ '\\')
  /-- A backslash with the character that it takes into the label. -/
  | taken (c : Char) (sameLine : c ≠ '\n')

namespace LabelPart

/-- What is written for the character. -/
def text : LabelPart → Text
  | plain c _ => [c]
  | taken c _ => ['\\', c]

/-- The character of the label. -/
def char : LabelPart → Char
  | plain c _ => c
  | taken c _ => c

end LabelPart

/-- A link as it is written. -/
@[ext] structure LinkText where
  label : List LabelPart
  url : Text
  url_chars : ∀ c ∈ url, c ≠ ')' ∧ isBlankChar c = false

namespace LinkText

def text (link : LinkText) : Text :=
  '[' :: link.label.flatMap LabelPart.text ++ "](".toList ++ link.url ++ [')']

/-- What the link says: each part of its label stands for one character, and its target for itself. -/
def coverer (link : LinkText) : Coverer where
  label := link.label.map LabelPart.char
  url := link.url

end LinkText

/-- A comma between two links, with the blanks around it. -/
@[ext] structure CommaText where
  before : Text
  after : Text
  before_blank : ∀ c ∈ before, isBlankChar c = true
  after_blank : ∀ c ∈ after, isBlankChar c = true

def CommaText.text (comma : CommaText) : Text :=
  comma.before ++ ',' :: comma.after

/-- One or more links with single commas between them. -/
inductive LinkList where
  | last (link : LinkText)
  | more (link : LinkText) (comma : CommaText) (others : LinkList)

namespace LinkList

def text : LinkList → Text
  | last link => link.text
  | more link comma others => link.text ++ comma.text ++ others.text

/-- What the links say, in their order. -/
def coverers : LinkList → List Coverer
  | last link => [link.coverer]
  | more link _ others => link.coverer :: others.coverers

end LinkList

/-! ### Labels -/

theorem exists_parts_of_readLabel? {t label rest : Text} (h : readLabel? t = some (label, rest)) :
    ∃ parts : List LabelPart, t = parts.flatMap LabelPart.text ++ ']' :: rest ∧ label = parts.map LabelPart.char := by
  fun_induction readLabel? t generalizing label rest with
  | case1 => cases h
  | case2 rest' =>
      cases h
      exact ⟨[], rfl, rfl⟩
  | case3 => cases h
  | case4 => cases h
  | case5 c rest' hc ih =>
      obtain ⟨⟨label', rest''⟩, hread, heq⟩ := Option.map_eq_some_iff.mp h
      cases heq
      obtain ⟨parts, rfl, rfl⟩ := ih hread
      exact ⟨.taken c hc :: parts, rfl, rfl⟩
  | case6 c rest' hclose hback hpair ih =>
      obtain ⟨⟨label', rest''⟩, hread, heq⟩ := Option.map_eq_some_iff.mp h
      cases heq
      obtain ⟨parts, rfl, rfl⟩ := ih hread
      have hother : c ≠ ']' ∧ c ≠ '\\' := by
        refine ⟨hclose, ?_⟩
        rintro rfl
        -- A backslash is followed by some character, for at least the bracket is left.
        cases htext : parts.flatMap LabelPart.text ++ ']' :: rest with
        | nil => simp at htext
        | cons c' rest' => exact hpair c' rest' rfl htext
      exact ⟨.plain c hother :: parts, rfl, rfl⟩

theorem readLabel?_parts (parts : List LabelPart) (rest : Text) :
    readLabel? (parts.flatMap LabelPart.text ++ ']' :: rest) = some (parts.map LabelPart.char, rest) := by
  induction parts with
  | nil => simp [readLabel?]
  | cons part parts ih =>
      cases part with
      | plain c other =>
          rw [List.flatMap_cons, LabelPart.text, List.append_assoc, List.singleton_append, readLabel?, ih]
          · rfl
          · exact other.1
          · exact fun heq _ => other.2 heq
          · exact fun _ _ heq _ => other.2 heq
      | taken c sameLine =>
          rw [List.flatMap_cons, LabelPart.text, List.append_assoc, List.cons_append, List.singleton_append, readLabel?,
            if_neg sameLine, ih]
          rfl

/-- A label is read up to the first bracket that no backslash takes into it. -/
theorem readLabel?_eq_some_iff {t label rest : Text} :
    readLabel? t = some (label, rest) ↔
      ∃ parts : List LabelPart, t = parts.flatMap LabelPart.text ++ ']' :: rest ∧ label = parts.map LabelPart.char := by
  constructor
  · exact exists_parts_of_readLabel?
  · rintro ⟨parts, rfl, rfl⟩
    exact readLabel?_parts parts rest

/-- A label falls into its parts in one way. -/
theorem parts_inj {parts parts' : List LabelPart} {rest rest' : Text}
    (h : parts.flatMap LabelPart.text ++ ']' :: rest = parts'.flatMap LabelPart.text ++ ']' :: rest') :
    parts = parts' ∧ rest = rest' := by
  induction parts generalizing parts' with
  | nil =>
      match parts' with
      | [] => exact ⟨rfl, (List.cons.inj h).2⟩
      | .plain c other :: _ => exact absurd (List.cons.inj h).1.symm other.1
      | .taken c _ :: _ => exact absurd (List.cons.inj h).1 (by decide)
  | cons part parts ih =>
      match part, parts' with
      | .plain c other, [] => exact absurd (List.cons.inj h).1 other.1
      | .taken c _, [] => exact absurd (List.cons.inj h).1 (by decide)
      | .plain c _, .plain c' _ :: parts' =>
          obtain ⟨rfl, hrest⟩ := List.cons.inj h
          obtain ⟨rfl, rfl⟩ := ih hrest
          exact ⟨rfl, rfl⟩
      | .taken c _, .taken c' _ :: parts' =>
          obtain ⟨rfl, hrest⟩ := List.cons.inj (List.cons.inj h).2
          obtain ⟨rfl, rfl⟩ := ih hrest
          exact ⟨rfl, rfl⟩
      | .plain c other, .taken c' _ :: _ => exact absurd (List.cons.inj h).1 other.2
      | .taken c _, .plain c' other :: _ => exact absurd (List.cons.inj h).1.symm other.2

/-! ### Links -/

namespace LinkText

theorem text_append (link : LinkText) (rest : Text) :
    link.text ++ rest =
      '[' :: (link.label.flatMap LabelPart.text ++ ']' :: '(' :: (link.url ++ ')' :: rest)) := by
  simp [text]

theorem close_not_mem (link : LinkText) : ')' ∉ link.url :=
  fun hmem => (link.url_chars _ hmem).1 rfl

/-- A link that starts a text is known by the text. -/
theorem append_inj {link link' : LinkText} {rest rest' : Text} (h : link.text ++ rest = link'.text ++ rest') :
    link = link' ∧ rest = rest' := by
  rw [text_append, text_append] at h
  obtain ⟨hlabel, htarget⟩ := parts_inj (List.cons.inj h).2
  obtain ⟨hurl, hrest⟩ := (append_cons_inj link.close_not_mem link'.close_not_mem).mp (List.cons.inj htarget).2
  exact ⟨LinkText.ext hlabel hurl, hrest⟩

end LinkText

theorem isUrlChar_iff {c : Char} : isUrlChar c = true ↔ c ≠ ')' ∧ isBlankChar c = false := by
  simp [isUrlChar]

/-- A link is read at the start of a text exactly if one is written there. -/
theorem read?_eq_some_iff {t rest : Text} {c : Coverer} :
    read? t = some (c, rest) ↔ ∃ link : LinkText, t = link.text ++ rest ∧ c = link.coverer := by
  constructor
  · intro h
    simp only [read?, Option.bind_eq_bind, Option.bind_eq_some_iff] at h
    obtain ⟨inner, hopen, ⟨label, afterLabel⟩, hlabel, target, hparen, _, hclose, heq⟩ := h
    cases heq
    obtain ⟨parts, rfl, rfl⟩ := readLabel?_eq_some_iff.mp hlabel
    have hopen : t = '[' :: (parts.flatMap LabelPart.text ++ ']' :: afterLabel) := dropLead?_eq_some_iff.mp hopen
    have hparen : afterLabel = '(' :: target := dropLead?_eq_some_iff.mp hparen
    have hclose : target.dropWhile isUrlChar = ')' :: rest := dropLead?_eq_some_iff.mp hclose
    let link : LinkText :=
      { label := parts
        url := target.takeWhile isUrlChar
        url_chars := fun c hc => isUrlChar_iff.mp (List.mem_takeWhile_imp hc) }
    refine ⟨link, ?_, rfl⟩
    rw [link.text_append, hopen, hparen, ← hclose, List.takeWhile_append_dropWhile]
  · rintro ⟨link, rfl, rfl⟩
    have hlabel := readLabel?_parts link.label ('(' :: (link.url ++ ')' :: rest))
    have hurl : ∀ c ∈ link.url, isUrlChar c = true := fun c hc => isUrlChar_iff.mpr (link.url_chars c hc)
    have htake := takeWhile_append_cons rest hurl isUrlChar_close
    have hdrop := dropWhile_append_cons rest hurl isUrlChar_close
    rw [link.text_append, read?]
    simp [hlabel, htake, hdrop, LinkText.coverer]

/-! ### Lists -/

theorem trimStart_blank_append {blanks : Text} (blank : ∀ c ∈ blanks, isBlankChar c = true) {c : Char}
    (stop : isBlankChar c = false) (rest : Text) : trimStart (blanks ++ c :: rest) = c :: rest :=
  dropWhile_append_cons rest blank stop

theorem exists_blanks (t : Text) :
    ∃ blanks, t = blanks ++ trimStart t ∧ ∀ c ∈ blanks, isBlankChar c = true :=
  ⟨t.takeWhile isBlankChar, List.takeWhile_append_dropWhile.symm, fun _ hc => List.mem_takeWhile_imp hc⟩

namespace LinkList

theorem exists_text_eq (list : LinkList) : ∃ rest, list.text = '[' :: rest := by
  cases list with
  | last link => exact ⟨_, rfl⟩
  | more link comma others => exact ⟨_, rfl⟩

theorem length_coverers_le (list : LinkList) : list.coverers.length ≤ list.text.length := by
  induction list with
  | last link => simp [coverers, text, LinkText.text]
  | more link comma others ih =>
      simp only [coverers, text, LinkText.text, List.length_cons, List.length_append]
      omega

/-- Behind a link there is the end, or a comma with blanks in front of it. -/
theorem blank_ne_comma {blanks : Text} (blank : ∀ c ∈ blanks, isBlankChar c = true) (comma : CommaText) (rest : Text) :
    blanks ≠ comma.text ++ rest := by
  rintro rfl
  have hcomma : isBlankChar ',' = true := blank ',' (by simp [CommaText.text])
  exact absurd hcomma (by decide)

/-- A text falls into links, commas and blanks in one way. -/
theorem append_inj {list list' : LinkList} {blanks blanks' : Text} (blank : ∀ c ∈ blanks, isBlankChar c = true)
    (blank' : ∀ c ∈ blanks', isBlankChar c = true) (h : list.text ++ blanks = list'.text ++ blanks') :
    list = list' := by
  have hplain : ∀ {c : Char}, isBlankChar c = false → ∀ {s : Text}, (∀ c ∈ s, isBlankChar c = true) → c ∉ s := by
    intro c hc s hs hmem
    rw [hs c hmem] at hc
    cases hc
  induction list generalizing list' with
  | last link =>
      cases list' with
      | last link' => rw [(LinkText.append_inj h).1]
      | more link' comma' others' =>
          simp only [text, List.append_assoc] at h
          exact absurd (LinkText.append_inj h).2 (blank_ne_comma blank comma' _)
  | more link comma others ih =>
      cases list' with
      | last link' =>
          simp only [text, List.append_assoc] at h
          exact absurd (LinkText.append_inj h).2.symm (blank_ne_comma blank' comma _)
      | more link' comma' others' =>
          simp only [text, List.append_assoc] at h
          obtain ⟨rfl, hrest⟩ := LinkText.append_inj h
          simp only [CommaText.text, List.append_assoc, List.cons_append] at hrest
          have hcomma := (append_cons_inj (hplain (by decide) comma.before_blank)
            (hplain (by decide) comma'.before_blank)).mp hrest
          obtain ⟨rest, hothers⟩ := others.exists_text_eq
          obtain ⟨rest', hothers'⟩ := others'.exists_text_eq
          have hafter := hcomma.2
          rw [hothers, hothers', List.cons_append, List.cons_append] at hafter
          have hopen := (append_cons_inj (hplain (by decide) comma.after_blank)
            (hplain (by decide) comma'.after_blank)).mp hafter
          have hlists : others.text ++ blanks = others'.text ++ blanks' := by
            rw [hothers, hothers', List.cons_append, List.cons_append, hopen.2]
          rw [ih hlists, CommaText.ext hcomma.1 hopen.1]

end LinkList

theorem exists_list_of_readList? {fuel : Nat} {t : Text} {cs : List Coverer} (h : readList? fuel t = some cs) :
    ∃ (list : LinkList) (blanks : Text), t = list.text ++ blanks ∧ (∀ c ∈ blanks, isBlankChar c = true) ∧
      cs = list.coverers := by
  induction fuel generalizing t cs with
  | zero => cases h
  | succ fuel ih =>
      obtain ⟨c, rest, hread, hmore⟩ := readList?_succ_eq_some_iff.mp h
      obtain ⟨link, rfl, rfl⟩ := read?_eq_some_iff.mp hread
      obtain ⟨blanks, hrest, hblank⟩ := exists_blanks rest
      rcases hmore with ⟨hend, rfl⟩ | ⟨rest', others, hcomma, hothers, rfl⟩
      · rw [hend, List.append_nil] at hrest
        exact ⟨.last link, rest, rfl, hrest ▸ hblank, rfl⟩
      · obtain ⟨list, tail, hlist, htail, rfl⟩ := ih hothers
        obtain ⟨blanks', hrest', hblank'⟩ := exists_blanks rest'
        rw [hlist] at hrest'
        rw [hcomma, hrest'] at hrest
        refine ⟨.more link ⟨blanks, blanks', hblank, hblank'⟩ list, tail, ?_, htail, rfl⟩
        rw [hrest, LinkList.text, CommaText.text]
        simp

theorem readList?_text (list : LinkList) {blanks : Text} (blank : ∀ c ∈ blanks, isBlankChar c = true) {fuel : Nat}
    (enough : list.coverers.length ≤ fuel) : readList? fuel (list.text ++ blanks) = some list.coverers := by
  induction list generalizing fuel with
  | last link =>
      obtain ⟨fuel, rfl⟩ : ∃ n, fuel = n + 1 := Nat.exists_eq_add_of_le' enough
      have hread : read? (link.text ++ blanks) = some (link.coverer, blanks) := read?_eq_some_iff.mpr ⟨link, rfl, rfl⟩
      have hend : trimStart blanks = [] := List.dropWhile_eq_nil_iff.mpr blank
      exact readList?_succ_eq_some_iff.mpr ⟨_, _, hread, .inl ⟨hend, rfl⟩⟩
  | more link comma others ih =>
      obtain ⟨fuel, rfl⟩ : ∃ n, fuel = n + 1 := Nat.exists_eq_add_of_le' (Nat.one_le_of_lt enough)
      have hothers := ih (by simpa [LinkList.coverers] using enough)
      have hread : read? (link.text ++ (comma.text ++ (others.text ++ blanks))) =
          some (link.coverer, comma.text ++ (others.text ++ blanks)) := read?_eq_some_iff.mpr ⟨link, rfl, rfl⟩
      have hcomma : trimStart (comma.text ++ (others.text ++ blanks)) =
          ',' :: (comma.after ++ (others.text ++ blanks)) := by
        rw [CommaText.text, List.append_assoc, List.cons_append]
        exact trimStart_blank_append comma.before_blank (by decide) _
      have hopen : trimStart (comma.after ++ (others.text ++ blanks)) = others.text ++ blanks := by
        obtain ⟨rest, hrest⟩ := others.exists_text_eq
        rw [hrest, List.cons_append]
        exact trimStart_blank_append comma.after_blank (by decide) _
      rw [LinkList.text, List.append_assoc, List.append_assoc]
      exact readList?_succ_eq_some_iff.mpr
        ⟨_, _, hread, .inr ⟨_, _, hcomma, by rw [hopen, hothers], rfl⟩⟩

/-- The reader accepts the lists of links, with blanks at most behind them. Fuel for each character is enough. -/
theorem readList?_eq_some_iff {fuel : Nat} {t : Text} (enough : t.length ≤ fuel) {cs : List Coverer} :
    readList? fuel t = some cs ↔ ∃ (list : LinkList) (blanks : Text), t = list.text ++ blanks ∧
      (∀ c ∈ blanks, isBlankChar c = true) ∧ cs = list.coverers := by
  constructor
  · exact exists_list_of_readList?
  · rintro ⟨list, blanks, rfl, blank, rfl⟩
    have hlength := list.length_coverers_le
    rw [List.length_append] at enough
    exact readList?_text list blank (by omega)

/-- What is read from a text that is not blank. -/
theorem parseList?_of_ne_nil {t : Text} (h : trim t ≠ []) : parseList? t = readList? (trim t).length (trim t) := by
  unfold parseList?
  split
  · rename_i hnil
    exact absurd hnil h
  · rfl

/-- The reader of coverers terminates and accepts exactly its grammar. It reads a text if, without the blanks around
    it, it is empty or a list of links, then gives what these links say in their order, and the text is written by no
    other list. Reading never stops for want of fuel: more of it gives the same answer. -/
theorem parseList?_linkList (t : Text) :
    (∀ cs, parseList? t = some cs ↔
        trim t = [] ∧ cs = [] ∨ ∃ list : LinkList, trim t = list.text ∧ cs = list.coverers) ∧
      (∀ list list' : LinkList, trim t = list.text → trim t = list'.text → list = list') ∧
      ∀ fuel, trim t ≠ [] → (trim t).length ≤ fuel → readList? fuel (trim t) = parseList? t := by
  have hnoBlanks : ∀ c ∈ ([] : Text), isBlankChar c = true := fun c hc => absurd hc List.not_mem_nil
  refine ⟨fun cs => ?_, fun list list' hlist hlist' => ?_, fun fuel hne enough => ?_⟩
  · by_cases hblank : trim t = []
    · have hnone : ∀ list : LinkList, trim t ≠ list.text := by
        intro list heq
        obtain ⟨rest, hrest⟩ := list.exists_text_eq
        rw [hblank, hrest] at heq
        cases heq
      rw [parseList?, hblank]
      simp only [Option.some.injEq, true_and]
      constructor
      · exact fun h => .inl h.symm
      · rintro (h | ⟨list, heq, -⟩)
        · exact h.symm
        · exact absurd (hblank.trans heq) (hnone list)
    · rw [parseList?_of_ne_nil hblank, readList?_eq_some_iff Nat.le.refl]
      constructor
      · rintro ⟨list, blanks, ht, blank, rfl⟩
        obtain rfl := eq_nil_of_trim_eq_append ht blank
        exact .inr ⟨list, by simpa using ht, rfl⟩
      · rintro (⟨hnil, -⟩ | ⟨list, ht, rfl⟩)
        · exact absurd hnil hblank
        · exact ⟨list, [], by simpa using ht, hnoBlanks, rfl⟩
  · exact LinkList.append_inj hnoBlanks hnoBlanks (by rw [List.append_nil, List.append_nil, ← hlist, hlist'])
  · refine Option.ext fun cs => ?_
    rw [parseList?_of_ne_nil hne, readList?_eq_some_iff enough, readList?_eq_some_iff Nat.le.refl]

/-- A label may hold a line feed and, behind a backslash, a bracket; a target may hold an opening parenthesis. A comma
    at the end is refused. -/
theorem parseList?_linkList_escaped_bracket :
    let list : LinkList :=
      .more ⟨[.plain 'a' (by decide), .taken ']' (by decide), .plain '\n' (by decide)], ['u'], by decide⟩
        ⟨[' '], ['\t'], by decide, by decide⟩ (.last ⟨[], "x(y".toList, by decide⟩)
    let t := " [a\\]\n](u) ,\t[](x(y) ".toList
    (trim t = list.text ∧ (∀ list' : LinkList, trim t = list'.text → list = list') ∧
      parseList? t = some [⟨"a]\n".toList, ['u']⟩, ⟨[], "x(y".toList⟩]) ∧
      (∀ fuel, 19 ≤ fuel → readList? fuel (trim t) = parseList? t) ∧
      ∀ list : LinkList, list.text ≠ "[a](u),".toList := by
  intro list t
  have htext : trim t = list.text := rfl
  refine ⟨⟨htext, fun list' => (parseList?_linkList t).2.1 list list' htext, ?_⟩, fun fuel => ?_, ?_⟩
  · exact ((parseList?_linkList t).1 _).mpr (.inr ⟨list, htext, rfl⟩)
  · exact (parseList?_linkList t).2.2 fuel (List.cons_ne_nil _ _)
  · intro list heq
    have hread := ((parseList?_linkList "[a](u),".toList).1 _).mpr (.inr ⟨list, heq.symm, rfl⟩)
    have hnone : parseList? "[a](u),".toList = none := by decide
    rw [hnone] at hread
    cases hread

end Coverer

end ReqTrace
