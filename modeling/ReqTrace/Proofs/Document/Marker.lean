/-
Module: ReqTrace.Proofs.Document.Marker
Purpose: Reading markers. What is read is what is written, a complete marker is read back whatever
  follows it, and what is read in front of the opening of a marker does not depend on how that marker
  goes on.
Main exports: Marker.eq_of_readPrefix?, Marker.readPrefix?_text, Marker.read?_append_opening,
  Marker.read?_before_opening
-/
import Mathlib.Data.Option.Basic
import ReqTrace.Document.Site
import ReqTrace.Proofs.Text.Occurrences

namespace ReqTrace

/-- Reading a glyph takes one character. -/
theorem Glyph.read?_eq_some {t rest : Text} {g : Glyph} (h : Glyph.read? t = some (g, rest)) :
    t = g.char :: rest := by
  cases t with
  | nil => simp [Glyph.read?] at h
  | cons c t =>
      simp only [Glyph.read?] at h
      split at h
      · rename_i hc
        cases h
        rw [hc]
      · split at h
        · rename_i hc
          cases h
          rw [hc]
        · cases h

@[simp] theorem Glyph.read?_char (g : Glyph) (rest : Text) :
    Glyph.read? (g.char :: rest) = some (g, rest) := by
  cases g <;> simp [Glyph.read?, Glyph.char]

namespace Marker

open Text

/-! ### The parts of a marker -/

theorem readHead?_eq_some {t name rest : Text} (h : readHead? t = some (name, rest)) :
    t = '`' :: '~' :: (name ++ '~' :: '`' :: rest) ∧ name ≠ [] ∧ ∀ c ∈ name, isNameChar c = true := by
  simp only [readHead?, Option.bind_eq_bind, Option.bind_eq_some_iff] at h
  obtain ⟨inner, hopen, _, hguard, _, hclose, hpair⟩ := h
  cases hpair
  have hname : inner.takeWhile isNameChar ≠ [] := (Option.guard_eq_some' _).mp hguard
  have hinner : inner.dropWhile isNameChar = '~' :: '`' :: rest := dropLead?_eq_some_iff.mp hclose
  refine ⟨?_, hname, fun c hc => List.mem_takeWhile_imp hc⟩
  rw [dropLead?_eq_some_iff.mp hopen, ← hinner, List.takeWhile_append_dropWhile]
  rfl

theorem readHead?_head {name : Text} (rest : Text) (nonempty : name ≠ [])
    (chars : ∀ c ∈ name, isNameChar c = true) :
    readHead? ('`' :: '~' :: (name ++ '~' :: '`' :: rest)) = some (name, rest) := by
  have hstop : isNameChar '~' = false := by decide
  have htake := takeWhile_append_cons ('`' :: rest) chars hstop
  have hdrop := dropWhile_append_cons ('`' :: rest) chars hstop
  have hopen : dropLead? "`~".toList ('`' :: '~' :: (name ++ '~' :: '`' :: rest)) =
      some (name ++ '~' :: '`' :: rest) := by simp
  have hclose : dropLead? "~`".toList ('~' :: '`' :: rest) = some rest := by simp
  simp only [readHead?, hopen, Option.bind_eq_bind, Option.bind_some, htake, hdrop, hclose]
  simp [nonempty]

theorem readReference?_eq_some {t reference rest : Text}
    (h : readReference? t = some (reference, rest)) :
    t = '[' :: '^' :: '~' :: (reference ++ '~' :: ']' :: rest) := by
  simp only [readReference?, Option.bind_eq_bind, Option.bind_eq_some_iff] at h
  obtain ⟨inner, hopen, _, hclose, hpair⟩ := h
  cases hpair
  have hinner : inner.dropWhile isReferenceChar = '~' :: ']' :: rest :=
    dropLead?_eq_some_iff.mp hclose
  rw [dropLead?_eq_some_iff.mp hopen, ← hinner, List.takeWhile_append_dropWhile]
  rfl

theorem readReference?_reference {reference : Text} (rest : Text)
    (chars : ∀ c ∈ reference, isReferenceChar c = true) :
    readReference? ('[' :: '^' :: '~' :: (reference ++ '~' :: ']' :: rest)) =
      some (reference, rest) := by
  have hstop : isReferenceChar '~' = false := by decide
  have htake := takeWhile_append_cons (']' :: rest) chars hstop
  have hdrop := dropWhile_append_cons (']' :: rest) chars hstop
  simp [readReference?, htake, hdrop]

/-- An optional part and what follows it make up the text. -/
theorem optional_eq {α : Type} (read? : Text → Option (α × Text)) (write : α → Text)
    (sound : ∀ {t a rest}, read? t = some (a, rest) → t = write a ++ rest) (t : Text) :
    t = (optional read? t).1.elim [] write ++ (optional read? t).2 := by
  unfold optional
  cases hread : read? t with
  | none => rfl
  | some found =>
      obtain ⟨a, rest⟩ := found
      exact sound hread

/-! ### Whole markers

A marker is its quoted name and what is glued to it. -/

/-- What is glued to the quoted name of a marker. -/
def glued (m : Marker) : Text :=
  m.word ++ m.referenceText ++ m.glyph.toList.map Glyph.char

theorem text_eq (m : Marker) : m.text = '`' :: '~' :: (m.name ++ '~' :: '`' :: m.glued) := by
  simp [text, head, glued]

theorem text_ne_nil (m : Marker) : m.text ≠ [] := by
  simp [text_eq]

/-- The marker of a name and of what follows its closing backtick, and the rest. -/
def readGlued (name t : Text) : Marker × Text :=
  let reference := optional readReference? (t.dropWhile Char.isAlpha)
  let glyph := optional Glyph.read? reference.2
  ({ name, word := t.takeWhile Char.isAlpha, reference := reference.1, glyph := glyph.1 }, glyph.2)

theorem readPrefix?_eq (t : Text) :
    readPrefix? t = (readHead? t).map fun found => readGlued found.1 found.2 := by
  cases h : readHead? t with
  | none => simp [readPrefix?, h]
  | some found => simp [readPrefix?, h, readGlued]

theorem glued_readGlued (name t : Text) :
    t = (readGlued name t).1.glued ++ (readGlued name t).2 := by
  have hreference := optional_eq readReference?
    (fun reference => '[' :: '^' :: '~' :: (reference ++ ['~', ']']))
    (fun hread => by simpa using readReference?_eq_some hread) (t.dropWhile Char.isAlpha)
  have hglyph := optional_eq Glyph.read? (fun g => [g.char])
    (fun hread => Glyph.read?_eq_some hread) (optional readReference? (t.dropWhile Char.isAlpha)).2
  have htext : (readGlued name t).1.referenceText =
      (readGlued name t).1.reference.elim [] fun reference =>
        '[' :: '^' :: '~' :: (reference ++ ['~', ']']) := by
    unfold referenceText
    cases (readGlued name t).1.reference <;> simp
  have hchar : (readGlued name t).1.glyph.toList.map Glyph.char =
      (readGlued name t).1.glyph.elim [] fun g => [g.char] := by
    cases (readGlued name t).1.glyph <;> rfl
  calc t = t.takeWhile Char.isAlpha ++ t.dropWhile Char.isAlpha :=
        List.takeWhile_append_dropWhile.symm
    _ = (readGlued name t).1.word ++ ((readGlued name t).1.referenceText ++
          ((readGlued name t).1.glyph.toList.map Glyph.char ++ (readGlued name t).2)) := by
        rw [htext, hchar]
        exact congrArg _ (hreference.trans (congrArg _ hglyph))
    _ = (readGlued name t).1.glued ++ (readGlued name t).2 := by simp [glued]

/-- What is read is what is written, and a glued word consists of letters. -/
theorem eq_of_readPrefix? {t rest : Text} {m : Marker} (h : readPrefix? t = some (m, rest)) :
    t = m.text ++ rest ∧ ∀ c ∈ m.word, c.isAlpha = true := by
  rw [readPrefix?_eq] at h
  obtain ⟨⟨name, tail⟩, hhead, hpair⟩ := Option.map_eq_some_iff.mp h
  obtain ⟨htext, -, -⟩ := readHead?_eq_some hhead
  have hglued := glued_readGlued name tail
  rw [show readGlued name tail = (m, rest) from hpair] at hglued
  have hm : m = (readGlued name tail).1 := (congrArg Prod.fst hpair).symm
  constructor
  · rw [text_eq, htext, hglued, hm]
    simp [readGlued]
  · intro c hc
    rw [hm] at hc
    exact List.mem_takeWhile_imp hc

/-- A marker with all its parts is read back, whatever follows it. -/
theorem readPrefix?_text {m : Marker} {reference : Text} {g : Glyph} (rest : Text)
    (nonempty : m.name ≠ []) (name : ∀ c ∈ m.name, isNameChar c = true)
    (word : ∀ c ∈ m.word, c.isAlpha = true) (hreference : m.reference = some reference)
    (chars : ∀ c ∈ reference, isReferenceChar c = true) (hglyph : m.glyph = some g) :
    readPrefix? (m.text ++ rest) = some (m, rest) := by
  obtain ⟨name', word', reference', glyph'⟩ := m
  cases hreference
  cases hglyph
  have hstop : Char.isAlpha '[' = false := by decide
  have hhead := readHead?_head (word' ++ '[' :: '^' :: '~' :: (reference ++ '~' :: ']' :: g.char :: rest))
    nonempty name
  have htake := takeWhile_append_cons
    ('^' :: '~' :: (reference ++ '~' :: ']' :: g.char :: rest)) word hstop
  have hdrop := dropWhile_append_cons
    ('^' :: '~' :: (reference ++ '~' :: ']' :: g.char :: rest)) word hstop
  have hread := readReference?_reference (g.char :: rest) chars
  have htext : (⟨name', word', some reference, some g⟩ : Marker).text ++ rest =
      '`' :: '~' :: (name' ++ '~' :: '`' ::
        (word' ++ '[' :: '^' :: '~' :: (reference ++ '~' :: ']' :: g.char :: rest))) := by
    simp [text_eq, glued, referenceText]
  rw [htext, readPrefix?_eq, hhead]
  simp only [Option.map_some, readGlued, optional, htake, hdrop, hread, Glyph.read?_char]

/-! ### What is read before another marker

The opening of a marker is a backtick, a tilde and the first character of its name. No marker that starts
before it reaches beyond it, except that its opening backtick may close an earlier marker. -/

/-- The opening of a marker whose name starts with a given character. -/
def opening (c : Char) : Text := ['`', '~', c]

/-- A text that ends with an opening or with what is left of one without its backtick. -/
def EndsInOpening (c : Char) (t : Text) : Prop :=
  (∃ s, t = s ++ opening c) ∨ t = ['~', c]

/-- Reading in front of an opening gives the same whatever follows the opening, and never takes away more
    of it than its backtick. -/
def Settled {α : Type} (c : Char) (read? : Text → Option (α × Text)) : Prop :=
  ∀ t, EndsInOpening c t →
    (∀ rest, read? (t ++ rest) = (read? t).map fun found => (found.1, found.2 ++ rest)) ∧
    ∀ a after, read? t = some (a, after) → EndsInOpening c after

/-- It is enough to know what is read whatever follows the opening. -/
theorem settled_of_map {α : Type} {c : Char} {read? : Text → Option (α × Text)} {t : Text}
    (found? : Option (α × Text)) (ends : ∀ found ∈ found?, EndsInOpening c found.2)
    (alike : ∀ rest, read? (t ++ rest) = found?.map fun found => (found.1, found.2 ++ rest)) :
    (∀ rest, read? (t ++ rest) = (read? t).map fun found => (found.1, found.2 ++ rest)) ∧
      ∀ a after, read? t = some (a, after) → EndsInOpening c after := by
  have hself : read? t = found? := by
    have hnil := alike []
    simpa using hnil
  refine ⟨fun rest => by rw [alike, hself], fun a after heq => ?_⟩
  rw [hself] at heq
  exact ends _ heq

theorem EndsInOpening.takeWhile_isAlpha {c : Char} {t : Text} (h : EndsInOpening c t) (rest : Text) :
    (t ++ rest).takeWhile Char.isAlpha = t.takeWhile Char.isAlpha := by
  rcases h with ⟨s, rfl⟩ | rfl
  · have hstop : Char.isAlpha '`' = false := by decide
    have hsplit : s ++ opening c ++ rest = s ++ '`' :: ('~' :: c :: rest) := by simp [opening]
    rw [hsplit, takeWhile_append_stop _ _ _ hstop, opening, takeWhile_append_stop _ _ _ hstop]
  · have hstop : Char.isAlpha '~' = false := by decide
    simp [hstop]

theorem EndsInOpening.dropWhile_isAlpha {c : Char} {t : Text} (h : EndsInOpening c t) :
    EndsInOpening c (t.dropWhile Char.isAlpha) ∧
      ∀ rest, (t ++ rest).dropWhile Char.isAlpha = t.dropWhile Char.isAlpha ++ rest := by
  rcases h with ⟨s, rfl⟩ | rfl
  · have hstop : Char.isAlpha '`' = false := by decide
    refine ⟨.inl ⟨s.dropWhile Char.isAlpha, ?_⟩, fun rest => ?_⟩
    · rw [opening, dropWhile_append_stop _ _ _ hstop]
    · have hsplit : s ++ opening c ++ rest = s ++ '`' :: ('~' :: c :: rest) := by simp [opening]
      rw [hsplit, dropWhile_append_stop _ _ _ hstop, opening, dropWhile_append_stop _ _ _ hstop]
      simp
  · have hstop : Char.isAlpha '~' = false := by decide
    refine ⟨.inr ?_, fun rest => ?_⟩
    · simp [hstop]
    · simp [hstop]

theorem settled_glyph (c : Char) : Settled c Glyph.read? := by
  intro t h
  rcases h with ⟨s, rfl⟩ | rfl
  · cases s with
    | nil => simp [opening, Glyph.read?, Glyph.char]
    | cons a s =>
        simp only [List.cons_append, Glyph.read?]
        split
        · refine ⟨fun rest => by simp, fun g after heq => ?_⟩
          cases heq
          exact .inl ⟨s, rfl⟩
        · split
          · refine ⟨fun rest => by simp, fun g after heq => ?_⟩
            cases heq
            exact .inl ⟨s, rfl⟩
          · simp
  · simp [Glyph.read?, Glyph.char]

/-- A reference that starts before an opening ends before it: its tilde is followed by the first
    character of the name, which is no bracket. -/
theorem readReference?_inner {c : Char} (hc : c ≠ ']') (s rest : Text) :
    (dropLead? "~]".toList ((s ++ '`' :: '~' :: c :: rest).dropWhile isReferenceChar)) =
      (dropLead? "~]".toList (s.dropWhile isReferenceChar)).map (· ++ '`' :: '~' :: c :: rest) := by
  have hback : isReferenceChar '`' = true := by decide
  have htilde : isReferenceChar '~' = false := by decide
  rw [List.dropWhile_append]
  cases hdrop : s.dropWhile isReferenceChar with
  | nil => simp [hback, htilde, hc.symm]
  | cons d s =>
      cases s with
      | nil =>
          by_cases hd : '~' = d
          · subst hd
            simp
          · simp [hd]
      | cons d' s =>
          by_cases hd : '~' = d
          · subst hd
            by_cases hd' : ']' = d'
            · subst hd'
              simp
            · simp [hd']
          · simp [hd]

theorem readReference?_open (inner : Text) :
    readReference? ('[' :: '^' :: '~' :: inner) =
      (dropLead? "~]".toList (inner.dropWhile isReferenceChar)).map fun after =>
        (inner.takeWhile isReferenceChar, after) := by
  rw [readReference?, Option.map_eq_bind]
  rfl

/-- Three characters that do not open a reference. -/
theorem readReference?_append_of_ne {s : Text} (length : s.length = 3) (hne : s ≠ "[^~".toList) (rest : Text) :
    readReference? (s ++ rest) = none := by
  rw [readReference?, dropLead?_append_of_ne length hne]
  rfl

/-- What is read of a reference that starts before an opening. -/
theorem readReference?_append_opening {c : Char} (hc : c ≠ ']') (s rest : Text) :
    readReference? ("[^~".toList ++ s ++ opening c ++ rest) =
      ((dropLead? "~]".toList (s.dropWhile isReferenceChar)).map fun after =>
        (s.takeWhile isReferenceChar, after ++ opening c)).map fun found => (found.1, found.2 ++ rest) := by
  have hsplit : "[^~".toList ++ s ++ opening c ++ rest =
      '[' :: '^' :: '~' :: (s ++ '`' :: '~' :: c :: rest) := by simp [opening]
  rw [hsplit, readReference?_open, readReference?_inner hc]
  cases hread : dropLead? "~]".toList (s.dropWhile isReferenceChar) with
  | none => rfl
  | some after =>
      have hdrop : s.dropWhile isReferenceChar ≠ [] := by
        rw [dropLead?_eq_some_iff.mp hread]
        simp
      rw [takeWhile_append_of_dropWhile_ne_nil hdrop]
      simp [opening]

theorem settled_reference {c : Char} (hc : c ≠ ']') : Settled c readReference? := by
  intro t h
  rcases h with ⟨s, rfl⟩ | rfl
  · match s with
    | [] => simp [opening, readReference?]
    | [a] => by_cases ha : '[' = a <;> simp [opening, readReference?, ha]
    | [a, b] =>
        by_cases ha : '[' = a <;> by_cases hb : '^' = b <;> simp [opening, readReference?, ha, hb]
    | a :: b :: d :: s =>
        by_cases hopen : [a, b, d] = "[^~".toList
        · have hsplit : a :: b :: d :: s = "[^~".toList ++ s := by rw [← hopen]; rfl
          rw [hsplit]
          refine settled_of_map _ (fun found hfound => ?_) (readReference?_append_opening hc s)
          obtain ⟨after, -, rfl⟩ := Option.map_eq_some_iff.mp hfound
          exact .inl ⟨after, rfl⟩
        · refine settled_of_map none (by simp) fun rest => ?_
          exact readReference?_append_of_ne (s := [a, b, d]) rfl hopen (s ++ opening c ++ rest)
  · simp [readReference?]

theorem optional_settled {α : Type} {c : Char} {read? : Text → Option (α × Text)}
    (settled : Settled c read?) {t : Text} (h : EndsInOpening c t) :
    EndsInOpening c (optional read? t).2 ∧
      ∀ rest, optional read? (t ++ rest) = ((optional read? t).1, (optional read? t).2 ++ rest) := by
  obtain ⟨hrest, hafter⟩ := settled t h
  unfold optional
  cases hread : read? t with
  | none =>
      refine ⟨h, fun rest => ?_⟩
      rw [hrest, hread]
      rfl
  | some found =>
      refine ⟨hafter _ _ hread, fun rest => ?_⟩
      rw [hrest, hread]
      rfl

theorem readGlued_settled {c : Char} (hc : c ≠ ']') {t : Text} (h : EndsInOpening c t)
    (name rest : Text) : (readGlued name (t ++ rest)).1 = (readGlued name t).1 := by
  obtain ⟨hword, hdrop⟩ := h.dropWhile_isAlpha
  obtain ⟨hreference, hrest⟩ := optional_settled (settled_reference hc) hword
  obtain ⟨-, hglyph⟩ := optional_settled (settled_glyph c) hreference
  simp only [readGlued, h.takeWhile_isAlpha, hdrop, hrest, hglyph]

theorem EndsInOpening.readGlued {c : Char} (hc : c ≠ ']') {t : Text} (h : EndsInOpening c t) (name : Text) :
    EndsInOpening c (readGlued name t).2 := by
  obtain ⟨hreference, -⟩ := optional_settled (settled_reference hc) h.dropWhile_isAlpha.1
  exact (optional_settled (settled_glyph c) hreference).1

theorem readHead?_open (inner : Text) :
    readHead? ('`' :: '~' :: inner) =
      if inner.takeWhile isNameChar = [] then none
      else (dropLead? "~`".toList (inner.dropWhile isNameChar)).map fun after =>
        (inner.takeWhile isNameChar, after) := by
  have hopen : dropLead? "`~".toList ('`' :: '~' :: inner) = some inner := by simp
  simp only [readHead?, hopen, Option.bind_eq_bind, Option.bind_some]
  by_cases hname : inner.takeWhile isNameChar = []
  · simp only [hname, ne_eq, not_true_eq_false, guard, if_false, if_true]
    rfl
  · simp only [hname, ne_eq, not_false_eq_true, guard, if_true, if_false, Option.map_eq_bind]
    rfl

/-- The backtick of an opening may close the name that is read before it. -/
theorem dropLead?_close_opening (s : Text) (c : Char) :
    (∀ rest, dropLead? "~`".toList (s ++ opening c ++ rest) =
      (dropLead? "~`".toList (s ++ opening c)).map (· ++ rest)) ∧
    ∀ after, dropLead? "~`".toList (s ++ opening c) = some after → EndsInOpening c after := by
  match s with
  | [] => simp [opening]
  | [d] =>
      by_cases hd : '~' = d
      · subst hd
        simp [opening, EndsInOpening]
      · simp [opening, hd]
  | d :: d' :: s =>
      by_cases hd : '~' = d
      · subst hd
        by_cases hd' : '`' = d'
        · subst hd'
          simp [EndsInOpening]
        · simp [hd']
      · simp [hd]

/-- Two characters that do not open a name. -/
theorem readHead?_append_of_ne {s : Text} (length : s.length = 2) (hne : s ≠ "`~".toList) (rest : Text) :
    readHead? (s ++ rest) = none := by
  rw [readHead?, dropLead?_append_of_ne length hne]
  rfl

/-- What is read of a name that starts before an opening. -/
theorem readHead?_open_append_opening (s : Text) (c : Char) (rest : Text) :
    readHead? ("`~".toList ++ s ++ opening c ++ rest) =
      (if s.takeWhile isNameChar = [] then none
        else (dropLead? "~`".toList (s.dropWhile isNameChar ++ opening c)).map fun after =>
          (s.takeWhile isNameChar, after)).map fun found => (found.1, found.2 ++ rest) := by
  have hback : isNameChar '`' = false := by decide
  have hsplit : "`~".toList ++ s ++ opening c ++ rest = '`' :: '~' :: (s ++ '`' :: ['~', c] ++ rest) := by
    simp [opening]
  have htake : (s ++ '`' :: ['~', c] ++ rest).takeWhile isNameChar = s.takeWhile isNameChar := by
    rw [List.append_assoc]
    exact takeWhile_append_stop _ _ _ hback
  have hdrop : (s ++ '`' :: ['~', c] ++ rest).dropWhile isNameChar =
      s.dropWhile isNameChar ++ opening c ++ rest := by
    rw [List.append_assoc, List.append_assoc]
    exact dropWhile_append_stop _ _ _ hback
  rw [hsplit, readHead?_open, htake, hdrop, (dropLead?_close_opening _ c).1]
  split
  · rfl
  · simp [Function.comp_def]

/-- A name that starts before an opening ends before it or at its backtick. -/
theorem readHead?_append_opening {w : Text} (nonempty : w ≠ []) (c : Char) :
    (∀ rest, readHead? (w ++ opening c ++ rest) =
      (readHead? (w ++ opening c)).map fun found => (found.1, found.2 ++ rest)) ∧
    ∀ name after, readHead? (w ++ opening c) = some (name, after) → EndsInOpening c after := by
  match w, nonempty with
  | [a], _ => by_cases ha : '`' = a <;> simp [opening, readHead?, ha]
  | a :: b :: s, _ =>
      by_cases hopen : [a, b] = "`~".toList
      · have hsplit : a :: b :: s = "`~".toList ++ s := by rw [← hopen]; rfl
        rw [hsplit]
        refine settled_of_map _ (fun found hfound => ?_) (readHead?_open_append_opening s c)
        split at hfound
        · cases hfound
        · obtain ⟨after, hread, rfl⟩ := Option.map_eq_some_iff.mp hfound
          exact (dropLead?_close_opening _ c).2 after hread
      · refine settled_of_map none (by simp) fun rest => ?_
        exact readHead?_append_of_ne (s := [a, b]) rfl hopen (s ++ opening c ++ rest)

/-- The marker that is read before the opening of another one does not depend on what follows it. -/
theorem read?_append_opening {w : Text} (nonempty : w ≠ []) {c : Char} (hc : c ≠ ']') (rest : Text) :
    read? (w ++ opening c ++ rest) = read? (w ++ opening c) := by
  obtain ⟨hhead, hafter⟩ := readHead?_append_opening nonempty c
  rw [read?, read?, readPrefix?_eq, readPrefix?_eq, hhead]
  cases hread : readHead? (w ++ opening c) with
  | none => rfl
  | some found =>
      have hglued := readGlued_settled hc (hafter _ _ hread) found.1 rest
      simp only [Option.map_some, Option.bind_eq_bind, Option.bind_some, hglued]

/-- What is glued to a name does not end in a backtick. -/
theorem getLast?_glued_ne {m : Marker} (word : ∀ c ∈ m.word, c.isAlpha = true) :
    m.glued.getLast? ≠ some '`' := by
  obtain ⟨name, w, reference, glyph⟩ := m
  cases glyph with
  | some g => cases g <;> simp [glued, Glyph.char]
  | none =>
      cases reference with
      | some reference => simp [glued, referenceText, List.getLast?_cons]
      | none =>
          intro hlast
          simp only [glued, referenceText, Option.toList_none, List.map_nil, List.append_nil] at hlast
          exact absurd (word '`' (List.mem_of_getLast? hlast)) (by decide)

/-- A marker that starts before the opening of another one ends before it, or its quoted name, with nothing
    glued to it, ends with the backtick of that opening. -/
theorem read?_before_opening {w rest : Text} (nonempty : w ≠ []) {c : Char} (hc : c ≠ ']') {m : Marker}
    {length : Nat} (h : read? (w ++ opening c ++ rest) = some (m, length)) :
    length ≤ w.length ∨ m.text = w ++ ['`'] ∧ m.text = m.head := by
  rw [read?_append_opening nonempty hc, read?] at h
  obtain ⟨⟨m', tail⟩, hprefix, hpair⟩ := Option.bind_eq_some_iff.mp h
  cases hpair
  obtain ⟨htext, hword⟩ := eq_of_readPrefix? hprefix
  rw [readPrefix?_eq] at hprefix
  obtain ⟨⟨name, after⟩, hhead, hglued⟩ := Option.map_eq_some_iff.mp hprefix
  have htail : EndsInOpening c tail := by
    have hends := ((readHead?_append_opening nonempty c).2 name after hhead).readGlued hc name
    rwa [show readGlued name after = (m, tail) from hglued] at hends
  rcases htail with ⟨s, rfl⟩ | rfl
  · rw [← List.append_assoc] at htext
    have hw : w = m.text ++ s := List.append_cancel_right htext
    exact .inl (by simp [hw])
  · have hsame : w ++ ['`'] ++ ['~', c] = m.text ++ ['~', c] := by
      rw [← htext]
      simp [opening]
    have hw : w ++ ['`'] = m.text := List.append_cancel_right hsame
    refine .inr ⟨hw.symm, ?_⟩
    -- The last character of the marker is a backtick, so it is not glued to the name.
    have hlast : m.text.getLast? = some '`' := by simp [← hw]
    have hsplit : m.text = m.head ++ m.glued := by simp [text, glued]
    have hnone : m.glued.getLast? = none := by
      refine Option.eq_none_iff_forall_ne_some.mpr fun d hd => ?_
      rw [hsplit, List.getLast?_append, hd, Option.some_or] at hlast
      exact getLast?_glued_ne hword (hd.trans hlast)
    rw [hsplit, List.getLast?_eq_none_iff.mp hnone, List.append_nil]

end Marker

end ReqTrace
