/-
Module: ReqTrace.Proofs.Json
Purpose: JSON objects of strings are read back as they were written.
Main exports: Json.readText_escape, Json.readEntry_renderEntry, Json.readObject_renderObject
-/
import Mathlib.Data.List.TakeWhile
import ReqTrace.Json.Object

namespace ReqTrace

namespace Json

/-! ### Strings -/

/-- The escape of a control character is read as its number. -/
theorem hexValue4?_hexPair : ∀ n < 32,
    hexValue4? '0' '0' (Nat.digitChar (n / 16)) (Nat.digitChar (n % 16)) = some n := by
  decide

/-- A character that is written as it is. -/
theorem readText_plain {c : Char} (hquote : c ≠ '"') (hbackslash : c ≠ '\\') (hcontrol : ¬ c < ' ')
    (rest : Text) : readText none (c :: rest) = prepend c (readText none rest) := by
  rw [readText.eq_def]
  split <;> simp_all [-Char.not_lt]

theorem readText_control {c : Char} (h : c < ' ') (rest : Text) :
    readText none ("\\u00".toList ++ hexPair c.toNat ++ rest) = prepend c (readText none rest) := by
  have hsmall : c.toNat < 32 := h
  have hread := hexValue4?_hexPair c.toNat hsmall
  have htrailing : isTrailing c.toNat = false := by
    simp only [isTrailing, Bool.and_eq_false_iff, decide_eq_false_iff_not]
    omega
  have hleading : isLeading c.toNat = false := by
    simp only [isLeading, Bool.and_eq_false_iff, decide_eq_false_iff_not]
    omega
  simp only [hexPair, String.reduceToList, List.cons_append, List.nil_append]
  rw [readText.eq_def]
  simp only [hread, htrailing, hleading, Char.ofNat_toNat]
  rfl

theorem readText_escapeChar (c : Char) (rest : Text) :
    readText none (escapeChar c ++ rest) = prepend c (readText none rest) := by
  unfold escapeChar
  split
  · rename_i h
    rcases h with rfl | rfl
    · simp [readText, shortEscape?]
    · simp [readText, shortEscape?]
  · rename_i hplain
    obtain ⟨hquote, hbackslash⟩ := not_or.mp hplain
    split
    · subst_vars
      simp [readText, shortEscape?]
    split
    · subst_vars
      simp [readText, shortEscape?]
    split
    · subst_vars
      simp [readText, shortEscape?]
    split
    · subst_vars
      simp [readText, shortEscape?]
    split
    · subst_vars
      simp [readText, shortEscape?]
    split
    · rename_i hcontrol
      exact readText_control hcontrol rest
    · rename_i hcontrol
      exact readText_plain hquote hbackslash hcontrol rest

/-- A string is read up to its closing quote. -/
theorem readText_escape (t rest : Text) : readText none (escape t ++ '"' :: rest) = .ok (t, rest) := by
  induction t with
  | nil => simp [escape, readText]
  | cons c t ih =>
      rw [escape, List.flatMap_cons, List.append_assoc, readText_escapeChar]
      rw [escape] at ih
      rw [ih]
      rfl

/-! ### Objects -/

theorem readEntry_renderEntry (entry : Text × Text) (rest : Text) :
    readEntry (escape entry.1 ++ '"' :: ':' :: ' ' :: (quote entry.2 ++ rest)) = .ok (entry, rest) := by
  have hvalue : quote entry.2 ++ rest = '"' :: (escape entry.2 ++ '"' :: rest) := by
    simp [quote]
  rw [readEntry, readText_escape, hvalue]
  simp only [bind, Except.bind, skipSpace]
  simp [isSpace, readText_escape, pure, Except.pure]

/-- The entries after the first one and the end of the object, as written. -/
def renderMore (entries : List (Text × Text)) : Text :=
  entries.flatMap (fun entry => ",\n".toList ++ renderEntry entry) ++ "\n\x7d".toList

theorem length_le_length_renderMore (entries : List (Text × Text)) :
    entries.length ≤ (renderMore entries).length := by
  induction entries with
  | nil => exact Nat.zero_le _
  | cons entry entries ih =>
      rw [renderMore, List.length_append] at ih ⊢
      rw [List.flatMap_cons, List.length_append, List.length_cons]
      simp only [String.reduceToList, List.cons_append, List.length_cons] at ih ⊢
      omega

/-- An entry after a comma is read before the entries that follow it. -/
theorem readMore_comma {fuel : Nat} {t rest tail : Text} {entry : Text × Text} {entries : List (Text × Text)}
    (first : readEntry t = .ok (entry, rest)) (more : readMore fuel rest = .ok (entries, tail)) :
    readMore (fuel + 1) (',' :: '\n' :: ' ' :: ' ' :: '"' :: t) = .ok (entry :: entries, tail) := by
  have hskip : skipSpace (',' :: '\n' :: ' ' :: ' ' :: '"' :: t) = ',' :: '\n' :: ' ' :: ' ' :: '"' :: t := rfl
  have hskip' : skipSpace ('\n' :: ' ' :: ' ' :: '"' :: t) = '"' :: t := rfl
  simp only [readMore, hskip, hskip', first, more, bind, Except.bind]
  rfl

theorem readEntries_quote {t rest tail : Text} {entry : Text × Text} {entries : List (Text × Text)}
    (first : readEntry t = .ok (entry, rest)) (more : readMore (rest.length + 1) rest = .ok (entries, tail)) :
    readEntries ('\n' :: ' ' :: ' ' :: '"' :: t) = .ok (entry :: entries, tail) := by
  have hskip : skipSpace ('\n' :: ' ' :: ' ' :: '"' :: t) = '"' :: t := rfl
  simp only [readEntries, hskip, first, more, bind, Except.bind]
  rfl

/-- An object is the whole text if nothing but white space follows it. -/
theorem readWhole_brace {t tail : Text} {entries : List (Text × Text)} (blank : skipSpace tail = [])
    (read : readEntries t = .ok (entries, tail)) : readWhole ('\x7b' :: t) = .ok entries := by
  have hskip : skipSpace ('\x7b' :: t) = '\x7b' :: t := rfl
  simp only [readWhole, hskip, read, blank, bind, Except.bind]
  rfl

theorem readMore_renderMore {fuel : Nat} (entries : List (Text × Text)) (rest : Text)
    (enough : entries.length < fuel) : readMore fuel (renderMore entries ++ rest) = .ok (entries, rest) := by
  induction entries generalizing fuel with
  | nil =>
      obtain ⟨fuel, rfl⟩ := Nat.exists_eq_succ_of_ne_zero (Nat.ne_of_gt enough)
      rfl
  | cons entry entries ih =>
      obtain ⟨fuel, rfl⟩ := Nat.exists_eq_succ_of_ne_zero (Nat.ne_of_gt (Nat.zero_lt_of_lt enough))
      have hrest := @ih fuel (Nat.lt_of_succ_lt_succ enough)
      have htext : renderMore (entry :: entries) ++ rest = ',' :: '\n' :: ' ' :: ' ' :: '"' ::
          (escape entry.1 ++ '"' :: ':' :: ' ' :: (quote entry.2 ++ (renderMore entries ++ rest))) := by
        simp [renderMore, renderEntry, quote]
      rw [htext, readMore_comma (readEntry_renderEntry _ _) hrest]

theorem intercalate_cons_eq_flatMap (sep first : Text) (parts : List Text) :
    sep.intercalate (first :: parts) = first ++ parts.flatMap (sep ++ ·) := by
  induction parts generalizing first with
  | nil => simp
  | cons next parts ih =>
      rw [List.intercalate_cons_cons, ih next, List.flatMap_cons]
      simp

theorem renderObject_cons (entry : Text × Text) (entries : List (Text × Text)) :
    renderObject (entry :: entries) = "\x7b\n".toList ++ renderEntry entry ++ renderMore entries := by
  have hrender : renderObject (entry :: entries) = "\x7b\n".toList ++
      Text.join ",\n".toList ((entry :: entries).map renderEntry) ++ "\n\x7d".toList := rfl
  rw [hrender, Text.join, List.map_cons, intercalate_cons_eq_flatMap, List.flatMap_map, renderMore]
  simp only [List.append_assoc]

/-- An object is read back whatever white space follows it. -/
theorem readObject_renderObject (entries : List (Text × Text)) {tail : Text}
    (blank : ∀ c ∈ tail, isSpace c = true) : readObject (renderObject entries ++ tail) = .ok entries := by
  have htail : skipSpace tail = [] := List.dropWhile_eq_nil_iff.mpr blank
  have hwhole : readWhole (renderObject entries ++ tail) = .ok entries := by
    cases entries with
    | nil => exact readWhole_brace htail (t := '\x7d' :: tail) rfl
    | cons entry entries =>
        have htext : renderObject (entry :: entries) ++ tail = '\x7b' :: '\n' :: ' ' :: ' ' :: '"' ::
            (escape entry.1 ++ '"' :: ':' :: ' ' :: (quote entry.2 ++ (renderMore entries ++ tail))) := by
          rw [renderObject_cons]
          simp [renderEntry, quote]
        have hlength := length_le_length_renderMore entries
        have hmore := @readMore_renderMore ((renderMore entries ++ tail).length + 1) entries tail (by
          rw [List.length_append]
          omega)
        rw [htext]
        exact readWhole_brace htail (readEntries_quote (readEntry_renderEntry _ _) hmore)
  rw [readObject, hwhole]
  rfl

end Json

end ReqTrace
