/-
Module: ReqTrace.Proofs.Text.Pieces
Purpose: The pieces of a text between separators: they hold no separator, and they hold all other
  characters of the text. What holds no separator and stands in the text stands in one of them.
Main exports: Text.of_mem_splitOnP, Text.not_mem_of_mem_splitOn, Text.mem_splitOn_iff,
  Text.append_cons_eq_append_iff, Text.Lined, Text.lines_append_cons
-/
import Mathlib.Data.List.Basic
import ReqTrace.Text.Basic

namespace ReqTrace

namespace Text

/-- The characters of a piece are those of the text, and none of them separates pieces. -/
theorem of_mem_splitOnP {p : Char → Bool} {t piece : Text} (h : piece ∈ t.splitOnP p) :
    ∀ c ∈ piece, c ∈ t ∧ p c = false := by
  induction t generalizing piece with
  | nil =>
      rw [List.splitOnP_nil, List.mem_singleton] at h
      simp [h]
  | cons c t ih =>
      have hrest : ∀ {piece : Text}, piece ∈ t.splitOnP p → ∀ x ∈ piece, x ∈ c :: t ∧ p x = false :=
        fun h x hx => (ih h x hx).imp_left (List.mem_cons_of_mem c)
      rw [List.splitOnP_cons_eq_if_modifyHead] at h
      split at h
      · rcases List.mem_cons.mp h with rfl | h
        · simp
        · exact hrest h
      · rename_i hc
        obtain ⟨first, rest, hsplit⟩ := List.exists_cons_of_ne_nil (List.splitOnP_ne_nil p t)
        rw [hsplit, List.modifyHead_cons] at h
        rw [hsplit] at hrest
        rcases List.mem_cons.mp h with rfl | h
        · exact List.forall_mem_cons.mpr ⟨⟨List.mem_cons_self, by simpa using hc⟩, hrest List.mem_cons_self⟩
        · exact hrest (List.mem_cons_of_mem first h)

theorem splitOnP_congr {p q : Char → Bool} {t : Text} (h : ∀ c ∈ t, p c = q c) : t.splitOnP p = t.splitOnP q := by
  induction t with
  | nil => rfl
  | cons c t ih =>
      obtain ⟨hc, ht⟩ := List.forall_mem_cons.mp h
      rw [List.splitOnP_cons_eq_if_modifyHead, List.splitOnP_cons_eq_if_modifyHead, hc, ih ht]

theorem not_mem_of_mem_splitOn {sep : Char} {t piece : Text} (h : piece ∈ t.splitOn sep) :
    sep ∉ piece := by
  intro hsep
  have hother := (of_mem_splitOnP h sep hsep).2
  simp at hother

/-- A character other than the separator is in a text exactly if it is in one of its pieces. -/
theorem mem_splitOn_iff {sep c : Char} (hc : c ≠ sep) {t : Text} :
    (∃ piece ∈ t.splitOn sep, c ∈ piece) ↔ c ∈ t := by
  induction t with
  | nil => simp [List.splitOn_nil]
  | cons a t ih =>
      obtain ⟨first, rest, hsplit⟩ := List.exists_cons_of_ne_nil (List.splitOn_ne_nil sep t)
      rw [List.splitOn_cons_eq_if_modifyHead]
      rw [hsplit] at ih ⊢
      split
      · rename_i ha
        have hne : c ≠ a := fun heq => hc (by simpa [heq] using ha)
        simp only [List.mem_cons, exists_eq_or_imp, List.not_mem_nil, false_or, hne] at ih ⊢
        exact ih
      · simp only [List.modifyHead_cons, List.mem_cons, exists_eq_or_imp] at ih ⊢
        rw [← ih, or_assoc]

/-- A part that does not hold a separator stands before the separator or after it. -/
theorem append_cons_eq_append_iff {part : Text} {sep : Char} (nonempty : part ≠ []) (plain : sep ∉ part)
    {piece rest before after : Text} :
    piece ++ sep :: rest = before ++ part ++ after ↔
      (∃ right, piece = before ++ part ++ right ∧ after = right ++ sep :: rest) ∨
      ∃ left, before = piece ++ sep :: left ∧ rest = left ++ part ++ after := by
  constructor
  · intro h
    rw [List.append_assoc, List.append_eq_append_iff] at h
    rcases h with ⟨left, hbefore, hrest⟩ | ⟨inner, hpiece, hpart⟩
    · cases left with
      | nil =>
          obtain ⟨c, part', rfl⟩ := List.exists_cons_of_ne_nil nonempty
          cases hrest
          exact absurd List.mem_cons_self plain
      | cons c left =>
          cases hrest
          exact .inr ⟨left, hbefore, by simp⟩
    · rw [List.append_eq_append_iff] at hpart
      rcases hpart with ⟨right, hinner, hafter⟩ | ⟨right, hpart, hafter⟩
      · exact .inl ⟨right, by rw [hpiece, hinner, List.append_assoc], hafter⟩
      · cases right with
        | nil => exact .inl ⟨[], by simp [hpiece, hpart], hafter.symm⟩
        | cons c right =>
            cases hafter
            exact absurd (by simp [hpart]) plain
  · intro h
    rcases h with ⟨right, rfl, rfl⟩ | ⟨left, rfl, rfl⟩
    · simp
    · simp

/-- Two characters that end different parts of a text, and do not occur in these parts, are one. -/
theorem append_cons_ne_append_cons {part part' rest rest' : Text} {c c' : Char} (different : c ≠ c')
    (plain : c' ∉ part) (plain' : c ∉ part') : part ++ c :: rest ≠ part' ++ c' :: rest' := by
  intro h
  rw [List.append_eq_append_iff] at h
  rcases h with ⟨more, hpart', hrest⟩ | ⟨more, hpart, hrest⟩
  · cases more with
    | nil => exact different (List.cons.inj hrest).1
    | cons a more =>
        rw [hpart', ← (List.cons.inj hrest).1] at plain'
        exact plain' (by simp)
  · cases more with
    | nil => exact different (List.cons.inj hrest).1.symm
    | cons a more =>
        rw [hpart, ← (List.cons.inj hrest).1] at plain
        exact plain (by simp)

/-! ### Lines -/

/-- A text is a line, or a line, a line feed and a text. -/
inductive Lined : Text → Prop where
  | last {line : Text} (plain : '\n' ∉ line) : Lined line
  | more {line rest : Text} (plain : '\n' ∉ line) (after : Lined rest) : Lined (line ++ '\n' :: rest)

theorem lined (t : Text) : Lined t := by
  induction t with
  | nil => exact .last List.not_mem_nil
  | cons c t ih =>
      by_cases hc : c = '\n'
      · rw [hc]
        exact @Lined.more [] t List.not_mem_nil ih
      · have hplain : ∀ {line : Text}, '\n' ∉ line → '\n' ∉ c :: line := fun plain hmem =>
          (List.mem_cons.mp hmem).elim (fun heq => hc heq.symm) plain
        cases ih with
        | last plain => exact .last (hplain plain)
        | more plain after => exact @Lined.more (c :: _) _ (hplain plain) after

/-- A text without line feeds is one line if it is not empty. -/
theorem lines_eq_filter {line : Text} (plain : '\n' ∉ line) : lines line = [line].filter (! ·.isEmpty) := by
  rw [lines, List.splitOn_eq_singleton plain]
  rfl

theorem lines_append_cons {line : Text} (plain : '\n' ∉ line) (rest : Text) :
    lines (line ++ '\n' :: rest) = dropReturn line :: lines rest := by
  obtain ⟨first, others, hsplit⟩ := List.exists_cons_of_ne_nil (List.splitOn_ne_nil '\n' rest)
  rw [lines, lines, List.splitOn_append_cons_of_beq line rest (beq_self_eq_true '\n'),
    List.splitOn_eq_singleton plain, hsplit]
  simp

end Text

end ReqTrace
