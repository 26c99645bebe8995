/-
Module: ReqTrace.Proofs.Identifier
Purpose: The characters of identifiers: letters, digits, underscores and dots, starting with a letter or
  an underscore.
Main exports: isIdentifierChar, Identifier.isIdentifierChar_of_mem, Identifier.exists_text_eq_cons,
  Identifier.text_ne_nil, Identifier.not_mem_text
-/
import ReqTrace.Identifier
import ReqTrace.Proofs.Text.Pieces

namespace ReqTrace

/-- The characters that identifiers are made of. -/
def isIdentifierChar (c : Char) : Bool :=
  isSegmentRest c || c == '.'

namespace Identifier

theorem isSegmentRest_of_isSegmentStart {c : Char} (h : isSegmentStart c = true) :
    isSegmentRest c = true := by
  simp only [isSegmentStart, isSegmentRest, Bool.or_eq_true, Char.isAlphanum] at h ⊢
  tauto

theorem isSegmentRest_of_mem {segment : Text} (h : isSegment segment = true) {c : Char}
    (hc : c ∈ segment) : isSegmentRest c = true := by
  cases segment with
  | nil => simp at hc
  | cons first rest =>
      simp only [isSegment, Bool.and_eq_true, List.all_eq_true] at h
      rcases List.mem_cons.mp hc with rfl | hc
      · exact isSegmentRest_of_isSegmentStart h.1
      · exact h.2 c hc

theorem isSegment_of_mem (i : Identifier) {segment : Text} (h : segment ∈ i.text.splitOn '.') :
    isSegment segment = true :=
  List.all_eq_true.mp i.valid segment h

/-- An identifier holds letters, digits, underscores and dots only. -/
theorem isIdentifierChar_of_mem (i : Identifier) {c : Char} (hc : c ∈ i.text) :
    isIdentifierChar c = true := by
  by_cases hdot : c = '.'
  · simp [isIdentifierChar, hdot]
  · obtain ⟨segment, hsegment, hmem⟩ := (Text.mem_splitOn_iff hdot).mpr hc
    have hrest := isSegmentRest_of_mem (i.isSegment_of_mem hsegment) hmem
    simp [isIdentifierChar, hrest]

/-- An identifier starts with a letter or an underscore. -/
theorem exists_text_eq_cons (i : Identifier) :
    ∃ c rest, i.text = c :: rest ∧ isSegmentStart c = true := by
  obtain ⟨first, others, hsplit⟩ := List.exists_cons_of_ne_nil (List.splitOn_ne_nil '.' i.text)
  have hfirst := i.isSegment_of_mem (by rw [hsplit]; exact List.mem_cons_self)
  cases htext : i.text with
  | nil =>
      rw [htext, List.splitOn_nil, List.cons.injEq] at hsplit
      rw [← hsplit.1] at hfirst
      simp [isSegment] at hfirst
  | cons c rest =>
      refine ⟨c, rest, rfl, ?_⟩
      obtain ⟨first', others', hsplit'⟩ := List.exists_cons_of_ne_nil (List.splitOn_ne_nil '.' rest)
      rw [htext, List.splitOn_cons_eq_if_modifyHead, hsplit', List.modifyHead_cons] at hsplit
      split at hsplit
      · cases hsplit
        simp [isSegment] at hfirst
      · cases hsplit
        simp only [isSegment, Bool.and_eq_true] at hfirst
        exact hfirst.1

theorem text_ne_nil (i : Identifier) : i.text ≠ [] := by
  obtain ⟨c, rest, htext, -⟩ := i.exists_text_eq_cons
  simp [htext]

/-- A character that no identifier is made of is in none. -/
theorem not_mem_text (i : Identifier) {c : Char} (hc : isIdentifierChar c = false) : c ∉ i.text := by
  intro hmem
  rw [i.isIdentifierChar_of_mem hmem] at hc
  cases hc

end Identifier

end ReqTrace
