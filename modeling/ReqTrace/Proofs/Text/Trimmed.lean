/-
Module: ReqTrace.Proofs.Text.Trimmed
Purpose: The ends of texts that were cut. What is dropped at an end does not stand there any more, so a trimmed text
  ends with no blank.
Main exports: Text.head?_dropWhile, Text.getLast?_of_dropWhile, Text.getLast?_trim,
  Text.eq_nil_of_trim_eq_append
-/
import ReqTrace.Proofs.Text.Occurrences

namespace ReqTrace

namespace Text

theorem head?_dropWhile {p : Char → Bool} {t : Text} {c : Char} (h : (t.dropWhile p).head? = some c) :
    p c = false := by
  have hstop := List.head?_dropWhile_not p t
  rw [h] at hstop
  exact hstop

/-- What is dropped at the start leaves the end as it is. -/
theorem getLast?_of_dropWhile {p : Char → Bool} {t : Text} {c : Char} (h : (t.dropWhile p).getLast? = some c) :
    t.getLast? = some c := by
  obtain ⟨dropped, heq⟩ := List.dropWhile_suffix (l := t) p
  rw [← heq, List.getLast?_append]
  exact Option.or_eq_some_iff.mpr (.inl h)

theorem getLast?_dropWhileEnd {p : Char → Bool} {t : Text} {c : Char} (h : (dropWhileEnd p t).getLast? = some c) :
    p c = false := by
  rw [dropWhileEnd, List.getLast?_reverse] at h
  exact head?_dropWhile h

theorem getLast?_trim {t : Text} {c : Char} (h : (trim t).getLast? = some c) : isBlankChar c = false :=
  getLast?_dropWhileEnd h

/-- No blanks follow anything in a trimmed text. -/
theorem eq_nil_of_trim_eq_append {t before blanks : Text} (h : trim t = before ++ blanks)
    (blank : ∀ c ∈ blanks, isBlankChar c = true) : blanks = [] := by
  rcases List.eq_nil_or_concat blanks with hnil | ⟨others, c, hconcat⟩
  · exact hnil
  · have hlast : (trim t).getLast? = some c := by
      rw [h, hconcat, List.concat_eq_append, ← List.append_assoc, List.getLast?_concat]
    have hblank : isBlankChar c = true := blank c (by simp [hconcat])
    rw [getLast?_trim hlast] at hblank
    cases hblank

end Text

end ReqTrace
