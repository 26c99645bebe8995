/-
Module: ReqTrace.Proofs.Text.Case
Purpose: Lower case is final: what it gives, it leaves alone. It makes no text empty, and it neither makes nor removes
  a blank or a dot at the ends of a text.
Main exports: IsLowered, Text.isLowered_of_mem_toLower, Text.toLower_eq_self, Text.exists_head?_of_toLower,
  Text.exists_getLast?_of_toLower
-/
import Mathlib.Data.List.Basic
import ReqTrace.Text.Blank
import ReqTrace.Text.Case

namespace ReqTrace

/-! ### The table of runs

What is said of single characters below is said of the runs of the table here, for all characters of a run at once:
by their least and their greatest, and where runs of every second character interlock, by their parity. -/

/-- Whether a code point is one of those of a run. -/
def InRun (run : Nat × Nat × Nat × Nat) (n : Nat) : Prop :=
  run.1 ≤ n ∧ n ≤ run.2.1 ∧ (n - run.1) % run.2.2.1 = 0

/-- Whether no image of the first run is in the second one. It is asked about every pair of runs, hence in terms that
    are computed fast. -/
def isSpared (run run' : Nat × Nat × Nat × Nat) : Bool :=
  Nat.blt (run.2.2.2 + (run.2.1 - run.1)) run'.1 || Nat.blt run'.2.1 run.2.2.2 ||
    ((Nat.beq run.2.2.1 2 || Nat.beq run.1 run.2.1) && Nat.beq run'.2.2.1 2 && Nat.beq ((run.2.2.2 + run'.1) % 2) 1)

theorem isSpared_of_mem {run run' : Nat × Nat × Nat × Nat} (h : run ∈ lowerRuns) (h' : run' ∈ lowerRuns) :
    isSpared run run' = true := by
  have hall : (lowerRuns.all fun run => lowerRuns.all (isSpared run)) = true := by decide +kernel
  exact List.all_eq_true.mp (List.all_eq_true.mp hall run h) run' h'

theorem not_inRun_image {run run' : Nat × Nat × Nat × Nat} (h : isSpared run run' = true) {n : Nat}
    (hn : InRun run n) : ¬ InRun run' (run.2.2.2 + (n - run.1)) := by
  obtain ⟨first, last, step, image⟩ := run
  obtain ⟨first', last', step', image'⟩ := run'
  simp only [isSpared, InRun, Bool.or_eq_true, Bool.and_eq_true, Nat.blt_eq, Nat.beq_eq] at h hn ⊢
  obtain ⟨hfirst, hlast, hstep⟩ := hn
  rcases h with (hbelow | habove) | ⟨⟨heven, rfl⟩, hodd⟩
  · omega
  · omega
  · have hdistance : (n - first) % 2 = 0 := by
      rcases heven with rfl | rfl
      · exact hstep
      · omega
    omega

/-- All images are characters. -/
theorem isValidChar_of_mem : ∀ run ∈ lowerRuns,
    run.2.2.2 + (run.2.1 - run.1) < 0xD800 ∨ 0xDFFF < run.2.2.2 ∧ run.2.2.2 + (run.2.1 - run.1) < 0x110000 := by
  decide +kernel

/-- A character is in no run and stays as it is, or it is in a run and becomes the image there. -/
theorem lowerChar_cases (c : Char) :
    (∀ run ∈ lowerRuns, ¬ InRun run c.toNat) ∧ lowerChar c = c ∨
      ∃ run ∈ lowerRuns, InRun run c.toNat ∧ (lowerChar c).toNat = run.2.2.2 + (c.toNat - run.1) := by
  unfold lowerChar
  split
  · rename_i first last step image hfind
    have hmem := List.mem_of_find?_eq_some hfind
    have hin := List.find?_some hfind
    simp only [Bool.and_eq_true, decide_eq_true_eq, beq_iff_eq] at hin
    obtain ⟨⟨hfirst, hlast⟩, hstep⟩ := hin
    refine .inr ⟨(first, last, step, image), hmem, ⟨hfirst, hlast, hstep⟩, ?_⟩
    have hvalid := isValidChar_of_mem _ hmem
    have hchar : (image + (c.toNat - first)).isValidChar := by
      simp only [Nat.isValidChar]
      simp only at hvalid
      omega
    show (Char.ofNat (image + (c.toNat - first))).toNat = image + (c.toNat - first)
    rw [Char.ofNat, dif_pos hchar]
    rfl
  · rename_i hfind
    refine .inl ⟨fun run hrun hin => ?_, rfl⟩
    have hnot := List.find?_eq_none.mp hfind run hrun
    simp only [Bool.and_eq_true, decide_eq_true_eq, beq_iff_eq] at hnot
    exact hnot ⟨⟨hin.1, hin.2.1⟩, hin.2.2⟩

/-- The image of a character is in no run. -/
theorem not_inRun_lowerChar (c : Char) : ∀ run ∈ lowerRuns, ¬ InRun run (lowerChar c).toNat := by
  intro run' hrun'
  rcases lowerChar_cases c with ⟨hnone, hc⟩ | ⟨run, hrun, hin, hc⟩
  · rw [hc]
    exact hnone run' hrun'
  · rw [hc]
    exact not_inRun_image (isSpared_of_mem hrun hrun') hin

theorem lowerChar_eq_self {c : Char} (h : ∀ run ∈ lowerRuns, ¬ InRun run c.toNat) : lowerChar c = c := by
  rcases lowerChar_cases c with ⟨-, hc⟩ | ⟨run, hrun, hin, -⟩
  · exact hc
  · exact absurd hin (h run hrun)

theorem lowerChar_lowerChar (c : Char) : lowerChar (lowerChar c) = lowerChar c :=
  lowerChar_eq_self (not_inRun_lowerChar c)

/-- Whether ranges hold neither a character of a run nor an image. -/
def isClear (ranges : List (Nat × Nat)) (run : Nat × Nat × Nat × Nat) : Bool :=
  ranges.all fun range => (run.2.1 < range.1 || range.2 < run.1) &&
    (run.2.2.2 + (run.2.1 - run.1) < range.1 || range.2 < run.2.2.2)

/-- Ranges that are apart from all runs hold a character exactly if they hold its image. -/
theorem inRanges_lowerChar {ranges : List (Nat × Nat)} (clear : ∀ run ∈ lowerRuns, isClear ranges run = true)
    (c : Char) : Text.inRanges ranges (lowerChar c) = Text.inRanges ranges c := by
  rcases lowerChar_cases c with ⟨-, hc⟩ | ⟨run, hrun, ⟨hfirst, hlast, -⟩, hc⟩
  · rw [hc]
  · have hapart := List.all_eq_true.mp (clear run hrun)
    rw [Bool.eq_iff_iff]
    simp only [Text.inRanges, List.any_eq_true, Bool.and_eq_true, decide_eq_true_eq, hc]
    refine exists_congr fun range => and_congr_right fun hrange => ?_
    have hrange := hapart range hrange
    simp only [Bool.and_eq_true, Bool.or_eq_true, decide_eq_true_eq] at hrange
    omega

theorem isBlankChar_lowerChar (c : Char) : isBlankChar (lowerChar c) = isBlankChar c :=
  inRanges_lowerChar (by decide +kernel) c

theorem lowerChar_eq_dot_iff (c : Char) : lowerChar c = '.' ↔ c = '.' := by
  have hdot : ∀ c : Char, Text.inRanges [(0x2E, 0x2E)] c = true ↔ c = '.' := by
    intro c
    have hvalue : c.toNat = 0x2E ↔ c = '.' := Char.toNat_inj (c := c) (d := '.')
    simp only [← hvalue, Text.inRanges, List.any_cons, List.any_nil, Bool.or_false, Bool.and_eq_true, decide_eq_true_eq]
    omega
  rw [← hdot, ← hdot, inRanges_lowerChar (by decide +kernel)]

/-! ### Characters in lower case -/

/-- A character that lower case leaves alone wherever it stands. The capital dotted i is in no run, for its lower case
    form has two characters. -/
structure IsLowered (c : Char) : Prop where
  fixed : lowerChar c = c
  notDotted : c ≠ 'İ'

instance (c : Char) : Decidable (IsLowered c) :=
  decidable_of_iff (lowerChar c = c ∧ c ≠ 'İ') ⟨fun h => ⟨h.1, h.2⟩, fun h => ⟨h.fixed, h.notDotted⟩⟩

theorem IsLowered.notSigma {c : Char} (h : IsLowered c) : c ≠ 'Σ' := by
  rintro rfl
  exact absurd h.fixed (by decide +kernel)

theorem isLowered_lowerChar {c : Char} (notDotted : c ≠ 'İ') : IsLowered (lowerChar c) := by
  refine ⟨lowerChar_lowerChar c, fun heq => ?_⟩
  rcases lowerChar_cases c with ⟨-, hc⟩ | ⟨run, hrun, ⟨hfirst, hlast, -⟩, hc⟩
  · exact notDotted (hc.symm.trans heq)
  · have hnot : ∀ run ∈ lowerRuns, run.2.2.2 + (run.2.1 - run.1) < 0x130 ∨ 0x130 < run.2.2.2 := by decide +kernel
    have hrun := hnot run hrun
    have hcode : (lowerChar c).toNat = 0x130 := congrArg Char.toNat heq
    omega

/-- The small letters of ASCII stand between the runs. -/
theorem isLowered_of_isLower {c : Char} (h : c.isLower = true) : IsLowered c := by
  have hapart : ∀ run ∈ lowerRuns, run.2.1 < 0x61 ∨ 0x7A < run.1 := by decide +kernel
  have hcode : 0x61 ≤ c.toNat ∧ c.toNat ≤ 0x7A := by
    delta Char.isLower at h
    simpa [UInt32.le_iff_toNat_le] using h
  refine ⟨lowerChar_eq_self fun run hrun hin => ?_, ?_⟩
  · have hrun := hapart run hrun
    obtain ⟨hfirst, hlast, -⟩ := hin
    omega
  · rintro rfl
    exact absurd hcode.2 (by decide)

namespace Text

theorem lowerBetween_ne_nil (before : Text) (c : Char) (after : Text) : lowerBetween before c after ≠ [] := by
  unfold lowerBetween
  split
  · split <;> simp
  · split <;> simp

theorem isLowered_of_mem_lowerBetween {before after : Text} {c x : Char} (h : x ∈ lowerBetween before c after) :
    IsLowered x := by
  unfold lowerBetween at h
  split at h
  · split at h
    · rw [List.mem_singleton.mp h]
      decide +kernel
    · rw [List.mem_singleton.mp h]
      decide +kernel
  · split at h
    · rcases List.mem_cons.mp h with rfl | h
      · decide +kernel
      · rw [List.mem_singleton.mp h]
        decide +kernel
    · rename_i hdotted
      rw [List.mem_singleton.mp h]
      exact isLowered_lowerChar hdotted

/-- Lower case gives blanks for blanks only, and a dot for a dot only. -/
theorem kind_of_mem_lowerBetween {before after : Text} {c x : Char} (h : x ∈ lowerBetween before c after) :
    isBlankChar x = isBlankChar c ∧ (x = '.' ↔ c = '.') := by
  unfold lowerBetween at h
  split at h
  · rename_i hsigma
    subst hsigma
    split at h
    · rw [List.mem_singleton.mp h]
      decide
    · rw [List.mem_singleton.mp h]
      decide
  · split at h
    · rename_i hdotted
      subst hdotted
      rcases List.mem_cons.mp h with rfl | h
      · decide
      · rw [List.mem_singleton.mp h]
        decide
    · rw [List.mem_singleton.mp h]
      exact ⟨isBlankChar_lowerChar c, lowerChar_eq_dot_iff c⟩

/-! ### Texts in lower case -/

theorem isLowered_of_mem_toLowerFrom {before t : Text} {x : Char} (h : x ∈ toLowerFrom before t) : IsLowered x := by
  induction t generalizing before with
  | nil => cases h
  | cons c t ih =>
      rcases List.mem_append.mp h with hfirst | hrest
      · exact isLowered_of_mem_lowerBetween hfirst
      · exact ih hrest

theorem isLowered_of_mem_toLower {t : Text} {x : Char} (h : x ∈ toLower t) : IsLowered x :=
  isLowered_of_mem_toLowerFrom h

theorem toLowerFrom_eq_self {before t : Text} (h : ∀ c ∈ t, IsLowered c) : toLowerFrom before t = t := by
  induction t generalizing before with
  | nil => rfl
  | cons c t ih =>
      obtain ⟨hfirst, hrest⟩ := List.forall_mem_cons.mp h
      rw [toLowerFrom, ih hrest, lowerBetween, if_neg hfirst.notSigma, if_neg hfirst.notDotted, hfirst.fixed]
      rfl

theorem toLower_eq_self {t : Text} (h : ∀ c ∈ t, IsLowered c) : toLower t = t :=
  toLowerFrom_eq_self h

theorem toLower_eq_nil_iff {t : Text} : toLower t = [] ↔ t = [] := by
  cases t with
  | nil => simp [toLower, toLowerFrom]
  | cons c t => simp [toLower, toLowerFrom, lowerBetween_ne_nil]

/-- A text in lower case starts like the text that it is made from. -/
theorem exists_head?_of_toLower {t : Text} {x : Char} (h : (toLower t).head? = some x) :
    ∃ c, t.head? = some c ∧ isBlankChar x = isBlankChar c ∧ (x = '.' ↔ c = '.') := by
  cases t with
  | nil => cases h
  | cons c t =>
      rw [toLower, toLowerFrom, List.head?_append_of_ne_nil _ (lowerBetween_ne_nil _ _ _)] at h
      exact ⟨c, rfl, kind_of_mem_lowerBetween (List.mem_of_mem_head? h)⟩

theorem exists_toLowerFrom_concat (before t : Text) (c : Char) :
    ∃ front before', toLowerFrom before (t ++ [c]) = front ++ lowerBetween before' c [] := by
  induction t generalizing before with
  | nil => exact ⟨[], before, by simp [toLowerFrom]⟩
  | cons a t ih =>
      obtain ⟨front, before', hfront⟩ := ih (a :: before)
      exact ⟨_, before', by rw [List.cons_append, toLowerFrom, hfront, ← List.append_assoc]⟩

/-- A text in lower case ends like the text that it is made from. -/
theorem exists_getLast?_of_toLower {t : Text} {x : Char} (h : (toLower t).getLast? = some x) :
    ∃ c, t.getLast? = some c ∧ isBlankChar x = isBlankChar c := by
  rcases List.eq_nil_or_concat t with rfl | ⟨front, c, rfl⟩
  · cases h
  · rw [List.concat_eq_append] at h ⊢
    obtain ⟨front', before', hlower⟩ := exists_toLowerFrom_concat [] front c
    rw [toLower, hlower, List.getLast?_append_of_ne_nil _ (lowerBetween_ne_nil _ _ _)] at h
    exact ⟨c, List.getLast?_concat, (kind_of_mem_lowerBetween (List.mem_of_mem_getLast? h)).1⟩

end Text

end ReqTrace
