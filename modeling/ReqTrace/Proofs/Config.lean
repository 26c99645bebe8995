/-
Module: ReqTrace.Proofs.Config
Purpose: Settings and their written form. Settings that are written and read again are the same exactly if no
  extension starts with a blank. Blanks are trimmed before dots are dropped, so an extension does so if a blank stands
  right behind the dots of the text that it was given as.
Main exports: Config.startsBlank, Config.IsExtension, Config.normalExtension_eq_self_iff, Config.Reached,
  Config.Reached.isExtension, Config.ofVersion1_toVersion1_eq_iff
-/
import ReqTrace.Config
import ReqTrace.Proofs.Text.Case
import ReqTrace.Proofs.Text.Trimmed

namespace ReqTrace

open Text

namespace Config

/-! ### Extensions -/

/-- Whether a text starts with a blank. -/
def startsBlank (t : Text) : Bool :=
  t.head?.any isBlankChar

/-- Whether a text ends with a blank. -/
def endsBlank (t : Text) : Bool :=
  t.getLast?.any isBlankChar

theorem endsBlank_eq_false_iff {t : Text} : endsBlank t = false ↔ ∀ c ∈ t.getLast?, isBlankChar c = false := by
  unfold endsBlank
  cases t.getLast? <;> simp

/-- What holds of all extensions of settings. A blank at the start is not excluded. -/
structure IsExtension (e : Text) : Prop where
  nonempty : e ≠ []
  noDot : e.head? ≠ some '.'
  noBlankEnd : endsBlank e = false
  lowered : ∀ c ∈ e, IsLowered c

instance (e : Text) : Decidable (IsExtension e) :=
  decidable_of_iff (e ≠ [] ∧ e.head? ≠ some '.' ∧ endsBlank e = false ∧ ∀ c ∈ e, IsLowered c)
    ⟨fun ⟨h₁, h₂, h₃, h₄⟩ => ⟨h₁, h₂, h₃, h₄⟩, fun ⟨h₁, h₂, h₃, h₄⟩ => ⟨h₁, h₂, h₃, h₄⟩⟩

theorem isExtension_normalExtension {t : Text} (h : normalExtension t ≠ []) : IsExtension (normalExtension t) where
  nonempty := h
  noDot := by
    intro hdot
    obtain ⟨c, hc, -, hiff⟩ := exists_head?_of_toLower hdot
    obtain rfl := hiff.mp rfl
    cases head?_dropWhile hc
  noBlankEnd := by
    refine endsBlank_eq_false_iff.mpr fun x hx => ?_
    obtain ⟨c, hc, hblank⟩ := exists_getLast?_of_toLower hx
    rw [hblank]
    exact getLast?_trim (getLast?_of_dropWhile hc)
  lowered := fun _ hc => isLowered_of_mem_toLower hc

/-- The normal form of a text starts with a blank if one stands right behind the dots of the trimmed text. -/
theorem startsBlank_normalExtension (t : Text) :
    startsBlank (normalExtension t) = startsBlank ((trim t).dropWhile (· == '.')) := by
  unfold startsBlank normalExtension
  cases hhead : (toLower ((trim t).dropWhile (· == '.'))).head? with
  | none =>
      rw [List.head?_eq_none_iff, toLower_eq_nil_iff] at hhead
      rw [hhead]
      rfl
  | some x =>
      obtain ⟨c, hc, hblank, -⟩ := exists_head?_of_toLower hhead
      rw [hc]
      exact hblank

example : IsExtension (normalExtension ". a".toList) ∧ startsBlank (normalExtension ". a".toList) = true := by
  decide +kernel

/-- An extension is in lower case already, so it is only cut at its start. -/
theorem IsExtension.normalExtension_eq {e : Text} (h : IsExtension e) :
    normalExtension e = (trimStart e).dropWhile (· == '.') := by
  have htrim : trim e = trimStart e :=
    dropWhileEnd_eq_self fun c hc => endsBlank_eq_false_iff.mp h.noBlankEnd c (getLast?_of_dropWhile hc)
  rw [normalExtension, htrim]
  refine toLower_eq_self fun c hc => h.lowered c ?_
  exact (List.dropWhile_suffix _).subset ((List.dropWhile_suffix _).subset hc)

/-- An extension that starts with a blank gets shorter, any other one is a normal form. -/
theorem normalExtension_eq_self_iff {e : Text} (h : IsExtension e) :
    normalExtension e = e ↔ startsBlank e = false := by
  obtain ⟨c, rest, rfl⟩ := List.exists_cons_of_ne_nil h.nonempty
  have hnoDot : (c == '.') = false := beq_false_of_ne fun hdot => h.noDot (congrArg some hdot)
  rw [h.normalExtension_eq, trimStart]
  cases hblank : isBlankChar c with
  | true =>
      have hshort : (((c :: rest).dropWhile isBlankChar).dropWhile (· == '.')).length ≤ rest.length := by
        rw [List.dropWhile_cons_of_pos hblank]
        exact (List.dropWhile_suffix _).length_le.trans (List.dropWhile_suffix _).length_le
      refine iff_of_false (fun heq => ?_) (by simp [startsBlank, hblank])
      rw [heq, List.length_cons] at hshort
      omega
  | false =>
      rw [List.dropWhile_cons_of_neg (by simp [hblank]), List.dropWhile_cons_of_neg (by simp [hnoDot])]
      simp [startsBlank, hblank]

/-! ### Settings that a run can have -/

/-- The settings that come up: those if nothing is said, those that a written form stands for, and what becomes of
    settings by setting extensions and workers. -/
inductive Reached : Config → Prop where
  | default : Reached default
  | read (v : Version1) : Reached (ofVersion1 v)
  | setExtensions {c : Config} (h : Reached c) (given : List Text) : Reached (c.setExtensions given)
  | setWorkers {c : Config} (h : Reached c) (workers : Nat) : Reached (c.setWorkers workers)

theorem isExtension_of_mem_setExtensions {c : Config} {given : List Text} {e : Text}
    (h : e ∈ (c.setExtensions given).extensions) : IsExtension e := by
  obtain ⟨hmem, hnonempty⟩ := List.mem_filter.mp h
  obtain ⟨t, -, rfl⟩ := List.mem_map.mp hmem
  exact isExtension_normalExtension (by simpa using hnonempty)

theorem Reached.isExtension {c : Config} (h : Reached c) : ∀ e ∈ c.extensions, IsExtension e := by
  induction h with
  | default =>
      have hends : ∀ e ∈ defaultExtensions, e ≠ [] ∧ e.head? ≠ some '.' ∧ endsBlank e = false := by decide +kernel
      have hsmall : ∀ e ∈ defaultExtensions, ∀ c ∈ e, c.isLower = true := by decide +kernel
      intro e he
      obtain ⟨nonempty, noDot, noBlankEnd⟩ := hends e he
      exact ⟨nonempty, noDot, noBlankEnd, fun c hc => isLowered_of_isLower (hsmall e he c hc)⟩
  | read v => exact fun _ he => isExtension_of_mem_setExtensions he
  | setExtensions _ given => exact fun _ he => isExtension_of_mem_setExtensions he
  | setWorkers _ workers ih => exact ih

/-- Setting extensions again changes nothing if each of them is a normal form, for none is dropped then. -/
theorem setExtensions_eq_self_iff {c : Config} (h : ∀ e ∈ c.extensions, IsExtension e) :
    c.setExtensions c.extensions = c ↔ ∀ e ∈ c.extensions, startsBlank e = false := by
  have hfields : c.setExtensions c.extensions = c ↔
      (c.extensions.map normalExtension).filter (! ·.isEmpty) = c.extensions :=
    ⟨congrArg Config.extensions, fun heq => by rw [setExtensions, heq]⟩
  have hnormal : (∀ e ∈ c.extensions, startsBlank e = false) ↔ ∀ e ∈ c.extensions, normalExtension e = e :=
    forall₂_congr fun e he => (normalExtension_eq_self_iff (h e he)).symm
  rw [hfields, hnormal]
  constructor
  · intro heq
    have hall : (c.extensions.map normalExtension).filter (! ·.isEmpty) = c.extensions.map normalExtension :=
      List.filter_sublist.eq_of_length (by rw [heq, List.length_map])
    exact List.map_inj_left.mp ((hall.symm.trans heq).trans (List.map_id _).symm)
  · intro hself
    rw [List.map_congr_left hself, List.map_id', List.filter_eq_self]
    exact fun e he => by simpa using (h e he).nonempty

theorem startsBlank_of_mem_setExtensions_iff (c : Config) (given : List Text) :
    (∀ e ∈ (c.setExtensions given).extensions, startsBlank e = false) ↔
      ∀ t ∈ given, startsBlank ((trim t).dropWhile (· == '.')) = false := by
  constructor
  · intro h t ht
    rw [← startsBlank_normalExtension]
    cases hnormal : normalExtension t with
    | nil => rfl
    | cons x rest =>
        refine h _ (List.mem_filter.mpr ⟨List.mem_map.mpr ⟨t, ht, hnormal⟩, rfl⟩)
  · intro h e he
    obtain ⟨t, ht, rfl⟩ := List.mem_map.mp (List.mem_filter.mp he).1
    rw [startsBlank_normalExtension]
    exact h t ht

/-- Writing settings and reading them again sets their extensions once more. The settings are the same exactly if no
    extension starts with a blank. For extensions that were set, that is so exactly if none was given with a blank
    right behind the dots at its start. -/
theorem ofVersion1_toVersion1_eq_iff {c : Config} (reached : Reached c) :
    ofVersion1 (toVersion1 c) = c.setExtensions c.extensions ∧
      (ofVersion1 (toVersion1 c) = c ↔ ∀ e ∈ c.extensions, startsBlank e = false) ∧
      ∀ given : List Text, ofVersion1 (toVersion1 (c.setExtensions given)) = c.setExtensions given ↔
        ∀ t ∈ given, startsBlank ((trim t).dropWhile (· == '.')) = false := by
  have hagain : ∀ c : Config, ofVersion1 (toVersion1 c) = c.setExtensions c.extensions := fun _ => rfl
  refine ⟨hagain c, ?_, fun given => ?_⟩
  · rw [hagain]
    exact setExtensions_eq_self_iff reached.isExtension
  · rw [hagain, setExtensions_eq_self_iff (reached.setExtensions given).isExtension]
    exact startsBlank_of_mem_setExtensions_iff c given

/-- Blanks around an extension and a capital sigma at its end are no obstacle, a blank behind its dot is: the settings
    that are read have another extension, or none. -/
theorem ofVersion1_toVersion1_eq_iff_blank_behind_dot :
    let kept := (default.setExtensions [" ..Rs ".toList, "ΑΣ".toList]).setWorkers 3
    let changed := default.setExtensions [". a".toList]
    let emptied := default.setExtensions [". .".toList]
    (Reached kept ∧ kept.extensions = ["rs".toList, "ας".toList] ∧ ofVersion1 (toVersion1 kept) = kept) ∧
      (Reached changed ∧ changed.extensions = [" a".toList] ∧
        (ofVersion1 (toVersion1 changed)).extensions = ["a".toList] ∧ ofVersion1 (toVersion1 changed) ≠ changed) ∧
      emptied.extensions = [" .".toList] ∧ (ofVersion1 (toVersion1 emptied)).extensions = [] := by
  have hkept : Reached ((default.setExtensions [" ..Rs ".toList, "ΑΣ".toList]).setWorkers 3) :=
    (Reached.default.setExtensions _).setWorkers 3
  refine ⟨⟨hkept, by decide +kernel, ?_⟩, ⟨Reached.default.setExtensions _, by decide +kernel, by decide +kernel, ?_⟩,
    by decide +kernel, by decide +kernel⟩
  · exact (ofVersion1_toVersion1_eq_iff hkept).2.1.mpr (by decide +kernel)
  · exact fun hsame => absurd (((ofVersion1_toVersion1_eq_iff .default).2.2 _).mp hsame) (by decide +kernel)

end Config

end ReqTrace
