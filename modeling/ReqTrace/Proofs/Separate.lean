/-
Module: ReqTrace.Proofs.Separate
Purpose: Runs over files in separate places. The edits of one file leave alone where the paths of all others lead and
  what is there, so a run leaves the same tree in every order of the files.
Main exports: FileTree.fileOf?, FileTree.Separate, FileTree.Separate.foldlM_of_perm,
  FileTree.Separate.foldlM_of_alike, FileTree.DistinctFiles
-/
import ReqTrace.Proofs.Leads
import ReqTrace.Proofs.Swaps

namespace ReqTrace

/-- Edits of one file, which may be named in two spellings: the second ones make of it what the first ones do. -/
def FileEdits.Alike (e e' : FileEdits) : Prop :=
  e.path.same e'.path = true ∧ ∀ node node', e.revise node = .ok node' → e'.revise node = .ok node'

namespace FileTree

variable {t t' : FileTree}

/-! ### Places of files -/

/-- The place that a path leads to, if a file can be written there. -/
def fileOf? (t : FileTree) (p : Path) : Option Names :=
  match t.locate .writing p with
  | .ok (_, some .directory) => none
  | .ok (names, _) => some names
  | .error _ => none

theorem fileOf?_eq_some_iff {p : Path} {file : Names} : t.fileOf? p = some file ↔ ∃ entry, t.Leads p file entry := by
  constructor
  · intro h
    unfold fileOf? at h
    split at h
    · cases h
    · rename_i names node hregular hlocate
      obtain rfl := Option.some.inj h
      exact Leads.of_locate hlocate hregular
    · cases h
  · rintro ⟨entry, h⟩
    have hopen := h.isOpen
    unfold fileOf?
    rw [h.writing]
    split
    · rename_i heq
      injection heq with heq
      rw [(Prod.mk.inj heq).2] at hopen
      exact hopen.elim
    · rename_i heq
      injection heq with heq
      rw [(Prod.mk.inj heq).1]
    · rename_i heq
      cases heq

/-- Paths that lead to different places, at each of which a file can be written. -/
structure Separate (t : FileTree) (paths : List Path) : Prop where
  leads : ∀ p ∈ paths, (t.fileOf? p).isSome = true
  distinct : paths.Pairwise fun p q => t.fileOf? p ≠ t.fileOf? q

namespace Separate

theorem exists_leads {p : Path} {paths : List Path} (h : t.Separate paths) (hp : p ∈ paths) :
    ∃ file entry, t.Leads p file entry := by
  obtain ⟨file, hfile⟩ := Option.isSome_iff_exists.mp (h.leads p hp)
  exact ⟨file, fileOf?_eq_some_iff.mp hfile⟩

theorem perm {paths paths' : List Path} (perm : paths.Perm paths') (h : t.Separate paths) : t.Separate paths' :=
  ⟨fun p hp => h.leads p (perm.mem_iff.mpr hp), (perm.pairwise_iff Ne.symm).mp h.distinct⟩

/-- Other paths lead to other places. -/
theorem ne_of_cons {p q : Path} {paths : List Path} (h : t.Separate (p :: paths)) (hq : q ∈ paths)
    {file entry file' entry' : Names} (hp : t.Leads p file entry) (hq' : t.Leads q file' entry') : file ≠ file' := by
  rintro rfl
  have hne := (List.pairwise_cons.mp h.distinct).1 q hq
  rw [fileOf?_eq_some_iff.mpr ⟨entry, hp⟩, fileOf?_eq_some_iff.mpr ⟨entry', hq'⟩] at hne
  exact hne rfl

/-! ### Files in another order -/

/-- After the edits of one file the paths of all others lead where they led, and what is there is the same. -/
theorem step {e : FileEdits} {paths : List Path} (h : t.Separate (e.path :: paths))
    (happly : t.applyGroup e = .ok t') :
    ∀ q ∈ paths, ∀ {file entry}, t.Leads q file entry → t'.Leads q file entry ∧ t'.node? file = t.node? file := by
  intro q hq file' entry' h'
  obtain ⟨file, entry, hleads⟩ := h.exists_leads List.mem_cons_self
  obtain ⟨-, -, -, -, -, -, hkept⟩ := hleads.exists_of_applyGroup happly
  exact hkept q file' entry' h' (h.ne_of_cons hq hleads h')

theorem of_step {e : FileEdits} {paths : List Path} (h : t.Separate (e.path :: paths))
    (happly : t.applyGroup e = .ok t') : t'.Separate paths := by
  have hfile : ∀ q ∈ paths, t'.fileOf? q = t.fileOf? q := by
    intro q hq
    obtain ⟨file, entry, hleads⟩ := h.exists_leads (List.mem_cons_of_mem _ hq)
    rw [fileOf?_eq_some_iff.mpr ⟨entry, hleads⟩, fileOf?_eq_some_iff.mpr ⟨entry, (h.step happly q hq hleads).1⟩]
  constructor
  · intro q hq
    rw [hfile q hq]
    exact h.leads q (List.mem_cons_of_mem _ hq)
  · refine (List.pairwise_cons.mp h.distinct).2.imp_of_mem fun {p q} hp hq hne => ?_
    rw [hfile p hp, hfile q hq]
    exact hne

/-- The edits of two files in separate places can be swapped. -/
theorem swaps {e e' : FileEdits} {paths : List Path} (h : t.Separate (e.path :: e'.path :: paths)) :
    Swaps applyGroup t e e' := by
  intro next last hfirst hsecond
  obtain ⟨file, entry, hleads⟩ := h.exists_leads List.mem_cons_self
  obtain ⟨file', entry', hleads'⟩ := h.exists_leads (List.mem_cons_of_mem _ List.mem_cons_self)
  have hother := h.ne_of_cons List.mem_cons_self hleads hleads'
  obtain ⟨node, x, hnode, rfl, rfl, hx, hkept⟩ := hleads.exists_of_applyGroup hfirst
  obtain ⟨hnext, hsame⟩ := hkept _ _ _ hleads' hother
  obtain ⟨node', x', hnode', rfl, rfl, hx', -⟩ := hnext.exists_of_applyGroup hsecond
  rw [hsame] at hnode'
  obtain ⟨hnext', hsame'⟩ := hleads'.set hleads hother.symm hx' node'
  refine ⟨t.set (changed file' entry' node') node', ?_, ?_⟩
  · rw [hleads'.applyGroup_eq, hnode']
    rfl
  · rw [hnext'.applyGroup_eq, hsame', hnode]
    refine congrArg Except.ok (set_comm t ?_ node' node)
    rcases hx with hx | hx <;> rcases hx' with hx' | hx' <;> rw [hx, hx']
    · exact hother.symm
    · exact (hleads.file_ne_entry hleads' hother).symm
    · exact hleads'.file_ne_entry hleads hother.symm
    · exact (hleads.entry_ne_entry hleads' hother).symm

/-- A run over files in separate places succeeds in every order of the files, and leaves the same tree. -/
theorem foldlM_of_perm {groups groups' : List FileEdits} (perm : groups.Perm groups')
    (h : t.Separate (groups.map FileEdits.path)) (run : groups.foldlM applyGroup t = .ok t') :
    groups'.foldlM applyGroup t = .ok t' :=
  ReqTrace.foldlM_of_perm (I := fun t groups => t.Separate (groups.map FileEdits.path))
    (fun perm h => h.perm (perm.map _)) (fun h happly => h.of_step happly) (fun h => h.swaps) perm h run

/-- A run with edits that make the same of all files leaves the same tree. -/
theorem foldlM_of_alike {groups groups' : List FileEdits} (alike : List.Forall₂ FileEdits.Alike groups groups')
    (h : t.Separate (groups.map FileEdits.path)) (h' : t.Separate (groups'.map FileEdits.path))
    (run : groups.foldlM applyGroup t = .ok t') : groups'.foldlM applyGroup t = .ok t' := by
  induction alike generalizing t with
  | nil => exact run
  | @cons e e' groups groups' halike _ ih =>
      rw [List.foldlM_cons] at run ⊢
      obtain ⟨next, hfirst, hrest⟩ := bind_eq_ok_iff.mp run
      obtain ⟨file, entry, hleads⟩ := h.exists_leads List.mem_cons_self
      obtain ⟨file', entry', hleads'⟩ := h'.exists_leads List.mem_cons_self
      have hsame := hleads.of_same halike.1 hleads'.writing hleads'.not_directory
      obtain ⟨node, -, hnode, rfl, hnext, -, -⟩ := hleads.exists_of_applyGroup hfirst
      have hfirst' : t.applyGroup e' = .ok next := by
        rw [hsame.applyGroup_eq, halike.2 _ _ hnode, hnext]
        rfl
      exact bind_eq_ok_iff.mpr ⟨next, hfirst', ih (h.of_step hfirst) (h'.of_step hfirst') hrest⟩

end Separate

/-! ### Different files -/

/-- Different paths lead to different files. Every path leads to one, or to a place where one can be written. -/
structure DistinctFiles (t : FileTree) (paths : List Path) : Prop where
  leads : ∀ p ∈ paths, (t.fileOf? p).isSome = true
  distinct : ∀ p ∈ paths, ∀ q ∈ paths, t.fileOf? p = t.fileOf? q → p.same q = true

instance (t : FileTree) (paths : List Path) : Decidable (t.DistinctFiles paths) :=
  decidable_of_iff ((∀ p ∈ paths, (t.fileOf? p).isSome = true) ∧
      ∀ p ∈ paths, ∀ q ∈ paths, t.fileOf? p = t.fileOf? q → p.same q = true)
    ⟨fun h => ⟨h.1, h.2⟩, fun h => ⟨h.leads, h.distinct⟩⟩

namespace DistinctFiles

theorem perm {paths paths' : List Path} (h : t.DistinctFiles paths) (perm : paths.Perm paths') :
    t.DistinctFiles paths' :=
  ⟨fun p hp => h.leads p (perm.mem_iff.mpr hp),
    fun p hp q hq => h.distinct p (perm.mem_iff.mpr hp) q (perm.mem_iff.mpr hq)⟩

/-- The edits of actions on different files are in separate places. -/
theorem separate {actions : List Action} (h : t.DistinctFiles (actions.map Action.path)) :
    t.Separate ((groupByFile actions).map FileEdits.path) := by
  have hgrouping := isGrouping_groupByFile actions
  have hnamed : ∀ e ∈ groupByFile actions, e.path ∈ actions.map Action.path := by
    intro e he
    obtain ⟨a, ha, hpath⟩ := hgrouping.named e he
    exact List.mem_map.mpr ⟨a, ha, hpath⟩
  constructor
  · intro p hp
    obtain ⟨e, he, rfl⟩ := List.mem_map.mp hp
    exact h.leads e.path (hnamed e he)
  · refine List.pairwise_map.mpr (hgrouping.distinct.imp_of_mem fun {e e'} he he' hother heq => ?_)
    rw [h.distinct _ (hnamed e he) _ (hnamed e' he') heq] at hother
    cases hother

end DistinctFiles

end FileTree

end ReqTrace
