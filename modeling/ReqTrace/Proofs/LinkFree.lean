/-
Module: ReqTrace.Proofs.LinkFree
Purpose: Trees without links. There a path leads to one place, which can be told from its spelling, and the
  edits of a file change what is in the place of its path and nothing else.
Main exports: FileTree.place, FileTree.NoLinks.locate, FileTree.NoLinks.applyGroup_cases
-/
import ReqTrace.Proofs.Apply
import ReqTrace.Proofs.Walk

namespace ReqTrace

namespace FileTree

variable {t : FileTree}

/-! ### Where a path leads -/

/-- The names that some steps lead to from others if no link is on the way. -/
def leadFrom (current : Names) : List PathComponent → Names
  | [] => current
  | .root :: left => leadFrom [] left
  | .here :: left => leadFrom current left
  | .up :: left => leadFrom current.dropLast left
  | .name name :: left => leadFrom (current ++ [name]) left

/-- The names that a path stands for if no link is on the way. Different paths may stand for the same names:
    one that goes up again, or one that starts from the working directory. -/
def place (t : FileTree) (p : Path) : Names :=
  leadFrom t.workingDirectory (steps p)

namespace NoLinks

/-- A walk ends in the place of its steps. -/
theorem advance (h : t.NoLinks) {purpose : Purpose} {slash : Bool} {current : Names}
    {left : List PathComponent} {progress : Progress}
    (hadvance : t.advance purpose slash current left = .ok progress) :
    ∃ node, progress = .arrived (leadFrom current left) node := by
  replace hadvance := advances_of_advance hadvance
  induction hadvance with
  | done current => exact ⟨_, rfl⟩
  | root _ ih => exact ih
  | here _ ih => exact ih
  | up _ ih => exact ih
  | enter _ _ _ _ ih => exact ih
  | stop short stops => exact ⟨_, rfl⟩
  | link more short node => exact absurd node (h _ _)
  | lastLink last short node follows => exact absurd node (h _ _)

/-- A path leads to its place. What is found there is what is there, except that nothing has been looked up
    where the last step is not a name, and a directory is taken for granted. -/
theorem locate (h : t.NoLinks) {purpose : Purpose} {p : Path} {names : Names} {node : Option Node}
    (hlocate : t.locate purpose p = .ok (names, node)) :
    names = t.place p ∧ (node ≠ some .directory → t.place p ≠ [] ∧ node = t.node? (t.place p)) := by
  obtain ⟨-, -, -, hwalk⟩ := locate_eq_ok_iff.mp hlocate
  have hnames : names = t.place p := by
    rcases walk_cases hwalk with hadvance | ⟨_, _, _, _, -, hadvance, -⟩
    · obtain ⟨node', harrived⟩ := h.advance hadvance
      cases harrived
      rfl
    · obtain ⟨node', harrived⟩ := h.advance hadvance
      cases harrived
  refine ⟨hnames, fun file => ?_⟩
  obtain ⟨hne, hnode, -⟩ := node_of_walk hwalk file
  exact hnames ▸ ⟨hne, hnode⟩

/-! ### Reading, writing and removing -/

theorem readText (h : t.NoLinks) {p : Path} {text : Text} (hread : t.readText p = .ok text) :
    textOf (t.node? (t.place p)) = .ok text := by
  obtain ⟨names, hlocate⟩ := readText_eq_ok_iff.mp hread
  obtain ⟨-, hthere⟩ := h.locate hlocate
  exact textOf_eq_ok_iff.mpr (hthere (by simp)).2.symm

/-- A file that is not found is not there, unless the walk to its place is stopped before. -/
theorem readText_notFound (h : t.NoLinks) {p : Path} (hread : t.readText p = .error .notFound) :
    t.locate .reading p = .error .notFound ∨ textOf (t.node? (t.place p)) = .error .notFound := by
  cases hlocate : t.locate .reading p with
  | error error =>
      rw [readText_of_locate_error hlocate] at hread
      exact .inl (congrArg Except.error (Except.error.inj hread))
  | ok found =>
      rw [readText_of_locate hlocate] at hread
      have hfile : found.2 ≠ some .directory := by
        intro hdirectory
        rw [hdirectory] at hread
        cases hread
      rw [((h.locate hlocate).2 hfile).2] at hread
      exact .inr hread

theorem writeText (h : t.NoLinks) {t' : FileTree} {p : Path} {text : Text}
    (hwrite : t.writeText p text = .ok t') :
    t.place p ≠ [] ∧ t' = t.set (t.place p) (some (.file (.text text))) := by
  obtain ⟨names, node, hlocate, hfile, rfl⟩ := writeText_eq_ok_iff.mp hwrite
  obtain ⟨rfl, hthere⟩ := h.locate hlocate
  exact ⟨(hthere hfile).1, rfl⟩

theorem remove (h : t.NoLinks) {t' : FileTree} {p : Path} (hremove : t.remove p = .ok t') :
    t.place p ≠ [] ∧ t' = t.set (t.place p) none := by
  obtain ⟨names, node, hlocate, hfile, rfl⟩ := remove_eq_ok_iff.mp hremove
  obtain ⟨rfl, hthere⟩ := h.locate hlocate
  exact ⟨(hthere (by simpa using hfile)).1, rfl⟩

/-! ### The edits of one file -/

theorem loadManifest (h : t.NoLinks) {e : FileEdits} {m : Manifest}
    (hload : t.loadManifest e.path = .ok m) :
    t.locate .reading e.path = .error .notFound ∨ e.manifestIn (t.node? (t.place e.path)) = .ok m := by
  unfold FileTree.loadManifest at hload
  split at hload
  · rename_i hread
    refine (h.readText_notFound hread).imp_right fun htext => ?_
    rw [FileEdits.manifestIn, htext]
    exact hload
  · cases hload
  · rename_i text hread
    refine .inr ?_
    rw [FileEdits.manifestIn, h.readText hread]
    exact hload

/-- The edits of a file that succeed put into its place what they make of what is there. They change nothing
    if they would leave a manifest empty whose directory is not there. -/
theorem applyGroup_cases (h : t.NoLinks) {t' : FileTree} {e : FileEdits} (hok : t.applyGroup e = .ok t') :
    t' = t ∨ t.place e.path ≠ [] ∧
      ∃ node, e.revise (t.node? (t.place e.path)) = .ok node ∧ t' = t.set (t.place e.path) node := by
  unfold applyGroup at hok
  unfold FileEdits.revise
  split at hok
  · rename_i hmanifest
    rw [if_pos hmanifest]
    obtain ⟨m, hload, hsave⟩ := bind_eq_ok_iff.mp hok
    unfold saveManifest at hsave
    rcases h.loadManifest hload with hmissing | hm
    · have hunreached : ∀ purpose found, t.locate purpose e.path ≠ .ok found := fun purpose found hlocate => by
        have hreading := locate_reading (fun _ => h) hlocate
        rw [hmissing] at hreading
        cases hreading
      split at hsave
      · split at hsave
        · cases hsave
          exact .inl rfl
        · obtain ⟨found, hlocate, -⟩ := bind_eq_ok_iff.mp (mapError_eq_ok_iff.mp hsave)
          exact absurd hlocate (hunreached _ _)
      · obtain ⟨found, hlocate, -⟩ := bind_eq_ok_iff.mp (mapError_eq_ok_iff.mp hsave)
        exact absurd hlocate (hunreached _ _)
    · split at hsave
      · rename_i hempty
        split at hsave
        · cases hsave
          exact .inl rfl
        · obtain ⟨hne, hset⟩ := h.remove (mapError_eq_ok_iff.mp hsave)
          refine .inr ⟨hne, none, bind_eq_ok_iff.mpr ⟨m, hm, ?_⟩, hset⟩
          rw [if_pos hempty]
          rfl
      · rename_i hnonempty
        obtain ⟨hne, hset⟩ := h.writeText (mapError_eq_ok_iff.mp hsave)
        refine .inr ⟨hne, _, bind_eq_ok_iff.mpr ⟨m, hm, ?_⟩, hset⟩
        rw [if_neg hnonempty]
        rfl
  · rename_i hdocument
    rw [if_neg hdocument]
    obtain ⟨text, hread, hrest⟩ := bind_eq_ok_iff.mp hok
    obtain ⟨patched, hpatched, hwrite⟩ := bind_eq_ok_iff.mp hrest
    obtain ⟨hne, hset⟩ := h.writeText (mapError_eq_ok_iff.mp hwrite)
    have htext := h.readText (mapError_eq_ok_iff.mp hread)
    refine .inr ⟨hne, _, bind_eq_ok_iff.mpr ⟨text, ?_, bind_eq_ok_iff.mpr ⟨patched, hpatched, rfl⟩⟩, hset⟩
    exact mapError_eq_ok_iff.mpr htext

/-- What the edits of a file leave alone: all other places, and that there are no links. -/
theorem applyGroup_frame (h : t.NoLinks) {t' : FileTree} {e : FileEdits} (hok : t.applyGroup e = .ok t') :
    t'.NoLinks ∧ t'.workingDirectory = t.workingDirectory ∧
      ∀ names, names ≠ t.place e.path → t'.node? names = t.node? names := by
  rcases h.applyGroup_cases hok with rfl | ⟨hne, node, hrevise, rfl⟩
  · exact ⟨h, rfl, fun _ _ => rfl⟩
  · refine ⟨fun names target => ?_, ?_, fun names hother => ?_⟩
    · rw [node?_set hne]
      split
      · rcases (FileEdits.revise_eq_ok hrevise).2 with rfl | ⟨text, rfl⟩ <;> simp
      · exact h names target
    · cases node <;> rfl
    · rw [node?_set hne, if_neg hother]

end NoLinks

end FileTree

end ReqTrace
