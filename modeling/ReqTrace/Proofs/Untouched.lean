/-
Module: ReqTrace.Proofs.Untouched
Purpose: What a run of edits does to one file, in any tree. The edits of another file leave it alone and lead no
  path to it if their own path does not lead to it, by whatever links. So a run leaves a manifest as the edits of the
  manifest leave it.
Main exports: FileTree.Reaches, FileTree.DistinctFiles.same_of_reaches, FileTree.Untouched,
  FileTree.untouched_of_applyGroup, FileTree.untouched_of_foldlM, FileTree.readText_apply
-/
import ReqTrace.Proofs.FailFast
import ReqTrace.Proofs.Separate

namespace ReqTrace

namespace FileTree

variable {t t' : FileTree}

/-! ### Paths to a file -/

/-- A path leads to a place where a file can be written, if a walk may follow as many links as it meets. There may be
    too many of them to open the file until the edits of another file have removed one. -/
def Reaches (t : FileTree) (p : Path) (file : Names) : Prop :=
  ∃ links node, t.walk .writing links (meansDirectory p) t.workingDirectory (steps p) = .ok (file, node) ∧
    node ≠ some .directory

theorem reaches_of_locate {p : Path} {file : Names} {node : Option Node}
    (h : t.locate .writing p = .ok (file, node)) (regular : node ≠ some .directory) : t.Reaches p file := by
  obtain ⟨-, -, -, hwalk⟩ := locate_eq_ok_iff.mp h
  exact ⟨maxLinks, node, hwalk, regular⟩

namespace Reaches

variable {p : Path} {file file' : Names}

theorem unique (h : t.Reaches p file) (h' : t.Reaches p file') : file = file' := by
  obtain ⟨links, node, hwalk, -⟩ := h
  obtain ⟨links', node', hwalk', -⟩ := h'
  exact congrArg Prod.fst (walk_unique hwalk hwalk')

theorem isOpen (h : t.Reaches p file) : IsOpen (t.node? file) := by
  obtain ⟨links, node, hwalk, hfile⟩ := h
  obtain ⟨-, rfl, hopen⟩ := node_of_walk hwalk hfile
  exact hopen (by simp)

/-- Where files are rewritten, paths lead to the same places. -/
theorem rewritten (h : t.Reaches p file) (hrewritten : Rewritten t t') : t'.Reaches p file := by
  have hopen := h.isOpen
  obtain ⟨links, node, hwalk, hfile⟩ := h
  refine ⟨links, t'.node? file, ?_, ?_⟩
  · rw [hrewritten.workingDirectory]
    exact hrewritten.walk_writing hwalk hfile
  · rw [ne_eq, hrewritten.directory_iff]
    exact (isOpen_iff.mp hopen).1

end Reaches

/-- Paths that lead to different files do so however many links are followed. -/
theorem DistinctFiles.same_of_reaches {paths : List Path} (h : t.DistinctFiles paths) {p q : Path} (hp : p ∈ paths)
    (hq : q ∈ paths) {file : Names} (hfile : t.Reaches p file) (hfile' : t.Reaches q file) : p.same q = true := by
  have hleads : ∀ r ∈ paths, t.Reaches r file → t.fileOf? r = some file := by
    intro r hr hreaches
    obtain ⟨place, hplace⟩ := Option.isSome_iff_exists.mp (h.leads r hr)
    obtain ⟨entry, hentry⟩ := fileOf?_eq_some_iff.mp hplace
    rw [hplace, (reaches_of_locate hentry.writing hentry.not_directory).unique hreaches]
  exact h.distinct p hp q hq ((hleads p hp hfile).trans (hleads q hq hfile').symm)

/-- A path that leads to a file after a change led there before, or the file is in the place that has changed. If there
    was a link before, the path then led to where the link leads. -/
theorem SameBut.reaches_cases {x : Names} (h : SameBut x t t') (isOpen : IsOpen (t'.node? x)) {p : Path}
    {file : Names} (hreaches : t'.Reaches p file) :
    t.Reaches p file ∨ file = x ∧ ∀ target links names node, t.node? x = some (.link target) →
      t.walk .writing links (meansDirectory target) x.dropLast (steps target) = .ok (names, node) →
      node ≠ some .directory → t.Reaches p names := by
  obtain ⟨links, node, hwalk, hfile⟩ := hreaches
  rw [h.workingDirectory] at hwalk
  rcases h.symm.walk_cases hwalk with hsame | ⟨dir, name, more, links', slash', k, rfl, -, hcomes, hgoes⟩
  · exact .inl ⟨links, node, hsame, hfile⟩
  · obtain ⟨rfl, hfound⟩ := walk_arrived_of_open hcomes isOpen
    obtain rfl := walk_writing_slash hcomes hfile
    refine .inr ⟨congrArg Prod.fst hfound, fun target links names node hlink hleads hregular => ?_⟩
    rw [List.dropLast_concat] at hleads
    refine ⟨links + 1 + k, node, ?_, hregular⟩
    rw [hgoes .writing (.inl rfl), walk_lastLink (short_of_walk hcomes) hlink (by simp), hleads]

/-- No walk goes on from a link to a file that a path to the link does not lead to, if this path can be read. Through a
    link to a directory another path may lead on. -/
theorem walk_ne_of_link {p : Path} {file entry : Names} {target : Path}
    (hlocate : t.locate .removing p = .ok (entry, some (.link target))) (other : ¬ t.Reaches p file)
    (noDirectory : t.readText p ≠ .error .isDirectory) (enough : t.readText p ≠ .error .tooManyLinks)
    {more : List PathComponent} {links : Nat} {slash : Bool}
    (last : more = [] → meansDirectory target = true → slash = true) {node : Option Node}
    (regular : node ≠ some .directory) :
    t.walk .writing links slash entry.dropLast (steps target ++ more) ≠ .ok (file, node) := by
  intro hwalk
  obtain ⟨hzero, hlength, hempty, hremoving⟩ := locate_eq_ok_iff.mp hlocate
  by_cases hmore : more = []
  · subst hmore
    rw [List.append_nil] at hwalk
    obtain rfl := walk_writing_slash hwalk regular
    have hmeans : meansDirectory target = false := by simpa using last rfl
    obtain ⟨k, hgoes⟩ := walk_goingOn_link hremoving (by decide : Purpose.writing ≠ .removing)
    exact other ⟨links + k, node, (hgoes links).trans (hmeans ▸ hwalk), regular⟩
  · -- The link is one to a directory, and the path to it is read as one, or it leads over too many links.
    obtain ⟨names, hdirectory⟩ := walk_prefix hwalk hmore (meansDirectory target)
    obtain ⟨k, hgoes⟩ := walk_goingOn_link hremoving (by decide : Purpose.reading ≠ .removing)
    have hread := locate_eq_walk t .reading hzero hlength hempty
    rcases walk_links ((hgoes links).trans hdirectory) maxLinks with hfound | hfew
    · exact noDirectory (readText_of_locate (hread.trans hfound))
    · exact enough (readText_of_locate_error (hread.trans hfew))

theorem isOpen_removed {x : Names} (hne : x ≠ []) : IsOpen ((t.set x none).node? x) := by
  rw [node?_set hne, if_pos rfl]
  trivial

/-! ### Files that are left alone -/

/-- A file is left alone between two trees: the same is in it, a path that led to it leads to it still, and no other
    path does so. -/
structure Untouched (file : Names) (t t' : FileTree) : Prop where
  node : t'.node? file = t.node? file
  locate : ∀ {p node}, t.locate .writing p = .ok (file, node) → node ≠ some .directory →
    t'.locate .writing p = .ok (file, node)
  reaches : ∀ {p}, t'.Reaches p file → t.Reaches p file

namespace Untouched

variable {file : Names}

theorem refl (file : Names) (t : FileTree) : Untouched file t t :=
  ⟨rfl, fun h _ => h, id⟩

theorem trans {t'' : FileTree} (h : Untouched file t t') (h' : Untouched file t' t'') : Untouched file t t'' where
  node := h'.node.trans h.node
  locate hlocate hfile := h'.locate (h.locate hlocate hfile) hfile
  reaches hreaches := h.reaches (h'.reaches hreaches)

/-- Rewriting a place for files leaves all other files alone. -/
theorem set {place : Names} (hne : place ≠ []) (hopen : IsOpen (t.node? place)) {new : Option Node}
    (hnew : IsOpen new) (other : file ≠ place) : Untouched file t (t.set place new) := by
  have hrewritten : Rewritten t (t.set place new) := .set hne hopen hnew
  have hnode : (t.set place new).node? file = t.node? file := by rw [node?_set hne, if_neg other]
  refine ⟨hnode, fun hlocate hfile => ?_, fun hreaches => hreaches.rewritten hrewritten.symm⟩
  obtain ⟨-, -, -, hwalk⟩ := locate_eq_ok_iff.mp hlocate
  obtain ⟨-, rfl, -⟩ := node_of_walk hwalk hfile
  rw [← hnode]
  exact hrewritten.locate_writing hlocate hfile

/-- Removing a link by a path that can be read leaves a file alone that the path does not lead to. -/
theorem removeLink (isOpen : IsOpen (t.node? file)) {p : Path} {entry : Names} {target : Path}
    (hremove : t.locate .removing p = .ok (entry, some (.link target))) (other : ¬ t.Reaches p file)
    (noDirectory : t.readText p ≠ .error .isDirectory) (enough : t.readText p ≠ .error .tooManyLinks) :
    Untouched file t (t.set entry none) := by
  obtain ⟨-, -, -, hwalk⟩ := locate_eq_ok_iff.mp hremove
  obtain ⟨hne, hlink, -⟩ := node_of_walk hwalk (by simp)
  have hbut : SameBut entry t (t.set entry none) := .set hne none
  have hfile : file ≠ entry := by
    rintro rfl
    exact (isOpen_iff.mp isOpen).2 target hlink.symm
  refine ⟨hbut.nodes file hfile, fun {q node} hlocate hregular => ?_, fun {q} hreaches => ?_⟩
  · obtain ⟨hzero, hlength, hempty, hwalk'⟩ := locate_eq_ok_iff.mp hlocate
    refine locate_eq_ok_iff.mpr ⟨hzero, hlength, hempty, ?_⟩
    rw [hbut.workingDirectory]
    refine hbut.walk_eq (by simp [← hlink]) hwalk' hfile fun target' more links slash hlink' hlast => ?_
    cases hlink.trans hlink'
    exact walk_ne_of_link hremove other noDirectory enough (fun hnil => (hlast hnil).2) hregular
  · exact (hbut.reaches_cases (isOpen_removed hne) hreaches).resolve_right fun h => hfile h.1

end Untouched

/-! ### The edits of another file -/

/-- What the edits of a file do to the tree: they write it, or they remove a manifest that could be read, or there is
    nothing to do. -/
theorem applyGroup_cases {e : FileEdits} (h : t.applyGroup e = .ok t') :
    t' = t ∨ (∃ text, t.writeText e.path text = .ok t') ∨
      t.remove e.path = .ok t' ∧ ∃ m, t.loadManifest e.path = .ok m := by
  unfold applyGroup at h
  split at h
  · obtain ⟨m, hload, hsave⟩ := bind_eq_ok_iff.mp h
    unfold saveManifest at hsave
    split at hsave
    · split at hsave
      · cases hsave
        exact .inl rfl
      · exact .inr (.inr ⟨mapError_eq_ok_iff.mp hsave, m, hload⟩)
    · exact .inr (.inl ⟨_, mapError_eq_ok_iff.mp hsave⟩)
  · obtain ⟨text, -, hrest⟩ := bind_eq_ok_iff.mp h
    obtain ⟨patched, -, hwrite⟩ := bind_eq_ok_iff.mp hrest
    exact .inr (.inl ⟨patched, mapError_eq_ok_iff.mp hwrite⟩)

theorem readText_ne_of_loadManifest {p : Path} {m : Manifest} (h : t.loadManifest p = .ok m) {error : FileError}
    (found : error ≠ .notFound) : t.readText p ≠ .error error := by
  intro hread
  unfold loadManifest at h
  rw [hread] at h
  split at h
  · rename_i heq
    exact found (Except.error.inj heq)
  · cases h
  · rename_i heq
    cases heq

/-- The edits of a file leave another file alone that their path does not lead to. -/
theorem untouched_of_applyGroup {file : Names} (isOpen : IsOpen (t.node? file)) {e : FileEdits}
    (h : t.applyGroup e = .ok t') (other : ¬ t.Reaches e.path file) : Untouched file t t' := by
  rcases applyGroup_cases h with rfl | ⟨text, hwrite⟩ | ⟨hremove, m, hload⟩
  · exact .refl file _
  · obtain ⟨place, hlocate, hne, hopen, rfl⟩ := exists_place_of_writeText hwrite
    refine .set hne hopen trivial ?_
    rintro rfl
    exact other (reaches_of_locate hlocate (isOpen_iff.mp hopen).1)
  · obtain ⟨entry, node, hlocate, hregular, rfl⟩ := remove_eq_ok_iff.mp hremove
    obtain ⟨hzero, hlength, hempty, hwalk⟩ := locate_eq_ok_iff.mp hlocate
    have hfile : some node ≠ some .directory := by simpa using hregular
    obtain ⟨hne, hthere, -⟩ := node_of_walk hwalk hfile
    rcases walk_goingOn hwalk hregular (by decide : Purpose.writing ≠ .removing) with
      ⟨hopen, hwriting⟩ | ⟨target, k, rfl, -⟩
    · refine .set hne (hthere ▸ hopen) trivial ?_
      rintro rfl
      exact other ⟨maxLinks, _, hwriting, hfile⟩
    · exact .removeLink isOpen hlocate other (readText_ne_of_loadManifest hload (by simp))
        (readText_ne_of_loadManifest hload (by simp))

theorem untouched_of_foldlM {file : Names} (isOpen : IsOpen (t.node? file)) {groups : List FileEdits}
    (h : groups.foldlM applyGroup t = .ok t') (others : ∀ e ∈ groups, ¬ t.Reaches e.path file) :
    Untouched file t t' := by
  induction groups generalizing t with
  | nil =>
      cases h
      exact .refl file _
  | cons e groups ih =>
      obtain ⟨next, hgroup, hrest⟩ := bind_eq_ok_iff.mp h
      have hstep := untouched_of_applyGroup isOpen hgroup (others e List.mem_cons_self)
      refine hstep.trans (ih (hstep.node ▸ isOpen) hrest fun e' he' hreaches => ?_)
      exact others e' (List.mem_cons_of_mem _ he') (hstep.reaches hreaches)

/-! ### The edits of the file -/

namespace Leads

variable {p : Path} {file entry : Names}

/-- Where a link has been removed a path to it leads to a place for files. -/
theorem locate_of_removed (h : t.Leads p file entry) {target : Path} {links : Nat}
    (hlink : t.node? entry = some (.link target))
    (hleads : t.walk .writing links (meansDirectory target) entry.dropLast (steps target) =
      .ok (file, t.node? file)) :
    (t.set entry none).locate .writing p = .ok (entry, none) := by
  obtain ⟨hzero, hlength, hempty, hwalk⟩ := locate_eq_ok_iff.mp h.removing
  have hbut : SameBut entry t (t.set entry none) := .set h.entry_ne_nil none
  have hgone : (t.set entry none).node? entry = none := by rw [node?_set h.entry_ne_nil, if_pos rfl]
  refine locate_eq_ok_iff.mpr ⟨hzero, hlength, hempty, ?_⟩
  rw [hbut.workingDirectory]
  rw [hlink] at hwalk
  rcases hbut.walk_cases hwalk with hsame | ⟨dir, name, more, links', slash, k, rfl, hlinks, hcomes, hgoes⟩
  · obtain ⟨-, hthere, -⟩ := node_of_walk hsame (by simp)
    cases hthere.trans hgone
  · rw [List.dropLast_concat] at hleads
    rcases walk_cases_of_link hcomes hlink with ⟨-, rfl, rfl, -⟩ | ⟨links'', slash', hrest, hlast⟩
    · have hstops : StopsAt .writing false ((t.set (dir ++ [name]) none).node? (dir ++ [name])) := by
        rw [hgone]
        exact .of_isOpen trivial
      rw [hlinks, hgoes .writing (.inr rfl), walk_arrived (Advances.stop (short_of_walk hcomes) hstops).advance_eq,
        hgone]
    · have hmore : more ≠ [] := fun hnil => (hlast hnil).1 rfl
      exact absurd hrest (walk_append_ne hleads h.not_directory hmore _)

/-- After the edits of a file its path leads to a place for files, to which no path leads that did not lead to the
    file. It is another place if a link to the file has been removed. -/
theorem exists_locate_of_applyGroup {e : FileEdits} (h : t.Leads e.path file entry)
    (happly : t.applyGroup e = .ok t') :
    ∃ file' node, t'.locate .writing e.path = .ok (file', node) ∧ node ≠ some .directory ∧
      ∀ q, t'.Reaches q file' → t.Reaches q file := by
  obtain ⟨node, x, hrevise, hx, rfl, -, -⟩ := h.exists_of_applyGroup happly
  have hnode : IsOpen node := by
    obtain ⟨-, rfl | ⟨text, rfl⟩⟩ := FileEdits.revise_eq_ok hrevise <;> trivial
  by_cases hfile : x = file
  · rw [hfile]
    have hrewritten : Rewritten t (t.set file node) := .set h.file_ne_nil h.isOpen hnode
    refine ⟨file, _, hrewritten.locate_writing h.writing h.not_directory, ?_, fun q hreaches => ?_⟩
    · rw [ne_eq, hrewritten.directory_iff]
      exact h.not_directory
    · exact hreaches.rewritten hrewritten.symm
  · cases node with
    | some node => exact absurd hx hfile
    | none =>
        obtain rfl : x = entry := hx
        obtain ⟨target, links, hlink, hleads⟩ := h.leadsOn.resolve_left hfile
        refine ⟨x, none, h.locate_of_removed hlink hleads, by simp, fun q hreaches => ?_⟩
        rcases (SameBut.set h.entry_ne_nil none).reaches_cases (isOpen_removed h.entry_ne_nil) hreaches with
          hold | ⟨-, hgoes⟩
        · exact absurd hlink ((isOpen_iff.mp hold.isOpen).2 target)
        · exact hgoes target links file _ hlink hleads h.not_directory

end Leads

/-! ### A manifest in a run -/

/-- A run of edits that succeeds leaves in the file of a manifest what the edits of the file make of the manifest
    that the file held before, if no edit of another file leads to its place. -/
theorem readText_apply {actions : List Action} {n : Nat} (happly : t.apply actions = (t', .ok n)) {e : FileEdits}
    (he : e ∈ groupByFile actions) (hkind : e.isManifest = true) {m : Manifest} (holds : t.HoldsManifest e.path m)
    (alone : ∀ a ∈ actions, ∀ file, t.Reaches a.path file → t.Reaches e.path file → a.path.same e.path = true) :
    t'.readText e.path = (patchManifest m e.actions).contents := by
  obtain ⟨before, after, hgroups⟩ := List.append_of_mem he
  have hgrouping := hgroups ▸ isGrouping_groupByFile actions
  obtain ⟨text, written, hwritten⟩ := holds.writable
  obtain ⟨file, hlocate, -, hopen, -⟩ := exists_place_of_writeText hwritten
  have hfile := (isOpen_iff.mp hopen).1
  have hothers : ∀ e' ∈ before ++ after, ¬ t.Reaches e'.path file := by
    intro e' he' hreaches
    have hmem : e' ∈ before ++ e :: after := by
      simp only [List.mem_append, List.mem_cons] at he' ⊢
      exact he'.imp_right .inr
    obtain ⟨a, ha, hpath⟩ := hgrouping.named e' hmem
    have hsame := alone a ha file (hpath ▸ hreaches) (reaches_of_locate hlocate hfile)
    rw [hpath, hgrouping.same_eq_false he'] at hsame
    cases hsame
  have hrun := (apply_eq_ok_iff.mp happly).1
  rw [hgroups, List.foldlM_append] at hrun
  obtain ⟨first, hbefore, hrest⟩ := bind_eq_ok_iff.mp hrun
  obtain ⟨second, hgroup, hafter⟩ := bind_eq_ok_iff.mp hrest
  -- The file is where it was when its turn comes, with the manifest that it held.
  have huntouched := untouched_of_foldlM hopen hbefore fun e' he' => hothers e' (List.mem_append_left _ he')
  have hfirst := huntouched.locate hlocate hfile
  obtain ⟨second', hgroup', hread⟩ := (holds.congr hlocate hfirst).applyGroup hkind
  cases hgroup.symm.trans hgroup'
  -- What it is left with stays until the end.
  obtain ⟨entry, hleads⟩ := Leads.of_locate hfirst hfile
  obtain ⟨file', node, hsecond, hnode, hback⟩ := hleads.exists_locate_of_applyGroup hgroup
  have huntouched' := untouched_of_foldlM (reaches_of_locate hsecond hnode).isOpen hafter fun e' he' hreaches =>
    hothers e' (List.mem_append_right _ he') (huntouched.reaches (hback _ hreaches))
  rw [readText_congr hsecond (huntouched'.locate hsecond hnode), hread]

end FileTree

end ReqTrace
