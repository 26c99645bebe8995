/-
Module: ReqTrace.Proofs.Roots
Purpose: The directories that a scan reads and the repositories that it asks about their files. Roots may lie in
  one another and have different repositories, but one repository only is asked about the files of a directory:
  that of the first root that reaches the directory and has one.
Main exports: FileTree.mem_directoriesBelow_iff, ScanRoot.reaches, askedAbout, Units.get?_ofRoots
-/
import ReqTrace.Proofs.FileTree
import ReqTrace.Scan

namespace ReqTrace

/-! ### The directories of a root -/

/-- A directory lies below some names if no name on the way to it is hidden. -/
theorem FileTree.mem_directoriesBelow_iff {t : FileTree} {top names : Names} :
    names ∈ t.directoriesBelow top ↔
      t.node? top = some .directory ∧ t.node? names = some .directory ∧
        ∃ below, names = top ++ below ∧ ∀ name ∈ below, name.head? ≠ some '.' := by
  have hentry : ∀ {below : Names}, below ≠ [] →
      ((top ++ below, Node.directory) ∈ t.nodes.toList ↔ t.node? (top ++ below) = some .directory) := by
    intro below hbelow
    rw [node?, if_neg (by simp [hbelow])]
    exact Table.mem_toList_iff
  constructor
  · intro h
    simp only [directoriesBelow] at h
    split at h
    · rename_i htop
      have htop' := beq_iff_eq.mp htop
      cases List.mem_cons.mp h with
      | inl heq => exact ⟨htop', heq ▸ htop', [], by simp [heq], by simp⟩
      | inr hbelow =>
          obtain ⟨⟨names', node⟩, hmem, hsome⟩ := List.mem_filterMap.mp hbelow
          simp only at hsome
          split at hsome
          · rename_i rest hprefix
            obtain rfl := List.isPrefixOf?_eq_some_iff_append_eq.mp hprefix
            split at hsome
            · rename_i hrest
              cases hsome
              exact ⟨htop', (hentry hrest.1).mp hmem, rest, rfl, by simpa using hrest.2⟩
            · cases hsome
          · cases hsome
    · cases h
  · intro h
    obtain ⟨htop, hnames, below, rfl, hvisible⟩ := h
    have hopen : t.isDirectory top = true := beq_iff_eq.mpr htop
    simp only [directoriesBelow, hopen, if_true]
    by_cases hbelow : below = []
    · simp [hbelow]
    · apply List.mem_cons_of_mem
      apply List.mem_filterMap.mpr
      refine ⟨_, (hentry hbelow).mpr hnames, ?_⟩
      simp only [List.isPrefixOf?_eq_some_iff_append_eq.mpr rfl]
      exact if_pos ⟨hbelow, by simpa using hvisible⟩

/-- Whether a directory is one of those that are read for a root. -/
def ScanRoot.reaches (t : FileTree) (dir : Names) (root : ScanRoot) : Bool :=
  match t.destination root.path with
  | .ok top => (t.directoriesBelow top).contains dir
  | .error _ => false

/-- A root reaches the directories below the place that it leads to. -/
theorem ScanRoot.reaches_iff {t : FileTree} {dir : Names} {root : ScanRoot} {top : Names}
    (leads : t.destination root.path = .ok top) : root.reaches t dir = true ↔ dir ∈ t.directoriesBelow top := by
  simp only [reaches, leads, List.contains_iff_mem]

theorem ScanRoot.isDirectory_of_reaches {t : FileTree} {dir : Names} {root : ScanRoot}
    (h : root.reaches t dir = true) : t.node? dir = some .directory := by
  unfold reaches at h
  split at h
  · exact (FileTree.mem_directoriesBelow_iff.mp (List.contains_iff_mem.mp h)).2.1
  · cases h

/-- The repository that is asked about the files of a directory: that of the first root that reaches the
    directory and has one. -/
def askedAbout (t : FileTree) (roots : List ScanRoot) (dir : Names) : Option Repository :=
  (roots.filter (ScanRoot.reaches t dir)).findSome? ScanRoot.repository

theorem askedAbout_cons (t : FileTree) (root : ScanRoot) (roots : List ScanRoot) (dir : Names) :
    askedAbout t (root :: roots) dir =
      if root.reaches t dir then root.repository.or (askedAbout t roots dir) else askedAbout t roots dir := by
  unfold askedAbout
  rw [List.filter_cons]
  split
  · rw [List.findSome?_cons]
    cases root.repository <;> rfl
  · rfl

/-- Some repository is asked if one root that reaches the directory has one. -/
theorem isSome_askedAbout {t : FileTree} {roots : List ScanRoot} {root : ScanRoot} (hroot : root ∈ roots)
    {dir : Names} (reached : root.reaches t dir = true) (tracked : root.repository.isSome = true) :
    (askedAbout t roots dir).isSome = true := by
  apply List.findSome?_isSome_iff.mpr
  exact ⟨root, List.mem_filter.mpr ⟨hroot, reached⟩, tracked⟩

/-- The repository that is asked is that of a root. -/
theorem exists_root_of_askedAbout {t : FileTree} {roots : List ScanRoot} {dir : Names} {asked : Repository}
    (h : askedAbout t roots dir = some asked) :
    ∃ root ∈ roots, root.reaches t dir = true ∧ root.repository = some asked := by
  obtain ⟨root, hroot, hrepository⟩ := List.exists_of_findSome?_eq_some h
  obtain ⟨hmem, hreached⟩ := List.mem_filter.mp hroot
  exact ⟨root, hmem, hreached, hrepository⟩

/-! ### The repository of a directory -/

namespace Units

/-- A directory that is added keeps the repository that it has; the others keep what they have. -/
theorem get?_add (repository : Option Repository) (units : Units) (dir dir' : Names) :
    (add repository units dir).get? dir' =
      if dir' = dir then some ((units.get? dir).join.or repository) else units.get? dir' := by
  have hcompare : compare dir' dir = .eq ↔ dir' = dir :=
    ⟨Std.LawfulEqCmp.eq_of_compare, fun h => h ▸ Std.ReflCmp.compare_self⟩
  have hinsert : (units.insert dir repository).get? dir' =
      if dir' = dir then some repository else units.get? dir' := by
    rw [Table.get?_insert]
    simp only [hcompare]
  unfold add
  -- The table stays as it is only if the directory has a repository.
  cases hknown : units.get? dir with
  | none => exact hinsert
  | some known =>
      cases known with
      | none => exact hinsert
      | some first =>
          simp only
          split
          · rename_i heq
            rw [heq, hknown]
            rfl
          · rfl

theorem get?_foldl_add (repository : Option Repository) (dirs : List Names) (units : Units) (dir : Names) :
    (dirs.foldl (add repository) units).get? dir =
      if dir ∈ dirs then some ((units.get? dir).join.or repository) else units.get? dir := by
  induction dirs generalizing units with
  | nil => simp
  | cons first dirs ih =>
      rw [List.foldl_cons, ih, get?_add]
      by_cases hfirst : dir = first
      · simp [hfirst, Option.or_assoc]
      · simp [hfirst]

/-- Only the directories that a root reaches are added for it. -/
theorem get?_addRoot {t : FileTree} {units units' : Units} {root : ScanRoot}
    (h : addRoot t units root = .ok units') (dir : Names) :
    units'.get? dir =
      if root.reaches t dir then some ((units.get? dir).join.or root.repository) else units.get? dir := by
  obtain ⟨top, htop, heq⟩ := bind_eq_ok_iff.mp h
  have hreaches : root.reaches t dir = true ↔ dir ∈ t.directoriesBelow top :=
    root.reaches_iff (mapError_eq_ok_iff.mp htop)
  cases heq
  rw [get?_foldl_add]
  simp only [hreaches]

/-- What holds of a directory after some roots were added: it was there or one of them reaches it, and its
    repository is the one that it had, or else the one that the roots say. -/
theorem get?_foldlM_addRoot {t : FileTree} {roots : List ScanRoot} {units units' : Units}
    (h : roots.foldlM (addRoot t) units = .ok units') (dir : Names) :
    units'.get? dir =
      if (units.get? dir).isSome || roots.any (ScanRoot.reaches t dir) then
        some ((units.get? dir).join.or (askedAbout t roots dir))
      else none := by
  -- By induction on the roots, for any directories that are there already.
  induction roots generalizing units with
  | nil =>
      cases h
      cases units'.get? dir with
      | none => rfl
      | some known => cases known <;> rfl
  | cons root roots ih =>
      rw [List.foldlM_cons] at h
      obtain ⟨next, hroot, hrest⟩ := bind_eq_ok_iff.mp h
      rw [ih hrest, get?_addRoot hroot, askedAbout_cons]
      cases hreached : root.reaches t dir with
      | true => simp [hreached, Option.or_assoc]
      | false => simp [hreached]

/-- A directory is read if some root reaches it, and the repository that is asked about its files is that of the
    first such root that has one. -/
theorem get?_ofRoots {t : FileTree} {roots : List ScanRoot} {units : Units}
    (h : ofRoots t roots = .ok units) (dir : Names) :
    units.get? dir =
      if roots.any (ScanRoot.reaches t dir) then some (askedAbout t roots dir) else none :=
  get?_foldlM_addRoot h dir

/-- The scanned directories are directories. -/
theorem isDirectory {t : FileTree} {roots : List ScanRoot} {units : Units} (h : ofRoots t roots = .ok units)
    {dir : Names} (hdir : units.get? dir ≠ none) : t.node? dir = some .directory := by
  rw [get?_ofRoots h] at hdir
  split at hdir
  · rename_i hany
    obtain ⟨root, -, hreached⟩ := List.any_eq_true.mp hany
    exact root.isDirectory_of_reaches hreached
  · exact absurd rfl hdir

/-- The repository that is asked about the files of a directory is that of a root. -/
theorem exists_root {t : FileTree} {roots : List ScanRoot} {units : Units} (h : ofRoots t roots = .ok units)
    {dir : Names} {repository : Repository} (hunit : units.get? dir = some (some repository)) :
    ∃ root ∈ roots, root.reaches t dir = true ∧ root.repository = some repository := by
  rw [get?_ofRoots h] at hunit
  split at hunit
  · exact exists_root_of_askedAbout (Option.some.inj hunit)
  · cases hunit

end Units

end ReqTrace
