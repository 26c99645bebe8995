/-
Module: ReqTrace.Proofs.Overlapping
Purpose: Roots that lie in one another, that lead to the same place or that are named twice. A directory is read
  once however many roots reach it, and if there is one repository at most, a scan depends neither on the order
  of the roots nor on how often and under which paths they are named.
Main exports: FileTree.destination_of_canonical, ScanRoot.Matches, RootsMatch, RootsMatch.units_eq, FoundOnce,
  foundOnce_of_scan, scan_of_matches
-/
import ReqTrace.Proofs.Scan
import ReqTrace.Proofs.Walk

namespace ReqTrace

/-! ### Canonical paths -/

namespace FileTree

variable {t : FileTree}

/-- A walk that starts at names of files stays at names of files as long as something is there. -/
theorem Advances.isFileName {purpose : Purpose} {slash : Bool} {current : Names} {left : List PathComponent}
    {progress : Progress} (h : Advances t purpose slash current left progress) (wellFormed : t.WellFormed)
    (start : ∀ name ∈ current, IsFileName name) :
    (∀ {names node}, progress = .arrived names (some node) → ∀ name ∈ names, IsFileName name) ∧
      ∀ {names left' slash'}, progress = .linked names left' slash' → ∀ name ∈ names, IsFileName name := by
  induction h with
  | done current =>
      constructor
      · intro names node heq
        cases heq
        exact start
      · intro names left' slash' heq
        cases heq
  | root rest ih => exact ih fun name hname => by cases hname
  | here rest ih => exact ih start
  | up rest ih => exact ih fun name hname => start name (List.dropLast_subset _ hname)
  | enter last short node rest ih => exact ih (wellFormed.isFileName node)
  | stop short stops =>
      constructor
      · intro names node heq
        injection heq with hnames hnode
        rw [← hnames]
        exact wellFormed.isFileName hnode
      · intro names left' slash' heq
        cases heq
  | link more short node =>
      constructor
      · intro names node' heq
        cases heq
      · intro names left' slash' heq
        cases heq
        exact start
  | lastLink last short node follows =>
      constructor
      · intro names node' heq
        cases heq
      · intro names left' slash' heq
        cases heq
        exact start

theorem isFileName_of_walk (wellFormed : t.WellFormed) {purpose : Purpose} {links : Nat} {slash : Bool}
    {current names : Names} {left : List PathComponent} {node : Node}
    (h : t.walk purpose links slash current left = .ok (names, some node))
    (start : ∀ name ∈ current, IsFileName name) : ∀ name ∈ names, IsFileName name := by
  replace h := walks_of_walk h
  induction h with
  | arrived advances => exact ((advances_of_advance advances).isFileName wellFormed start).1 rfl
  | linked advances _ ih =>
      -- The walk goes on from each link at names of files.
      exact ih (((advances_of_advance advances).isFileName wellFormed start).2 rfl)

/-- A path that leads to something leads to names of files. -/
theorem isFileName_of_destination (wellFormed : t.WellFormed)
    (working : ∀ name ∈ t.workingDirectory, IsFileName name) {p : Path} {names : Names}
    (h : t.destination p = .ok names) : ∀ name ∈ names, IsFileName name := by
  obtain ⟨node, hfollow⟩ := destination_eq_ok_iff.mp h
  obtain ⟨-, -, hwalk⟩ := follow_eq_ok_iff.mp hfollow
  exact isFileName_of_walk wellFormed hwalk working

/-- Paths with the same canonical form lead to the same place. -/
theorem destination_of_canonical (wellFormed : t.WellFormed)
    (working : ∀ name ∈ t.workingDirectory, IsFileName name) {p q : Path}
    (h : t.canonical p = t.canonical q) : t.destination p = t.destination q := by
  unfold canonical at h
  cases hp : t.destination p with
  | error error =>
      rw [hp] at h
      cases hq : t.destination q with
      | error error' =>
          rw [hq] at h
          cases h
          rfl
      | ok names =>
          rw [hq] at h
          cases h
  | ok names =>
      rw [hp] at h
      cases hq : t.destination q with
      | error error =>
          rw [hq] at h
          cases h
      | ok names' =>
          rw [hq] at h
          have hpath : pathOf names = pathOf names' := Except.ok.inj h
          have hsame : (pathOf names).same (pathOf names') = true := by
            rw [hpath]
            exact Path.same_self _
          rw [(same_pathOf_iff (isFileName_of_destination wellFormed working hp)
            (isFileName_of_destination wellFormed working hq)).mp hsame]

end FileTree

/-! ### Roots that say the same -/

/-- Two roots have the same repository, or both none, and their paths the same canonical form. -/
structure ScanRoot.Matches (t : FileTree) (a b : ScanRoot) : Prop where
  repository : a.repository = b.repository
  canonical : t.canonical a.path = t.canonical b.path

/-- Every root of one list matches one of the other list. -/
def RootsMatch (t : FileTree) (roots roots' : List ScanRoot) : Prop :=
  ∀ root ∈ roots, ∃ root' ∈ roots', root.Matches t root'

/-- The roots that have a repository have the same one. -/
def OneRepository (roots : List ScanRoot) : Prop :=
  ∀ a ∈ roots, ∀ b ∈ roots, ∀ {r r'}, a.repository = some r → b.repository = some r' → r = r'

theorem OneRepository.of_match {t : FileTree} {roots roots' : List ScanRoot} (h : OneRepository roots)
    (known : RootsMatch t roots' roots) : OneRepository roots' := by
  intro a ha b hb r r' hr hr'
  obtain ⟨a', ha', hmatch⟩ := known a ha
  obtain ⟨b', hb', hmatch'⟩ := known b hb
  rw [hmatch.repository] at hr
  rw [hmatch'.repository] at hr'
  exact h a' ha' b' hb' hr hr'

/-! ### Directories that are found -/

namespace Units

variable {t : FileTree} {roots : List ScanRoot}

theorem exists_addRoot_iff {units : Units} {root : ScanRoot} :
    (∃ units', addRoot t units root = .ok units') ↔ ∃ top, t.destination root.path = .ok top := by
  constructor
  · rintro ⟨units', h⟩
    obtain ⟨top, htop, -⟩ := bind_eq_ok_iff.mp h
    exact ⟨top, mapError_eq_ok_iff.mp htop⟩
  · rintro ⟨top, htop⟩
    exact ⟨_, bind_eq_ok_iff.mpr ⟨top, mapError_eq_ok_iff.mpr htop, rfl⟩⟩

theorem exists_foldlM_addRoot_iff {units : Units} : (∃ units', roots.foldlM (addRoot t) units = .ok units') ↔
    ∀ root ∈ roots, ∃ top, t.destination root.path = .ok top := by
  induction roots generalizing units with
  | nil => exact ⟨fun _ root hroot => (by cases hroot), fun _ => ⟨units, rfl⟩⟩
  | cons root roots ih =>
      rw [List.foldlM_cons, List.forall_mem_cons]
      constructor
      · rintro ⟨units', h⟩
        obtain ⟨next, hroot, hrest⟩ := bind_eq_ok_iff.mp h
        exact ⟨exists_addRoot_iff.mp ⟨next, hroot⟩, ih.mp ⟨units', hrest⟩⟩
      · rintro ⟨leads, others⟩
        obtain ⟨next, hroot⟩ := exists_addRoot_iff.mpr leads
        obtain ⟨units', hrest⟩ := ih.mpr others
        exact ⟨units', bind_eq_ok_iff.mpr ⟨next, hroot, hrest⟩⟩

/-- The directories are found if the path of every root leads somewhere, and only then. -/
theorem exists_ofRoots_iff :
    (∃ units, ofRoots t roots = .ok units) ↔ ∀ root ∈ roots, ∃ top, t.destination root.path = .ok top :=
  exists_foldlM_addRoot_iff

end Units

/-! ### The directories of matching roots -/

section Matching

variable {t : FileTree} {roots roots' : List ScanRoot} (wellFormed : t.WellFormed)
  (working : ∀ name ∈ t.workingDirectory, IsFileName name)

include wellFormed working

theorem ScanRoot.Matches.destination {a b : ScanRoot} (h : a.Matches t b) :
    t.destination a.path = t.destination b.path :=
  FileTree.destination_of_canonical wellFormed working h.canonical

theorem ScanRoot.Matches.reaches {a b : ScanRoot} (h : a.Matches t b) (dir : Names) :
    a.reaches t dir = b.reaches t dir := by
  rw [ScanRoot.reaches, ScanRoot.reaches, h.destination wellFormed working]

/-- The directories that some roots reach are among those that matching roots reach. -/
theorem RootsMatch.any_reaches (kept : RootsMatch t roots roots') {dir : Names}
    (h : roots.any (ScanRoot.reaches t dir) = true) : roots'.any (ScanRoot.reaches t dir) = true := by
  obtain ⟨root, hroot, hreached⟩ := List.any_eq_true.mp h
  obtain ⟨root', hroot', hmatch⟩ := kept root hroot
  rw [hmatch.reaches wellFormed working] at hreached
  exact List.any_eq_true.mpr ⟨root', hroot', hreached⟩

/-- If there is one repository only, it is asked by matching roots where it is asked by some. -/
theorem RootsMatch.asked (kept : RootsMatch t roots roots') (one : OneRepository roots') {dir : Names}
    {asked : Repository} (h : askedAbout t roots dir = some asked) : askedAbout t roots' dir = some asked := by
  obtain ⟨root, hroot, hreached, hrepository⟩ := exists_root_of_askedAbout h
  obtain ⟨root', hroot', hmatch⟩ := kept root hroot
  rw [hmatch.reaches wellFormed working] at hreached
  rw [hmatch.repository] at hrepository
  obtain ⟨asked', hasked'⟩ := Option.isSome_iff_exists.mp
    (isSome_askedAbout hroot' hreached (by rw [hrepository]; rfl))
  obtain ⟨first, hfirst, -, hfirst'⟩ := exists_root_of_askedAbout hasked'
  rw [hasked', one first hfirst root' hroot' hfirst' hrepository]

/-- If some roots all lead somewhere, so do roots that match them. -/
theorem RootsMatch.exists_ofRoots (known : RootsMatch t roots' roots)
    (h : ∃ units, Units.ofRoots t roots = .ok units) : ∃ units, Units.ofRoots t roots' = .ok units := by
  rw [Units.exists_ofRoots_iff] at h ⊢
  intro root' hroot'
  obtain ⟨root, hroot, hmatch⟩ := known root' hroot'
  rw [hmatch.destination wellFormed working]
  exact h root hroot

/-- Matching roots give the same directories, each with the same repository. -/
theorem RootsMatch.units_eq (kept : RootsMatch t roots roots') (known : RootsMatch t roots' roots)
    (one : OneRepository roots) {units units' : Units} (h : Units.ofRoots t roots = .ok units)
    (h' : Units.ofRoots t roots' = .ok units') : units = units' := by
  apply Table.ext_get?
  intro dir
  have hany : roots.any (ScanRoot.reaches t dir) = roots'.any (ScanRoot.reaches t dir) := by
    rw [Bool.eq_iff_iff]
    exact ⟨kept.any_reaches wellFormed working, known.any_reaches wellFormed working⟩
  have hasked : askedAbout t roots dir = askedAbout t roots' dir := by
    apply Option.ext
    intro asked
    exact ⟨kept.asked wellFormed working (one.of_match known), known.asked wellFormed working one⟩
  rw [Units.get?_ofRoots h, Units.get?_ofRoots h', hany, hasked]

end Matching

/-! ### What is found once -/

/-- What a scan of some roots gives is found in the directories that they reach, in each of them once. No two
    records have the same path, and records and errors are in order. -/
structure FoundOnce (t : FileTree) (roots : List ScanRoot) (config : Config) (s : ScanResult) : Prop where
  once : ∃ dirs : List Names, dirs.Nodup ∧
    (∀ dir, dir ∈ dirs ↔ ∃ root ∈ roots, root.reaches t dir = true) ∧
    s.files.Perm (dirs.flatMap fun dir => (scanDirectory t config dir (askedAbout t roots dir)).files) ∧
    s.errors.Perm (dirs.flatMap fun dir => (scanDirectory t config dir (askedAbout t roots dir)).errors) ∧
    (∀ dir ∈ dirs, s.manifests.get? (FileTree.pathOf dir) =
      (scanDirectory t config dir (askedAbout t roots dir)).manifest) ∧
    ∀ p ∈ s.manifests.keys, ∃ dir ∈ dirs, p = FileTree.pathOf dir
  distinct : (s.files.map FileRecord.path).Nodup
  ascending : s.files.Pairwise fun a b => compare a.path.components b.path.components = .lt
  sorted : s.errors.Pairwise fun a b => ((compare a.path b.path).then (compare a.line b.line)).isLE = true

section Once

variable {t : FileTree} {roots : List ScanRoot} {config : Config} {s : ScanResult} {units : Units}

theorem Units.get?_of_mem_keys (h : ofRoots t roots = .ok units) {dir : Names} (hdir : dir ∈ units.keys) :
    units.get? dir = some (askedAbout t roots dir) := by
  have hne := Table.mem_keys_iff.mp hdir
  rw [get?_ofRoots h] at hne ⊢
  split at hne
  · rename_i hany
    rw [if_pos hany]
  · exact absurd rfl hne

/-- What is found in the directories one after the other. -/
theorem Units.flatMap_toList (h : ofRoots t roots = .ok units) {α : Type}
    (found : Names → Option Repository → List α) :
    (units.toList.flatMap fun u => found u.1 u.2) =
      units.keys.flatMap fun dir => found dir (askedAbout t roots dir) := by
  have hkeys : units.keys = units.toList.map Prod.fst := rfl
  rw [hkeys, List.flatMap_map]
  apply List.flatMap_congr
  rintro ⟨dir, repository⟩ hentry
  have hunit := get?_of_mem_keys h (List.mem_map_of_mem (f := Prod.fst) hentry)
  rw [Table.mem_toList_iff.mp hentry] at hunit
  rw [Option.some.inj hunit]

/-- The records and the errors of a scan are those of its directories. -/
theorem perm_of_scan (h : scan t roots config = .ok s) (hunits : Units.ofRoots t roots = .ok units) :
    s.files.Perm (units.toList.flatMap fun u => (scanDirectory t config u.1 u.2).files) ∧
      s.errors.Perm (units.toList.flatMap fun u => (scanDirectory t config u.1 u.2).errors) := by
  obtain ⟨units', hunits', hs⟩ := bind_eq_ok_iff.mp h
  cases hunits.symm.trans hunits'
  cases hs
  constructor
  · apply (List.mergeSort_perm _ _).trans
    rw [List.flatMap_map]
  · apply (List.mergeSort_perm _ _).trans
    rw [List.flatMap_map]

/-- Every directory is read once, whatever the roots are. -/
theorem foundOnce_of_scan (wellFormed : t.WellFormed) (h : scan t roots config = .ok s) :
    FoundOnce t roots config s := by
  obtain ⟨units, hunits, scanned⟩ := exists_scanned h wellFormed
  obtain ⟨hfiles, herrors⟩ := perm_of_scan h hunits
  constructor
  · refine ⟨units.keys, units.nodup_keys, fun dir => ?_, ?_, ?_, fun dir hdir => ?_, fun p hp => ?_⟩
    · rw [Table.mem_keys_iff, Units.get?_ofRoots hunits]
      simp
    · rwa [← Units.flatMap_toList hunits fun dir repository => (scanDirectory t config dir repository).files]
    · rwa [← Units.flatMap_toList hunits fun dir repository => (scanDirectory t config dir repository).errors]
    · rw [scanned.get?_manifests_eq wellFormed (Table.mem_keys_iff.mp hdir)]
      apply Option.ext
      intro m
      rw [manifest_scanDirectory_iff (Units.get?_of_mem_keys hunits hdir)]
    · obtain ⟨dir, heq, hdir⟩ := scanned.directories p hp
      exact ⟨dir, Table.mem_keys_iff.mpr hdir, heq⟩
  · refine List.pairwise_map.mpr (scanned.ascending.imp fun {a b} hlt heq => ?_)
    rw [heq, Std.ReflOrd.compare_self] at hlt
    cases hlt
  · exact scanned.ascending
  · obtain ⟨_, _, hs⟩ := bind_eq_ok_iff.mp h
    cases hs
    exact pairwise_mergeSort (compareLex (compareOn SyntaxError.path) (compareOn SyntaxError.line)) _

end Once

/-! ### Scans of matching roots -/

/-- A scan fails if the path of some root leads nowhere, and only then. -/
theorem scan_cases (t : FileTree) (roots : List ScanRoot) (config : Config) :
    (∃ units s, Units.ofRoots t roots = .ok units ∧ scan t roots config = .ok s) ∨
      (¬ ∃ units, Units.ofRoots t roots = .ok units) ∧ ∃ error, scan t roots config = .error error := by
  cases hscan : scan t roots config with
  | ok s =>
      obtain ⟨units, hunits, -⟩ := bind_eq_ok_iff.mp hscan
      exact .inl ⟨units, s, hunits, rfl⟩
  | error error =>
      refine .inr ⟨?_, error, rfl⟩
      rintro ⟨units, hunits⟩
      obtain ⟨s, hs⟩ := exists_scan_eq_ok hunits config
      rw [hscan] at hs
      cases hs

/-- In a well-formed tree matching roots are scanned alike. The roots may come in any order, and each may be
    named several times and under several paths with the same canonical form, if those that have a repository
    have the same one. Either both scans fail or they find the same, each directory once. -/
theorem scan_of_matches {t : FileTree} {roots roots' : List ScanRoot} (config : Config)
    (wellFormed : t.WellFormed) (working : ∀ name ∈ t.workingDirectory, IsFileName name)
    (one : OneRepository roots) (kept : RootsMatch t roots roots') (known : RootsMatch t roots' roots) :
    ((∃ error, scan t roots config = .error error) ∧ ∃ error, scan t roots' config = .error error) ∨
      ∃ s, scan t roots config = .ok s ∧ scan t roots' config = .ok s ∧ FoundOnce t roots config s := by
  cases scan_cases t roots config with
  | inl found =>
      obtain ⟨units, s, hunits, hscan⟩ := found
      obtain ⟨units', hunits'⟩ := known.exists_ofRoots wellFormed working ⟨units, hunits⟩
      have hsame := kept.units_eq wellFormed working known one hunits hunits'
      have hscan' : scan t roots' config = .ok s := by
        rw [← hscan, scan, scan, hunits, hunits', hsame]
      exact .inr ⟨s, hscan, hscan', foundOnce_of_scan wellFormed hscan⟩
  | inr failed =>
      obtain ⟨hnone, herror⟩ := failed
      refine .inl ⟨herror, ?_⟩
      cases scan_cases t roots' config with
      | inl found =>
          obtain ⟨units', -, hunits', -⟩ := found
          exact absurd (kept.exists_ofRoots wellFormed working ⟨units', hunits'⟩) hnone
      | inr failed' => exact failed'.2

/-- A directory and a hidden one in it that is a root itself, and the same two the other way round, with the first
    one named again through a link and the hidden one by its path from the working directory. -/
theorem scan_of_matches_hidden_root :
    let tracked : Repository :=
      { root := ⟨"/w".toList⟩
        location :=
          { family := .github
            root := { scheme := .https, host := "e.org".toList, port := none
                      segments := ["main", "blob", "r", "o"].map String.toList, query := none, fragment := none } }
        hashes := Table.ofList [(".h/x.go".toList, ['h'])] }
    let t : FileTree :=
      { nodes := Table.ofList [
          (["l".toList], .link ⟨"w".toList⟩),
          (["w".toList], .directory),
          (["w".toList, ".h".toList], .directory),
          (["w".toList, ".h".toList, "x.go".toList], .file (.text "// [~p/A~impl]\n".toList)),
          (["w".toList, "sub".toList], .directory),
          (["w".toList, "sub".toList, "a.md".toList], .file (.text "`~A~`\n".toList))]
        workingDirectory := ["w".toList] }
    let outer : ScanRoot := ⟨⟨"/w".toList⟩, none⟩
    let linked : ScanRoot := ⟨⟨"/l/".toList⟩, none⟩
    let hidden : ScanRoot := ⟨⟨"/w/.h".toList⟩, some tracked⟩
    let nearby : ScanRoot := ⟨⟨".h".toList⟩, some tracked⟩
    OneRepository [outer, hidden] ∧ RootsMatch t [outer, hidden] [nearby, linked, hidden, outer] ∧
      RootsMatch t [nearby, linked, hidden, outer] [outer, hidden] ∧
      ∃ s, scan t [outer, hidden] .default = .ok s ∧
        scan t [nearby, linked, hidden, outer] .default = .ok s ∧ FoundOnce t [outer, hidden] .default s ∧
        s.files.map FileRecord.path = [⟨"/w/.h/x.go".toList⟩, ⟨"/w/sub/a.md".toList⟩] := by
  intro tracked t outer linked hidden nearby
  have hlinked : linked.Matches t outer := ⟨rfl, by decide +kernel⟩
  have hnearby : nearby.Matches t hidden := ⟨rfl, by decide +kernel⟩
  have hself : ∀ root : ScanRoot, root.Matches t root := fun root => ⟨rfl, rfl⟩
  have hone : OneRepository [outer, hidden] := by
    intro a ha b hb r r' hr hr'
    have hknown : ∀ {root : ScanRoot} {r}, root ∈ [outer, hidden] → root.repository = some r → r = tracked := by
      intro root r hroot hr
      simp only [List.mem_cons, List.not_mem_nil, or_false] at hroot
      rcases hroot with rfl | rfl
      · cases hr
      · exact (Option.some.inj hr).symm
    rw [hknown ha hr, hknown hb hr']
  have hkept : RootsMatch t [outer, hidden] [nearby, linked, hidden, outer] := by
    intro root hroot
    have hsubset : [outer, hidden] ⊆ [nearby, linked, hidden, outer] := by simp
    exact ⟨root, hsubset hroot, hself root⟩
  have hmatches : RootsMatch t [nearby, linked, hidden, outer] [outer, hidden] := by
    intro root hroot
    simp only [List.mem_cons, List.not_mem_nil, or_false] at hroot
    rcases hroot with rfl | rfl | rfl | rfl
    · exact ⟨hidden, by simp, hnearby⟩
    · exact ⟨outer, by simp, hlinked⟩
    · exact ⟨hidden, by simp, hself hidden⟩
    · exact ⟨outer, by simp, hself outer⟩
  have hunits : Units.ofRoots t [outer, hidden] = .ok (Table.ofList [
      (["w".toList], none), (["w".toList, ".h".toList], some tracked), (["w".toList, "sub".toList], none)]) := by
    decide +kernel
  have hscan := @scan_eq_ok_of_ordered t [outer, hidden] .default _ hunits (by decide +kernel)
  refine ⟨hone, hkept, hmatches, ?_⟩
  cases scan_of_matches .default (by decide +kernel) (by decide +kernel) hone hkept hmatches with
  | inl failed =>
      obtain ⟨⟨error, herror⟩, -⟩ := failed
      rw [hscan] at herror
      cases herror
  | inr found =>
      obtain ⟨s, hs, hs', honce⟩ := found
      refine ⟨s, hs, hs', honce, ?_⟩
      rw [hscan] at hs
      cases hs
      decide +kernel

end ReqTrace
