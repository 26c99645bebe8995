/-
Module: ReqTrace.Proofs.Tracked
Purpose: Which source files a scan finds. The records of a file are what reading it gives, and a source file is
  read if the repository that is asked about its directory tracks it. With roots in one another this need not be
  the repository of the root that the file belongs to.
Main exports: Scanned.filter_files, IsSourceName, sourceRecord, scan_source
-/
import ReqTrace.Proofs.Scan

namespace ReqTrace

/-! ### The records of one file -/

/-- A record that is found under a name is that of the file there. -/
theorem path_of_mem_findingsAt {t : FileTree} {config : Config} {units : Units} {dir : Names} {name : Text}
    {record : FileRecord} (h : record ∈ (findingsAt t config units dir name).files) :
    record.path = FileTree.pathOf (dir ++ [name]) ∧
      ∃ content, t.node? (dir ++ [name]) = some (.file content) := by
  cases findingsAt_cases t config units dir name with
  | inl hnone =>
      rw [hnone] at h
      cases h
  | inr hfound =>
      obtain ⟨repository, content, -, hnode, heq⟩ := hfound
      rw [heq] at h
      exact ⟨path_of_mem_scanFile h, content, hnode⟩

/-- The records of a file are what is found in it. -/
theorem Scanned.filter_files {t : FileTree} {config : Config} {units : Units} {s : ScanResult}
    (scanned : Scanned t config units s) (wellFormed : t.WellFormed) {dir : Names} {name : Text} {node : Node}
    (hnode : t.node? (dir ++ [name]) = some node) :
    s.files.filter (·.path.same (FileTree.pathOf (dir ++ [name]))) =
      (findingsAt t config units dir name).files := by
  have hfound : (findingsAt t config units dir name).files.Pairwise
      fun a b => compareOn FileRecord.path a b = .lt := by
    unfold findingsAt
    split
    · exact pairwise_files_scanFile
    · exact .nil
  apply eq_of_ascending (compareOn FileRecord.path) (scanned.ascending.filter _) hfound
  intro record
  rw [List.mem_filter, scanned.files]
  constructor
  · intro h
    obtain ⟨⟨dir', name', hrecord⟩, hsame⟩ := h
    obtain ⟨hpath, content, hnode'⟩ := path_of_mem_findingsAt hrecord
    rw [hpath, FileTree.same_pathOf_iff (wellFormed.isFileName hnode') (wellFormed.isFileName hnode)] at hsame
    obtain ⟨rfl, heq⟩ := List.append_inj' hsame rfl
    cases heq
    exact hrecord
  · intro h
    refine ⟨⟨dir, name, h⟩, ?_⟩
    rw [(path_of_mem_findingsAt h).1]
    exact Path.same_self _

/-! ### Source files -/

/-- The name of a source file whose extension is asked for. -/
structure IsSourceName (config : Config) (name : Text) : Prop where
  notManifest : name ≠ Manifest.fileName
  extension : ∃ extension, Path.extensionOf? name = some extension ∧ config.allows extension = true ∧
    Config.sameAscii extension documentExtension = false

/-- The record of a source file that a repository has a hash for. -/
def sourceRecord (repository : Repository) (path : Path) (text hash : Text) : FileRecord :=
  .source
    { path, tags := (ParsedSource.parse text).tags, hash := some hash, url := repository.fileUrl? path
      relative := repository.relative? path }

/-- A text under such a name is read as a source file if it is not too large and the repository tracks it. -/
theorem files_scanFile_source {config : Config} {name : Text} (h : IsSourceName config name)
    (repository : Repository) (path : Path) {text : Text} (fits : Text.byteLength text ≤ config.maxFileSize) :
    (scanFile config (some repository) path name (.text text)).files =
      ((repository.hash? path).map (sourceRecord repository path text)).toList := by
  obtain ⟨extension, hextension, hallowed, hsource⟩ := h.extension
  have hfits : ¬ config.maxFileSize < (Content.text text).size := Nat.not_lt.mpr fits
  rw [scanFile]
  simp only [Content.text?, if_neg h.notManifest, hextension]
  rw [if_neg (by simp [hallowed, hfits]), if_neg (by simp [hsource])]
  cases repository.hash? path <;> rfl

/-- A source file below a root with a repository has one record if the repository that is asked about its
    directory tracks it, and none if it does not. The repository that is asked is that of the first root which
    reaches the directory and has one. It is the repository of the root if no other root that reaches the
    directory has another one, and else the file may be lost although the root's repository tracks it. -/
theorem scan_source {t : FileTree} {roots : List ScanRoot} {config : Config} {s : ScanResult}
    (h : scan t roots config = .ok s) (wellFormed : t.WellFormed) {root : ScanRoot} (hroot : root ∈ roots)
    {repository : Repository} (tracked : root.repository = some repository) {top below : Names}
    (leads : t.destination root.path = .ok top) (visible : ∀ name ∈ below, name.head? ≠ some '.')
    {name text : Text} (file : t.node? (top ++ below ++ [name]) = some (.file (.text text)))
    (source : IsSourceName config name) (fits : Text.byteLength text ≤ config.maxFileSize) :
    let path := FileTree.pathOf (top ++ below ++ [name])
    ∃ asked, askedAbout t roots (top ++ below) = some asked ∧
      s.files.filter (·.path.same path) =
        ((asked.hash? path).map (sourceRecord asked path text)).toList ∧
      ((∀ other ∈ roots, other.reaches t (top ++ below) = true →
        other.repository = none ∨ other.repository = some repository) → asked = repository) := by
  intro path
  have hdir : t.node? (top ++ below) = some .directory := wellFormed.directory_of_append (by simp) file
  have htop : t.node? top = some .directory := by
    rw [List.append_assoc] at file
    exact wellFormed.directory_of_append (by simp) file
  have hreached : root.reaches t (top ++ below) = true := by
    apply (root.reaches_iff leads).mpr
    exact FileTree.mem_directoriesBelow_iff.mpr ⟨htop, hdir, below, rfl, visible⟩
  -- The root reaches the directory, so its files are read, and some repository is asked about them.
  obtain ⟨units, hunits, scanned⟩ := exists_scanned h wellFormed
  have hany : roots.any (ScanRoot.reaches t (top ++ below)) = true :=
    List.any_eq_true.mpr ⟨root, hroot, hreached⟩
  obtain ⟨asked, hasked⟩ := Option.isSome_iff_exists.mp
    (isSome_askedAbout hroot hreached (by rw [tracked]; rfl))
  have hunit : units.get? (top ++ below) = some (some asked) := by
    rw [Units.get?_ofRoots hunits, if_pos hany, hasked]
  refine ⟨asked, hasked, ?_, ?_⟩
  · rw [scanned.filter_files wellFormed file, findingsAt_eq hunit file]
    exact files_scanFile_source source asked path fits
  · intro agree
    obtain ⟨first, hfirst, hreached', hknown⟩ := exists_root_of_askedAbout hasked
    cases agree first hfirst hreached' with
    | inl hnone =>
        rw [hknown] at hnone
        cases hnone
    | inr hsame =>
        rw [hknown] at hsame
        exact Option.some.inj hsame

/-- A repository with a tracked file lies in the directory of another repository, and there is a root for each. The
    file is found if the root of the inner repository comes first, and lost if it comes last. -/
theorem scan_source_nested_repositories :
    let hosted (path name : String) (hashes : List (Text × Text)) : Repository :=
      { root := ⟨path.toList⟩
        location :=
          { family := .github
            root := { scheme := .https, host := "e.org".toList, port := none
                      segments := ["main", "blob", name, "o"].map String.toList
                      query := none, fragment := none } }
        hashes := Table.ofList hashes }
    let outer := hosted "/w" "docs" []
    let inner := hosted "/w/sub" "sub" [("x.go".toList, ['h'])]
    let t : FileTree :=
      { nodes := Table.ofList [
          (["w".toList], .directory),
          (["w".toList, "sub".toList], .directory),
          (["w".toList, "sub".toList, "x.go".toList], .file (.text "// [~p/A~impl]\n".toList))]
        workingDirectory := [] }
    let path : Path := ⟨"/w/sub/x.go".toList⟩
    let first : ScanRoot := ⟨⟨"/w".toList⟩, some outer⟩
    let second : ScanRoot := ⟨⟨"/w/sub".toList⟩, some inner⟩
    inner.hash? path = some ['h'] ∧
      (∃ s, scan t [first, second] .default = .ok s ∧ s.files.filter (·.path.same path) = []) ∧
      ∃ s, scan t [second, first] .default = .ok s ∧
        s.files.filter (·.path.same path) = [sourceRecord inner path "// [~p/A~impl]\n".toList ['h']] := by
  intro hosted outer inner t path first second
  have hhash : inner.hash? path = some ['h'] := by decide +kernel
  have hlost : outer.hash? path = none := by decide +kernel
  have hfound : ∀ {roots : List ScanRoot} {units : Units} {asked : Repository}, second ∈ roots →
      Units.ofRoots t roots = .ok units → askedAbout t roots ["w".toList, "sub".toList] = some asked →
      ∃ s, scan t roots .default = .ok s ∧ s.files.filter (·.path.same path) =
        ((asked.hash? path).map (sourceRecord asked path "// [~p/A~impl]\n".toList)).toList := by
    intro roots units asked hroot hunits hasked
    have hwell : t.WellFormed := by decide +kernel
    have hleads : t.destination second.path = .ok ["w".toList, "sub".toList] := by decide +kernel
    have hfile : t.node? (["w".toList, "sub".toList] ++ [] ++ ["x.go".toList]) =
        some (.file (.text "// [~p/A~impl]\n".toList)) := by decide +kernel
    have hname : IsSourceName .default "x.go".toList := ⟨by decide, "go".toList, by decide +kernel⟩
    have hfits : Text.byteLength "// [~p/A~impl]\n".toList ≤ Config.default.maxFileSize := by decide +kernel
    have hpath : FileTree.pathOf (["w".toList, "sub".toList] ++ [] ++ ["x.go".toList]) = path := by decide
    obtain ⟨s, hscan⟩ := exists_scan_eq_ok hunits .default
    obtain ⟨asked', hasked', hrecords, -⟩ :=
      scan_source hscan hwell hroot rfl hleads (by simp) hfile hname hfits
    rw [List.append_nil, hasked] at hasked'
    cases hasked'
    rw [hpath] at hrecords
    exact ⟨s, hscan, hrecords⟩
  refine ⟨hhash, ?_, ?_⟩
  · have hunits : Units.ofRoots t [first, second] =
        .ok (Table.ofList [(["w".toList], some outer), (["w".toList, "sub".toList], some outer)]) := by
      decide +kernel
    have hasked : askedAbout t [first, second] ["w".toList, "sub".toList] = some outer := by decide +kernel
    obtain ⟨s, hscan, hrecords⟩ := hfound (by simp) hunits hasked
    rw [hlost] at hrecords
    exact ⟨s, hscan, hrecords⟩
  · have hunits : Units.ofRoots t [second, first] =
        .ok (Table.ofList [(["w".toList], some outer), (["w".toList, "sub".toList], some inner)]) := by
      decide +kernel
    have hasked : askedAbout t [second, first] ["w".toList, "sub".toList] = some inner := by decide +kernel
    obtain ⟨s, hscan, hrecords⟩ := hfound (by simp) hunits hasked
    rw [hhash] at hrecords
    exact ⟨s, hscan, hrecords⟩

end ReqTrace
