/-
Module: ReqTrace.Proofs.Scan
Purpose: What a scan finds: for every file of a scanned directory what reading it gives, in the order of the
  paths, and nothing else.
Main exports: findingsAt, Scanned, exists_scanned, Scanned.get?_manifests_eq
-/
import ReqTrace.Proofs.Lists
import ReqTrace.Proofs.Roots

namespace ReqTrace

/-! ### The files of a directory -/

namespace FileTree

variable {t : FileTree}

theorem mem_filesIn_iff {dir : Names} {name : Text} {content : Content} :
    (name, content) ∈ t.filesIn dir ↔ t.node? (dir ++ [name]) = some (.file content) := by
  rw [node?_append_singleton, ← Table.mem_toList_iff, filesIn, List.mem_filterMap]
  constructor
  · rintro ⟨⟨names, node⟩, hmem, hsome⟩
    simp only at hsome
    split at hsome
    · rename_i content' name' hprefix
      cases hsome
      rw [List.isPrefixOf?_eq_some_iff_append_eq.mp hprefix]
      exact hmem
    · cases hsome
  · intro hmem
    refine ⟨_, hmem, ?_⟩
    simp only [List.isPrefixOf?_eq_some_iff_append_eq.mpr rfl]

theorem filesIn_pairwise (t : FileTree) (dir : Names) : (t.filesIn dir).Pairwise fun a b => a.1 ≠ b.1 := by
  rw [filesIn, List.pairwise_filterMap]
  refine t.nodes.distinct_toList.imp fun {a b} hne x hx y hy heq => hne ?_
  obtain ⟨names, node⟩ := a
  obtain ⟨names', node'⟩ := b
  simp only at hx hy
  split at hx
  · rename_i hprefix
    split at hy
    · rename_i hprefix'
      cases hx
      cases hy
      obtain rfl : _ = _ := heq
      rw [← List.isPrefixOf?_eq_some_iff_append_eq.mp hprefix,
        ← List.isPrefixOf?_eq_some_iff_append_eq.mp hprefix']
      exact Std.ReflCmp.compare_self
    · cases hy
  · cases hx

end FileTree

/-! ### What is found in a file -/

section ScanFile

variable {config : Config} {repository : Option Repository} {path : Path} {name : Text} {content : Content}

/-- The name of a document whose extension is asked for. -/
structure IsDocumentName (config : Config) (name : Text) : Prop where
  notManifest : name ≠ Manifest.fileName
  extension : ∃ extension, Path.extensionOf? name = some extension ∧ config.allows extension = true ∧
    Config.sameAscii extension documentExtension = true

/-- A text under such a name is read as a document if it is not too large. -/
theorem scanFile_document (h : IsDocumentName config name) {text : Text}
    (fits : Text.byteLength text ≤ config.maxFileSize) :
    scanFile config repository path name (.text text) = scanDocument path text := by
  obtain ⟨extension, hextension, hallowed, hdocument⟩ := h.extension
  have hfits : ¬ config.maxFileSize < (Content.text text).size := Nat.not_lt.mpr fits
  rw [scanFile]
  simp only [Content.text?, if_neg h.notManifest, hextension]
  rw [if_neg (by simp [hallowed, hfits]), if_pos hdocument]

/-- A text under the name of a manifest is read as one, whatever its size. -/
theorem scanFile_manifest (text : Text) :
    scanFile config repository path Manifest.fileName (.text text) = scanManifest path text := rfl

/-- What reading a file comes to. The file is passed over, or it is a text that is read as a manifest, as a document
    or as a source file that a repository has a hash for. -/
theorem scanFile_cases (config : Config) (repository : Option Repository) (path : Path) (name : Text)
    (content : Content) :
    scanFile config repository path name content = .empty ∨ ∃ text, content = .text text ∧
      (name = Manifest.fileName ∧ scanFile config repository path name content = scanManifest path text ∨
        IsDocumentName config name ∧ Text.byteLength text ≤ config.maxFileSize ∧
          scanFile config repository path name content = scanDocument path text ∨
        ∃ known hash, repository = some known ∧ known.hash? path = some hash ∧
          scanFile config repository path name content = scanSource known path hash text) := by
  cases content with
  | binary bytes => exact .inl rfl
  | text text =>
      rw [scanFile]
      simp only [Content.text?]
      split
      · rename_i hname
        exact .inr ⟨text, rfl, .inl ⟨hname, rfl⟩⟩
      · rename_i hname
        split
        · exact .inl rfl
        · rename_i extension hextension
          split
          · exact .inl rfl
          · rename_i hallowed
            obtain ⟨hallowed, hfits⟩ := not_or.mp hallowed
            split
            · rename_i hdocument
              exact .inr ⟨text, rfl, .inr (.inl
                ⟨⟨hname, extension, hextension, by simpa using hallowed, hdocument⟩, Nat.not_lt.mp hfits, rfl⟩)⟩
            · split
              · exact .inl rfl
              · rename_i known
                split
                · exact .inl rfl
                · rename_i hash hhash
                  exact .inr ⟨text, rfl, .inr (.inr ⟨known, hash, rfl, hhash, rfl⟩)⟩

theorem files_scanManifest (path : Path) (text : Text) : (scanManifest path text).files = [] := by
  unfold scanManifest
  split <;> rfl

theorem manifest_scanManifest (path : Path) (text : Text) :
    (scanManifest path text).manifest = (Manifest.parse text).toOption := by
  rw [scanManifest]
  cases Manifest.parse text <;> rfl

/-- A document is read from such a text. -/
theorem document_of_mem_scanFile {d : DocumentRecord}
    (h : .document d ∈ (scanFile config repository path name content).files) :
    IsDocumentName config name ∧ ∃ text, content = .text text ∧ Text.byteLength text ≤ config.maxFileSize ∧
      d = .ofParsed path (ParsedDocument.parse text) := by
  rcases scanFile_cases config repository path name content with
    hread | ⟨text, rfl, ⟨-, hread⟩ | ⟨hname, hfits, hread⟩ | ⟨known, hash, -, -, hread⟩⟩
  · rw [hread] at h
    cases h
  · rw [hread, files_scanManifest] at h
    cases h
  · rw [hread] at h
    cases List.mem_singleton.mp h
    exact ⟨hname, text, rfl, hfits, rfl⟩
  · rw [hread] at h
    cases List.mem_singleton.mp h

/-- A source file is read from a text that a repository has a hash for. -/
theorem source_of_mem_scanFile {r : SourceRecord}
    (h : .source r ∈ (scanFile config repository path name content).files) :
    ∃ known relative hash text, repository = some known ∧ known.relative? path = some relative ∧
      content = .text text ∧ r =
        { path, tags := (ParsedSource.parse text).tags, hash := some hash
          url := some (known.location.fileUrl relative), relative := some relative } := by
  rcases scanFile_cases config repository path name content with
    hread | ⟨text, rfl, ⟨-, hread⟩ | ⟨-, -, hread⟩ | ⟨known, hash, rfl, hhash, hread⟩⟩
  · rw [hread] at h
    cases h
  · rw [hread, files_scanManifest] at h
    cases h
  · rw [hread] at h
    cases List.mem_singleton.mp h
  · obtain ⟨relative, hrelative, -⟩ := Option.bind_eq_some_iff.mp hhash
    refine ⟨known, relative, hash, text, rfl, hrelative, rfl, ?_⟩
    rw [hread] at h
    simpa [scanSource, Repository.fileUrl?, hrelative] using h

/-- Every record of a file has its path, and there is at most one. -/
theorem files_scanFile (config : Config) (repository : Option Repository) (path : Path) (name : Text)
    (content : Content) : (scanFile config repository path name content).files = [] ∨
      ∃ record, (scanFile config repository path name content).files = [record] ∧ record.path = path := by
  rcases scanFile_cases config repository path name content with
    hread | ⟨text, -, ⟨-, hread⟩ | ⟨-, -, hread⟩ | ⟨known, hash, -, -, hread⟩⟩
  · exact .inl (by rw [hread]; rfl)
  · exact .inl (by rw [hread, files_scanManifest])
  · exact .inr ⟨_, by rw [hread]; rfl, rfl⟩
  · exact .inr ⟨_, by rw [hread]; rfl, rfl⟩

theorem path_of_mem_scanFile {record : FileRecord}
    (h : record ∈ (scanFile config repository path name content).files) : record.path = path := by
  cases files_scanFile config repository path name content with
  | inl hnone =>
      rw [hnone] at h
      cases h
  | inr hone =>
      obtain ⟨record', hfiles, hpath⟩ := hone
      rw [hfiles] at h
      rw [List.mem_singleton.mp h]
      exact hpath

theorem pairwise_files_scanFile {R : FileRecord → FileRecord → Prop} :
    (scanFile config repository path name content).files.Pairwise R := by
  cases files_scanFile config repository path name content with
  | inl hnone =>
      rw [hnone]
      exact .nil
  | inr hone =>
      obtain ⟨record, hfiles, -⟩ := hone
      rw [hfiles]
      exact List.pairwise_singleton R record

/-- Only the manifest file of a directory gives a manifest. -/
theorem manifest_scanFile {m : Manifest}
    (h : (scanFile config repository path name content).manifest = some m) :
    name = Manifest.fileName ∧ ∃ text, content = .text text ∧ Manifest.parse text = .ok m := by
  rcases scanFile_cases config repository path name content with
    hread | ⟨text, rfl, ⟨hname, hread⟩ | ⟨-, -, hread⟩ | ⟨known, hash, -, -, hread⟩⟩
  · rw [hread] at h
    cases h
  · rw [hread, manifest_scanManifest] at h
    cases hparse : Manifest.parse text with
    | error error =>
        rw [hparse] at h
        cases h
    | ok manifest =>
        rw [hparse] at h
        cases h
        exact ⟨hname, text, rfl, hparse⟩
  · rw [hread] at h
    cases h
  · rw [hread] at h
    cases h

end ScanFile

/-- What the scan finds in the file of a name in a directory. -/
def findingsAt (t : FileTree) (config : Config) (units : Units) (dir : Names) (name : Text) : Findings :=
  match units.get? dir, t.node? (dir ++ [name]) with
  | some repository, some (.file content) =>
      scanFile config repository (FileTree.pathOf (dir ++ [name])) name content
  | _, _ => .empty

theorem findingsAt_eq {t : FileTree} {config : Config} {units : Units} {dir : Names} {name : Text}
    {repository : Option Repository} {content : Content} (hunit : units.get? dir = some repository)
    (hnode : t.node? (dir ++ [name]) = some (.file content)) :
    findingsAt t config units dir name =
      scanFile config repository (FileTree.pathOf (dir ++ [name])) name content := by
  rw [findingsAt, hunit, hnode]

/-- Something is found only in a file of a scanned directory. -/
theorem findingsAt_cases (t : FileTree) (config : Config) (units : Units) (dir : Names) (name : Text) :
    findingsAt t config units dir name = .empty ∨
    ∃ repository content, units.get? dir = some repository ∧
      t.node? (dir ++ [name]) = some (.file content) ∧ findingsAt t config units dir name =
        scanFile config repository (FileTree.pathOf (dir ++ [name])) name content := by
  unfold findingsAt
  split
  · rename_i repository content hunit hnode
    exact .inr ⟨repository, content, hunit, hnode, rfl⟩
  · exact .inl rfl

/-! ### What a scan finds -/

/-- What a scan of some directories gives: what is found in their files, in the order of the paths. -/
structure Scanned (t : FileTree) (config : Config) (units : Units) (s : ScanResult) : Prop where
  isDirectory : ∀ {dir}, units.get? dir ≠ none → t.node? dir = some .directory
  files : ∀ record, record ∈ s.files ↔ ∃ dir name, record ∈ (findingsAt t config units dir name).files
  errors : ∀ error, error ∈ s.errors ↔ ∃ dir name, error ∈ (findingsAt t config units dir name).errors
  manifests : ∀ p m, s.manifests.get? p = some m ↔ ∃ dir, p.same (FileTree.pathOf dir) = true ∧
    (findingsAt t config units dir Manifest.fileName).manifest = some m
  directories : ∀ p ∈ s.manifests.keys, ∃ dir, p = FileTree.pathOf dir ∧ units.get? dir ≠ none
  ascending : s.files.Pairwise fun a b => compare a.path b.path = .lt

theorem mem_flatMap_scanDirectory_iff (t : FileTree) (config : Config) (units : Units) {α : Type}
    (field : Findings → List α) (hconcat : ∀ all, field (.concat all) = all.flatMap field)
    (hempty : field .empty = []) (x : α) :
    (x ∈ units.toList.flatMap fun u => field (scanDirectory t config u.1 u.2)) ↔
      ∃ dir name, x ∈ field (findingsAt t config units dir name) := by
  simp only [List.mem_flatMap, scanDirectory, hconcat, List.mem_map, exists_exists_and_eq_and]
  constructor
  · rintro ⟨⟨dir, repository⟩, hunit, ⟨name, content⟩, hfile, hx⟩
    refine ⟨dir, name, ?_⟩
    rw [findingsAt_eq (Table.mem_toList_iff.mp hunit) (FileTree.mem_filesIn_iff.mp hfile)]
    exact hx
  · rintro ⟨dir, name, hx⟩
    rcases findingsAt_cases t config units dir name with hnone | ⟨repository, content, hunit, hnode, hfound⟩
    · rw [hnone, hempty] at hx
      cases hx
    · rw [hfound] at hx
      exact ⟨_, Table.mem_toList_iff.mpr hunit, _, FileTree.mem_filesIn_iff.mpr hnode, hx⟩

/-- A directory gives the manifest in its manifest file. -/
theorem manifest_scanDirectory_iff {t : FileTree} {config : Config} {units : Units} {dir : Names}
    {repository : Option Repository} (hunit : units.get? dir = some repository) {m : Manifest} :
    (scanDirectory t config dir repository).manifest = some m ↔
      (findingsAt t config units dir Manifest.fileName).manifest = some m := by
  have hfound : ∀ {m}, (scanDirectory t config dir repository).manifest = some m →
      (findingsAt t config units dir Manifest.fileName).manifest = some m := by
    intro m h
    obtain ⟨findings, hmem, hmanifest⟩ := List.exists_of_findSome?_eq_some h
    obtain ⟨⟨name, content⟩, hfile, rfl⟩ := List.mem_map.mp hmem
    obtain ⟨rfl, -⟩ := manifest_scanFile hmanifest
    rw [findingsAt_eq hunit (FileTree.mem_filesIn_iff.mp hfile)]
    exact hmanifest
  refine ⟨hfound, fun h => ?_⟩
  cases hsome : (scanDirectory t config dir repository).manifest with
  | some m' =>
      rw [hfound hsome] at h
      exact h
  | none =>
      rcases findingsAt_cases t config units dir Manifest.fileName with
        hnone | ⟨repository', content, hunit', hnode, heq⟩
      · rw [hnone] at h
        cases h
      · rw [hunit] at hunit'
        cases hunit'
        rw [heq] at h
        have hall := List.findSome?_eq_none_iff.mp hsome
        have hnone := hall _ (List.mem_map.mpr ⟨_, FileTree.mem_filesIn_iff.mpr hnode, rfl⟩)
        rw [h] at hnone
        cases hnone

theorem files_scanDirectory (t : FileTree) (config : Config) (dir : Names)
    (repository : Option Repository) :
    (scanDirectory t config dir repository).files = (t.filesIn dir).flatMap fun file =>
      (scanFile config repository (FileTree.pathOf (dir ++ [file.1])) file.1 file.2).files := by
  rw [scanDirectory, Findings.concat, List.flatMap_map]

/-- No two records of a directory or of two directories have the same path. -/
theorem pairwise_files {t : FileTree} (h : t.WellFormed) (config : Config) (units : Units) :
    (units.toList.flatMap fun u => (scanDirectory t config u.1 u.2).files).Pairwise
      fun a b => a.path.same b.path = false := by
  -- The path of a record tells in which directory and under which name it was found.
  have hdiffer : ∀ {dir dir' repository repository'}, ∀ {a b}, a ∈ t.filesIn dir → b ∈ t.filesIn dir' →
      dir ++ [a.1] ≠ dir' ++ [b.1] → ∀ {x y},
      x ∈ (scanFile config repository (FileTree.pathOf (dir ++ [a.1])) a.1 a.2).files →
      y ∈ (scanFile config repository' (FileTree.pathOf (dir' ++ [b.1])) b.1 b.2).files →
      x.path.same y.path = false := by
    intro dir dir' repository repository' a b ha hb hne x y hx hy
    have hnames := h.isFileName (FileTree.mem_filesIn_iff.mp ha)
    have hnames' := h.isFileName (FileTree.mem_filesIn_iff.mp hb)
    rw [path_of_mem_scanFile hx, path_of_mem_scanFile hy, ← Bool.not_eq_true,
      FileTree.same_pathOf_iff hnames hnames']
    exact hne
  refine List.pairwise_flatMap.mpr ⟨fun u _ => ?_, ?_⟩
  · rw [files_scanDirectory]
    refine List.pairwise_flatMap.mpr ⟨fun file _ => pairwise_files_scanFile, ?_⟩
    refine (t.filesIn_pairwise u.1).imp_of_mem fun {a b} ha hb hne x hx y hy => ?_
    exact hdiffer ha hb (fun heq => hne (by simpa using heq)) hx hy
  · refine units.distinct_toList.imp fun {u v} hne x hx y hy => ?_
    rw [files_scanDirectory] at hx hy
    obtain ⟨a, ha, hx⟩ := List.mem_flatMap.mp hx
    obtain ⟨b, hb, hy⟩ := List.mem_flatMap.mp hy
    refine hdiffer ha hb (fun heq => hne ?_) hx hy
    rw [(List.append_inj' heq rfl).1]
    exact Std.ReflCmp.compare_self

/-- A scan that succeeds gives what is found in the directories below its roots. -/
theorem exists_scanned {t : FileTree} {roots : List ScanRoot} {config : Config} {s : ScanResult}
    (h : scan t roots config = .ok s) (wellFormed : t.WellFormed) :
    ∃ units, Units.ofRoots t roots = .ok units ∧ Scanned t config units s := by
  obtain ⟨units, hunits, hs⟩ := bind_eq_ok_iff.mp h
  cases hs
  have hdir : ∀ {u}, u ∈ units.toList → ∀ name ∈ u.1, IsFileName name := fun {u} hu =>
    wellFormed.isFileName (Units.isDirectory hunits (by rw [Table.mem_toList_iff.mp hu]; simp))
  refine ⟨units, hunits, Units.isDirectory hunits, fun record => ?_, fun error => ?_, fun p m => ?_,
    fun p hp => ?_, ?_⟩
  · rw [(List.mergeSort_perm _ _).mem_iff, List.flatMap_map]
    exact mem_flatMap_scanDirectory_iff t config units (·.files) (fun _ => rfl) rfl record
  · rw [sortSyntaxErrors, (List.mergeSort_perm _ _).mem_iff, List.flatMap_map]
    exact mem_flatMap_scanDirectory_iff t config units (·.errors) (fun _ => rfl) rfl error
  · rw [List.filterMap_map]
    refine (Table.get?_ofList_eq_some_iff ?_).trans ?_
    · refine List.pairwise_filterMap.mpr (units.distinct_toList.imp_of_mem
        fun {u v} hu hv hne a ha b hb heq => hne ?_)
      obtain ⟨m, -, rfl⟩ := Option.map_eq_some_iff.mp ha
      obtain ⟨m', -, rfl⟩ := Option.map_eq_some_iff.mp hb
      rw [Path.compare_eq_iff, FileTree.same_pathOf_iff (hdir hu) (hdir hv)] at heq
      rw [heq]
      exact Std.ReflCmp.compare_self
    · simp only [List.mem_filterMap, Function.comp_apply, Option.map_eq_some_iff, Prod.mk.injEq,
        Path.compare_eq_iff]
      constructor
      · rintro ⟨_, ⟨⟨dir, repository⟩, hunit, m', hm, rfl, rfl⟩, hsame⟩
        exact ⟨dir, hsame, (manifest_scanDirectory_iff (Table.mem_toList_iff.mp hunit)).mp hm⟩
      · rintro ⟨dir, hsame, hm⟩
        rcases findingsAt_cases t config units dir Manifest.fileName with
          hnone | ⟨repository, content, hunit, -, -⟩
        · rw [hnone] at hm
          cases hm
        · exact ⟨_, ⟨(dir, repository), Table.mem_toList_iff.mpr hunit, m,
            (manifest_scanDirectory_iff hunit).mpr hm, rfl, rfl⟩, hsame⟩
  · obtain ⟨entry, hentry, rfl⟩ := Table.exists_of_mem_keys_ofList hp
    obtain ⟨found, hfound, hsome⟩ := List.mem_filterMap.mp hentry
    obtain ⟨⟨dir, repository⟩, hunit, rfl⟩ := List.mem_map.mp hfound
    obtain ⟨m, -, rfl⟩ := Option.map_eq_some_iff.mp hsome
    exact ⟨dir, rfl, by rw [Table.mem_toList_iff.mp hunit]; simp⟩
  · rw [List.flatMap_map]
    have hdistinct := (pairwise_files wellFormed config units).imp fun {a b} hne => by
      rwa [← Bool.not_eq_true, ← Path.compare_eq_iff] at hne
    exact ascending_mergeSort (compareOn FileRecord.path) hdistinct

/-- The manifest of a scanned directory is what is found in its manifest file. -/
theorem Scanned.get?_manifests_eq {t : FileTree} {config : Config} {units : Units} {s : ScanResult}
    (h : Scanned t config units s) (wellFormed : t.WellFormed) {dir : Names} (hunit : units.get? dir ≠ none) :
    s.manifests.get? (FileTree.pathOf dir) = (findingsAt t config units dir Manifest.fileName).manifest := by
  apply Option.ext
  intro m
  rw [h.manifests]
  constructor
  · rintro ⟨dir', hsame, hm⟩
    rcases findingsAt_cases t config units dir' Manifest.fileName with hnone | ⟨repository, _, hunit', _⟩
    · rw [hnone] at hm
      cases hm
    · have hdir := wellFormed.isFileName (h.isDirectory hunit)
      have hunit' : units.get? dir' ≠ none := by simp [hunit']
      have hdir' := wellFormed.isFileName (h.isDirectory hunit')
      rw [FileTree.same_pathOf_iff hdir hdir'] at hsame
      rw [hsame]
      exact hm
  · exact fun hm => ⟨dir, Path.same_self _, hm⟩

/-- A scan succeeds if the directories below its roots are found. -/
theorem exists_scan_eq_ok {t : FileTree} {roots : List ScanRoot} {units : Units}
    (hunits : Units.ofRoots t roots = .ok units) (config : Config) :
    ∃ s, scan t roots config = .ok s :=
  ⟨_, bind_eq_ok_iff.mpr ⟨units, hunits, rfl⟩⟩

/-- What is found in the order of the paths stays in this order. -/
theorem scan_eq_ok_of_ordered {t : FileTree} {roots : List ScanRoot} {config : Config} {units : Units}
    (hunits : Units.ofRoots t roots = .ok units)
    (ordered : (units.toList.flatMap fun u => (scanDirectory t config u.1 u.2).files).Pairwise
      fun a b => (compare a.path b.path).isLE = true) :
    scan t roots config = .ok {
      files := units.toList.flatMap fun u => (scanDirectory t config u.1 u.2).files
      manifests := Table.ofList (units.toList.filterMap fun u =>
        (scanDirectory t config u.1 u.2).manifest.map fun manifest => (FileTree.pathOf u.1, manifest))
      errors := sortSyntaxErrors (units.toList.flatMap fun u => (scanDirectory t config u.1 u.2).errors) } := by
  refine bind_eq_ok_iff.mpr ⟨units, hunits, congrArg Except.ok ?_⟩
  rw [List.flatMap_map, List.flatMap_map, List.filterMap_map, List.mergeSort_of_pairwise ordered]
  rfl

end ReqTrace
