/-
Module: ReqTrace.Proofs.Plan.Manifests
Purpose: The edits of one manifest among those of a plan. A directory has some only if there is a document or a
  manifest in it, and unless a document has the name of a manifest these are all edits of the file.
Main exports: ScanResult.IsManifestDirectory, isManifestDirectory_iff, ScanResult.manifestEditsIn_eq,
  ScanResult.exists_filter_manifestEdits, filter_same_manifest, pairwise_isManifest
-/
import ReqTrace.Proofs.Apply
import ReqTrace.Proofs.Manifest
import ReqTrace.Proofs.Plan.Citations
import ReqTrace.Proofs.Plan.Order

namespace ReqTrace

theorem isFileName_manifest : IsFileName Manifest.fileName := by decide

namespace ScanResult

/-- The directories that a scan has found a document or a manifest in. -/
def IsManifestDirectory (s : ScanResult) (directory : Path) : Prop :=
  (∃ d ∈ s.documents, d.isIn directory = true) ∨ (s.manifests.get? directory).isSome = true

instance (s : ScanResult) (directory : Path) : Decidable (s.IsManifestDirectory directory) :=
  inferInstanceAs (Decidable (_ ∨ _))

end ScanResult

theorem mem_of_mem_manifestDirectories {s : ScanResult} {directory : Path}
    (h : directory ∈ manifestDirectories s) :
    directory ∈ s.documents.filterMap (·.path.parent?) ++ s.manifests.keys := by
  obtain ⟨entry, hentry, rfl⟩ := Table.exists_of_mem_keys_ofList h
  obtain ⟨directory, hdirectory, rfl⟩ := List.mem_map.mp hentry
  exact List.mem_reverse.mp hdirectory

/-- Such a directory is looked at under one of its spellings. -/
theorem isManifestDirectory_iff {s : ScanResult} {directory : Path} :
    s.IsManifestDirectory directory ↔ ∃ other ∈ manifestDirectories s, other.same directory = true := by
  constructor
  · intro h
    have hlisted : ∃ other ∈ s.documents.filterMap (·.path.parent?) ++ s.manifests.keys,
        other.same directory = true := by
      rcases h with ⟨d, hd, hin⟩ | hsome
      · obtain ⟨parent, hparent, hsame⟩ := (Option.any_eq_true _ _).mp hin
        exact ⟨parent, List.mem_append_left _ (List.mem_filterMap.mpr ⟨d, hd, hparent⟩), hsame⟩
      · obtain ⟨m, hm⟩ := Option.isSome_iff_exists.mp hsome
        obtain ⟨key, hentry, hcompare⟩ := Table.get?_eq_some_iff.mp hm
        refine ⟨key, List.mem_append_right _ (List.mem_map_of_mem (f := Prod.fst) hentry), ?_⟩
        rw [Path.same_comm]
        exact Path.compare_eq_iff.mp hcompare
    obtain ⟨other, hother, hsame⟩ := hlisted
    obtain ⟨key, hkey, hcompare⟩ := Table.exists_mem_keys_ofList
      (List.mem_map_of_mem (f := fun directory : Path => (directory, ())) (List.mem_reverse.mpr hother))
    refine ⟨key, hkey, ?_⟩
    rw [← Path.same_congr (Path.compare_eq_iff.mp hcompare)]
    exact hsame
  · rintro ⟨other, hother, hsame⟩
    rcases List.mem_append.mp (mem_of_mem_manifestDirectories hother) with hdocument | hkey
    · obtain ⟨d, hd, hparent⟩ := List.mem_filterMap.mp hdocument
      exact .inl ⟨d, hd, (Option.any_eq_true _ _).mpr ⟨other, hparent, hsame⟩⟩
    · obtain ⟨⟨key, m⟩, hentry, rfl⟩ := List.mem_map.mp hkey
      refine .inr (Option.isSome_iff_exists.mpr ⟨m, Table.get?_eq_some_iff.mpr ⟨key, hentry, ?_⟩⟩)
      exact Path.compare_eq_iff.mpr ((Path.same_comm _ _).trans hsame)

namespace ScanResult

variable {s : ScanResult}

theorem manifestEditsIn_eq (s : ScanResult) (directory : Path) :
    s.manifestEditsIn directory = manifestActions (directory.join ⟨Manifest.fileName⟩)
      ((s.manifests.get? directory).getD Table.empty) (Table.ofList (s.citedIn directory)) := by
  rw [manifestEditsIn, getD_citations]

/-- Edits of a manifest are edits of the file in its directory. -/
theorem of_mem_manifestEditsIn {directory : Path} {a : Action} (h : a ∈ s.manifestEditsIn directory) :
    a.isManifestEdit = true ∧ a.path = directory.join ⟨Manifest.fileName⟩ :=
  isManifestEdit_of_mem_manifestActions h

/-- A directory without documents cites nothing. -/
theorem citedIn_eq_nil (fine : (Index.ofDocuments s.documents).errors = []) {directory : Path}
    (h : ∀ d ∈ s.documents, d.isIn directory = false) : s.citedIn directory = [] := by
  refine List.flatMap_eq_nil_iff.mpr fun x hx => if_neg ?_
  obtain ⟨d, hd, hdeclaration⟩ := (mem_declared_iff fine).mp hx
  rw [DocumentRecord.document_of_mem_declarations hdeclaration, h d hd]
  simp

/-- A directory that is not looked at has no manifest and no document that cites anything. -/
theorem manifestEditsIn_eq_nil (fine : (Index.ofDocuments s.documents).errors = []) {directory : Path}
    (h : ¬ s.IsManifestDirectory directory) : s.manifestEditsIn directory = [] := by
  obtain ⟨hdocuments, hmanifest⟩ := not_or.mp h
  have hcited : s.citedIn directory = [] := by
    refine citedIn_eq_nil fine fun d hd => ?_
    rw [← Bool.not_eq_true]
    exact fun hin => hdocuments ⟨d, hd, hin⟩
  rw [manifestEditsIn_eq, Option.not_isSome_iff_eq_none.mp hmanifest, hcited]
  exact manifestActions_eq_nil_iff.mpr rfl

/-- The edits of one manifest among those of all, if the directory is not looked at under another spelling. -/
theorem filter_manifestEdits (fine : (Index.ofDocuments s.documents).errors = []) {directory : Path}
    (spelled : ∀ other ∈ manifestDirectories s, other.same directory = true → other = directory) :
    s.manifestEdits.filter (·.path.same (directory.join ⟨Manifest.fileName⟩)) =
      s.manifestEditsIn directory := by
  have horigin : ∀ other ∈ manifestDirectories s, ∀ a ∈ s.manifestEditsIn other,
      a.path.same (directory.join ⟨Manifest.fileName⟩) = other.same directory := by
    intro other _ a ha
    rw [(of_mem_manifestEditsIn ha).2, Bool.eq_iff_iff, Path.same_join_iff isFileName_manifest]
  rw [manifestEdits, filter_flatMap_of_origin horigin]
  by_cases h : directory ∈ manifestDirectories s
  · have honly : ∀ other ∈ manifestDirectories s, other.same directory = true ↔ other = directory := by
      refine fun other hother => ⟨spelled other hother, ?_⟩
      rintro rfl
      exact Path.same_self _
    have hnodup : (manifestDirectories s).Nodup := Table.nodup_keys _
    rw [filter_eq_singleton hnodup h honly, List.flatMap_singleton]
  · have hnone : ∀ other ∈ manifestDirectories s, ¬ other.same directory = true := fun other hother hsame =>
      h (spelled other hother hsame ▸ hother)
    have hunseen : ¬ s.IsManifestDirectory directory := fun hseen =>
      let ⟨other, hother, hsame⟩ := isManifestDirectory_iff.mp hseen
      hnone other hother hsame
    rw [List.filter_eq_nil_iff.mpr hnone, manifestEditsIn_eq_nil fine hunseen]
    rfl

/-- The edits of one manifest among those of all turn the one that was found into the one that records what is
    cited, under some spelling of the file. -/
theorem exists_filter_manifestEdits (fine : (Index.ofDocuments s.documents).errors = []) (directory : Path) :
    ∃ file, file.same (directory.join ⟨Manifest.fileName⟩) = true ∧
      s.manifestEdits.filter (·.path.same (directory.join ⟨Manifest.fileName⟩)) =
        manifestActions file ((s.manifests.get? directory).getD Table.empty)
          (Table.ofList (s.citedIn directory)) := by
  by_cases h : s.IsManifestDirectory directory
  · obtain ⟨other, hother, hsame⟩ := isManifestDirectory_iff.mp h
    have hspelled : ∀ third ∈ manifestDirectories s, third.same other = true → third = other :=
      fun third hthird heq => Table.eq_of_mem_keys hthird hother (Path.compare_eq_iff.mpr heq)
    have hfile := (Path.same_join_iff isFileName_manifest).mpr hsame
    refine ⟨other.join ⟨Manifest.fileName⟩, hfile, ?_⟩
    rw [← Table.get?_congr s.manifests (Path.compare_eq_iff.mpr hsame), ← s.citedIn_congr_directory hsame,
      ← s.manifestEditsIn_eq, ← filter_manifestEdits fine hspelled]
    exact List.filter_congr fun a _ => (Path.same_congr_right hfile a.path).symm
  · refine ⟨directory.join ⟨Manifest.fileName⟩, Path.same_self _, ?_⟩
    rw [← s.manifestEditsIn_eq]
    exact filter_manifestEdits fine fun other hother hsame =>
      absurd (isManifestDirectory_iff.mpr ⟨other, hother, hsame⟩) h

/-- Unless a document has the name of a manifest, no edit of a document is an edit of a manifest file. -/
theorem filter_documentEdits_manifest (fine : (Index.ofDocuments s.documents).errors = [])
    (noManifest : ∀ d ∈ s.documents, d.path.fileName? ≠ some Manifest.fileName) (directory : Path) :
    s.documentEdits.filter (·.path.same (directory.join ⟨Manifest.fileName⟩)) = [] := by
  refine List.filter_eq_nil_iff.mpr fun a ha hsame => ?_
  obtain ⟨d, hd, -, -, -, hpath⟩ := exists_of_mem_documentEdits fine ha
  refine noManifest d hd ?_
  rw [← Path.fileName?_join directory isFileName_manifest, ← Path.fileName?_congr hsame, hpath]

end ScanResult

/-- The planned edits of the file for the manifest of a directory. -/
theorem filter_same_manifest {s : ScanResult} {actions : List Action} (plan : plan s = .ok actions)
    (noManifest : ∀ d ∈ s.documents, d.path.fileName? ≠ some Manifest.fileName) {directory : Path}
    (spelled : ∀ other ∈ manifestDirectories s, other.same directory = true → other = directory) :
    actions.filter (·.path.same (directory.join ⟨Manifest.fileName⟩)) = s.manifestEditsIn directory := by
  obtain ⟨fine, hactions⟩ := plan_eq_ok_iff.mp plan
  rw [hactions, List.filter_append, ScanResult.filter_documentEdits_manifest fine noManifest, List.nil_append,
    ScanResult.filter_manifestEdits fine spelled]

/-- The planned edits of a manifest turn the one that was found into the one that records what is cited. -/
theorem exists_filter_same_manifest {s : ScanResult} {actions : List Action} (plan : plan s = .ok actions)
    (noManifest : ∀ d ∈ s.documents, d.path.fileName? ≠ some Manifest.fileName) (directory : Path) :
    ∃ file, actions.filter (·.path.same (directory.join ⟨Manifest.fileName⟩)) =
      manifestActions file ((s.manifests.get? directory).getD Table.empty)
        (Table.ofList (s.citedIn directory)) := by
  obtain ⟨fine, hactions⟩ := plan_eq_ok_iff.mp plan
  obtain ⟨file, -, hfilter⟩ := ScanResult.exists_filter_manifestEdits fine directory
  refine ⟨file, ?_⟩
  rw [hactions, List.filter_append, ScanResult.filter_documentEdits_manifest fine noManifest, List.nil_append,
    hfilter]

theorem mem_manifestEdits {s : ScanResult} {actions : List Action} (plan : plan s = .ok actions) {a : Action}
    (ha : a ∈ actions) (hkind : a.isManifestEdit = true) : a ∈ s.manifestEdits := by
  obtain ⟨-, rfl⟩ := plan_eq_ok_iff.mp plan
  refine (List.mem_append.mp ha).resolve_left fun hdocument => ?_
  rw [ScanResult.not_isManifestEdit_of_mem hdocument] at hkind
  cases hkind

/-- Every edit of a manifest is in a directory with a document or a manifest. -/
theorem exists_manifestDirectory {s : ScanResult} {actions : List Action} (plan : plan s = .ok actions)
    {a : Action} (ha : a ∈ actions) (hkind : a.isManifestEdit = true) :
    ∃ directory ∈ manifestDirectories s, a.path = directory.join ⟨Manifest.fileName⟩ := by
  obtain ⟨directory, hdirectory, -, hpath⟩ :=
    ScanResult.exists_of_mem_manifestEdits (mem_manifestEdits plan ha hkind)
  exact ⟨directory, hdirectory, hpath⟩

/-! ### Groups of a plan -/

section Groups

variable {s : ScanResult} {actions : List Action} (plan : plan s = .ok actions)
  (noManifest : ∀ d ∈ s.documents, d.path.fileName? ≠ some Manifest.fileName)
include plan noManifest

/-- The kind of a planned edit can be told from the name of its file. -/
theorem isManifestEdit_iff_fileName? {a : Action} (ha : a ∈ actions) :
    a.isManifestEdit = true ↔ a.path.fileName? = some Manifest.fileName := by
  rcases mem_plan_cases plan ha with ⟨hkind, d, hd, -, -, -, hpath⟩ | ⟨hkind, directory, -, -, hpath⟩
  · simp [hpath, hkind, noManifest d hd]
  · simp [hpath, hkind, Path.fileName?_join directory isFileName_manifest]

/-- Planned edits of one file are of one kind. -/
theorem isManifestEdit_congr {a b : Action} (ha : a ∈ actions) (hb : b ∈ actions)
    (hsame : a.path.same b.path = true) : a.isManifestEdit = b.isManifestEdit := by
  rw [Bool.eq_iff_iff, isManifestEdit_iff_fileName? plan noManifest ha,
    isManifestEdit_iff_fileName? plan noManifest hb, Path.fileName?_congr hsame]

/-- A group has edits of one kind. -/
theorem isManifestEdit_of_mem_group {e : FileEdits} (he : e ∈ groupByFile actions) {a : Action}
    (ha : a ∈ e.actions) : a.isManifestEdit = e.isManifest := by
  have hgroups := isGrouping_groupByFile actions
  obtain ⟨hmem, hsame⟩ := (hgroups.mem_actions_iff he).mp ha
  rw [FileEdits.isManifest, Bool.eq_iff_iff, List.any_eq_true]
  refine ⟨fun hkind => ⟨a, ha, hkind⟩, ?_⟩
  rintro ⟨b, hb, hkind⟩
  obtain ⟨hmem', hsame'⟩ := (hgroups.mem_actions_iff he).mp hb
  rw [← hkind]
  refine isManifestEdit_congr plan noManifest hmem hmem' ?_
  rw [Path.same_congr hsame, Path.same_comm, hsame']

/-- The documents come before the manifests. -/
theorem pairwise_isManifest :
    (groupByFile actions).Pairwise fun e e' => e.isManifest = true → e'.isManifest = true := by
  have hgroups := isGrouping_groupByFile actions
  have hkind : ∀ e ∈ groupByFile actions, e.isManifest = true ↔ e.path.fileName? = some Manifest.fileName := by
    intro e he
    obtain ⟨a, ha, hpath⟩ := hgroups.exists_mem he
    have hmem := ((hgroups.mem_actions_iff he).mp ha).1
    rw [← isManifestEdit_of_mem_group plan noManifest he ha, isManifestEdit_iff_fileName? plan noManifest hmem, hpath]
  have hpaths : (groupByFile actions).Pairwise fun e e' =>
      e.path.fileName? = some Manifest.fileName → e'.path.fileName? = some Manifest.fileName := by
    obtain ⟨fine, rfl⟩ := plan_eq_ok_iff.mp plan
    refine pairwise_groupByFile (P := fun path => path.fileName? = some Manifest.fileName) ?_ ?_
    · intro a ha hname
      have hmanifest := (isManifestEdit_iff_fileName? plan noManifest (List.mem_append_left _ ha)).mpr hname
      rw [ScanResult.not_isManifestEdit_of_mem ha] at hmanifest
      cases hmanifest
    · exact fun a ha => (isManifestEdit_iff_fileName? plan noManifest (List.mem_append_right _ ha)).mp
        (s.isManifestEdit_of_mem ha)
  refine hpaths.imp_of_mem fun {e e'} he he' himp hmanifest => ?_
  exact (hkind e' he').mpr (himp ((hkind e he).mp hmanifest))

end Groups

/-! ### Plans for documents in order -/

/-- The edits for documents that are in order, with their sites, without sorting them. -/
def ScanResult.editsInOrder (s : ScanResult) : List Action :=
  (s.documents.flatMap DocumentRecord.declarations).flatMap (fun x => x.actions (evidenceFor s.sources x.id)) ++
    (manifestDirectories s).flatMap fun directory =>
      manifestActions (directory.join ⟨Manifest.fileName⟩) ((s.manifests.get? directory).getD Table.empty)
        (Table.ofList ((s.documents.flatMap DocumentRecord.declarations).flatMap
          (Declaration.citedIn s.sources directory)))

/-- The plan for documents that are in order, with their sites, is made without sorting them. -/
theorem plan_of_ascending {s : ScanResult} {actions : List Action}
    (fine : (Index.ofDocuments s.documents).errors = [])
    (documents : s.documents.Pairwise fun a b => compare a.path b.path = .lt)
    (sites : ∀ d ∈ s.documents, d.sites.Pairwise fun a b => Site.compare a b = .lt)
    (edits : s.editsInOrder = actions) : plan s = .ok actions := by
  have hdeclared := ScanResult.declared_eq_flatMap fine documents sites
  refine plan_eq_ok_iff.mpr ⟨fine, ?_⟩
  rw [← edits, ScanResult.editsInOrder, ScanResult.documentEdits, ScanResult.manifestEdits, hdeclared]
  congr 2
  funext directory
  rw [ScanResult.manifestEditsIn_eq, ScanResult.citedIn, hdeclared]

end ReqTrace
