/-
Module: ReqTrace.Proofs.Run.Rescan
Purpose: A scan of the tree that a run leaves. It finds the same directories and files, with the documents as
  they have been rewritten, and the manifests as the documents cite.
Main exports: Applied, Applied.rewritten, Applied.document, Applied.manifest, FileRecord.reread, DocumentsFit,
  Applied.files_eq
-/
import ReqTrace.Proofs.Plan.Order
import ReqTrace.Proofs.Plan.Settled
import ReqTrace.Proofs.Rewritten
import ReqTrace.Proofs.Run.Manifests
import ReqTrace.Proofs.Run.Success

namespace ReqTrace

/-- A run whose edits have all been carried out. -/
structure Applied (t t' : FileTree) (config : Config) (units : Units) (s : ScanResult) (actions : List Action) :
    Prop extends Planned t config units s actions where
  permitted : Permitted t actions
  revised : FileTree.Revised t t' (groupByFile actions)

namespace Applied

variable {t t' : FileTree} {config : Config} {units : Units} {s : ScanResult} {actions : List Action}

/-- A run rewrites regular files only. -/
theorem rewritten (h : Applied t t' config units s actions) : FileTree.Rewritten t t' := by
  refine ⟨h.revised.workingDirectory, fun names => ?_⟩
  by_cases hgroup : ∃ e ∈ groupByFile actions, e.path.names = names
  · obtain ⟨e, he, rfl⟩ := hgroup
    obtain ⟨dir, name, hpath, hplace⟩ := h.toPlanned.hasPlace h.permitted he
    have hnames : e.path.names = dir ++ [name] := by
      rw [hpath]
      exact FileTree.names_pathOf (hplace.names h.wellFormed)
    obtain ⟨hold, hnew⟩ := FileEdits.revise_eq_ok (h.revised.revised e he)
    refine .inr ⟨?_, ?_⟩
    · cases hnode : t.node? e.path.names with
      | none => trivial
      | some node =>
          cases node with
          | file content => trivial
          | directory => exact hold hnode
          | link target => exact hplace.regular target (by rw [← hnames, hnode])
    · rcases hnew with hnew | ⟨text, hnew⟩
      · rw [hnew]
        trivial
      · rw [hnew]
        trivial
  · exact .inl (h.revised.kept names fun e he heq => hgroup ⟨e, he, heq⟩)

/-- What is in a place after a run: what was there before, or the result of the edits of a manifest or of a
    document. -/
theorem node_cases (h : Applied t t' config units s actions) (dir : Names) (name : Text) :
    ((∀ e ∈ groupByFile actions, e.path.names ≠ dir ++ [name]) ∧
      t'.node? (dir ++ [name]) = t.node? (dir ++ [name])) ∨
    ∃ e ∈ groupByFile actions, e.path = FileTree.pathOf (dir ++ [name]) ∧
      e.revise (t.node? (dir ++ [name])) = .ok (t'.node? (dir ++ [name])) ∧
      (e.isManifest = true ∧ name = Manifest.fileName ∨
        e.isManifest = false ∧ ∃ text, DocumentAt t config units s e.path dir name text) := by
  by_cases hgroup : ∃ e ∈ groupByFile actions, e.path.names = dir ++ [name]
  · obtain ⟨e, he, hpath⟩ := hgroup
    have hrevised := h.revised.revised e he
    rw [hpath] at hrevised
    refine .inr ⟨e, he, by rw [h.path_of_mem_group he, hpath], hrevised, ?_⟩
    rcases h.group_cases he with ⟨hkind, dir', name', text, hat⟩ | ⟨hkind, dir', hat⟩
    · have hplace : dir' ++ [name'] = dir ++ [name] := by
        rw [← hpath, hat.path]
        exact (FileTree.names_pathOf (h.wellFormed.isFileName hat.node)).symm
      obtain ⟨rfl, hname⟩ := List.append_inj' hplace rfl
      cases hname
      exact .inr ⟨hkind, text, hat⟩
    · have hplace : dir' ++ [Manifest.fileName] = dir ++ [name] := by
        rw [← hpath, hat.path]
        exact (FileTree.names_pathOf (h.names_manifest hat.unit)).symm
      exact .inl ⟨hkind, (List.cons.inj (List.append_inj' hplace rfl).2).1.symm⟩
  · have hother : ∀ e ∈ groupByFile actions, e.path.names ≠ dir ++ [name] :=
      fun e he heq => hgroup ⟨e, he, heq⟩
    exact .inl ⟨hother, h.revised.kept _ hother⟩

/-- What a document says after a run. -/
theorem document (h : Applied t t' config units s actions) (linkable : s.Linkable) {p : Path}
    {dir : Names} {name text : Text} (hat : DocumentAt t config units s p dir name text) :
    ∃ text', t'.node? (dir ++ [name]) = some (.file (.text text')) ∧
      Settled s.sources p (ParsedDocument.parse text) (ParsedDocument.parse text') := by
  have hnames := h.wellFormed.isFileName hat.node
  have hdistinct := h.scanned.distinct_documents
  rcases h.node_cases dir _ with ⟨hother, hkept⟩ | ⟨e, he, hpath, hrevised, hkind⟩
  · refine ⟨text, hkept.trans hat.node, ?_⟩
    refine settled_of_no_edits h.plan hdistinct linkable hat.faults hat.mem ?_
    rw [hat.path]
    exact h.filter_eq_nil hnames hother
  · obtain rfl : e.path = p := hpath.trans hat.path.symm
    rcases hkind with ⟨-, hname⟩ | ⟨hkind, -⟩
    · exact absurd hname hat.documentName.notManifest
    · obtain ⟨patched, hpatched, hrevise⟩ := h.revise_document he hkind hat
      obtain ⟨text', hpatched', settled⟩ := exists_settled h.plan hdistinct linkable hat.faults hat.mem
      rw [hpatched, Except.ok.injEq] at hpatched'
      rw [hat.path, FileTree.names_pathOf hnames, hrevised, Except.ok.injEq, hpatched'] at hrevise
      exact ⟨text', hrevise, settled⟩

/-- The manifest of a scanned directory is what the documents of the directory cite. -/
theorem manifest (h : Applied t t' config units s actions) {dir : Names} (hunit : units.get? dir ≠ none) :
    (manifestOf (t'.node? (dir ++ [Manifest.fileName]))).getD Table.empty =
      Table.ofList (s.citedIn (FileTree.pathOf dir)) := by
  have hnames := h.names_manifest hunit
  have hedits := h.filter_manifest hunit
  have hpatched : (manifestOf (t'.node? (dir ++ [Manifest.fileName]))).getD Table.empty =
      patchManifest ((manifestOf (t.node? (dir ++ [Manifest.fileName]))).getD Table.empty)
        (s.manifestEditsIn (FileTree.pathOf dir)) := by
    rcases h.node_cases dir _ with ⟨hother, hkept⟩ | ⟨e, he, hpath, hrevised, hkind⟩
    · rw [← hedits, h.filter_eq_nil hnames hother, hkept]
      rfl
    · rcases hkind with ⟨hkind, -⟩ | ⟨-, text, hat⟩
      · rw [FileEdits.manifestOf_revise hkind hrevised, (isGrouping_groupByFile actions).edits e he, hpath, hedits]
      · exact absurd rfl hat.documentName.notManifest
  rw [hpatched, s.manifestEditsIn_eq, h.scanned.get?_manifests h.wellFormed hunit]
  exact patchManifest_manifestActions _ _ _

end Applied

/-! ### The files of the second scan -/

/-- The record of a document as it reads in a tree. -/
def DocumentRecord.reread (t : FileTree) (d : DocumentRecord) : DocumentRecord :=
  match t.node? d.path.names with
  | some (.file (.text text)) => .ofParsed d.path (ParsedDocument.parse text)
  | _ => d

theorem DocumentRecord.path_reread (t : FileTree) (d : DocumentRecord) : (d.reread t).path = d.path := by
  unfold reread
  split <;> rfl

theorem DocumentRecord.reread_eq {t : FileTree} {names : Names} (hnames : ∀ name ∈ names, IsFileName name)
    {text : Text} (hnode : t.node? names = some (.file (.text text))) {d : DocumentRecord}
    (hpath : d.path = FileTree.pathOf names) :
    d.reread t = .ofParsed (FileTree.pathOf names) (ParsedDocument.parse text) := by
  rw [reread, hpath, FileTree.names_pathOf hnames, hnode]

/-- The record of a file as it reads in a tree. Tags are not read again. -/
def FileRecord.reread (t : FileTree) : FileRecord → FileRecord
  | document d => document (d.reread t)
  | source x => source x

theorem FileRecord.path_reread (t : FileTree) (record : FileRecord) : (record.reread t).path = record.path := by
  cases record with
  | document d => exact d.path_reread t
  | source x => rfl

/-- A file that is kept has the record that it had. -/
theorem map_reread_findingsAt {t t' : FileTree} (wellFormed : t.WellFormed) {config : Config} {units : Units}
    {dir : Names} {name : Text} (kept : t'.node? (dir ++ [name]) = t.node? (dir ++ [name])) :
    (findingsAt t config units dir name).files.map (FileRecord.reread t') =
      (findingsAt t config units dir name).files := by
  refine (List.map_congr_left fun record hrecord => ?_).trans (List.map_id _)
  cases record with
  | source x => rfl
  | document d =>
      rcases findingsAt_cases t config units dir name with hnone | ⟨repository, content, hunit, hnode, heq⟩
      · rw [hnone] at hrecord
        cases hrecord
      · rw [heq] at hrecord
        obtain ⟨-, text, rfl, -, rfl⟩ := document_of_mem_scanFile hrecord
        exact congrArg FileRecord.document
          (DocumentRecord.reread_eq (wellFormed.isFileName hnode) (kept.trans hnode) rfl)

/-- No record is made of a manifest. -/
theorem files_findingsAt_manifest (t : FileTree) (config : Config) (units : Units) (dir : Names) :
    (findingsAt t config units dir Manifest.fileName).files = [] := by
  rcases findingsAt_cases t config units dir Manifest.fileName with hnone | ⟨repository, content, -, -, heq⟩
  · rw [hnone]
    rfl
  · rw [heq]
    cases content with
    | binary bytes => rfl
    | text text => exact files_scanManifest _ text

/-- Nothing is wrong with a manifest that was written. -/
theorem errors_findingsAt_manifest {t : FileTree} {config : Config} {units : Units} {dir : Names}
    (written : t.node? (dir ++ [Manifest.fileName]) = none ∨
      ∃ m : Manifest, t.node? (dir ++ [Manifest.fileName]) = some (.file (.text m.render))) :
    (findingsAt t config units dir Manifest.fileName).errors = [] := by
  rcases findingsAt_cases t config units dir Manifest.fileName with hnone | ⟨repository, content, -, hnode, heq⟩
  · rw [hnone]
    rfl
  · rcases written with hmissing | ⟨m, hm⟩
    · rw [hmissing] at hnode
      cases hnode
    · rw [hnode] at hm
      cases hm
      rw [heq, scanFile_manifest, scanManifest, Manifest.parse_render]
      rfl

/-- Documents that a run has rewritten are not too large for another scan. -/
def DocumentsFit (t : FileTree) (config : Config) (actions : List Action) : Prop :=
  ∀ a ∈ actions, a.isManifestEdit = false → ∀ text, t.readText a.path = .ok text →
    Text.byteLength text ≤ config.maxFileSize

instance (t : FileTree) (config : Config) (actions : List Action) : Decidable (DocumentsFit t config actions) :=
  inferInstanceAs (Decidable (∀ a ∈ actions, a.isManifestEdit = false → ∀ text, t.readText a.path = .ok text →
    Text.byteLength text ≤ config.maxFileSize))

namespace Applied

variable {t t' : FileTree} {config : Config} {units : Units} {s s' : ScanResult} {actions : List Action}

theorem byteLength_le (h : Applied t t' config units s actions) (fits : DocumentsFit t' config actions)
    {e : FileEdits} (he : e ∈ groupByFile actions) (hkind : e.isManifest = false) {text : Text}
    (hnode : t'.node? e.path.names = some (.file (.text text))) :
    Text.byteLength text ≤ config.maxFileSize := by
  obtain ⟨a, ha, hpath⟩ := (isGrouping_groupByFile actions).named e he
  have hedit := (h.group_eq he ha (by rw [hpath]; exact Path.same_self _)).2
  refine fits a ha (hedit.symm.trans hkind) text ?_
  rw [hpath, FileTree.readText_of_hasPlace h.revised.wellFormed
    (h.revised.places e (h.hasPlace h.permitted he)), hnode]
  rfl

/-- In every place a scan finds after a run what it found before, with the document read again. -/
theorem files_findingsAt (h : Applied t t' config units s actions) (linkable : s.Linkable)
    (fits : DocumentsFit t' config actions) (dir : Names) (name : Text) :
    (findingsAt t' config units dir name).files =
        (findingsAt t config units dir name).files.map (FileRecord.reread t') ∧
      (findingsAt t' config units dir name).errors = [] := by
  rcases h.node_cases dir name with ⟨-, hkept⟩ | ⟨e, he, hpath, hrevised, ⟨hkind, rfl⟩ | ⟨hkind, text, hat⟩⟩
  · have hsame : findingsAt t' config units dir name = findingsAt t config units dir name := by
      rw [findingsAt, findingsAt, hkept]
    rw [hsame]
    exact ⟨(map_reread_findingsAt h.wellFormed hkept).symm, h.scanned.errors_findingsAt h.clean dir name⟩
  · rw [files_findingsAt_manifest, files_findingsAt_manifest]
    refine ⟨rfl, ?_⟩
    exact errors_findingsAt_manifest (FileEdits.revise_eq_manifest hkind hrevised)
  · obtain ⟨text', hnode, settled⟩ := h.document linkable hat
    have hfits : Text.byteLength text' ≤ config.maxFileSize := by
      refine h.byteLength_le fits he hkind ?_
      rw [hpath, FileTree.names_pathOf (h.wellFormed.isFileName hat.node), hnode]
    obtain ⟨repository, hunit⟩ := Option.ne_none_iff_exists'.mp hat.unit
    rw [findingsAt_eq hunit hnode, findingsAt_eq hunit hat.node, scanFile_document hat.documentName hfits,
      scanFile_document hat.documentName hat.fits]
    have hreread : (DocumentRecord.ofParsed (FileTree.pathOf (dir ++ [name])) (ParsedDocument.parse text)).reread t' =
        .ofParsed (FileTree.pathOf (dir ++ [name])) (ParsedDocument.parse text') :=
      DocumentRecord.reread_eq (h.wellFormed.isFileName hat.node) hnode rfl
    refine ⟨?_, ?_⟩
    · simp only [scanDocument, List.map_cons, List.map_nil, FileRecord.reread, hreread]
    · simp only [scanDocument, ParsedDocument.errors, settled.faults, List.map_nil]

theorem files_eq (h : Applied t t' config units s actions) (linkable : s.Linkable)
    (fits : DocumentsFit t' config actions) (again : Scanned t' config units s') :
    s'.files = s.files.map (FileRecord.reread t') := by
  refine eq_of_ascending (compareOn FileRecord.path) again.ascending ?_ fun record => ?_
  · refine List.pairwise_map.mpr (h.scanned.ascending.imp fun {a b} hlt => ?_)
    rw [compareOn, FileRecord.path_reread, FileRecord.path_reread]
    exact hlt
  · simp only [again.files, List.mem_map, h.scanned.files, (h.files_findingsAt linkable fits _ _).1]
    constructor
    · rintro ⟨dir, name, old, hold, rfl⟩
      exact ⟨old, ⟨dir, name, hold⟩, rfl⟩
    · rintro ⟨old, ⟨dir, name, hold⟩, rfl⟩
      exact ⟨dir, name, old, hold, rfl⟩

theorem documents_eq (h : Applied t t' config units s actions) (linkable : s.Linkable)
    (fits : DocumentsFit t' config actions) (again : Scanned t' config units s') :
    s'.documents = s.documents.map (DocumentRecord.reread t') := by
  rw [ScanResult.documents, h.files_eq linkable fits again, List.filterMap_map, ScanResult.documents,
    List.map_filterMap]
  refine List.filterMap_congr fun record _ => ?_
  cases record <;> rfl

theorem sources_eq (h : Applied t t' config units s actions) (linkable : s.Linkable)
    (fits : DocumentsFit t' config actions) (again : Scanned t' config units s') : s'.sources = s.sources := by
  rw [ScanResult.sources, h.files_eq linkable fits again, List.filterMap_map, ScanResult.sources]
  refine List.filterMap_congr fun record _ => ?_
  cases record <;> rfl

theorem errors_eq (h : Applied t t' config units s actions) (linkable : s.Linkable)
    (fits : DocumentsFit t' config actions) (again : Scanned t' config units s') : s'.errors = [] := by
  refine List.eq_nil_iff_forall_not_mem.mpr fun error herror => ?_
  obtain ⟨dir, name, hfound⟩ := (again.errors error).mp herror
  rw [(h.files_findingsAt linkable fits dir name).2] at hfound
  cases hfound

end Applied

end ReqTrace
