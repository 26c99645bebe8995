/-
Module: ReqTrace.Proofs.Run.Groups
Purpose: The edits that follow from a scan, file by file. Each group is for a document that was read, on whose
  text its edits can be carried out, or for the manifest of a scanned directory.
Main exports: trace_eq_ok_iff, Scanned.exists_document, Scanned.exists_manifest, Planned, Planned.group_cases
-/
import ReqTrace.Proofs.Apply
import ReqTrace.Proofs.Plan.Coverage
import ReqTrace.Proofs.Plan.Manifests
import ReqTrace.Proofs.Scan
import ReqTrace.Trace

namespace ReqTrace

/-- The stages of a run that reaches its edits. -/
theorem trace_eq_ok_iff {t : FileTree} {roots : List ScanRoot} {config : Config} {traced : Traced} :
    trace t roots config = .ok traced ↔ scan t roots config = .ok traced.scan ∧
      traced.scan.errors = [] ∧ plan traced.scan = .ok traced.actions := by
  unfold trace
  rw [bind_eq_ok_iff]
  constructor
  · rintro ⟨s, hs, hrest⟩
    rw [mapError_eq_ok_iff] at hs
    by_cases herrors : s.errors = []
    · rw [if_neg (not_not.mpr herrors)] at hrest
      obtain ⟨actions, hactions, hresult⟩ := bind_eq_ok_iff.mp hrest
      rw [mapError_eq_ok_iff] at hactions
      cases hresult
      exact ⟨hs, herrors, hactions⟩
    · rw [if_pos herrors] at hrest
      cases hrest
  · rintro ⟨hs, herrors, hplan⟩
    refine ⟨traced.scan, mapError_eq_ok_iff.mpr hs, ?_⟩
    rw [if_neg (not_not.mpr herrors)]
    exact bind_eq_ok_iff.mpr ⟨traced.actions, mapError_eq_ok_iff.mpr hplan, rfl⟩

/-! ### Documents and manifests of a scan -/

/-- The path of a document of a scanned directory, which was read from a text without faults. -/
structure DocumentAt (t : FileTree) (config : Config) (units : Units) (s : ScanResult) (p : Path) (dir : Names)
    (name text : Text) : Prop where
  path : p = FileTree.pathOf (dir ++ [name])
  unit : units.get? dir ≠ none
  documentName : IsDocumentName config name
  node : t.node? (dir ++ [name]) = some (.file (.text text))
  fits : Text.byteLength text ≤ config.maxFileSize
  faults : (ParsedDocument.parse text).faults = []
  mem : .ofParsed p (ParsedDocument.parse text) ∈ s.documents

/-- The path of the manifest of a scanned directory. -/
structure ManifestAt (units : Units) (p : Path) (dir : Names) : Prop where
  path : p = FileTree.pathOf (dir ++ [Manifest.fileName])
  unit : units.get? dir ≠ none

namespace Scanned

variable {t : FileTree} {config : Config} {units : Units} {s : ScanResult}

/-- A scan without errors finds nothing wrong in any place. -/
theorem errors_findingsAt (h : Scanned t config units s) (clean : s.errors = []) (dir : Names) (name : Text) :
    (findingsAt t config units dir name).errors = [] := by
  refine List.eq_nil_iff_forall_not_mem.mpr fun error herror => ?_
  have hmem := (h.errors error).mpr ⟨dir, name, herror⟩
  rw [clean] at hmem
  cases hmem

/-- A document was read from a text file of a scanned directory under a name of documents. -/
theorem exists_text (h : Scanned t config units s) {d : DocumentRecord} (hd : d ∈ s.documents) :
    ∃ dir name text, (units.get? dir ≠ none ∧ IsDocumentName config name ∧
        t.node? (dir ++ [name]) = some (.file (.text text)) ∧ Text.byteLength text ≤ config.maxFileSize ∧
        findingsAt t config units dir name = scanDocument (FileTree.pathOf (dir ++ [name])) text) ∧
      d = .ofParsed (FileTree.pathOf (dir ++ [name])) (ParsedDocument.parse text) := by
  obtain ⟨record, hrecord, hsome⟩ := List.mem_filterMap.mp hd
  cases record with
  | source x => cases hsome
  | document d' =>
      cases hsome
      obtain ⟨dir, name, hfound⟩ := (h.files _).mp hrecord
      rcases findingsAt_cases t config units dir name with hnone | ⟨repository, content, hunit, hnode, heq⟩
      · rw [hnone] at hfound
        cases hfound
      · rw [heq] at hfound
        obtain ⟨hname, text, rfl, hfits, rfl⟩ := document_of_mem_scanFile hfound
        rw [scanFile_document hname hfits] at heq
        exact ⟨dir, name, text, ⟨by simp [hunit], hname, hnode, hfits, heq⟩, rfl⟩

/-- A document of a scan without errors was read from such a file, whose text is without faults. -/
theorem exists_document (h : Scanned t config units s) (clean : s.errors = []) {d : DocumentRecord}
    (hd : d ∈ s.documents) : ∃ dir name text, DocumentAt t config units s d.path dir name text ∧
      d = .ofParsed d.path (ParsedDocument.parse text) := by
  have hmem := hd
  obtain ⟨dir, name, text, ⟨hunit, hname, hnode, hfits, hfound⟩, rfl⟩ := h.exists_text hd
  have herrors := h.errors_findingsAt clean dir name
  have hfaults : (ParsedDocument.parse text).faults = [] := by
    simpa [hfound, scanDocument, ParsedDocument.errors] using herrors
  exact ⟨dir, name, text, ⟨rfl, hunit, hname, hnode, hfits, hfaults, hmem⟩, rfl⟩

/-- The manifest file of a scanned directory, if it holds a text, holds a manifest that is known. -/
theorem exists_manifest (h : Scanned t config units s) (clean : s.errors = []) {dir : Names}
    (hunit : units.get? dir ≠ none) {text : Text}
    (hnode : t.node? (dir ++ [Manifest.fileName]) = some (.file (.text text))) :
    ∃ m, Manifest.parse text = .ok m ∧ s.manifests.get? (FileTree.pathOf dir) = some m := by
  obtain ⟨repository, hunit⟩ := Option.ne_none_iff_exists'.mp hunit
  have hfound := @findingsAt_eq t config units dir Manifest.fileName repository _ hunit hnode
  rw [scanFile_manifest, scanManifest] at hfound
  cases hparse : Manifest.parse text with
  | ok m =>
      rw [hparse] at hfound
      refine ⟨m, rfl, (h.manifests _ _).mpr ⟨dir, Path.same_self _, ?_⟩⟩
      rw [hfound]
  | error error =>
      rw [hparse] at hfound
      have herrors := h.errors_findingsAt clean dir Manifest.fileName
      rw [hfound] at herrors
      cases herrors

/-- Documents come in the order of their paths. -/
theorem ascending_documents (h : Scanned t config units s) :
    s.documents.Pairwise fun a b => compare a.path b.path = .lt := by
  have hpath : ∀ {record d}, FileRecord.document? record = some d → record.path = d.path := by
    intro record d hd
    cases record with
    | document => cases hd; rfl
    | source => cases hd
  refine List.pairwise_filterMap.mpr (h.ascending.imp fun {a b} hlt d hd d' hd' => ?_)
  rwa [← hpath hd, ← hpath hd']

/-- The paths of two documents differ. -/
theorem distinct_documents (h : Scanned t config units s) :
    s.documents.Pairwise fun a b => a.path.same b.path = false :=
  h.ascending_documents.imp fun {a b} hlt => by
    rw [← Bool.not_eq_true, ← Path.compare_eq_iff, hlt]
    simp

/-- Manifests are edited in scanned directories only. -/
theorem exists_of_mem_manifestDirectories (h : Scanned t config units s) (wellFormed : t.WellFormed)
    (clean : s.errors = []) {directory : Path} (hmem : directory ∈ manifestDirectories s) :
    ∃ dir, directory = FileTree.pathOf dir ∧ units.get? dir ≠ none := by
  rcases List.mem_append.mp (mem_of_mem_manifestDirectories hmem) with hdocument | hkey
  · obtain ⟨d, hd, hparent⟩ := List.mem_filterMap.mp hdocument
    obtain ⟨dir, name, text, hat, -⟩ := h.exists_document clean hd
    have hnames := wellFormed.isFileName hat.node
    rw [hat.path, FileTree.parent?_pathOf (fun other hother => hnames other (List.mem_append_left _ hother))
      (hnames name (by simp))] at hparent
    exact ⟨dir, (Option.some.inj hparent).symm, hat.unit⟩
  · exact h.directories _ hkey

end Scanned

/-! ### Edits of a run -/

/-- A run that has reached its edits: what was scanned, without errors, and the plan that follows. -/
structure Planned (t : FileTree) (config : Config) (units : Units) (s : ScanResult) (actions : List Action) :
    Prop where
  wellFormed : t.WellFormed
  scanned : Scanned t config units s
  clean : s.errors = []
  plan : plan s = .ok actions

theorem exists_planned {t : FileTree} {roots : List ScanRoot} {config : Config} {traced : Traced}
    (h : trace t roots config = .ok traced) (wellFormed : t.WellFormed) :
    ∃ units, Units.ofRoots t roots = .ok units ∧ Planned t config units traced.scan traced.actions := by
  obtain ⟨hscan, hclean, hplan⟩ := trace_eq_ok_iff.mp h
  obtain ⟨units, hunits, hscanned⟩ := exists_scanned hscan wellFormed
  exact ⟨units, hunits, wellFormed, hscanned, hclean, hplan⟩

namespace Planned

variable {t : FileTree} {config : Config} {units : Units} {s : ScanResult} {actions : List Action}

/-- The names of the manifest of a directory. -/
theorem names_manifest (h : Planned t config units s actions) {dir : Names} (hunit : units.get? dir ≠ none) :
    ∀ name ∈ dir ++ [Manifest.fileName], IsFileName name := by
  intro name hname
  rcases List.mem_append.mp hname with hname | hname
  · exact h.wellFormed.isFileName (h.scanned.isDirectory hunit) name hname
  · rw [List.mem_singleton.mp hname]
    exact isFileName_manifest

/-- An edit of a plan is for a document or for a manifest. -/
theorem action_cases (h : Planned t config units s actions) {a : Action} (ha : a ∈ actions) :
    (a.isManifestEdit = false ∧ ∃ dir name text, DocumentAt t config units s a.path dir name text) ∨
    (a.isManifestEdit = true ∧ ∃ dir, ManifestAt units a.path dir) := by
  rcases mem_plan_cases h.plan ha with ⟨hkind, d, hd, -, -, -, hpath⟩ | ⟨hkind, directory, hdirectory, -, hpath⟩
  · obtain ⟨dir, name, text, hat, -⟩ := h.scanned.exists_document h.clean hd
    rw [← hpath] at hat
    exact .inl ⟨hkind, dir, name, text, hat⟩
  · obtain ⟨dir, rfl, hunit⟩ :=
      h.scanned.exists_of_mem_manifestDirectories h.wellFormed h.clean hdirectory
    exact .inr ⟨hkind, dir, hpath.trans (FileTree.join_pathOf
      (h.wellFormed.isFileName (h.scanned.isDirectory hunit)) isFileName_manifest.noSlash), hunit⟩

/-- No document of a run has the name of a manifest. -/
theorem fileName?_ne (h : Planned t config units s actions) :
    ∀ d ∈ s.documents, d.path.fileName? ≠ some Manifest.fileName := by
  intro d hd
  obtain ⟨dir, name, text, hat, -⟩ := h.scanned.exists_document h.clean hd
  have hnames := h.wellFormed.isFileName hat.node
  have hname : IsFileName name := hnames name (by simp)
  rw [hat.path, ← FileTree.join_pathOf (fun other hother => hnames other (List.mem_append_left _ hother))
    hname.noSlash, Path.fileName?_join _ hname, ne_eq, Option.some.injEq]
  exact hat.documentName.notManifest

/-- Where an edit is made: in a scanned directory. -/
theorem exists_place (h : Planned t config units s actions) {a : Action} (ha : a ∈ actions) :
    ∃ dir name, a.path = FileTree.pathOf (dir ++ [name]) ∧ units.get? dir ≠ none ∧
      ∀ other ∈ dir ++ [name], IsFileName other := by
  rcases h.action_cases ha with ⟨-, dir, name, text, hat⟩ | ⟨-, dir, hat⟩
  · exact ⟨dir, name, hat.path, hat.unit, h.wellFormed.isFileName hat.node⟩
  · exact ⟨dir, _, hat.path, hat.unit, h.names_manifest hat.unit⟩

/-- Edits of the same file name it alike. -/
theorem eq_of_same (h : Planned t config units s actions) {a b : Action} (ha : a ∈ actions) (hb : b ∈ actions)
    (hsame : a.path.same b.path = true) : a.path = b.path := by
  obtain ⟨dir, name, hpath, -, hnames⟩ := h.exists_place ha
  obtain ⟨dir', name', hpath', -, hnames'⟩ := h.exists_place hb
  rw [hpath, hpath', FileTree.same_pathOf_iff hnames hnames'] at hsame
  rw [hpath, hpath', hsame]

/-- A group has the path and the kind of all its edits. -/
theorem group_eq (h : Planned t config units s actions) {e : FileEdits} (he : e ∈ groupByFile actions)
    {a : Action} (ha : a ∈ actions) (hsame : e.path.same a.path = true) :
    e.path = a.path ∧ e.isManifest = a.isManifestEdit := by
  have hgroups := isGrouping_groupByFile actions
  obtain ⟨b, hb, hpath⟩ := hgroups.named e he
  constructor
  · rw [← hpath] at hsame ⊢
    exact h.eq_of_same hb ha hsame
  · rw [Path.same_comm] at hsame
    exact (isManifestEdit_of_mem_group h.plan h.fileName?_ne he ((hgroups.mem_actions_iff he).mpr ⟨ha, hsame⟩)).symm

/-- A group is for a document or for a manifest. -/
theorem group_cases (h : Planned t config units s actions) {e : FileEdits} (he : e ∈ groupByFile actions) :
    (e.isManifest = false ∧ ∃ dir name text, DocumentAt t config units s e.path dir name text) ∨
    (e.isManifest = true ∧ ∃ dir, ManifestAt units e.path dir) := by
  obtain ⟨a, ha, hpath⟩ := (isGrouping_groupByFile actions).named e he
  obtain ⟨heq, hkind⟩ := h.group_eq he ha (by rw [hpath]; exact Path.same_self _)
  rw [heq, hkind]
  exact h.action_cases ha

/-- A group is known by the names that its path leads to. -/
theorem path_of_mem_group (h : Planned t config units s actions) {e : FileEdits}
    (he : e ∈ groupByFile actions) : e.path = FileTree.pathOf e.path.names := by
  obtain ⟨a, ha, hpath⟩ := (isGrouping_groupByFile actions).named e he
  obtain ⟨dir, name, hplace, -, hnames⟩ := h.exists_place ha
  rw [← hpath, hplace, FileTree.names_pathOf hnames]

/-- There are no edits for a file without a group. -/
theorem filter_eq_nil (h : Planned t config units s actions) {names : Names}
    (hnames : ∀ name ∈ names, IsFileName name) (none : ∀ e ∈ groupByFile actions, e.path.names ≠ names) :
    actions.filter (·.path.same (FileTree.pathOf names)) = [] := by
  refine List.filter_eq_nil_iff.mpr fun a ha hsame => ?_
  obtain ⟨e, he, hgroup⟩ := (isGrouping_groupByFile actions).all a ha
  obtain ⟨dir, name, hplace, -, hnames'⟩ := h.exists_place ha
  rw [hplace, FileTree.same_pathOf_iff hnames' hnames] at hsame
  refine none e he ?_
  rw [(h.group_eq he ha hgroup).1, hplace, hsame]
  exact FileTree.names_pathOf hnames

/-- The text of a document takes its edits. -/
theorem revise_document (h : Planned t config units s actions) {e : FileEdits} (he : e ∈ groupByFile actions)
    (hkind : e.isManifest = false) {dir : Names} {name text : Text}
    (hat : DocumentAt t config units s e.path dir name text) :
    ∃ patched, patchDocument e.path text (actions.filter (·.path.same e.path)) = .ok patched ∧
      e.revise (t.node? e.path.names) = .ok (some (.file (.text patched))) := by
  obtain ⟨patched, hpatched⟩ :=
    exists_patchDocument_eq_ok h.plan h.scanned.distinct_documents hat.faults hat.mem
  have hnames : e.path.names = dir ++ [name] := by
    rw [hat.path]
    exact FileTree.names_pathOf (h.wellFormed.isFileName hat.node)
  refine ⟨patched, hpatched, (FileEdits.revise_document_eq_ok_iff hkind).mpr ⟨text, patched, ?_, ?_, rfl⟩⟩
  · rw [hnames, hat.node]
    rfl
  · rw [(isGrouping_groupByFile actions).edits e he]
    exact hpatched

/-- The edits of a manifest can be carried out if it is missing or a text, and then only. -/
theorem revise_manifest (h : Planned t config units s actions) {e : FileEdits} (hkind : e.isManifest = true)
    {dir : Names} (hat : ManifestAt units e.path dir) :
    (∃ node, e.revise (t.node? e.path.names) = .ok node ∧
      (FileTree.textOf (t.node? e.path.names) = .error .notFound ∨
        ∃ text, FileTree.textOf (t.node? e.path.names) = .ok text)) ∨
    ∃ cause, (cause = .notText ∨ cause = .isDirectory) ∧
      FileTree.textOf (t.node? e.path.names) = .error cause ∧
      e.revise (t.node? e.path.names) = .error (.manifestFile e.path cause) := by
  have hnames : e.path.names = dir ++ [Manifest.fileName] := by
    rw [hat.path]
    exact FileTree.names_pathOf (h.names_manifest hat.unit)
  rcases FileTree.textOf_cases (t.node? e.path.names) with hnone | ⟨text, htext⟩ | ⟨cause, hcause, herror⟩
  · have hread := FileTree.textOf_eq_notFound_iff.mpr hnone
    have hm : e.manifestIn (t.node? e.path.names) = .ok Table.empty :=
      FileEdits.manifestIn_eq_ok_iff.mpr (.inl ⟨hread, rfl⟩)
    exact .inl ⟨_, (FileEdits.revise_manifest_eq_ok_iff hkind).mpr ⟨_, hm, rfl⟩, .inl hread⟩
  · obtain ⟨m, hparse, -⟩ := h.scanned.exists_manifest h.clean hat.unit (hnames ▸ htext)
    have hread := FileTree.textOf_eq_ok_iff.mpr htext
    have hm : e.manifestIn (t.node? e.path.names) = .ok m :=
      FileEdits.manifestIn_eq_ok_iff.mpr (.inr ⟨text, hread, hparse⟩)
    exact .inl ⟨_, (FileEdits.revise_manifest_eq_ok_iff hkind).mpr ⟨m, hm, rfl⟩, .inr ⟨text, hread⟩⟩
  · refine .inr ⟨cause, hcause, herror, ?_⟩
    rw [FileEdits.revise, if_pos hkind, FileEdits.manifestIn, herror]
    rcases hcause with rfl | rfl <;> rfl

end Planned

end ReqTrace
