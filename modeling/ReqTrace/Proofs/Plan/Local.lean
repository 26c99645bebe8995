/-
Module: ReqTrace.Proofs.Plan.Local
Purpose: A plan is local. What it does to a document depends on the record of that document and on the tags of
  its requirements, and what it does to the manifest of a directory on the documents of that directory, the tags
  of their requirements and the manifest that was found. All else may differ between two scans.
Main exports: ScanResult.tagsOf, SameTags, map_evidenceFor_congr, Declaration.actions_congr, plan_local
-/
import ReqTrace.Proofs.Plan.Reordered

namespace ReqTrace

/-! ### Tags of one requirement -/

/-- The tags of one source file that name a requirement, in the order of the file. -/
def ScanResult.tagsOf (s : ScanResult) (id : RequirementId) (file : Path) : List Evidence :=
  ((allEvidence s.sources).filter (·.tag.requirement == id)).filter (·.source.path.same file)

namespace Evidence

/-- Where a tag stands, and some detail of it. -/
def view {α : Type} (detail : Evidence → α) (e : Evidence) : Path × Nat × α :=
  (e.source.path, e.tag.line, detail e)

/-- What a footnote says about a tag besides its place: the type of coverage, and the address and relative path
    of the file. -/
def linkDetail (e : Evidence) : Text × Option Text × Option Text :=
  (e.tag.type, e.source.url, e.source.relative)

/-- What a manifest records for a tag: the address and the hash of the file. -/
def hashDetail (e : Evidence) : Option Text × Option Text :=
  (e.source.url, e.source.hash)

end Evidence

/-- Two scans found the same tags for a requirement, as far as some detail of them tells: in every source file the
    same ones on the same lines, in the same order. -/
def SameTags {α : Type} (detail : Evidence → α) (s s' : ScanResult) (id : RequirementId) : Prop :=
  ∀ file, (s.tagsOf id file).map (Evidence.view detail) = (s'.tagsOf id file).map (Evidence.view detail)

/-- The order of tags by their places. -/
def compareViews {α : Type} : Path × Nat × α → Path × Nat × α → Ordering :=
  compareLex (compareOn (·.1)) (compareOn (·.2.1))

instance {α : Type} : Std.TransCmp (compareViews (α := α)) :=
  inferInstanceAs (Std.TransCmp (compareLex (compareOn fun v : Path × Nat × α => v.1)
    (compareOn fun v : Path × Nat × α => v.2.1)))

section
variable {α : Type} {detail : Evidence → α}

/-- Tags of one rank are those of one file on one line. -/
theorem filter_map_view (s : ScanResult) (id : RequirementId) (v : Path × Nat × α) :
    (((allEvidence s.sources).filter (·.tag.requirement == id)).map (Evidence.view detail)).filter
        (compareViews v · == .eq) =
      ((s.tagsOf id v.1).map (Evidence.view detail)).filter (compare v.2.1 ·.2.1 == .eq) := by
  have hrank : ∀ e : Evidence, (compareViews v (Evidence.view detail e) == .eq) =
      (compare v.2.1 e.tag.line == .eq && e.source.path.same v.1) := by
    intro e
    rw [Bool.eq_iff_iff, Bool.and_eq_true, beq_iff_eq, beq_iff_eq, Path.same_comm, ← Path.compare_eq_iff,
      and_comm]
    exact compareLex_eq_eq
  simp only [ScanResult.tagsOf, List.filter_map, List.filter_filter]
  refine congrArg (List.map _) (List.filter_congr fun e _ => ?_)
  rw [Function.comp_apply, hrank, Bool.and_assoc]
  rfl

/-- The tags of a requirement come in the same order in two scans that found the same ones. -/
theorem map_evidenceFor_congr {s s' : ScanResult} {id : RequirementId} (h : SameTags detail s s' id) :
    (evidenceFor s.sources id).map (Evidence.view detail) =
      (evidenceFor s'.sources id).map (Evidence.view detail) := by
  have hsorted : ∀ l : List Evidence,
      (l.mergeSort fun a b => (Evidence.compare a b).isLE).map (Evidence.view detail) =
        (l.map (Evidence.view detail)).mergeSort fun a b => (compareViews a b).isLE :=
    fun l => List.map_mergeSort fun _ _ _ _ => rfl
  rw [evidenceFor, evidenceFor, hsorted, hsorted]
  apply mergeSort_congr compareViews
  intro v
  rw [filter_map_view, filter_map_view, h v.1]

end

/-- The links to the tags are told by their places and their details. -/
theorem map_coverer_congr {s s' : ScanResult} {id : RequirementId}
    (h : SameTags Evidence.linkDetail s s' id) :
    (evidenceFor s.sources id).map Evidence.coverer = (evidenceFor s'.sources id).map Evidence.coverer := by
  let link (v : Path × Nat × Text × Option Text × Option Text) : Coverer :=
    { label := (v.2.2.2.2.getD v.1.text) ++ ':' :: Text.decimal v.2.1 ++ ':' :: v.2.2.1
      url := lineUrl (v.2.2.2.1.getD []) v.2.1 }
  have hlink : ∀ l : List Evidence,
      l.map Evidence.coverer = (l.map (Evidence.view Evidence.linkDetail)).map link := by
    intro l
    rw [List.map_map]
    rfl
  rw [hlink, hlink, map_evidenceFor_congr h]

/-- What is cited is told by the details of the tags. -/
theorem filterMap_citation?_congr {s s' : ScanResult} {id : RequirementId}
    (h : SameTags Evidence.hashDetail s s' id) :
    (evidenceFor s.sources id).filterMap Evidence.citation? =
      (evidenceFor s'.sources id).filterMap Evidence.citation? := by
  let cited (v : Path × Nat × Option Text × Option Text) : Option (Text × Text) := do
    return (← v.2.2.1, ← v.2.2.2)
  have hcited : ∀ l : List Evidence,
      l.filterMap Evidence.citation? = (l.map (Evidence.view Evidence.hashDetail)).filterMap cited := by
    intro l
    rw [List.filterMap_map]
    rfl
  rw [hcited, hcited, map_evidenceFor_congr h]

/-! ### Edits of one document -/

/-- The edits for a declaration depend on the links to its tags only. -/
theorem Declaration.actions_congr {d : Declaration} {evidence evidence' : List Evidence}
    (h : evidence.map Evidence.coverer = evidence'.map Evidence.coverer) :
    d.actions evidence = d.actions evidence' := by
  have hnone : evidence = [] ↔ evidence' = [] := by
    rw [← List.map_eq_nil_iff (f := Evidence.coverer), h, List.map_eq_nil_iff]
  have hdesired : desiredStatus? d.site evidence = desiredStatus? d.site evidence' := by
    unfold desiredStatus?
    simp only [ne_eq, hnone]
  have htext : d.footnoteText evidence = d.footnoteText evidence' := by
    unfold footnoteText
    rw [h]
  unfold actions footnoteActions
  rw [hdesired, htext]

namespace ScanResult

variable {s s' : ScanResult}

theorem filter_documentEdits_congr (fine : (Index.ofDocuments s.documents).errors = [])
    (fine' : (Index.ofDocuments s'.documents).errors = [])
    (distinct : s.documents.Pairwise fun a b => a.path.same b.path = false)
    (distinct' : s'.documents.Pairwise fun a b => a.path.same b.path = false) {d : DocumentRecord}
    (hd : d ∈ s.documents) (hd' : d ∈ s'.documents)
    (tags : ∀ x ∈ d.declarations, SameTags Evidence.linkDetail s s' x.id) :
    s.documentEdits.filter (·.path.same d.path) = s'.documentEdits.filter (·.path.same d.path) := by
  have honly : ∀ other : DocumentRecord, other.path.same d.path = true →
      (other ∈ s.documents ↔ other ∈ s'.documents) := by
    intro other hsame
    constructor
    · intro h
      rwa [Path.eq_of_same distinct h hd hsame]
    · intro h
      rwa [Path.eq_of_same distinct' h hd' hsame]
  have horigin : ∀ s : ScanResult, s.documentEdits.filter (·.path.same d.path) =
      (s.declared.filter (·.document.path.same d.path)).flatMap
        fun x => x.actions (evidenceFor s.sources x.id) := fun s =>
    filter_flatMap_of_origin fun x _ a ha => by rw [(Declaration.path_of_mem_actions ha).1]
  rw [horigin, horigin, ← filter_declared_congr fine fine' honly]
  apply List.flatMap_congr
  intro x hx
  obtain ⟨hx, hsame⟩ := List.mem_filter.mp hx
  obtain ⟨other, hother, hdeclaration⟩ := (mem_declared_iff fine).mp hx
  rw [DocumentRecord.document_of_mem_declarations hdeclaration] at hsame
  obtain rfl := Path.eq_of_same distinct hother hd hsame
  exact Declaration.actions_congr (map_coverer_congr (tags x hdeclaration))

/-! ### Edits of one manifest -/

theorem citedIn_eq_flatMap_filter (s : ScanResult) (directory : Path) :
    s.citedIn directory = (s.declared.filter (·.document.isIn directory)).flatMap fun x =>
      (evidenceFor s.sources x.id).filterMap Evidence.citation? := by
  rw [citedIn]
  induction s.declared with
  | nil => rfl
  | cons x declared ih =>
      rw [List.flatMap_cons, ih, List.filter_cons, Declaration.citedIn]
      split
      · rw [List.flatMap_cons]
      · rw [List.nil_append]

theorem citedIn_congr_tags (fine : (Index.ofDocuments s.documents).errors = [])
    (fine' : (Index.ofDocuments s'.documents).errors = []) {directory : Path}
    (documents : ∀ d : DocumentRecord, d.isIn directory = true → (d ∈ s.documents ↔ d ∈ s'.documents))
    (tags : ∀ d ∈ s.documents, d.isIn directory = true →
      ∀ x ∈ d.declarations, SameTags Evidence.hashDetail s s' x.id) :
    s.citedIn directory = s'.citedIn directory := by
  rw [citedIn_eq_flatMap_filter, citedIn_eq_flatMap_filter, ← filter_declared_congr fine fine' documents]
  apply List.flatMap_congr
  intro x hx
  obtain ⟨hx, hin⟩ := List.mem_filter.mp hx
  obtain ⟨d, hd, hdeclaration⟩ := (mem_declared_iff fine).mp hx
  rw [DocumentRecord.document_of_mem_declarations hdeclaration] at hin
  exact filterMap_citation?_congr (tags d hd hin x hdeclaration)

end ScanResult

/-! ### Plans -/

/-- The edits of documents among those of a plan. -/
theorem filter_not_isManifestEdit {s : ScanResult} {actions : List Action} (plan : plan s = .ok actions)
    (path : Path) : actions.filter (fun a => !a.isManifestEdit && a.path.same path) =
      s.documentEdits.filter (·.path.same path) := by
  have hnone : s.manifestEdits.filter (fun a => !a.isManifestEdit && a.path.same path) = [] :=
    List.filter_eq_nil_iff.mpr fun a ha => by simp [s.isManifestEdit_of_mem ha]
  rw [(plan_eq_ok_iff.mp plan).2, List.filter_append, hnone, List.append_nil]
  exact List.filter_congr fun a ha => by simp [ScanResult.not_isManifestEdit_of_mem ha]

/-- The edits of manifests among those of a plan. -/
theorem filter_isManifestEdit {s : ScanResult} {actions : List Action} (plan : plan s = .ok actions)
    (path : Path) : actions.filter (fun a => a.isManifestEdit && a.path.same path) =
      s.manifestEdits.filter (·.path.same path) := by
  have hnone : s.documentEdits.filter (fun a => a.isManifestEdit && a.path.same path) = [] :=
    List.filter_eq_nil_iff.mpr fun a ha => by simp [ScanResult.not_isManifestEdit_of_mem ha]
  rw [(plan_eq_ok_iff.mp plan).2, List.filter_append, hnone, List.nil_append]
  exact List.filter_congr fun a ha => by simp [s.isManifestEdit_of_mem ha]

/-- The plans for two scans agree on a document that has the same record in both, if both found the same tags for
    its requirements: its edits are the same, and unless it has the name of a manifest no other edits have its
    path. They agree on the manifest of a directory that has the same documents and the same manifest in both, if
    both found the same tags for the requirements of these documents. -/
theorem plan_local {s s' : ScanResult} {actions actions' : List Action} (plan : plan s = .ok actions)
    (plan' : ReqTrace.plan s' = .ok actions')
    (distinct : s.documents.Pairwise fun a b => a.path.same b.path = false)
    (distinct' : s'.documents.Pairwise fun a b => a.path.same b.path = false) :
    (∀ d ∈ s.documents, d ∈ s'.documents →
      (∀ x ∈ d.declarations, SameTags Evidence.linkDetail s s' x.id) →
        actions.filter (fun a => !a.isManifestEdit && a.path.same d.path) =
          actions'.filter (fun a => !a.isManifestEdit && a.path.same d.path) ∧
        (d.path.fileName? ≠ some Manifest.fileName →
          actions.filter (·.path.same d.path) = actions'.filter (·.path.same d.path))) ∧
    ∀ directory : Path,
      (∀ d : DocumentRecord, d.isIn directory = true → (d ∈ s.documents ↔ d ∈ s'.documents)) →
      s.manifests.get? directory = s'.manifests.get? directory →
      (∀ d ∈ s.documents, d.isIn directory = true →
        ∀ x ∈ d.declarations, SameTags Evidence.hashDetail s s' x.id) →
      List.Forall₂ Action.Same
        (actions.filter fun a => a.isManifestEdit && a.path.same (directory.join ⟨Manifest.fileName⟩))
        (actions'.filter fun a => a.isManifestEdit && a.path.same (directory.join ⟨Manifest.fileName⟩)) := by
  have fine := (plan_eq_ok_iff.mp plan).1
  have fine' := (plan_eq_ok_iff.mp plan').1
  constructor
  · intro d hd hd' tags
    have hedits : actions.filter (fun a => !a.isManifestEdit && a.path.same d.path) =
        actions'.filter (fun a => !a.isManifestEdit && a.path.same d.path) := by
      rw [filter_not_isManifestEdit plan, filter_not_isManifestEdit plan']
      exact ScanResult.filter_documentEdits_congr fine fine' distinct distinct' hd hd' tags
    refine ⟨hedits, fun hname => ?_⟩
    have hplain : ∀ {s : ScanResult} {actions : List Action}, ReqTrace.plan s = .ok actions →
        actions.filter (·.path.same d.path) =
          actions.filter (fun a => !a.isManifestEdit && a.path.same d.path) := by
      intro s actions plan
      refine List.filter_congr fun a ha => ?_
      cases hkind : a.isManifestEdit with
      | false => rfl
      | true =>
          -- An edit of a manifest has the name of a manifest.
          obtain ⟨directory, -, hpath⟩ := exists_manifestDirectory plan ha hkind
          rw [Bool.not_true, Bool.false_and, Bool.eq_false_iff, hpath]
          intro hsame
          rw [← Path.fileName?_congr hsame, Path.fileName?_join directory isFileName_manifest] at hname
          exact hname rfl
    rw [hplain plan, hplain plan', hedits]
  · intro directory documents manifest tags
    obtain ⟨file, hfile, hedits⟩ := ScanResult.exists_filter_manifestEdits fine directory
    obtain ⟨file', hfile', hedits'⟩ := ScanResult.exists_filter_manifestEdits fine' directory
    rw [filter_isManifestEdit plan, filter_isManifestEdit plan', hedits, hedits', manifest,
      ScanResult.citedIn_congr_tags fine fine' documents tags]
    apply same_manifestActions
    rw [Path.same_congr_right hfile']
    exact hfile

/-- Another document, tags for requirements that nobody declares and a manifest in another directory change
    nothing for a document and the manifest beside it. -/
theorem plan_local_elsewhere :
    let p : Identifier := ⟨['p'], by decide⟩
    let a : RequirementId := ⟨p, ⟨['A'], by decide⟩⟩
    let b : RequirementId := ⟨p, ⟨['B'], by decide⟩⟩
    let d : DocumentRecord := ⟨⟨"d/a.md".toList⟩, some p, [Site.placed 4 0 a.name .bare], []⟩
    let source (path : Text) (id : RequirementId) : FileRecord :=
      .source ⟨⟨path⟩, [⟨id, "impl".toList, 1⟩], some ['h'], some ['u'], none⟩
    let s : ScanResult := ⟨[.document d, source "x.go".toList a], Table.empty, []⟩
    let s' : ScanResult :=
      ⟨[source "y.go".toList b, source "x.go".toList a, .document ⟨⟨"e/b.md".toList⟩, none, [], []⟩, .document d],
        Table.ofList [(⟨['e']⟩, Table.ofList [(['u'], ['h'])])], []⟩
    let file : Path := ⟨"d/reqmdfiles.json".toList⟩
    ∃ actions actions', plan s = .ok actions ∧ plan s' = .ok actions' ∧
      actions.length = 3 ∧ actions'.length = 4 ∧
      actions.filter (·.path.same d.path) = actions'.filter (·.path.same d.path) ∧
      List.Forall₂ Action.Same (actions.filter fun e => e.isManifestEdit && e.path.same file)
        (actions'.filter fun e => e.isManifestEdit && e.path.same file) := by
  intro p a b d source s s' file
  have hplan : plan s = .ok (s.documentEdits ++ s.manifestEdits) :=
    plan_eq_ok_iff.mpr ⟨by decide +kernel, rfl⟩
  have hplan' : plan s' = .ok (s'.documentEdits ++ s'.manifestEdits) :=
    plan_eq_ok_iff.mpr ⟨by decide +kernel, rfl⟩
  -- The tags of the requirement are those of one file, which both scans have found.
  have htags : (allEvidence s.sources).filter (·.tag.requirement == a) =
      (allEvidence s'.sources).filter (·.tag.requirement == a) := by decide +kernel
  have hsame : ∀ {α : Type} (detail : Evidence → α), ∀ y ∈ d.declarations, SameTags detail s s' y.id := by
    intro α detail y hy file
    obtain rfl : y = ⟨a, d, Site.placed 4 0 a.name .bare⟩ := List.mem_singleton.mp hy
    rw [ScanResult.tagsOf, ScanResult.tagsOf, htags]
  have hdocuments : s.documents = [d] := rfl
  have hdocuments' : s'.documents = [⟨⟨"e/b.md".toList⟩, none, [], []⟩, d] := rfl
  obtain ⟨hdocument, hmanifest⟩ := plan_local hplan hplan' (by decide) (by decide)
  refine ⟨_, _, hplan, hplan', by decide +kernel, by decide +kernel, ?_, ?_⟩
  · exact (hdocument d (by decide) (by decide) (hsame _)).2 (by decide)
  · refine hmanifest ⟨['d']⟩ (fun other hin => ?_) (by decide +kernel) fun other hother _ => ?_
    · rw [hdocuments, hdocuments', List.mem_singleton, List.mem_cons, List.mem_singleton]
      refine ⟨.inr, fun h => h.resolve_left ?_⟩
      rintro rfl
      exact absurd hin (by decide)
    · rw [hdocuments, List.mem_singleton] at hother
      subst hother
      exact hsame _

/-- A document with the name of a manifest has the path of the edits of the manifest in its directory, and these
    come from other documents. -/
theorem plan_of_document_named_manifest :
    let p : Identifier := ⟨['p'], by decide⟩
    let id : RequirementId := ⟨p, ⟨['A'], by decide⟩⟩
    let d : DocumentRecord := ⟨⟨"/docs/reqmdfiles.json".toList⟩, none, [], []⟩
    let b : DocumentRecord := ⟨⟨"/docs/b.md".toList⟩, some p, [Site.placed 4 0 id.name .bare], []⟩
    let x : SourceRecord :=
      ⟨⟨"/src/x.go".toList⟩, [⟨id, "impl".toList, 1⟩], some ['h'], some "https://h/x.go".toList,
        some "x.go".toList⟩
    let s : ScanResult := ⟨[.document d], Table.empty, []⟩
    let s' : ScanResult := ⟨[.document d, .document b, .source x], Table.empty, []⟩
    s.files.Pairwise (fun f g => f.path.same g.path = false) ∧
      s'.files.Pairwise (fun f g => f.path.same g.path = false) ∧
      d ∈ s.documents ∧ d ∈ s'.documents ∧
      (∀ y ∈ d.declarations, SameTags Evidence.linkDetail s s' y.id) ∧
      ∃ actions actions', plan s = .ok actions ∧ plan s' = .ok actions' ∧
        actions.filter (·.path.same d.path) ≠ actions'.filter (·.path.same d.path) := by
  intro p id d b x s s'
  refine ⟨by decide, by decide, by decide, by decide, fun y hy => absurd hy List.not_mem_nil, ?_⟩
  have hplan : plan s = .ok (s.documentEdits ++ s.manifestEdits) :=
    plan_eq_ok_iff.mpr ⟨by decide +kernel, rfl⟩
  have hplan' : plan s' = .ok (s'.documentEdits ++ s'.manifestEdits) :=
    plan_eq_ok_iff.mpr ⟨by decide +kernel, rfl⟩
  exact ⟨_, _, hplan, hplan', by decide +kernel⟩

end ReqTrace
