/-
Module: ReqTrace.Proofs.Index
Purpose: The index of some documents. It reports every document that has sites and names no package, and every
  declaration of a requirement but the first. If there is nothing to report, it holds every site of every
  document exactly once, under an id of its own.
Main exports: DocumentRecord.declarations, repetitions, Index.Reports, Index.reports_ofDocuments, Index.Holds,
  Index.holds_ofDocuments, Index.errors_ofDocuments_eq_nil_iff, plan_eq_ok_iff, mem_plan_cases
-/
import ReqTrace.Plan
import ReqTrace.Proofs.Table

namespace ReqTrace

namespace RequirementId

/-- Ids that compare as equal are equal. -/
instance : Std.LawfulEqOrd RequirementId where
  eq_of_compare {a b} h := by
    have hpackage : compare a.package b.package = .eq ∧ compare a.name b.name = .eq :=
      compareLex_eq_eq.mp h
    obtain ⟨package, name⟩ := a
    obtain ⟨package', name'⟩ := b
    cases Std.LawfulEqCmp.eq_of_compare hpackage.1
    cases Std.LawfulEqCmp.eq_of_compare hpackage.2
    rfl

end RequirementId

/-- The requirements that a document declares, in the order of its sites. -/
def DocumentRecord.declarations (d : DocumentRecord) : List Declaration :=
  match d.package with
  | none => []
  | some package => d.sites.map fun site => ⟨⟨package, site.name⟩, d, site⟩

theorem DocumentRecord.mem_declarations_iff {d : DocumentRecord} {x : Declaration} :
    x ∈ d.declarations ↔
      ∃ package site, d.package = some package ∧ site ∈ d.sites ∧ x = ⟨⟨package, site.name⟩, d, site⟩ := by
  unfold declarations
  cases d.package with
  | none => simp
  | some package => simp [eq_comm]

theorem DocumentRecord.document_of_mem_declarations {d : DocumentRecord} {x : Declaration}
    (h : x ∈ d.declarations) : x.document = d := by
  obtain ⟨package, site, -, -, rfl⟩ := mem_declarations_iff.mp h
  rfl

theorem DocumentRecord.name_of_mem_declarations {d : DocumentRecord} {x : Declaration}
    (h : x ∈ d.declarations) : x.id.name = x.site.name := by
  obtain ⟨package, site, -, -, rfl⟩ := mem_declarations_iff.mp h
  rfl

/-! ### What is to be reported -/

/-- The requirement that an error says is declared again, if it says so of one. -/
def SemanticError.repeated? (e : SemanticError) : Option RequirementId :=
  match e.fault with
  | .duplicateRequirement id _ _ => some id
  | .missingPackage => none

/-- The error of a document that has sites and names no package. It stands at the first site. -/
def DocumentRecord.missingPackage? (d : DocumentRecord) : Option SemanticError :=
  match d.package with
  | none => d.sites.head?.map fun first => { path := d.path, line := first.line, fault := .missingPackage }
  | some _ => none

theorem DocumentRecord.missingPackage?_eq_none_iff {d : DocumentRecord} :
    d.missingPackage? = none ↔ (d.sites ≠ [] → d.package.isSome = true) := by
  unfold missingPackage?
  cases d.package with
  | none => cases d.sites <;> simp
  | some package => simp

/-- The error at a declaration whose requirement another one declares first. -/
def Declaration.repetitionOf (d first : Declaration) : SemanticError :=
  { path := d.document.path, line := d.site.line
    fault := .duplicateRequirement d.id first.document.path first.site.line }

/-- The errors at the declarations of one requirement: one at each but the first, which they name. -/
def repetitions : List Declaration → List SemanticError
  | [] => []
  | first :: rest => rest.map fun d => d.repetitionOf first

/-- The declarations of a requirement among some. -/
def declarationsOf (id : RequirementId) (declared : List Declaration) : List Declaration :=
  declared.filter (·.id == id)

theorem declarationsOf_append_self (declared : List Declaration) (d : Declaration) :
    declarationsOf d.id (declared ++ [d]) = declarationsOf d.id declared ++ [d] := by
  simp [declarationsOf]

theorem declarationsOf_append_other (declared : List Declaration) {d : Declaration} {id : RequirementId}
    (other : d.id ≠ id) : declarationsOf id (declared ++ [d]) = declarationsOf id declared := by
  simp [declarationsOf, other]

theorem length_repetitions (declared : List Declaration) :
    (repetitions declared).length = declared.length - 1 := by
  cases declared with
  | nil => rfl
  | cons first rest => simp [repetitions]

theorem repetitions_append_singleton {declared : List Declaration} {first : Declaration}
    (h : declared.head? = some first) (d : Declaration) :
    repetitions (declared ++ [d]) = repetitions declared ++ [d.repetitionOf first] := by
  cases declared with
  | nil => cases h
  | cons first' rest =>
      cases h
      simp [repetitions]

theorem mem_repetitions_iff {declared : List Declaration} {e : SemanticError} :
    e ∈ repetitions declared ↔ ∃ first rest, declared = first :: rest ∧ ∃ d ∈ rest, d.repetitionOf first = e := by
  cases declared with
  | nil => simp [repetitions]
  | cons first rest => simp [repetitions]

theorem repetitions_eq_nil_iff {declared : List Declaration} :
    (∀ id, repetitions (declarationsOf id declared) = []) ↔ (declared.map Declaration.id).Nodup := by
  rw [List.nodup_iff_count_le_one]
  refine forall_congr' fun id => ?_
  rw [← List.length_eq_zero_iff, length_repetitions, Nat.sub_eq_zero_iff_le, List.count_eq_length_filter,
    List.filter_map, List.length_map]
  rfl

namespace Index

/-! ### The errors of an index -/

/-- An index that answers with the first declaration of each requirement, and whose errors are some about
    packages and one for each further declaration. -/
structure Reports (index : Index) (missing : List SemanticError) (declared : List Declaration) : Prop where
  first : ∀ id, index.declarations.get? id = (declarationsOf id declared).head?
  missing : index.errors.reverse.filter (·.repeated? == none) = missing
  repeated : ∀ id, index.errors.reverse.filter (·.repeated? == some id) = repetitions (declarationsOf id declared)

variable {index : Index} {missing : List SemanticError} {declared : List Declaration}

theorem reports_empty : Reports empty [] [] :=
  ⟨fun _ => rfl, rfl, fun _ => rfl⟩

/-- The first declaration of a requirement is kept, and each further one is reported. -/
theorem Reports.addDeclaration (h : Reports index missing declared) (d : Declaration) :
    Reports (index.addDeclaration d) missing (declared ++ [d]) := by
  have hknown := h.first d.id
  unfold Index.addDeclaration
  split
  · rename_i first hfirst
    rw [hfirst] at hknown
    constructor
    · intro id
      by_cases hid : d.id = id
      · rw [← hid, declarationsOf_append_self, List.head?_append, ← hknown, hfirst]
        rfl
      · rw [declarationsOf_append_other _ hid]
        exact h.first id
    · rw [List.reverse_cons, List.filter_append, h.missing]
      exact List.append_nil missing
    · intro id
      rw [List.reverse_cons, List.filter_append, h.repeated]
      by_cases hid : d.id = id
      · rw [← hid, declarationsOf_append_self, repetitions_append_singleton hknown.symm]
        simp [SemanticError.repeated?, Declaration.repetitionOf]
      · rw [declarationsOf_append_other _ hid]
        simp [SemanticError.repeated?, hid]
  · rename_i hnew
    rw [hnew] at hknown
    have hnone := List.head?_eq_none_iff.mp hknown.symm
    refine ⟨fun id => ?_, h.missing, fun id => ?_⟩
    · rw [Table.get?_insert]
      by_cases hid : d.id = id
      · rw [← hid, if_pos Std.ReflCmp.compare_self, declarationsOf_append_self, hnone]
        rfl
      · rw [if_neg fun heq => hid (Std.LawfulEqCmp.eq_of_compare heq).symm, declarationsOf_append_other _ hid]
        exact h.first id
    · by_cases hid : d.id = id
      · rw [h.repeated, ← hid, declarationsOf_append_self, hnone]
        rfl
      · rw [declarationsOf_append_other _ hid]
        exact h.repeated id

theorem Reports.foldl_addDeclaration (h : Reports index missing declared) (ds : List Declaration) :
    Reports (ds.foldl Index.addDeclaration index) missing (declared ++ ds) := by
  induction ds generalizing index declared with
  | nil => simpa using h
  | cons d ds ih => simpa using ih (h.addDeclaration d)

/-- A document either is reported or adds its declarations. -/
theorem Reports.addDocument (h : Reports index missing declared) (d : DocumentRecord) :
    Reports (index.addDocument d) (missing ++ d.missingPackage?.toList) (declared ++ d.declarations) := by
  unfold Index.addDocument DocumentRecord.missingPackage? DocumentRecord.declarations
  cases hsites : d.sites with
  | nil => cases d.package <;> simpa using h
  | cons first rest =>
      cases d.package with
      | some package =>
          have hall := h.foldl_addDeclaration ((first :: rest).map fun site => ⟨⟨package, site.name⟩, d, site⟩)
          simpa using hall
      | none =>
          refine ⟨by simpa using h.first, ?_, fun id => ?_⟩
          · rw [List.reverse_cons, List.filter_append, h.missing]
            rfl
          · rw [List.reverse_cons, List.filter_append, h.repeated]
            simp [SemanticError.repeated?]

theorem Reports.foldl_addDocument (h : Reports index missing declared) (documents : List DocumentRecord) :
    Reports (documents.foldl Index.addDocument index)
      (missing ++ documents.filterMap DocumentRecord.missingPackage?)
      (declared ++ documents.flatMap DocumentRecord.declarations) := by
  induction documents generalizing index missing declared with
  | nil => simpa using h
  | cons d documents ih =>
      have hrest := ih (h.addDocument d)
      rw [List.append_assoc, List.append_assoc] at hrest
      rw [List.flatMap_cons, List.filterMap_cons]
      cases hd : d.missingPackage? with
      | none => simpa [hd] using hrest
      | some e => simpa [hd] using hrest

/-- The index of some documents reports what is to be reported of them. -/
theorem reports_ofDocuments (documents : List DocumentRecord) :
    Reports (ofDocuments documents) (documents.filterMap DocumentRecord.missingPackage?)
      (documents.flatMap DocumentRecord.declarations) :=
  reports_empty.foldl_addDocument documents

/-! ### Indexes without errors -/

/-- An index without errors that holds some declarations, each under its id. -/
structure Holds (index : Index) (declared : List Declaration) : Prop where
  errors : index.errors = []
  entries : (index.declarations.toList.map Prod.snd).Perm declared
  ids : ∀ entry ∈ index.declarations.toList, entry.1 = entry.2.id

/-- If nothing is reported, no two declarations have the same id. -/
theorem Reports.nodup_ids (h : Reports index missing declared) (fine : index.errors = []) :
    (declared.map Declaration.id).Nodup := by
  apply repetitions_eq_nil_iff.mp
  intro id
  rw [← h.repeated, fine]
  rfl

/-- If nothing is reported, the first declaration of each requirement is its only one. -/
theorem Reports.holds (h : Reports index missing declared) (fine : index.errors = []) :
    Holds index declared := by
  have hids := h.nodup_ids fine
  have hentry : ∀ {id d}, (id, d) ∈ index.declarations.toList ↔ d ∈ declared ∧ d.id = id := by
    intro id d
    rw [Table.mem_toList_iff, h.first]
    constructor
    · intro hfirst
      obtain ⟨hd, hid⟩ := List.mem_filter.mp (List.mem_of_head? hfirst)
      exact ⟨hd, beq_iff_eq.mp hid⟩
    · rintro ⟨hd, rfl⟩
      have honly : declarationsOf d.id declared = [d] := by
        apply filter_eq_singleton hids.of_map hd
        intro d' hd'
        rw [beq_iff_eq]
        exact ⟨List.inj_on_of_nodup_map hids hd' hd, congrArg Declaration.id⟩
      rw [honly]
      rfl
  have hkeys : (index.declarations.toList.map Prod.snd).map Declaration.id = index.declarations.keys := by
    rw [List.map_map]
    exact List.map_congr_left fun entry hmem => (hentry.mp hmem).2
  refine ⟨fine, (List.perm_ext_iff_of_nodup ?_ hids.of_map).mpr fun d => ?_, fun entry hmem => ?_⟩
  · exact List.Nodup.of_map Declaration.id (hkeys ▸ Table.nodup_keys _)
  · constructor
    · intro hmem
      obtain ⟨⟨id, d⟩, hpair, rfl⟩ := List.mem_map.mp hmem
      exact (hentry.mp hpair).1
    · exact fun hd => List.mem_map.mpr ⟨(d.id, d), hentry.mpr ⟨hd, rfl⟩, rfl⟩
  · exact (hentry.mp hmem).2.symm

/-- An index without errors holds every site of every document once. -/
theorem holds_ofDocuments {documents : List DocumentRecord} (fine : (ofDocuments documents).errors = []) :
    Holds (ofDocuments documents) (documents.flatMap DocumentRecord.declarations) :=
  (reports_ofDocuments documents).holds fine

theorem Holds.perm_inDocumentOrder {index : Index} {declared : List Declaration}
    (h : Holds index declared) : index.inDocumentOrder.Perm declared :=
  (List.mergeSort_perm _ _).trans h.entries

/-- An index is free of errors if every document with sites names its package and no two declarations have
    the same id, and then only. -/
theorem errors_ofDocuments_eq_nil_iff {documents : List DocumentRecord} :
    (ofDocuments documents).errors = [] ↔ (∀ d ∈ documents, d.sites ≠ [] → d.package.isSome = true) ∧
      ((documents.flatMap DocumentRecord.declarations).map Declaration.id).Nodup := by
  have hreports := reports_ofDocuments documents
  have hmissing : documents.filterMap DocumentRecord.missingPackage? = [] ↔
      ∀ d ∈ documents, d.sites ≠ [] → d.package.isSome = true := by
    rw [List.filterMap_eq_nil_iff]
    simp only [DocumentRecord.missingPackage?_eq_none_iff]
  rw [← hmissing]
  constructor
  · intro fine
    refine ⟨?_, hreports.nodup_ids fine⟩
    rw [← hreports.missing, fine]
    rfl
  · intro ⟨missing, nodup⟩
    have repeated := repetitions_eq_nil_iff.mpr nodup
    -- An error would be about one requirement or about none, and there is neither.
    rw [← List.reverse_eq_nil_iff, List.eq_nil_iff_forall_not_mem]
    intro e he
    cases hkind : e.repeated? with
    | none =>
        have hmem : e ∈ (ofDocuments documents).errors.reverse.filter (·.repeated? == none) :=
          List.mem_filter.mpr ⟨he, by simp [hkind]⟩
        rw [hreports.missing, missing] at hmem
        cases hmem
    | some id =>
        have hmem : e ∈ (ofDocuments documents).errors.reverse.filter (·.repeated? == some id) :=
          List.mem_filter.mpr ⟨he, by simp [hkind]⟩
        rw [hreports.repeated, repeated] at hmem
        cases hmem

end Index

/-! ### The parts of a plan -/

namespace ScanResult

/-- The declarations of the documents, in document order. -/
def declared (s : ScanResult) : List Declaration :=
  (Index.ofDocuments s.documents).inDocumentOrder

/-- The edits of the documents. -/
def documentEdits (s : ScanResult) : List Action :=
  s.declared.flatMap fun d => d.actions (evidenceFor s.sources d.id)

/-- What the manifests are to record. -/
def citations (s : ScanResult) : Citations :=
  s.declared.foldl (fun citations d => citations.add d (evidenceFor s.sources d.id)) Table.empty

/-- The edits of the manifest in a directory. -/
def manifestEditsIn (s : ScanResult) (directory : Path) : List Action :=
  manifestActions (directory.join ⟨Manifest.fileName⟩) ((s.manifests.get? directory).getD Table.empty)
    ((s.citations.get? directory).getD Table.empty)

/-- The edits of the manifests. -/
def manifestEdits (s : ScanResult) : List Action :=
  (manifestDirectories s).flatMap s.manifestEditsIn

end ScanResult

theorem ScanResult.mem_declared_iff {s : ScanResult} (fine : (Index.ofDocuments s.documents).errors = [])
    {d : Declaration} : d ∈ s.declared ↔ ∃ document ∈ s.documents, d ∈ document.declarations := by
  rw [declared, (Index.holds_ofDocuments fine).perm_inDocumentOrder.mem_iff, List.mem_flatMap]

/-- A plan edits the documents and then the manifests. There is one if nothing is wrong with the index. -/
theorem plan_eq_ok_iff {s : ScanResult} {actions : List Action} :
    plan s = .ok actions ↔ (Index.ofDocuments s.documents).errors = [] ∧
      actions = s.documentEdits ++ s.manifestEdits := by
  have hdocuments : s.documentEdits =
      (s.declared.map fun d => (d, evidenceFor s.sources d.id)).flatMap fun x => x.1.actions x.2 := by
    rw [List.flatMap_map]
    rfl
  have hcitations : s.citations =
      (s.declared.map fun d => (d, evidenceFor s.sources d.id)).foldl
        (fun (citations : Citations) x => citations.add x.1 x.2) Table.empty := by
    rw [List.foldl_map]
    rfl
  have hmanifests : s.manifestEdits = (manifestDirectories s).flatMap fun directory =>
      s.manifestEditsIn directory := rfl
  simp only [ScanResult.manifestEditsIn, hcitations] at hmanifests
  rw [hdocuments, hmanifests]
  unfold plan
  by_cases h : (Index.ofDocuments s.documents).errors = []
  · simp only [h, ne_eq, not_true_eq_false, if_false, Except.ok.injEq, true_and]
    exact eq_comm
  · simp [h]

theorem isManifestEdit_of_mem_manifestActions {path : Path} {previous desired : Manifest} {a : Action}
    (h : a ∈ manifestActions path previous desired) : a.isManifestEdit = true ∧ a.path = path := by
  rcases List.mem_append.mp h with h | h
  · obtain ⟨⟨url, hash⟩, -, ha⟩ := List.mem_filterMap.mp h
    simp only at ha
    split at ha
    · cases ha
    · cases ha
      exact ⟨rfl, rfl⟩
  · obtain ⟨⟨url, hash⟩, -, ha⟩ := List.mem_filterMap.mp h
    simp only at ha
    split at ha
    · cases ha
    · cases ha
      exact ⟨rfl, rfl⟩

theorem ScanResult.isManifestEdit_of_mem (s : ScanResult) {a : Action} (h : a ∈ s.manifestEdits) :
    a.isManifestEdit = true := by
  obtain ⟨directory, -, ha⟩ := List.mem_flatMap.mp h
  exact (isManifestEdit_of_mem_manifestActions ha).1

/-- The line of the footnote of a declared requirement, or zero if the document has none. -/
def Declaration.footnoteLine (d : Declaration) : Nat :=
  ((d.document.footnote? d.site.name).map Footnote.line).getD 0

theorem Declaration.mem_siteActions_iff {d : Declaration} {status : SiteStatus} {a : Action} :
    a ∈ d.siteActions status ↔ d.site.status ≠ status ∧
      a = .site d.document.path d.site.line d.id (Site.render d.site.name status) := by
  unfold siteActions
  split <;> simp [*]

theorem Declaration.mem_footnoteActions_iff {d : Declaration} {evidence : List Evidence} {a : Action} :
    a ∈ d.footnoteActions evidence ↔
      (∀ note, d.document.footnote? d.site.name = some note → note.raw ≠ d.footnoteText evidence) ∧
        a = .footnote d.document.path d.footnoteLine d.id (d.footnoteText evidence) := by
  unfold footnoteActions footnoteLine
  cases d.document.footnote? d.site.name with
  | none => simp
  | some existing =>
      simp only [Option.some.injEq, forall_eq', Option.map_some, Option.getD_some]
      split <;> simp [*]

/-- The edits for a declaration of which something is to be said: the marker, if it has another status than it should
    have, and the footnote, unless there is one that lists the evidence. -/
theorem Declaration.mem_actions_iff {d : Declaration} {evidence : List Evidence} {a : Action} :
    a ∈ d.actions evidence ↔ ∃ status, desiredStatus? d.site evidence = some status ∧
      (d.site.status ≠ status ∧
          a = .site d.document.path d.site.line d.id (Site.render d.site.name status) ∨
        (∀ note, d.document.footnote? d.site.name = some note → note.raw ≠ d.footnoteText evidence) ∧
          a = .footnote d.document.path d.footnoteLine d.id (d.footnoteText evidence)) := by
  unfold actions
  cases desiredStatus? d.site evidence with
  | none => simp
  | some status => simp [mem_siteActions_iff, mem_footnoteActions_iff]

/-- An edit for a declaration writes its marker with the status that it should have, or the footnote that lists the
    evidence. -/
theorem Declaration.eq_of_mem_actions {d : Declaration} {evidence : List Evidence} {a : Action}
    (h : a ∈ d.actions evidence) :
    (∃ status, desiredStatus? d.site evidence = some status ∧
        a = .site d.document.path d.site.line d.id (Site.render d.site.name status)) ∨
      a = .footnote d.document.path d.footnoteLine d.id (d.footnoteText evidence) := by
  obtain ⟨status, hdesired, ⟨-, ha⟩ | ⟨-, ha⟩⟩ := mem_actions_iff.mp h
  · exact .inl ⟨status, hdesired, ha⟩
  · exact .inr ha

/-- No declared requirement is to be bare. -/
theorem annotated_of_desiredStatus? {site : Site} {evidence : List Evidence} {status : SiteStatus}
    (h : desiredStatus? site evidence = some status) : status ≠ .bare := by
  rintro rfl
  unfold desiredStatus? at h
  split at h
  · cases h
  · split at h <;> cases h

/-- An edit for a declaration writes its marker with a status, or the footnote that lists the evidence. -/
theorem Declaration.mem_actions_cases {d : Declaration} {evidence : List Evidence} {a : Action}
    (h : a ∈ d.actions evidence) :
    (∃ status, status ≠ .bare ∧
        a = .site d.document.path d.site.line d.id (Site.render d.site.name status)) ∨
      ∃ line, a = .footnote d.document.path line d.id (d.footnoteText evidence) := by
  rcases eq_of_mem_actions h with ⟨status, hdesired, rfl⟩ | rfl
  · exact .inl ⟨status, annotated_of_desiredStatus? hdesired, rfl⟩
  · exact .inr ⟨_, rfl⟩

/-- All edits for a declaration are edits of its document. -/
theorem Declaration.path_of_mem_actions {d : Declaration} {evidence : List Evidence} {a : Action}
    (h : a ∈ d.actions evidence) : a.path = d.document.path ∧ a.isManifestEdit = false := by
  rcases mem_actions_cases h with ⟨status, -, rfl⟩ | ⟨line, rfl⟩
  · exact ⟨rfl, rfl⟩
  · exact ⟨rfl, rfl⟩

/-! ### Where the edits of a plan come from -/

theorem ScanResult.exists_of_mem_documentEdits {s : ScanResult}
    (fine : (Index.ofDocuments s.documents).errors = []) {a : Action} (h : a ∈ s.documentEdits) :
    ∃ d ∈ s.documents, ∃ x ∈ d.declarations, a ∈ x.actions (evidenceFor s.sources x.id) ∧ a.path = d.path := by
  obtain ⟨x, hx, hedit⟩ := List.mem_flatMap.mp h
  obtain ⟨d, hd, hdeclared⟩ := (mem_declared_iff fine).mp hx
  obtain ⟨hpath, -⟩ := Declaration.path_of_mem_actions hedit
  rw [DocumentRecord.document_of_mem_declarations hdeclared] at hpath
  exact ⟨d, hd, x, hdeclared, hedit, hpath⟩

theorem ScanResult.not_isManifestEdit_of_mem {s : ScanResult} {a : Action} (h : a ∈ s.documentEdits) :
    a.isManifestEdit = false := by
  obtain ⟨x, -, hedit⟩ := List.mem_flatMap.mp h
  exact (Declaration.path_of_mem_actions hedit).2

theorem ScanResult.exists_of_mem_manifestEdits {s : ScanResult} {a : Action} (h : a ∈ s.manifestEdits) :
    ∃ directory ∈ manifestDirectories s, a ∈ s.manifestEditsIn directory ∧
      a.path = directory.join ⟨Manifest.fileName⟩ := by
  obtain ⟨directory, hdirectory, hedit⟩ := List.mem_flatMap.mp h
  exact ⟨directory, hdirectory, hedit, (isManifestEdit_of_mem_manifestActions hedit).2⟩

/-- An edit of a plan is for a declaration of a document, or for the manifest of a directory. -/
theorem mem_plan_cases {s : ScanResult} {actions : List Action} (h : plan s = .ok actions) {a : Action}
    (ha : a ∈ actions) :
    (a.isManifestEdit = false ∧ ∃ d ∈ s.documents, ∃ x ∈ d.declarations,
      a ∈ x.actions (evidenceFor s.sources x.id) ∧ a.path = d.path) ∨
    (a.isManifestEdit = true ∧ ∃ directory ∈ manifestDirectories s, a ∈ s.manifestEditsIn directory ∧
      a.path = directory.join ⟨Manifest.fileName⟩) := by
  obtain ⟨fine, rfl⟩ := plan_eq_ok_iff.mp h
  rcases List.mem_append.mp ha with hdocument | hmanifest
  · exact .inl ⟨ScanResult.not_isManifestEdit_of_mem hdocument, ScanResult.exists_of_mem_documentEdits fine hdocument⟩
  · exact .inr ⟨s.isManifestEdit_of_mem hmanifest, ScanResult.exists_of_mem_manifestEdits hmanifest⟩

end ReqTrace
