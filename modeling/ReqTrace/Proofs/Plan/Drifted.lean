/-
Module: ReqTrace.Proofs.Plan.Drifted
Purpose: Planned edits on a document that somebody changed after it was scanned. Edits in place are checked
  against the line that they find, but footnotes that are added are not checked against the ones that are there.
Main exports: wellWritten_of_mem_plan, nodup_addedFootnotes_plan, applyGroup_drifted
-/
import ReqTrace.Proofs.Apply
import ReqTrace.Proofs.Document.Kinds
import ReqTrace.Proofs.Plan.Coverage

namespace ReqTrace

open Text

variable {s : ScanResult} {actions : List Action}

/-! ### Planned edits -/

/-- Planned edits write markers with a status and footnotes that can be read. -/
theorem wellWritten_of_mem_plan (h : plan s = .ok actions)
    (linkable : ∀ d ∈ s.documents, ∀ x ∈ d.declarations, ∀ e ∈ evidenceFor s.sources x.id,
      e.coverer.Linkable) {a : Action} (ha : a ∈ actions) : a.WellWritten := by
  rcases mem_plan_cases h ha with ⟨-, d, hd, x, hdeclared, hactions, -⟩ | ⟨hkind, -⟩
  · have hlinkable := List.forall_mem_map.mpr (linkable d hd x hdeclared)
    obtain ⟨package, site, -, -, rfl⟩ := DocumentRecord.mem_declarations_iff.mp hdeclared
    rcases Declaration.mem_actions_cases hactions with ⟨status, hstatus, rfl⟩ | ⟨line, rfl⟩
    · exact ⟨status, hstatus, rfl⟩
    · have hback := RequirementId.not_mem_hint ⟨package, site.name⟩ (c := '`') (by decide) (by decide)
      have hfeed := RequirementId.not_mem_hint ⟨package, site.name⟩ (c := '\n') (by decide) (by decide)
      exact ⟨Footnote.not_mem_render site.name hfeed hlinkable,
        fun line => view_read_render line site.name hback hfeed hlinkable⟩
  · cases a with
    | site _ _ _ _ => cases hkind
    | footnote _ _ _ _ => cases hkind
    | setHash _ _ _ => trivial
    | dropHash _ _ => trivial

theorem addedFootnotes_append (first second : List Action) :
    addedFootnotes (first ++ second) = addedFootnotes first ++ addedFootnotes second :=
  List.filterMap_append

/-- At most one footnote is added for a declaration. -/
theorem Declaration.addedFootnotes_sublist (x : Declaration) (evidence : List Evidence) :
    ((addedFootnotes (x.actions evidence)).map Prod.fst).Sublist [x.id.name] := by
  unfold actions
  split
  · exact List.nil_sublist _
  · rename_i status _
    have hsite : addedFootnotes (x.siteActions status) = [] := by
      unfold siteActions
      split <;> rfl
    rw [addedFootnotes_append, hsite, List.nil_append]
    unfold footnoteActions
    simp only
    split
    · rename_i existing _
      split
      · exact List.nil_sublist _
      · cases existing.line with
        | zero => exact List.Sublist.refl _
        | succ line => exact List.nil_sublist _
    · exact List.Sublist.refl _

/-- The footnotes that a plan adds to a document have different names. -/
theorem nodup_addedFootnotes_plan (h : plan s = .ok actions)
    (distinct : s.documents.Pairwise fun a b => a.path.same b.path = false) {d : DocumentRecord}
    (hd : d ∈ s.documents) :
    ((addedFootnotes (actions.filter (·.path.same d.path))).map Prod.fst).Nodup := by
  obtain ⟨declared, edits, hperm, hedits, hactions⟩ := exists_filter_actions h distinct hd
  have hnone : addedFootnotes edits = [] := by
    rw [← List.map_eq_nil_iff (f := Prod.snd), map_snd_addedFootnotes]
    exact newFootnotes_manifestEdits hedits
  have hsublist : ∀ declared : List Declaration,
      ((addedFootnotes (declared.flatMap fun x => x.actions (evidenceFor s.sources x.id))).map
        Prod.fst).Sublist (declared.map fun x => x.id.name) := by
    intro declared
    induction declared with
    | nil => exact List.nil_sublist _
    | cons x declared ih =>
        rw [List.flatMap_cons, addedFootnotes_append, List.map_append]
        exact (x.addedFootnotes_sublist _).append ih
  have hnames : (d.declarations.map fun x => x.id.name).Nodup := by
    cases hpackage : d.package with
    | none => simp [DocumentRecord.declarations, hpackage]
    | some package =>
        have hnodup := nodup_names_of_plan h hd hpackage
        simpa [DocumentRecord.declarations, hpackage, Function.comp_def] using hnodup
  rw [hactions, addedFootnotes_append, hnone, List.append_nil]
  exact ((hperm.map _).nodup_iff.mpr hnames).sublist (hsublist declared)

/-- A group of planned edits that is not for a manifest is for a document. -/
theorem exists_document_of_group (h : plan s = .ok actions) {e : FileEdits} (he : e ∈ groupByFile actions)
    (document : e.isManifest = false) :
    ∃ d ∈ s.documents, e.path = d.path ∧ e.actions = actions.filter (·.path.same d.path) := by
  have hedits := (isGrouping_groupByFile actions).edits e he
  obtain ⟨a, ha, hpath⟩ := (isGrouping_groupByFile actions).named e he
  have hmem : a ∈ e.actions := by
    rw [hedits]
    exact List.mem_filter.mpr ⟨ha, by rw [hpath]; exact Path.same_self _⟩
  have hkind : a.isManifestEdit = false := by
    simpa using List.any_eq_false.mp document a hmem
  rcases mem_plan_cases h ha with ⟨-, d, hd, -, -, -, hplace⟩ | ⟨hmanifest, -⟩
  · exact ⟨d, hd, hpath.symm.trans hplace, by rw [hedits, ← hpath, hplace]⟩
  · rw [hmanifest] at hkind
    cases hkind

/-! ### Documents that changed in the meantime -/

/-- The edits that a plan has for a document, on any text without faults that its file holds by then. If they
    can be carried out, what is written is free of faults exactly if no footnote is added that the text has
    already, as long as no marker is written into a line that is shaped like a footnote. -/
theorem applyGroup_drifted (h : plan s = .ok actions)
    (distinct : s.documents.Pairwise fun a b => a.path.same b.path = false)
    (linkable : ∀ d ∈ s.documents, ∀ x ∈ d.declarations, ∀ e ∈ evidenceFor s.sources x.id,
      e.coverer.Linkable)
    {e : FileEdits} (he : e ∈ groupByFile actions) (document : e.isManifest = false)
    {tree tree' : FileTree} {t : Text} (hread : tree.readText e.path = .ok t)
    (fine : (ParsedDocument.parse t).faults = [])
    (spares : ∀ a ∈ e.actions, a.SparesFootnotes (LineFile.parse t))
    (happly : tree.applyGroup e = .ok tree') :
    ∃ t', tree.writeText e.path t' = .ok tree' ∧
      ((ParsedDocument.parse t').faults = [] ↔
        ∀ path id payload, .footnote path 0 id payload ∈ e.actions →
          ∀ f ∈ (ParsedDocument.parse t).footnotes, f.name ≠ id.name) := by
  obtain ⟨d, hd, -, hedits⟩ := exists_document_of_group h he document
  have hadded := nodup_addedFootnotes_plan h distinct hd
  have written : ∀ a ∈ e.actions, a.WellWritten := by
    intro a ha
    rw [hedits] at ha
    exact wellWritten_of_mem_plan h linkable (List.mem_of_mem_filter ha)
  rw [← hedits] at hadded
  unfold FileTree.applyGroup at happly
  rw [document] at happly
  obtain ⟨read, hread', hrest⟩ := bind_eq_ok_iff.mp happly
  obtain ⟨t', hpatched, hwritten⟩ := bind_eq_ok_iff.mp hrest
  rw [mapError_eq_ok_iff, hread] at hread'
  cases hread'
  refine ⟨t', mapError_eq_ok_iff.mp hwritten, ?_⟩
  have hnames := ((ParsedDocument.faults_eq_nil_iff _).mp fine).2.2
  rw [← ParsedDocument.map_key_footnotes fine, List.map_map] at hnames
  rw [ParsedDocument.faults_patchDocument_iff fine written spares hpatched, List.nodup_append]
  constructor
  · rintro ⟨-, -, hnew⟩ path id payload hmem f hf
    exact hnew _ (List.mem_map_of_mem hf) _
      (List.mem_map_of_mem (mem_addedFootnotes_iff.mpr ⟨path, id, hmem, rfl⟩))
  · intro hnew
    refine ⟨hnames, hadded, ?_⟩
    intro name hname other hother
    obtain ⟨f, hf, rfl⟩ := List.mem_map.mp hname
    obtain ⟨⟨added, payload⟩, hmem, rfl⟩ := List.mem_map.mp hother
    obtain ⟨path, id, hfound, rfl⟩ := mem_addedFootnotes_iff.mp hmem
    exact hnew path id payload hfound f hf

/-- A footnote that somebody has written in the meantime is added a second time. -/
theorem applyGroup_drifted_twice :
    let id : RequirementId := ⟨⟨['p'], by decide⟩, ⟨['A'], by decide⟩⟩
    let scanned := "```\nreqmd.package: p\n```\n`~A~`\n".toList
    let t := scanned ++ "\n[^~A~]: `see below`\n".toList
    let source : SourceRecord :=
      { path := ⟨"x.rs".toList⟩, tags := [{ requirement := id, type := "impl".toList, line := 1 }]
        hash := none, url := some "https://e.org/x.rs".toList, relative := none }
    let s : ScanResult :=
      { files := [.document (.ofParsed ⟨"a.md".toList⟩ (ParsedDocument.parse scanned)), .source source]
        manifests := Table.empty, errors := [] }
    let tree : FileTree := { nodes := Table.ofList [(["a.md".toList], .file (.text t))], workingDirectory := [] }
    ∃ actions e tree' t', plan s = .ok actions ∧ e ∈ groupByFile actions ∧
      (ParsedDocument.parse t).faults = [] ∧ tree.readText e.path = .ok t ∧
      tree.applyGroup e = .ok tree' ∧ tree.writeText e.path t' = .ok tree' ∧
      (ParsedDocument.parse t').faults ≠ [] := by
  intro id scanned t source s tree
  have h : plan s = .ok (s.documentEdits ++ s.manifestEdits) := plan_eq_ok_iff.mpr ⟨by decide +kernel, rfl⟩
  have hall : ∀ e ∈ allEvidence s.sources, e.coverer.Linkable := by decide +kernel
  have linkable : ∀ d ∈ s.documents, ∀ x ∈ d.declarations, ∀ e ∈ evidenceFor s.sources x.id,
      e.coverer.Linkable := fun d _ x _ e he =>
    hall e (List.mem_of_mem_filter ((isEvidence_evidenceFor s.sources x.id).perm.mem_iff.mp he))
  have fine : (ParsedDocument.parse t).faults = [] := by decide +kernel
  generalize hactions : s.documentEdits ++ s.manifestEdits = actions at h
  generalize hpayload :
    Footnote.render id.name id.hint ((evidenceFor s.sources id).map Evidence.coverer) = payload
  have hgroups : ∃ e ∈ groupByFile actions, e.isManifest = false ∧ tree.readText e.path = .ok t ∧
      (∀ a ∈ e.actions, a.SparesFootnotes (LineFile.parse t)) ∧ (tree.applyGroup e).toOption.isSome = true ∧
      .footnote ⟨"a.md".toList⟩ 0 id payload ∈ e.actions ∧
      ∃ f ∈ (ParsedDocument.parse t).footnotes, f.name = id.name := by
    rw [← hactions, ← hpayload]
    decide +kernel
  obtain ⟨e, he, document, hread, spares, hdone, hadded, f, hf, hname⟩ := hgroups
  obtain ⟨tree', happly⟩ : ∃ tree', tree.applyGroup e = .ok tree' := by
    cases happly : tree.applyGroup e with
    | error error => simp [happly, Except.toOption] at hdone
    | ok tree' => exact ⟨tree', rfl⟩
  obtain ⟨t', hwritten, hfaults⟩ :=
    applyGroup_drifted h (by decide +kernel) linkable he document hread fine spares happly
  refine ⟨actions, e, tree', t', h, he, fine, hread, happly, hwritten, fun hnone => ?_⟩
  exact hfaults.mp hnone _ id payload hadded f hf hname

end ReqTrace
