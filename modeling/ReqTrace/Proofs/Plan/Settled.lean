/-
Module: ReqTrace.Proofs.Plan.Settled
Purpose: After its edits a document says what the tags say, so no further edits follow for any of its sites.
Main exports: Settled, ScanResult.Linkable, exists_settled
-/
import ReqTrace.Proofs.Plan.Citations
import ReqTrace.Proofs.Plan.Coverage

namespace ReqTrace

/-- A declaration without evidence that is not covered is left as it is. -/
theorem Declaration.actions_eq_nil_of_open {d : Declaration} (uncovered : d.site.status ≠ .covered) :
    d.actions [] = [] := by
  rw [actions, desiredStatus?_eq_none (by simp [isSettled, uncovered])]

/-- A declaration whose site is covered and whose footnote lists the evidence is left as it is. -/
theorem Declaration.actions_eq_nil_of_covered {d : Declaration} {evidence : List Evidence}
    (evident : evidence ≠ []) (covered : d.site.status = .covered) {f : Footnote}
    (found : d.document.footnote? d.site.name = some f) (raw : f.raw = d.footnoteText evidence) :
    d.actions evidence = [] := by
  have hdesired : desiredStatus? d.site evidence = some .covered := if_pos evident
  simp only [actions, hdesired, siteActions, footnoteActions, covered, found, raw, if_true, List.append_nil]

/-- A document after the edits that the tags of some source files ask for. It has the same sites, and nothing
    is left to be done for any of them. -/
structure Settled (sources : List SourceRecord) (path : Path) (before after : ParsedDocument) : Prop where
  faults : after.faults = []
  package : after.package = before.package
  names : after.sites.map Site.name = before.sites.map Site.name
  actions : ∀ x ∈ (DocumentRecord.ofParsed path after).declarations,
    x.actions (evidenceFor sources x.id) = []

/-- The declarations stand for the same requirements as before. -/
theorem Settled.map_key_declarations {sources : List SourceRecord} {path : Path} {before after : ParsedDocument}
    (h : Settled sources path before after) :
    (DocumentRecord.ofParsed path after).declarations.map Declaration.key =
      (DocumentRecord.ofParsed path before).declarations.map Declaration.key := by
  have hkey : ∀ d : ParsedDocument, (DocumentRecord.ofParsed path d).declarations.map Declaration.key =
      d.package.elim [] fun package => (d.sites.map Site.name).map fun name => (path, ⟨package, name⟩) := by
    intro d
    rw [DocumentRecord.declarations, DocumentRecord.ofParsed]
    cases d.package with
    | none => rfl
    | some package =>
        simp only [List.map_map]
        rfl
  rw [hkey, hkey, h.package, h.names]

theorem ParsedDocument.footnote?_of_mem {t : Text} (faults : (parse t).faults = []) {path : Path}
    {f : Footnote} (hf : f ∈ (parse t).footnotes) :
    (DocumentRecord.ofParsed path (parse t)).footnote? f.name = some f := by
  rw [parse] at faults hf
  have hnames := ((faults_eq_nil_iff _).mp faults).2.2
  rw [← map_key_footnotes faults, List.map_map] at hnames
  exact (find?_key_eq_some_iff Footnote.name hnames).mpr ⟨hf, rfl⟩

namespace DocumentPlan

variable {sources : List SourceRecord} {d : DocumentRecord} {package : Identifier} {before : ParsedDocument}
  {taken : List Site} {t : Text}

theorem Result.settled (path : Path) (isFor : (ofSources sources d package).IsFor before)
    (hstatus : ∀ s ∈ before.sites, d.status s.name = s.status)
    (htaken : ∀ s, s ∈ taken ↔ s ∈ before.sites)
    (result : (ofSources sources d package).Result taken before (ParsedDocument.parse t)) :
    Settled sources path before (ParsedDocument.parse t) := by
  refine ⟨result.faults, result.package, ?_, fun x hx => ?_⟩
  · have hnames := congrArg (List.map Prod.fst) result.sites
    rwa [List.map_map, List.map_map] at hnames
  · obtain ⟨package', site, hpackage, hsite, rfl⟩ := DocumentRecord.mem_declarations_iff.mp hx
    obtain rfl : package' = package := by
      have hsame := hpackage.symm.trans (result.package.trans isFor.package)
      exact Option.some.inj hsame
    obtain ⟨old, hold, hkey⟩ : ∃ old ∈ before.sites,
        (old.name, old.line, settledStatus (evidenceFor sources ⟨package', old.name⟩) old.status) = site.key := by
      have hkey : site.key ∈ (ParsedDocument.parse t).sites.map Site.key := List.mem_map_of_mem hsite
      rw [result.sites] at hkey
      exact List.mem_map.mp hkey
    have hname : old.name = site.name := congrArg (·.1) hkey
    have hnew : settledStatus (evidenceFor sources ⟨package', site.name⟩) old.status = site.status := by
      rw [← hname]
      exact congrArg (·.2.2) hkey
    by_cases hevidence : evidenceFor sources ⟨package', site.name⟩ = []
    · rw [hevidence]
      refine Declaration.actions_eq_nil_of_open ?_
      rw [← hnew, hevidence, settledStatus, if_neg (by simp)]
      split
      · simp
      · assumption
    · obtain ⟨f, hf, hfname, hraw⟩ := result.exists_footnote isFor hstatus htaken hold
        (.inl (by rw [hname]; exact hevidence))
      rw [hname] at hfname hraw
      refine Declaration.actions_eq_nil_of_covered hevidence ?_ (hfname ▸
        ParsedDocument.footnote?_of_mem result.faults hf) hraw
      rw [← hnew, settledStatus, if_pos hevidence]

end DocumentPlan

/-- Every tag that covers a declared requirement can be linked to. -/
def ScanResult.Linkable (s : ScanResult) : Prop :=
  ∀ d ∈ s.documents, ∀ x ∈ d.declarations, ∀ e ∈ evidenceFor s.sources x.id, e.coverer.Linkable

instance (s : ScanResult) : Decidable s.Linkable :=
  inferInstanceAs (Decidable (∀ d ∈ s.documents, ∀ x ∈ d.declarations, ∀ e ∈ evidenceFor s.sources x.id,
    e.coverer.Linkable))

/-- The edits that a plan has for a document can be carried out on its text, and nothing is left to be done
    for it then. -/
theorem exists_settled {s : ScanResult} {actions : List Action} (h : plan s = .ok actions)
    (distinct : s.documents.Pairwise fun a b => a.path.same b.path = false)
    (linkable : s.Linkable) {path : Path} {t : Text} (wellFormed : (ParsedDocument.parse t).faults = [])
    (mem : .ofParsed path (ParsedDocument.parse t) ∈ s.documents) :
    ∃ t', patchDocument path t (actions.filter (·.path.same path)) = .ok t' ∧
      Settled s.sources path (ParsedDocument.parse t) (ParsedDocument.parse t') := by
  cases hpackage : (ParsedDocument.parse t).package with
  | none =>
      obtain ⟨hpatched, hparse⟩ := patchDocument_manifestEdits path t
        (isManifestEdit_of_no_package h distinct mem hpackage)
      refine ⟨_, hpatched, ?_⟩
      rw [hparse]
      refine ⟨wellFormed, rfl, rfl, fun x hx => ?_⟩
      obtain ⟨package, -, hsome, -⟩ := DocumentRecord.mem_declarations_iff.mp hx
      have hnone := hsome.symm.trans hpackage
      cases hnone
  | some package =>
      obtain ⟨t', taken, hpatched, htaken, isFor, result⟩ :=
        exists_result h distinct linkable wellFormed mem hpackage
      exact ⟨t', hpatched, result.settled path isFor isFor.status_of_mem htaken⟩

/-- A document without edits needs none. -/
theorem settled_of_no_edits {s : ScanResult} {actions : List Action} (h : plan s = .ok actions)
    (distinct : s.documents.Pairwise fun a b => a.path.same b.path = false)
    (linkable : s.Linkable) {path : Path} {t : Text} (wellFormed : (ParsedDocument.parse t).faults = [])
    (mem : .ofParsed path (ParsedDocument.parse t) ∈ s.documents)
    (none : actions.filter (·.path.same path) = []) :
    Settled s.sources path (ParsedDocument.parse t) (ParsedDocument.parse t) := by
  obtain ⟨t', hpatched, settled⟩ := exists_settled h distinct linkable wellFormed mem
  obtain ⟨hsame, hparse⟩ := @patchDocument_manifestEdits path t [] (by simp)
  rw [none, hsame, Except.ok.injEq] at hpatched
  rwa [← hpatched, hparse] at settled

end ReqTrace
