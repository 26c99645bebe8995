/-
Module: ReqTrace.Proofs.Plan.Coverage
Purpose: Planned edits make the documents say exactly what the tags say.
Main exports: IsTagged, IsEvidence, SiteAgrees, Agrees, patchDocument_plan
-/
import ReqTrace.Proofs.Lists
import ReqTrace.Proofs.Index
import ReqTrace.Proofs.Path
import ReqTrace.Proofs.Plan.DocumentResult

namespace ReqTrace

open Text

/-! ### What the tags say -/

/-- Whether a tag of some source files names a requirement. -/
def IsTagged (sources : List SourceRecord) (id : RequirementId) : Prop :=
  ∃ e ∈ allEvidence sources, e.tag.requirement = id

/-- All tags that name a requirement, each of them once, by file and line. -/
structure IsEvidence (sources : List SourceRecord) (id : RequirementId) (evidence : List Evidence) :
    Prop where
  perm : evidence.Perm ((allEvidence sources).filter (·.tag.requirement == id))
  ordered : evidence.Pairwise fun a b => (Evidence.compare a b).isLE = true

instance : Std.TransCmp Evidence.compare :=
  inferInstanceAs (Std.TransCmp (compareLex (compareOn fun e : Evidence => e.source.path)
    (compareOn fun e : Evidence => e.tag.line)))

theorem isEvidence_evidenceFor (sources : List SourceRecord) (id : RequirementId) :
    IsEvidence sources id (evidenceFor sources id) :=
  ⟨List.mergeSort_perm _ _, pairwise_mergeSort Evidence.compare _⟩

theorem isTagged_iff {sources : List SourceRecord} {id : RequirementId} :
    IsTagged sources id ↔ evidenceFor sources id ≠ [] := by
  have hperm := (isEvidence_evidenceFor sources id).perm
  rw [IsTagged, ne_eq, ← List.length_eq_zero_iff, hperm.length_eq, List.length_eq_zero_iff,
    List.filter_eq_nil_iff]
  simp

theorem isSettled_evidenceFor_iff {sources : List SourceRecord} {id : RequirementId} {old : SiteStatus} :
    isSettled (evidenceFor sources id) old ↔ IsTagged sources id ∨ old = .covered :=
  or_congr_left isTagged_iff.symm

/-! ### Documents that agree with the tags -/

/-- A site after the edits. Its requirement is covered if a tag names it, and uncovered if none does any
    more. -/
structure SiteAgrees (sources : List SourceRecord) (package : Identifier) (old new : Site) : Prop where
  name : new.name = old.name
  line : new.line = old.line
  tagged : IsTagged sources ⟨package, old.name⟩ → new.status = .covered
  regressed : ¬ IsTagged sources ⟨package, old.name⟩ → old.status = .covered → new.status = .uncovered
  other : ¬ IsTagged sources ⟨package, old.name⟩ → old.status ≠ .covered → new.status = old.status

/-- The status that is settled is the one that the tags say. -/
theorem SiteAgrees.of_key {sources : List SourceRecord} {package : Identifier} {old new : Site}
    (h : (old.name, old.line, settledStatus (evidenceFor sources ⟨package, old.name⟩) old.status) = new.key) :
    SiteAgrees sources package old new := by
  have hnew : settledStatus (evidenceFor sources ⟨package, old.name⟩) old.status = new.status :=
    congrArg (·.2.2) h
  refine ⟨congrArg (·.1) h.symm, congrArg (·.2.1) h.symm, fun htagged => ?_, fun hfree hcovered => ?_,
    fun hfree hother => ?_⟩
  · rw [← hnew, settledStatus, if_pos (isTagged_iff.mp htagged)]
  · rw [← hnew, settledStatus, if_neg (fun hne => hfree (isTagged_iff.mpr hne)), if_pos hcovered]
  · rw [← hnew, settledStatus, if_neg (fun hne => hfree (isTagged_iff.mpr hne)), if_neg hother]

/-- A document after the edits. It has the same sites in the same order, each with the status that the tags
    say, a footnote with all links for every tagged requirement, a footnote with the hint alone for every
    one that is no longer tagged, and all other footnotes that it had. -/
structure Agrees (sources : List SourceRecord) (before after : ParsedDocument) : Prop where
  faults : after.faults = []
  package : after.package = before.package
  sites : ∀ package, before.package = some package →
    List.Forall₂ (SiteAgrees sources package) before.sites after.sites
  /-- A document that names no package has no sites. -/
  unnamed : before.package = none → after.sites = before.sites
  cited : ∀ package, before.package = some package → ∀ site ∈ before.sites,
    IsTagged sources ⟨package, site.name⟩ → ∃ f ∈ after.footnotes, f.name = site.name ∧
      ∃ evidence, IsEvidence sources ⟨package, site.name⟩ evidence ∧
        f.raw = Footnote.render site.name (RequirementId.hint ⟨package, site.name⟩)
          (evidence.map Evidence.coverer)
  hinted : ∀ package, before.package = some package → ∀ site ∈ before.sites,
    ¬ IsTagged sources ⟨package, site.name⟩ → site.status = .covered →
      ∃ f ∈ after.footnotes, f.name = site.name ∧
        f.raw = Footnote.render site.name (RequirementId.hint ⟨package, site.name⟩) []
  kept : ∀ f ∈ before.footnotes,
    (∀ package, before.package = some package → ∀ site ∈ before.sites, site.name = f.name →
      ¬ IsTagged sources ⟨package, site.name⟩ ∧ site.status ≠ .covered) → f ∈ after.footnotes
  only : ∀ f ∈ after.footnotes, f ∈ before.footnotes ∨
    ∃ package, before.package = some package ∧ ∃ site ∈ before.sites, site.name = f.name ∧
      (IsTagged sources ⟨package, site.name⟩ ∨ site.status = .covered)

/-- The edits of a document with the evidence that its tags are. -/
def DocumentPlan.ofSources (sources : List SourceRecord) (d : DocumentRecord) (package : Identifier) :
    DocumentPlan :=
  { document := d, package, evidence := fun name => evidenceFor sources ⟨package, name⟩ }

namespace DocumentPlan

variable {sources : List SourceRecord} {d : DocumentRecord} {package : Identifier}
  {before after : ParsedDocument} {taken : List Site}

/-- A footnote of a requirement about which the tags say nothing keeps its text. -/
theorem progress_text_eq_none (hstatus : ∀ s ∈ before.sites, d.status s.name = s.status)
    (htaken : ∀ s, s ∈ taken ↔ s ∈ before.sites) {name : Identifier}
    (hopen : ∀ s ∈ before.sites, s.name = name →
      ¬ isSettled (evidenceFor sources ⟨package, s.name⟩) s.status) :
    progress (taken.map Site.name) (ofSources sources d package).text (fun _ => none) name = none := by
  unfold progress
  split
  · rename_i hmem
    obtain ⟨site, hsite, rfl⟩ := List.mem_map.mp hmem
    have hs := (htaken site).mp hsite
    have hnot := hopen site hs rfl
    rw [← hstatus site hs] at hnot
    cases hfound : d.footnote? site.name with
    | none => simp [text, ofSources, hfound]
    | some existing => simp [text, ofSources, hfound, hnot]
  · rfl

/-- A settled site has its footnote, in place or added. -/
theorem Result.exists_footnote (isFor : (ofSources sources d package).IsFor before)
    (hstatus : ∀ s ∈ before.sites, d.status s.name = s.status)
    (htaken : ∀ s, s ∈ taken ↔ s ∈ before.sites)
    (result : (ofSources sources d package).Result taken before after) {site : Site}
    (hs : site ∈ before.sites)
    (settled : isSettled (evidenceFor sources ⟨package, site.name⟩) site.status) :
    ∃ f ∈ after.footnotes, f.name = site.name ∧
      f.raw = (ofSources sources d package).footnoteText site.name := by
  obtain ⟨first, hfootnotes⟩ := result.footnotes
  suffices h : ∃ line, (site.name, line, (ofSources sources d package).footnoteText site.name) ∈
      after.footnotes.map Footnote.key by
    obtain ⟨line, hkey⟩ := h
    obtain ⟨f, hf, heq⟩ := List.mem_map.mp hkey
    exact ⟨f, hf, congrArg (·.1) heq, congrArg (·.2.2) heq⟩
  rw [hfootnotes]
  cases hfound : d.footnote? site.name with
  | some existing =>
      have hmem : existing ∈ before.footnotes := by
        rw [← isFor.footnotes]
        exact List.mem_of_find?_eq_some hfound
      have hname : existing.name = site.name := by simpa using List.find?_some hfound
      refine ⟨existing.line, List.mem_append_left _ (List.mem_map.mpr ⟨existing, hmem, ?_⟩)⟩
      have hin : site.name ∈ taken.map Site.name := List.mem_map_of_mem ((htaken site).mpr hs)
      have htext : (progress (taken.map Site.name) (ofSources sources d package).text (fun _ => none)
          site.name).getD existing.raw = (ofSources sources d package).footnoteText site.name := by
        rw [← hstatus site hs] at settled
        rw [progress, if_pos hin]
        exact getD_text (p := ofSources sources d package) hfound settled
      rw [hname]
      exact congrArg (fun text => (site.name, existing.line, text)) htext
  | none =>
      have hadded : (ofSources sources d package).added? site =
          some (site.name, (ofSources sources d package).footnoteText site.name) :=
        if_pos ⟨settled, hfound⟩
      have hmem := List.mem_filterMap.mpr ⟨site, (htaken site).mpr hs, hadded⟩
      rw [← List.zipIdx_map_fst first (taken.filterMap _)] at hmem
      obtain ⟨⟨a, line⟩, hentry, rfl⟩ := List.mem_map.mp hmem
      exact ⟨line, List.mem_append_right _ (List.mem_map.mpr ⟨_, hentry, rfl⟩)⟩

theorem Result.sites_agree (result : (ofSources sources d package).Result taken before after) :
    List.Forall₂ (SiteAgrees sources package) before.sites after.sites := by
  have hsites := result.sites
  rw [eq_comm, ← List.forall₂_eq_eq_eq, List.forall₂_map_left_iff, List.forall₂_map_right_iff] at hsites
  exact hsites.imp fun _ _ => .of_key

/-- A footnote stays if the tags say nothing about its requirement. -/
theorem Result.mem_of_open (hstatus : ∀ s ∈ before.sites, d.status s.name = s.status)
    (htaken : ∀ s, s ∈ taken ↔ s ∈ before.sites)
    (result : (ofSources sources d package).Result taken before after) {f : Footnote}
    (hf : f ∈ before.footnotes)
    (hopen : ∀ s ∈ before.sites, s.name = f.name →
      ¬ isSettled (evidenceFor sources ⟨package, s.name⟩) s.status) : f ∈ after.footnotes := by
  obtain ⟨first, hfootnotes⟩ := result.footnotes
  refine result.kept f hf ?_
  rw [hfootnotes]
  refine List.mem_append_left _ (List.mem_map.mpr ⟨f, hf, ?_⟩)
  rw [progress_text_eq_none hstatus htaken hopen]
  rfl

/-- There is no other footnote than those from before and those of settled sites. -/
theorem Result.mem_or_settled (hstatus : ∀ s ∈ before.sites, d.status s.name = s.status)
    (htaken : ∀ s, s ∈ taken ↔ s ∈ before.sites)
    (result : (ofSources sources d package).Result taken before after) {f : Footnote}
    (hf : f ∈ after.footnotes) :
    f ∈ before.footnotes ∨ ∃ s ∈ before.sites, s.name = f.name ∧
      isSettled (evidenceFor sources ⟨package, s.name⟩) s.status := by
  by_cases hsettled : ∃ s ∈ before.sites, s.name = f.name ∧
      isSettled (evidenceFor sources ⟨package, s.name⟩) s.status
  · exact .inr hsettled
  · obtain ⟨first, hfootnotes⟩ := result.footnotes
    have hkey := List.mem_map_of_mem (f := Footnote.key) hf
    rw [hfootnotes] at hkey
    refine .inl (result.only f hf ?_)
    rcases List.mem_append.mp hkey with hold | hadded
    · obtain ⟨g, hg, heq⟩ := List.mem_map.mp hold
      have hname : g.name = f.name := congrArg (·.1) heq
      rw [progress_text_eq_none hstatus htaken fun s hs hsame h =>
        hsettled ⟨s, hs, hsame.trans hname, h⟩] at heq
      exact List.mem_map.mpr ⟨g, hg, heq⟩
    · obtain ⟨⟨a, line⟩, hentry, heq⟩ := List.mem_map.mp hadded
      obtain ⟨site, hsite, hsome⟩ := List.mem_filterMap.mp (List.fst_mem_of_mem_zipIdx hentry)
      obtain ⟨hsite_settled, -, rfl⟩ := added?_eq_some hsome
      exact absurd ⟨site, (htaken site).mp hsite, congrArg (·.1) heq, hsite_settled⟩ hsettled

theorem Result.agrees (isFor : (ofSources sources d package).IsFor before)
    (hstatus : ∀ s ∈ before.sites, d.status s.name = s.status)
    (htaken : ∀ s, s ∈ taken ↔ s ∈ before.sites)
    (result : (ofSources sources d package).Result taken before after) : Agrees sources before after := by
  have hpackage : ∀ {other}, before.package = some other → other = package := by
    intro other h
    rw [isFor.package] at h
    cases h
    rfl
  refine ⟨result.faults, result.package, fun other hother => ?_, fun hnone => ?_,
    fun other hother site hs htagged => ?_, fun other hother site hs hfree hcovered => ?_,
    fun f hf hfree => ?_, fun f hf => ?_⟩
  · obtain rfl := hpackage hother
    exact result.sites_agree
  · rw [isFor.package] at hnone
    cases hnone
  · obtain rfl := hpackage hother
    obtain ⟨f, hf, hname, htext⟩ :=
      result.exists_footnote isFor hstatus htaken hs (isSettled_evidenceFor_iff.mpr (.inl htagged))
    exact ⟨f, hf, hname, _, isEvidence_evidenceFor sources _, htext⟩
  · obtain rfl := hpackage hother
    obtain ⟨f, hf, hname, htext⟩ :=
      result.exists_footnote isFor hstatus htaken hs (isSettled_evidenceFor_iff.mpr (.inr hcovered))
    have hnone : evidenceFor sources ⟨other, site.name⟩ = [] :=
      not_not.mp fun hne => hfree (isTagged_iff.mpr hne)
    refine ⟨f, hf, hname, htext.trans ?_⟩
    simp only [footnoteText, ofSources, hnone, List.map_nil, id]
  · refine result.mem_of_open hstatus htaken hf fun site hs hname hsettled => ?_
    obtain ⟨huntagged, hother⟩ := hfree package isFor.package site hs hname
    exact (isSettled_evidenceFor_iff.mp hsettled).elim huntagged hother
  · refine (result.mem_or_settled hstatus htaken hf).imp_right ?_
    rintro ⟨site, hs, hname, hsettled⟩
    exact ⟨package, isFor.package, site, hs, hname, isSettled_evidenceFor_iff.mp hsettled⟩

end DocumentPlan

/-! ### Documents among others -/

theorem filter_flatMap_declarations {documents : List DocumentRecord}
    (distinct : documents.Pairwise fun a b => a.path.same b.path = false) {d : DocumentRecord}
    (hd : d ∈ documents) :
    (documents.flatMap DocumentRecord.declarations).filter (·.document.path.same d.path) =
      d.declarations := by
  have hsame : ∀ d' ∈ documents, d'.path.same d.path = true ↔ d' = d := by
    intro d' hd'
    exact ⟨fun hsame => Path.eq_of_same distinct hd' hd hsame, fun heq => heq ▸ Path.same_self d'.path⟩
  have hnodup : documents.Nodup := distinct.imp fun {a b} hne heq => by
    rw [heq, Path.same_self] at hne
    cases hne
  have hflat := @filter_flatMap_of_origin _ _ documents DocumentRecord.declarations
    (·.document.path.same d.path) (·.path.same d.path) fun d' _ x hx => by
      rw [DocumentRecord.document_of_mem_declarations hx]
  rw [hflat, filter_eq_singleton hnodup hd hsame]
  simp

/-- The edits of one document among those of a plan, and edits of manifests. -/
theorem exists_filter_actions {s : ScanResult} {actions : List Action} (h : plan s = .ok actions)
    (distinct : s.documents.Pairwise fun a b => a.path.same b.path = false) {d : DocumentRecord}
    (hd : d ∈ s.documents) :
    ∃ (declared : List Declaration) (edits : List Action), declared.Perm d.declarations ∧
      (∀ a ∈ edits, a.isManifestEdit = true) ∧
      actions.filter (·.path.same d.path) =
        (declared.flatMap fun x => x.actions (evidenceFor s.sources x.id)) ++ edits := by
  obtain ⟨hindex, rfl⟩ := plan_eq_ok_iff.mp h
  have hperm := (Index.holds_ofDocuments hindex).perm_inDocumentOrder
  refine ⟨s.declared.filter (·.document.path.same d.path), s.manifestEdits.filter (·.path.same d.path),
    ?_, ?_, ?_⟩
  · rw [← filter_flatMap_declarations distinct hd]
    exact hperm.filter _
  · exact fun a ha => s.isManifestEdit_of_mem (List.mem_of_mem_filter ha)
  · rw [List.filter_append]
    refine congrArg (· ++ _) ?_
    exact filter_flatMap_of_origin fun x _ a ha => by rw [(Declaration.path_of_mem_actions ha).1]

/-- No document declares a requirement twice. -/
theorem nodup_names_of_plan {s : ScanResult} {actions : List Action} (h : plan s = .ok actions)
    {d : DocumentRecord} (hd : d ∈ s.documents) {package : Identifier} (hpackage : d.package = some package) :
    (d.sites.map Site.name).Nodup := by
  obtain ⟨hindex, -⟩ := plan_eq_ok_iff.mp h
  have hids := (Index.errors_ofDocuments_eq_nil_iff.mp hindex).2
  rw [List.map_flatMap] at hids
  have hown := (List.nodup_flatMap.mp hids).1 d hd
  have hmap : d.declarations.map Declaration.id =
      (d.sites.map Site.name).map fun name => ⟨package, name⟩ := by
    rw [DocumentRecord.declarations, hpackage]
    simp
  rw [hmap] at hown
  exact List.Nodup.of_map _ hown

/-- A document without sites is only written back. -/
theorem patchDocument_manifestEdits (path : Path) (t : Text) {edits : List Action}
    (h : ∀ a ∈ edits, a.isManifestEdit = true) :
    patchDocument path t edits = .ok (LineFile.parse t).render ∧
      ParsedDocument.parse (LineFile.parse t).render = ParsedDocument.parse t := by
  refine ⟨?_, ?_⟩
  · rw [patchDocument, LineFile.applyAll, foldlM_patch_manifestEdits path h, newFootnotes_manifestEdits h]
    rfl
  · rw [ParsedDocument.parse_eq_ofLines t]
    exact ParsedDocument.parse_render (LineFile.lines_parse_ne_nil t)
      fun line hline => LineFile.not_mem_of_mem_parse hline

theorem Agrees.of_no_package {sources : List SourceRecord} {doc : ParsedDocument} (faults : doc.faults = [])
    (hpackage : doc.package = none) : Agrees sources doc doc := by
  refine ⟨faults, rfl, ?_, fun _ => rfl, ?_, ?_, fun f hf _ => hf, fun f hf => .inl hf⟩
  all_goals
    intro package h
    rw [hpackage] at h
    cases h

/-- The edits that a plan has for a document with a package: those for its sites in some order, and edits of
    manifests. -/
theorem exists_filter_eq_flatMap {s : ScanResult} {actions : List Action} (h : plan s = .ok actions)
    (distinct : s.documents.Pairwise fun a b => a.path.same b.path = false) {path : Path}
    {doc : ParsedDocument} (wellFormed : doc.faults = []) (mem : .ofParsed path doc ∈ s.documents)
    {package : Identifier} (hpackage : doc.package = some package) :
    (DocumentPlan.ofSources s.sources (.ofParsed path doc) package).IsFor doc ∧
    ∃ (sites : List Site) (edits : List Action), sites.Perm doc.sites ∧
      (∀ a ∈ edits, a.isManifestEdit = true) ∧ actions.filter (·.path.same path) =
        sites.flatMap (DocumentPlan.ofSources s.sources (.ofParsed path doc) package).actions ++ edits := by
  refine ⟨⟨wellFormed, hpackage, rfl, rfl, nodup_names_of_plan h mem hpackage⟩, ?_⟩
  obtain ⟨declared, edits, hperm, hedits, hactions⟩ := exists_filter_actions h distinct mem
  have hpath : (DocumentRecord.ofParsed path doc).path = path := rfl
  rw [hpath] at hactions
  generalize hd : DocumentRecord.ofParsed path doc = d at hperm hactions
  have hdpackage : d.package = some package := by rw [← hd]; exact hpackage
  have hdsites : d.sites = doc.sites := by rw [← hd]; rfl
  refine ⟨declared.map Declaration.site, edits, ?_, hedits, ?_⟩
  · have hsites : d.declarations.map Declaration.site = d.sites := by
      rw [DocumentRecord.declarations, hdpackage]
      exact List.map_map.trans (List.map_id _)
    rw [← hdsites, ← hsites]
    exact hperm.map _
  · rw [hactions, List.flatMap_map]
    refine congrArg (· ++ edits) (List.flatMap_congr fun x hx => ?_)
    obtain ⟨package', site, hpackage', -, rfl⟩ :=
      DocumentRecord.mem_declarations_iff.mp (hperm.mem_iff.mp hx)
    rw [hdpackage] at hpackage'
    cases hpackage'
    rfl

/-- The edits that a plan has for a document without a package are edits of manifests. -/
theorem isManifestEdit_of_no_package {s : ScanResult} {actions : List Action} (h : plan s = .ok actions)
    (distinct : s.documents.Pairwise fun a b => a.path.same b.path = false) {d : DocumentRecord}
    (mem : d ∈ s.documents) (hpackage : d.package = none) :
    ∀ a ∈ actions.filter (·.path.same d.path), a.isManifestEdit = true := by
  obtain ⟨declared, edits, hperm, hedits, hactions⟩ := exists_filter_actions h distinct mem
  have hnone : d.declarations = [] := by rw [DocumentRecord.declarations, hpackage]
  rw [hnone] at hperm
  obtain rfl := hperm.eq_nil
  rw [hactions]
  exact hedits

/-- The edits that a plan has for a document can be carried out on its text, whatever the links are. -/
theorem exists_patchDocument_eq_ok {s : ScanResult} {actions : List Action} (h : plan s = .ok actions)
    (distinct : s.documents.Pairwise fun a b => a.path.same b.path = false) {path : Path} {t : Text}
    (wellFormed : (ParsedDocument.parse t).faults = [])
    (mem : .ofParsed path (ParsedDocument.parse t) ∈ s.documents) :
    ∃ t', patchDocument path t (actions.filter (·.path.same path)) = .ok t' := by
  cases hpackage : (ParsedDocument.parse t).package with
  | none => exact ⟨_, (patchDocument_manifestEdits path t
      (isManifestEdit_of_no_package h distinct mem hpackage)).1⟩
  | some package =>
      obtain ⟨isFor, sites, edits, hsites, hedits, hactions⟩ :=
        exists_filter_eq_flatMap h distinct wellFormed mem hpackage
      rw [hactions]
      exact DocumentPlan.exists_patchDocument_eq_ok path isFor hsites hedits

/-- What the edits that a plan has for a document with a package make of its text. -/
theorem exists_result {s : ScanResult} {actions : List Action} (h : plan s = .ok actions)
    (distinct : s.documents.Pairwise fun a b => a.path.same b.path = false)
    (linkable : ∀ d ∈ s.documents, ∀ x ∈ d.declarations, ∀ e ∈ evidenceFor s.sources x.id,
      e.coverer.Linkable)
    {path : Path} {t : Text} (wellFormed : (ParsedDocument.parse t).faults = [])
    (mem : .ofParsed path (ParsedDocument.parse t) ∈ s.documents) {package : Identifier}
    (hpackage : (ParsedDocument.parse t).package = some package) :
    ∃ t' taken, patchDocument path t (actions.filter (·.path.same path)) = .ok t' ∧
      (∀ site, site ∈ taken ↔ site ∈ (ParsedDocument.parse t).sites) ∧
      (DocumentPlan.ofSources s.sources (.ofParsed path (ParsedDocument.parse t)) package).IsFor
        (ParsedDocument.parse t) ∧
      (DocumentPlan.ofSources s.sources (.ofParsed path (ParsedDocument.parse t)) package).Result taken
        (ParsedDocument.parse t) (ParsedDocument.parse t') := by
  obtain ⟨isFor, sites, edits, hsites, hedits, hactions⟩ :=
    exists_filter_eq_flatMap h distinct wellFormed mem hpackage
  have hlinkable : (DocumentPlan.ofSources s.sources
      (.ofParsed path (ParsedDocument.parse t)) package).Linkable := fun site hsite e he =>
    linkable _ mem _ (DocumentRecord.mem_declarations_iff.mpr ⟨package, site, hpackage, hsite, rfl⟩) e he
  rw [hactions]
  obtain ⟨t', hpatched, result⟩ := DocumentPlan.exists_patchDocument path isFor hlinkable hsites hedits
  exact ⟨t', sites, hpatched, fun _ => hsites.mem_iff, isFor, result⟩

/-- The edits that a plan has for a document can be carried out on its text, and the document then agrees
    with the tags of the source files. -/
theorem patchDocument_plan {s : ScanResult} {actions : List Action} (h : plan s = .ok actions)
    (distinct : s.documents.Pairwise fun a b => a.path.same b.path = false)
    (linkable : ∀ d ∈ s.documents, ∀ x ∈ d.declarations, ∀ e ∈ evidenceFor s.sources x.id,
      e.coverer.Linkable)
    {path : Path} {t : Text} (wellFormed : (ParsedDocument.parse t).faults = [])
    (mem : .ofParsed path (ParsedDocument.parse t) ∈ s.documents) :
    ∃ t', patchDocument path t (actions.filter (·.path.same path)) = .ok t' ∧
      Agrees s.sources (ParsedDocument.parse t) (ParsedDocument.parse t') := by
  cases hpackage : (ParsedDocument.parse t).package with
  | none =>
      obtain ⟨hpatched, hparse⟩ := patchDocument_manifestEdits path t
        (isManifestEdit_of_no_package h distinct mem hpackage)
      refine ⟨_, hpatched, ?_⟩
      rw [hparse]
      exact .of_no_package wellFormed hpackage
  | some package =>
      obtain ⟨t', taken, hpatched, htaken, isFor, result⟩ :=
        exists_result h distinct linkable wellFormed mem hpackage
      exact ⟨t', hpatched, result.agrees isFor isFor.status_of_mem htaken⟩

/-- A tag covers the only requirement of a document, which gets a footnote. -/
theorem patchDocument_plan_one_tag :
    let id : RequirementId := ⟨⟨['p'], by decide⟩, ⟨['A'], by decide⟩⟩
    let t := "```\nreqmd.package: p\n```\n`~A~`\n".toList
    let document := DocumentRecord.ofParsed ⟨"a.md".toList⟩ (ParsedDocument.parse t)
    let source : SourceRecord :=
      { path := ⟨"x.rs".toList⟩, tags := [{ requirement := id, type := "impl".toList, line := 1 }]
        hash := none, url := some "https://e.org/x.rs".toList, relative := none }
    let s : ScanResult :=
      { files := [.document document, .source source], manifests := Table.empty, errors := [] }
    ∃ actions t', plan s = .ok actions ∧ actions.length = 2 ∧
      patchDocument ⟨"a.md".toList⟩ t (actions.filter (·.path.same ⟨"a.md".toList⟩)) = .ok t' ∧
      Agrees s.sources (ParsedDocument.parse t) (ParsedDocument.parse t') := by
  intro id t document source s
  have h : plan s = .ok (s.documentEdits ++ s.manifestEdits) := plan_eq_ok_iff.mpr ⟨by decide +kernel, rfl⟩
  have hall : ∀ e ∈ allEvidence s.sources, e.coverer.Linkable := by decide +kernel
  have linkable : ∀ d ∈ s.documents, ∀ x ∈ d.declarations, ∀ e ∈ evidenceFor s.sources x.id,
      e.coverer.Linkable := fun d _ x _ e he =>
    hall e (List.mem_of_mem_filter ((isEvidence_evidenceFor s.sources x.id).perm.mem_iff.mp he))
  obtain ⟨t', hpatched, hagrees⟩ :=
    patchDocument_plan h (by decide +kernel) linkable (by decide +kernel) (List.mem_singleton_self document)
  exact ⟨_, t', h, by decide +kernel, hpatched, hagrees⟩

end ReqTrace
