/-
Module: ReqTrace.Proofs.Plan.DocumentResult
Purpose: What a document says after its edits: the same sites on the same lines with settled statuses, the
  settled footnotes, and all other footnotes as they were.
Main exports: DocumentPlan.IsFor, DocumentPlan.Result, DocumentPlan.exists_patchDocument
-/
import ReqTrace.Proofs.Plan.DocumentRun

namespace ReqTrace

open Text

/-! ### The start -/

/-- Lines say what they said. -/
theorem Describes.retold {d : DocumentRecord} {header : Header} {lines : List Text}
    (h : Describes d header lines) (plain : ∀ t ∈ lines, '\n' ∉ t) :
    Retold header lines lines d.status fun _ => none := by
  refine ⟨rfl, rfl, fun n t hn ht => ⟨t, ht, ?_⟩⟩
  have hmem := mem_views_iff.mpr ⟨n, t, hn, ht, rfl, rfl⟩
  rw [IsRetold]
  cases hview : (BodyLine.read (n + 1) t).view with
  | sites entries =>
      rw [hview] at hmem
      refine ⟨plain t (List.mem_of_getElem? ht), congrArg LineView.sites
        ((List.map_id entries).symm.trans (List.map_congr_left fun e he => ?_))⟩
      obtain ⟨s, hs, hkey⟩ := h.exists_site_of_view hmem he
      have hname : s.name = e.1 := congrArg (·.1) hkey
      have hstatus : s.status = e.2 := congrArg (·.2.2) hkey
      rw [← hname, h.status_of_mem hs, hname, hstatus]
      rfl
  | footnote name raw => rfl
  | malformed => rfl

/-- Edits of manifests change nothing in a document. -/
theorem foldlM_patch_manifestEdits (path : Path) {edits : List Action}
    (h : ∀ a ∈ edits, a.isManifestEdit = true) (f : LineFile) :
    edits.foldlM (LineFile.patch path) f = .ok f := by
  induction edits with
  | nil => rfl
  | cons a edits ih =>
      have hrest := ih fun b hb => h b (List.mem_cons_of_mem _ hb)
      have hfirst := h a List.mem_cons_self
      cases a with
      | site _ _ _ _ => cases hfirst
      | footnote _ _ _ _ => cases hfirst
      | setHash _ _ _ => exact hrest
      | dropHash _ _ => exact hrest

theorem newFootnotes_append (first second : List Action) :
    newFootnotes (first ++ second) = newFootnotes first ++ newFootnotes second :=
  List.filterMap_append

theorem newFootnotes_manifestEdits {edits : List Action} (h : ∀ a ∈ edits, a.isManifestEdit = true) :
    newFootnotes edits = [] := by
  refine List.filterMap_eq_nil_iff.mpr fun a ha => ?_
  have hedit := h a ha
  cases a with
  | site _ _ _ _ => cases hedit
  | footnote _ _ _ _ => cases hedit
  | setHash _ _ _ => rfl
  | dropHash _ _ => rfl

namespace DocumentPlan

variable {p : DocumentPlan} {header : Header} {old : List Text}

/-! ### Added footnotes -/

theorem newFootnotes_actions (describes : Describes p.document header old) {site : Site} :
    newFootnotes (p.actions site) = ((p.added? site).map Prod.snd).toList := by
  unfold actions Declaration.actions added?
  by_cases settled : isSettled (p.evidence site.name) site.status
  · have hdesired : desiredStatus? (p.declaration site).site (p.evidence site.name) =
        some (settledStatus (p.evidence site.name) site.status) := desiredStatus?_eq_some settled
    have hsites : newFootnotes ((p.declaration site).siteActions
        (settledStatus (p.evidence site.name) site.status)) = [] := by
      unfold Declaration.siteActions
      split
      · rfl
      · rfl
    rw [hdesired]
    simp only [newFootnotes_append, hsites, List.nil_append, settled, true_and]
    unfold Declaration.footnoteActions
    simp only
    split
    · rename_i existing hexisting
      have hsome : p.document.footnote? site.name = some existing := hexisting
      have hmem := List.mem_of_find?_eq_some hexisting
      obtain ⟨n, -, -, -, hn, -⟩ := mem_views_iff.mp (describes.view_of_footnote hmem)
      rw [hsome]
      split
      · rfl
      · rw [hn]
        rfl
    · rename_i hnone
      have hnone' : p.document.footnote? site.name = none := hnone
      rw [hnone']
      rfl
  · have hdesired : desiredStatus? (p.declaration site).site (p.evidence site.name) = none :=
      desiredStatus?_eq_none settled
    rw [hdesired]
    simp only [settled, false_and, if_false]
    rfl

theorem newFootnotes_flatMap (describes : Describes p.document header old) (sites : List Site) :
    newFootnotes (sites.flatMap p.actions) = (sites.filterMap p.added?).map Prod.snd := by
  induction sites with
  | nil => rfl
  | cons site sites ih =>
      rw [List.flatMap_cons, newFootnotes_append, newFootnotes_actions describes, ih,
        List.filterMap_cons]
      cases p.added? site with
      | none => rfl
      | some added => rfl

theorem added?_eq_some {site : Site} {added : Identifier × Text} (h : p.added? site = some added) :
    isSettled (p.evidence site.name) site.status ∧ p.document.footnote? site.name = none ∧
      added = (site.name, p.footnoteText site.name) := by
  unfold added? at h
  split at h
  · rename_i hsettled
    cases h
    exact ⟨hsettled.1, hsettled.2, rfl⟩
  · cases h

theorem areFootnotes_added {sites : List Site} (hsites : ∀ site ∈ sites, site ∈ p.document.sites)
    (linkable : p.Linkable) : AreFootnotes (sites.filterMap p.added?) := by
  intro a ha line
  obtain ⟨site, hsite, hadded⟩ := List.mem_filterMap.mp ha
  obtain ⟨-, -, rfl⟩ := added?_eq_some hadded
  obtain ⟨hback, hfeed⟩ := hint_plain (p := p) site.name
  exact view_read_render line site.name hback hfeed (linkable_coverers linkable (hsites site hsite))

/-- The names of added footnotes are new and differ. -/
theorem nodup_added (describes : Describes p.document header old) {sites : List Site}
    (names : (sites.map Site.name).Nodup) :
    ((noteKeys (views header old)).map Prod.fst ++ (sites.filterMap p.added?).map Prod.fst).Nodup := by
  refine List.nodup_append.mpr ⟨describes.unambiguous.notes, ?_, ?_⟩
  · have hsublist : ((sites.filterMap p.added?).map Prod.fst).Sublist (sites.map Site.name) := by
      clear names
      induction sites with
      | nil => exact .slnil
      | cons site sites ih =>
          rw [List.filterMap_cons]
          cases hadded : p.added? site with
          | none => exact ih.cons _
          | some added =>
              obtain ⟨-, -, rfl⟩ := added?_eq_some hadded
              exact ih.cons_cons _
    exact names.sublist hsublist
  · intro name hold name' hnew heq
    subst heq
    obtain ⟨added, hmem, rfl⟩ := List.mem_map.mp hnew
    obtain ⟨site, -, hadded⟩ := List.mem_filterMap.mp hmem
    obtain ⟨-, hnone, rfl⟩ := added?_eq_some hadded
    rw [← describes.footnotes, List.map_map] at hold
    obtain ⟨f, hf, hname⟩ := List.mem_map.mp hold
    have hfound := describes.footnote?_of_mem hf
    rw [show f.name = site.name from hname, hnone] at hfound
    cases hfound

/-! ### The result -/

/-- The plan edits a document that was read without faults and declares no requirement twice. -/
structure IsFor (p : DocumentPlan) (doc : ParsedDocument) : Prop where
  faults : doc.faults = []
  package : doc.package = some p.package
  sites : p.document.sites = doc.sites
  footnotes : p.document.footnotes = doc.footnotes
  names : (doc.sites.map Site.name).Nodup

theorem IsFor.exists_header {lines : List Text} (h : p.IsFor (ParsedDocument.ofLines lines)) :
    ∃ bodyStart, Header.ofLines lines = .declared p.package bodyStart := by
  have hpackage : (Header.ofLines lines).package? = some p.package := h.package
  cases hheader : Header.ofLines lines with
  | missing => simp [hheader, Header.package?] at hpackage
  | invalid line value bodyStart => simp [hheader, Header.package?] at hpackage
  | declared package bodyStart =>
      rw [hheader] at hpackage
      cases hpackage
      exact ⟨bodyStart, rfl⟩

theorem IsFor.describes {lines : List Text} (h : p.IsFor (ParsedDocument.ofLines lines)) :
    Describes p.document (Header.ofLines lines) lines := by
  have hsites := ParsedDocument.map_key_sites h.faults
  refine ⟨?_, ?_, ?_, ((ParsedDocument.faults_eq_nil_iff lines).mp h.faults).2.2⟩
  · rw [h.sites, hsites]
  · rw [h.footnotes, ParsedDocument.map_key_footnotes h.faults]
  · rw [← hsites, List.map_map]
    exact h.names

theorem IsFor.status_of_mem {doc : ParsedDocument} (h : p.IsFor doc) :
    ∀ s ∈ doc.sites, p.document.status s.name = s.status := by
  intro s hs
  have hnames := h.names
  rw [← h.sites] at hs hnames
  rw [DocumentRecord.status, (find?_key_eq_some_iff Site.name hnames).mpr ⟨hs, rfl⟩]
  rfl

theorem IsFor.nodup_names {doc : ParsedDocument} (h : p.IsFor doc) {sites : List Site}
    (hsites : sites.Perm p.document.sites) : (sites.map Site.name).Nodup := by
  refine ((hsites.map Site.name).nodup_iff).mpr ?_
  rw [h.sites]
  exact h.names

/-- What a document says after the edits for its sites, in the order in which these were taken. -/
structure Result (p : DocumentPlan) (taken : List Site) (before after : ParsedDocument) : Prop where
  faults : after.faults = []
  package : after.package = before.package
  sites : after.sites.map Site.key =
    before.sites.map fun s => (s.name, s.line, settledStatus (p.evidence s.name) s.status)
  footnotes : ∃ first, after.footnotes.map Footnote.key =
    (before.footnotes.map fun f =>
      (f.name, f.line, (progress (taken.map Site.name) p.text (fun _ => none) f.name).getD f.raw)) ++
    ((taken.filterMap p.added?).zipIdx first).map fun (a, line) => (a.1, line, a.2)
  kept : ∀ f ∈ before.footnotes, f.key ∈ after.footnotes.map Footnote.key → f ∈ after.footnotes
  only : ∀ f ∈ after.footnotes, f.key ∈ before.footnotes.map Footnote.key → f ∈ before.footnotes

end DocumentPlan

/-- A footnote is read from its own text. -/
theorem ParsedDocument.read_of_mem_footnotes {lines : List Text} {f : Footnote}
    (h : f ∈ (ofLines lines).footnotes) : BodyLine.read f.line f.raw = .footnote (.ok f) := by
  obtain ⟨⟨line, l⟩, hmem, hfound⟩ := List.mem_filterMap.mp (List.mem_of_mem_filter h)
  obtain ⟨n, t, -, -, rfl, rfl⟩ := mem_bodyOf_iff.mp hmem
  have hread := BodyLine.footnote?_read_iff.mp hfound
  obtain ⟨hline, hraw⟩ := Footnote.ofLine?_eq_ok hread
  rw [hline, hraw, BodyLine.read_dropReturns, BodyLine.read, hread]

/-- A footnote that says the same on the same line is the same footnote. -/
theorem ParsedDocument.mem_footnotes_of_key {lines lines' : List Text} {f : Footnote}
    (h : f ∈ (ofLines lines).footnotes)
    (hkey : f.key ∈ (ofLines lines').footnotes.map Footnote.key) : f ∈ (ofLines lines').footnotes := by
  obtain ⟨g, hg, hsame⟩ := List.mem_map.mp hkey
  have hline : g.line = f.line := congrArg (·.2.1) hsame
  have hraw : g.raw = f.raw := congrArg (·.2.2) hsame
  have hread := read_of_mem_footnotes hg
  rw [hline, hraw, read_of_mem_footnotes h] at hread
  cases hread
  exact hg

namespace DocumentPlan

variable {p : DocumentPlan}

theorem footnotes_plain {sites : List Site} (hsites : ∀ site ∈ sites, site ∈ p.document.sites)
    (linkable : p.Linkable) : ∀ t ∈ (sites.filterMap p.added?).map Prod.snd, '\n' ∉ t := by
  intro t ht
  obtain ⟨added, hadded, rfl⟩ := List.mem_map.mp ht
  obtain ⟨site, hsite, hsome⟩ := List.mem_filterMap.mp hadded
  obtain ⟨-, -, rfl⟩ := added?_eq_some hsome
  exact Footnote.not_mem_render site.name (hint_plain site.name).2
    (linkable_coverers linkable (hsites site hsite))

theorem text_eq_some {name : Identifier} {payload : Text} (h : p.text name = some payload) :
    payload = p.footnoteText name := by
  rw [text, Option.bind_eq_some_iff] at h
  obtain ⟨existing, -, h⟩ := h
  split at h
  · exact (Option.some.inj h).symm
  · cases h

/-- The footnote of a settled requirement has the text that it is to have. -/
theorem getD_text {name : Identifier} {existing : Footnote}
    (hfound : p.document.footnote? name = some existing)
    (settled : isSettled (p.evidence name) (p.document.status name)) :
    (p.text name).getD existing.raw = p.footnoteText name := by
  rw [text, hfound, Option.bind_some]
  by_cases hsame : existing.raw = p.footnoteText name
  · rw [if_neg fun h => h.2 hsame]
    exact hsame
  · rw [if_pos ⟨settled, hsame⟩]
    rfl

/-- The new texts of footnotes are footnotes. -/
theorem readable_progress {sites : List Site} (hsites : ∀ site ∈ sites, site ∈ p.document.sites)
    (linkable : p.Linkable) :
    Retold.Readable (progress (sites.map Site.name) p.text fun _ => none) := by
  intro name payload h
  unfold progress at h
  split at h
  · rename_i hmem
    obtain ⟨site, hsite, rfl⟩ := List.mem_map.mp hmem
    have hlinkable := linkable_coverers linkable (hsites site hsite)
    obtain ⟨hback, hfeed⟩ := hint_plain (p := p) site.name
    rw [text_eq_some h]
    exact ⟨Footnote.not_mem_render site.name hfeed hlinkable,
      fun line => view_read_render line site.name hback hfeed hlinkable⟩
  · cases h

/-! ### Lines that are reached by the edits, with the added footnotes -/

section Appended

variable {old lines new : List Text} {bodyStart : Nat} {sites : List Site}
  (h : p.IsFor (ParsedDocument.ofLines old))
  (describes : Describes p.document (.declared p.package bodyStart) old)
  (hheader : Header.ofLines old = .declared p.package bodyStart)
  (reached : p.Reached (.declared p.package bodyStart) old lines (sites.map Site.name))
  (appended : LineFile.Appended (.declared p.package bodyStart) lines new (sites.filterMap p.added?))
  (hsites : sites.Perm p.document.sites) (linkable : p.Linkable)

include reached hsites linkable

/-- The lines before footnotes are added say what is settled of those in place. -/
theorem views_of_reached : views (.declared p.package bodyStart) lines =
    (views (.declared p.package bodyStart) old).map fun entry => (entry.1, entry.2.retell
      (progress (sites.map Site.name) p.status p.document.status)
      (progress (sites.map Site.name) p.text fun _ => none)) :=
  reached.views_eq (readable_progress (fun _ hsite => hsites.mem_iff.mp hsite) linkable)

include h describes hheader appended

theorem faults_of_appended : (ParsedDocument.ofLines new).faults = [] := by
  have hviews := views_of_reached reached hsites linkable
  have hold := (ParsedDocument.faults_eq_nil_iff old).mp h.faults
  rw [hheader] at hold
  -- The edited lines are well formed, and so are the added ones.
  have hwell : ∀ entry ∈ views (.declared p.package bodyStart) lines, entry.2 ≠ .malformed := by
    intro entry hentry
    rw [hviews] at hentry
    obtain ⟨entry, hmem, rfl⟩ := List.mem_map.mp hentry
    exact LineView.retell_ne_malformed (hold.2.1 entry hmem) _ _
  refine (ParsedDocument.faults_eq_nil_iff new).mpr ?_
  rw [appended.ofLines]
  refine ⟨rfl, appended.wellFormed hwell, ?_⟩
  rw [appended.noteNames, hviews, noteKeys_retell, List.map_map]
  exact nodup_added describes (h.nodup_names hsites)

theorem map_key_sites_of_appended : (ParsedDocument.ofLines new).sites.map Site.key =
    (ParsedDocument.ofLines old).sites.map fun s =>
      (s.name, s.line, settledStatus (p.evidence s.name) s.status) := by
  have hfaults := faults_of_appended h describes hheader reached appended hsites linkable
  rw [ParsedDocument.map_key_sites hfaults, appended.ofLines, appended.sites,
    views_of_reached reached hsites linkable, siteKeys_retell, ← describes.sites, h.sites, List.map_map]
  refine List.map_congr_left fun s hs => ?_
  rw [← h.sites] at hs
  have hmem : s.name ∈ sites.map Site.name := List.mem_map_of_mem (hsites.mem_iff.mpr hs)
  have hstatus : progress (sites.map Site.name) p.status p.document.status s.name =
      settledStatus (p.evidence s.name) s.status := by
    rw [progress, if_pos hmem, status, describes.status_of_mem hs]
  exact congrArg (fun status => (s.name, s.line, status)) hstatus

theorem map_key_footnotes_of_appended : ∃ first, (ParsedDocument.ofLines new).footnotes.map Footnote.key =
    ((ParsedDocument.ofLines old).footnotes.map fun f =>
      (f.name, f.line, (progress (sites.map Site.name) p.text (fun _ => none) f.name).getD f.raw)) ++
    ((sites.filterMap p.added?).zipIdx first).map fun (a, line) => (a.1, line, a.2) := by
  have hfaults := faults_of_appended h describes hheader reached appended hsites linkable
  obtain ⟨first, hnotes⟩ := appended.notes
  rw [views_of_reached reached hsites linkable, noteKeys_retell] at hnotes
  refine ⟨first, ?_⟩
  rw [ParsedDocument.map_key_footnotes hfaults, appended.ofLines, hnotes, ← describes.footnotes, h.footnotes,
    List.map_map]
  rfl

/-- They say what is settled. -/
theorem result_of_appended : p.Result sites (ParsedDocument.ofLines old) (ParsedDocument.ofLines new) := by
  refine ⟨faults_of_appended h describes hheader reached appended hsites linkable, ?_,
    map_key_sites_of_appended h describes hheader reached appended hsites linkable,
    map_key_footnotes_of_appended h describes hheader reached appended hsites linkable,
    fun f hf hkey => ParsedDocument.mem_footnotes_of_key hf hkey,
    fun f hf hkey => ParsedDocument.mem_footnotes_of_key hf hkey⟩
  have hnew : (ParsedDocument.ofLines new).package = (Header.ofLines new).package? := rfl
  rw [hnew, appended.ofLines, h.package]
  rfl

end Appended

/-! ### The edits of a document -/

/-- The edits for all sites of a document can be carried out on its lines. -/
theorem exists_foldlM_patch (path : Path) {f : LineFile} (h : p.IsFor (ParsedDocument.ofLines f.lines))
    (plain : ∀ t ∈ f.lines, '\n' ∉ t) {sites : List Site} (hsites : sites.Perm p.document.sites)
    {edits : List Action} (hedits : ∀ a ∈ edits, a.isManifestEdit = true) :
    ∃ lines, (sites.flatMap p.actions ++ edits).foldlM (LineFile.patch path) f = .ok { f with lines } ∧
      p.Reached (Header.ofLines f.lines) f.lines lines (sites.map Site.name) := by
  have hmem : ∀ site ∈ sites, site ∈ p.document.sites := fun site hsite => hsites.mem_iff.mp hsite
  have hstart : p.Reached (Header.ofLines f.lines) f.lines f.lines [] := h.describes.retold plain
  obtain ⟨lines, hrun, hreached⟩ := exists_flatMap_actions path h.describes hmem (h.nodup_names hsites)
    (fun _ _ => List.not_mem_nil) hstart
  have hdone : ∀ name, name ∈ (sites.map Site.name).reverse ++ [] ↔ name ∈ sites.map Site.name := by simp
  refine ⟨lines, ?_, ?_⟩
  · rw [List.foldlM_append, hrun]
    exact foldlM_patch_manifestEdits path hedits _
  · rw [Reached, ← progress_congr _ _ hdone, ← progress_congr _ _ hdone]
    exact hreached

/-- The edits for all sites of a document succeed, and the document then says what is settled. -/
theorem exists_patchDocument (path : Path) {t : Text} (h : p.IsFor (ParsedDocument.parse t))
    (linkable : p.Linkable) {sites : List Site} (hsites : sites.Perm p.document.sites)
    {edits : List Action} (hedits : ∀ a ∈ edits, a.isManifestEdit = true) :
    ∃ t', patchDocument path t (sites.flatMap p.actions ++ edits) = .ok t' ∧
      p.Result sites (ParsedDocument.parse t) (ParsedDocument.parse t') := by
  rw [ParsedDocument.parse_eq_ofLines] at h ⊢
  generalize hfile : LineFile.parse t = file at h ⊢
  have hplain : ∀ line ∈ file.lines, '\n' ∉ line := fun line hline =>
    LineFile.not_mem_of_mem_parse (t := t) (by rw [hfile]; exact hline)
  have hnonempty : file.lines ≠ [] := by
    rw [← hfile]
    exact LineFile.lines_parse_ne_nil t
  have hmem : ∀ site ∈ sites, site ∈ p.document.sites := fun site hsite => hsites.mem_iff.mp hsite
  obtain ⟨lines, hfold, hreached⟩ := exists_foldlM_patch path h hplain hsites hedits
  have describes := h.describes
  obtain ⟨bodyStart, hheader⟩ := h.exists_header
  rw [hheader] at describes hreached
  have hadded := areFootnotes_added hmem linkable
  have hnew : newFootnotes (sites.flatMap p.actions ++ edits) =
      (sites.filterMap p.added?).map Prod.snd := by
    rw [newFootnotes_append, newFootnotes_flatMap describes, newFootnotes_manifestEdits hedits,
      List.append_nil]
  have hheader' : Header.ofLines lines = .declared p.package bodyStart :=
    Header.ofLines_of_take_eq hheader hreached.take
  have happended := LineFile.appended { file with lines } hadded
  rw [hheader'] at happended
  have hplain' := LineFile.plain_appendFootnotes (f := { file with lines })
    (hreached.plain (readable_progress hmem linkable) hplain) (footnotes_plain hmem linkable)
  have hnonempty' : lines ≠ [] := fun hnil => by
    have hlength := hreached.length
    rw [hnil] at hlength
    exact hnonempty (List.length_eq_zero_iff.mp hlength.symm)
  generalize hresult : ({ file with lines } : LineFile).appendFootnotes
    ((sites.filterMap p.added?).map Prod.snd) = result at happended hplain'
  have hpatched : patchDocument path t (sites.flatMap p.actions ++ edits) = .ok result.render := by
    rw [patchDocument, LineFile.applyAll, hfile, hfold, hnew, ← hresult]
    rfl
  have hparse : ParsedDocument.parse result.render = ParsedDocument.ofLines result.lines := by
    refine ParsedDocument.parse_render ?_ hplain'
    rw [← hresult]
    exact LineFile.appendFootnotes_ne_nil (f := { file with lines }) hnonempty' _
  refine ⟨result.render, hpatched, ?_⟩
  rw [hparse]
  exact result_of_appended h describes hheader hreached happended hsites linkable

/-- The edits for all sites of a document can be carried out on its text, whatever the links of the
    evidence are. -/
theorem exists_patchDocument_eq_ok (path : Path) {t : Text} (h : p.IsFor (ParsedDocument.parse t))
    {sites : List Site} (hsites : sites.Perm p.document.sites) {edits : List Action}
    (hedits : ∀ a ∈ edits, a.isManifestEdit = true) :
    ∃ t', patchDocument path t (sites.flatMap p.actions ++ edits) = .ok t' := by
  rw [ParsedDocument.parse_eq_ofLines] at h
  obtain ⟨lines, hfold, -⟩ := exists_foldlM_patch path h
    (fun line hline => LineFile.not_mem_of_mem_parse hline) hsites hedits
  rw [patchDocument, LineFile.applyAll, hfold]
  exact ⟨_, rfl⟩

end DocumentPlan

end ReqTrace
