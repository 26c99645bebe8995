/-
Module: ReqTrace.Proofs.Plan.DocumentRun
Purpose: The edits of one document, one declaration after the other. Each declaration settles the status of
  its site and the text of its footnote, in place or at the end of the document.
Main exports: settledStatus, Describes, progress, DocumentPlan, DocumentPlan.Reached, DocumentPlan.exists_actions,
  DocumentPlan.exists_flatMap_actions
-/
import Mathlib.Logic.Function.Basic
import ReqTrace.Plan
import ReqTrace.Proofs.Document.Appended
import ReqTrace.Proofs.Document.Retold

namespace ReqTrace

open Text

/-! ### What evidence settles -/

/-- The status of a site once the evidence is taken into account. -/
def settledStatus (evidence : List Evidence) (old : SiteStatus) : SiteStatus :=
  if evidence ≠ [] then .covered else if old = .covered then .uncovered else old

/-- Whether the evidence says anything about a site. -/
def isSettled (evidence : List Evidence) (old : SiteStatus) : Prop :=
  evidence ≠ [] ∨ old = .covered

instance (evidence : List Evidence) (old : SiteStatus) : Decidable (isSettled evidence old) :=
  inferInstanceAs (Decidable (_ ∨ _))

theorem desiredStatus?_eq_some {site : Site} {evidence : List Evidence}
    (h : isSettled evidence site.status) :
    desiredStatus? site evidence = some (settledStatus evidence site.status) := by
  unfold desiredStatus? settledStatus
  rcases h with h | h
  · simp [h]
  · by_cases hnone : evidence = [] <;> simp [hnone, h]

theorem desiredStatus?_eq_none {site : Site} {evidence : List Evidence}
    (h : ¬ isSettled evidence site.status) : desiredStatus? site evidence = none := by
  simp only [isSettled, not_or, not_not] at h
  simp [desiredStatus?, h]

theorem settledStatus_of_not {evidence : List Evidence} {old : SiteStatus}
    (h : ¬ isSettled evidence old) : settledStatus evidence old = old := by
  simp only [isSettled, not_or, not_not] at h
  simp [settledStatus, h]

theorem settledStatus_ne_bare {evidence : List Evidence} {old : SiteStatus}
    (h : isSettled evidence old) : settledStatus evidence old ≠ .bare := by
  unfold settledStatus
  rcases h with h | h
  · simp [h]
  · by_cases hnone : evidence = [] <;> simp [hnone, h]

/-- The tag that a hint proposes can stand between backticks in a line. -/
theorem RequirementId.not_mem_hint (id : RequirementId) {c : Char} (hc : isIdentifierChar c = false)
    (hother : c ∉ "[~/~impl]".toList) : c ∉ id.hint := by
  have hpackage : c ∉ id.package.text := id.package.not_mem_text hc
  have hname : c ∉ id.name.text := id.name.not_mem_text hc
  simp only [String.reduceToList, List.mem_cons, List.not_mem_nil, or_false, not_or] at hother
  simp [hint, text, hpackage, hname, hother]

/-! ### Records of documents -/

/-- A record says what the lines of a document say, and no two of these share a name. -/
structure Describes (d : DocumentRecord) (header : Header) (lines : List Text) : Prop where
  sites : d.sites.map Site.key = siteKeys (views header lines)
  footnotes : d.footnotes.map Footnote.key = noteKeys (views header lines)
  unambiguous : Unambiguous header lines

namespace DocumentRecord

/-- The status of a requirement in a document. -/
def status (d : DocumentRecord) (name : Identifier) : SiteStatus :=
  ((d.sites.find? (·.name == name)).map Site.status).getD .bare

end DocumentRecord

namespace Describes

variable {d : DocumentRecord} {header : Header} {lines : List Text}

theorem nodup_sites (h : Describes d header lines) : (d.sites.map Site.name).Nodup := by
  have hnodup := h.unambiguous.sites
  rw [← h.sites, List.map_map] at hnodup
  exact hnodup

theorem nodup_footnotes (h : Describes d header lines) : (d.footnotes.map Footnote.name).Nodup := by
  have hnodup := h.unambiguous.notes
  rw [← h.footnotes, List.map_map] at hnodup
  exact hnodup

theorem status_of_mem (h : Describes d header lines) {s : Site} (hs : s ∈ d.sites) :
    d.status s.name = s.status := by
  rw [DocumentRecord.status, (find?_key_eq_some_iff Site.name h.nodup_sites).mpr ⟨hs, rfl⟩]
  rfl

theorem footnote?_of_mem (h : Describes d header lines) {f : Footnote} (hf : f ∈ d.footnotes) :
    d.footnote? f.name = some f :=
  (find?_key_eq_some_iff Footnote.name h.nodup_footnotes).mpr ⟨hf, rfl⟩

theorem exists_view_of_site (h : Describes d header lines) {s : Site} (hs : s ∈ d.sites) :
    ∃ v, (s.line, v) ∈ views header lines ∧ s.name ∈ v.names := by
  have hkey : s.key ∈ siteKeys (views header lines) := by
    rw [← h.sites]
    exact List.mem_map_of_mem hs
  obtain ⟨v, hv, hentry⟩ := mem_siteKeys_iff.mp hkey
  exact ⟨v, hv, List.mem_map.mpr ⟨_, hentry, rfl⟩⟩

theorem view_of_footnote (h : Describes d header lines) {f : Footnote} (hf : f ∈ d.footnotes) :
    (f.line, .footnote f.name f.raw) ∈ views header lines := by
  have hkey : f.key ∈ noteKeys (views header lines) := by
    rw [← h.footnotes]
    exact List.mem_map_of_mem hf
  exact mem_noteKeys_iff.mp hkey

/-- Every site on a line is one that the record knows. -/
theorem exists_site_of_view (h : Describes d header lines) {line : Nat} {v : LineView}
    (hv : (line, v) ∈ views header lines) {e : Identifier × SiteStatus} (he : e ∈ v.entries) :
    ∃ s ∈ d.sites, s.key = (e.1, line, e.2) := by
  have hkey : (e.1, line, e.2) ∈ siteKeys (views header lines) := mem_siteKeys_iff.mpr ⟨v, hv, he⟩
  rw [← h.sites] at hkey
  exact List.mem_map.mp hkey

end Describes

/-! ### Progress through the declarations -/

/-- What holds for names when some of them are done. -/
def progress {α : Type} (done : List Identifier) (target start : Identifier → α) (name : Identifier) : α :=
  if name ∈ done then target name else start name

theorem progress_cons {α : Type} (done : List Identifier) (target start : Identifier → α)
    (name : Identifier) :
    progress (name :: done) target start =
      Function.update (progress done target start) name (target name) := by
  funext other
  by_cases h : other = name
  · simp [progress, h]
  · simp [progress, h]

theorem progress_cons_of_eq {α : Type} (done : List Identifier) {target start : Identifier → α}
    {name : Identifier} (h : target name = start name) :
    progress (name :: done) target start = progress done target start := by
  rw [progress_cons, Function.update_eq_self_iff]
  simp [progress, h]

theorem progress_congr {α : Type} {done done' : List Identifier} (target start : Identifier → α)
    (h : ∀ name, name ∈ done ↔ name ∈ done') :
    progress done target start = progress done' target start := by
  funext name
  simp [progress, h]

/-- The edits of a document, with the evidence for each of its requirements. -/
structure DocumentPlan where
  document : DocumentRecord
  package : Identifier
  evidence : Identifier → List Evidence

namespace DocumentPlan

variable (p : DocumentPlan)

/-- The id of a requirement of the document. -/
def id (name : Identifier) : RequirementId :=
  ⟨p.package, name⟩

/-- The statuses that the document is to have. -/
def status (name : Identifier) : SiteStatus :=
  settledStatus (p.evidence name) (p.document.status name)

/-- The footnote of a requirement with evidence. -/
def footnoteText (name : Identifier) : Text :=
  Footnote.render name (p.id name).hint ((p.evidence name).map Evidence.coverer)

/-- The new texts of the footnotes that the document has with other ones. -/
def text (name : Identifier) : Option Text :=
  (p.document.footnote? name).bind fun existing =>
    if isSettled (p.evidence name) (p.document.status name) ∧ existing.raw ≠ p.footnoteText name then
      some (p.footnoteText name)
    else none

/-- The declaration of a site of the document. -/
def declaration (site : Site) : Declaration :=
  ⟨p.id site.name, p.document, site⟩

/-- The edits for a site of the document. -/
def actions (site : Site) : List Action :=
  (p.declaration site).actions (p.evidence site.name)

/-- All links of the evidence can stand in a line. -/
def Linkable : Prop :=
  ∀ site ∈ p.document.sites, ∀ e ∈ p.evidence site.name, e.coverer.Linkable

variable {p} {header : Header} {old : List Text}

theorem linkable_coverers (linkable : p.Linkable) {site : Site} (hs : site ∈ p.document.sites) :
    ∀ c ∈ (p.evidence site.name).map Evidence.coverer, c.Linkable := by
  intro c hc
  obtain ⟨e, he, rfl⟩ := List.mem_map.mp hc
  exact linkable site hs e he

theorem hint_plain (name : Identifier) : '`' ∉ (p.id name).hint ∧ '\n' ∉ (p.id name).hint :=
  ⟨(p.id name).not_mem_hint (by decide) (by decide), (p.id name).not_mem_hint (by decide) (by decide)⟩

/-- The lines of the document when the requirements in `done` are settled. -/
def Reached (p : DocumentPlan) (header : Header) (old new : List Text) (done : List Identifier) : Prop :=
  Retold header old new (progress done p.status p.document.status) (progress done p.text fun _ => none)

/-- The edit of a marker settles its status. -/
theorem exists_siteActions (path : Path) (describes : Describes p.document header old) {f : LineFile}
    {site : Site} (hs : site ∈ p.document.sites)
    (settled : isSettled (p.evidence site.name) site.status) {done : List Identifier}
    {text : Identifier → Option Text}
    (h : Retold header old f.lines (progress done p.status p.document.status) text) :
    ∃ lines, ((p.declaration site).siteActions (settledStatus (p.evidence site.name) site.status)).foldlM
        (LineFile.patch path) f = .ok { f with lines } ∧
      Retold header old lines (progress (site.name :: done) p.status p.document.status) text := by
  have hstatus := describes.status_of_mem hs
  have htarget : p.status site.name = settledStatus (p.evidence site.name) site.status := by
    rw [status, hstatus]
  unfold Declaration.siteActions
  split
  · rename_i hsame
    refine ⟨f.lines, rfl, ?_⟩
    rw [progress_cons_of_eq done (htarget.trans (hsame.symm.trans hstatus.symm))]
    exact h
  · obtain ⟨v, hv, hmem⟩ := describes.exists_view_of_site hs
    have hname : (p.id site.name).name ∈ v.names := hmem
    obtain ⟨lines, hpatched, hlines⟩ := h.patchSite path describes.unambiguous hv hname
      (settledStatus_ne_bare settled)
    refine ⟨lines, ?_, ?_⟩
    · rw [List.foldlM_cons, LineFile.patch]
      exact (congrArg (· >>= _) hpatched).trans rfl
    · rw [progress_cons, htarget]
      exact hlines

/-- The footnote that an edit adds, if it replaces none. -/
def added? (p : DocumentPlan) (site : Site) : Option (Identifier × Text) :=
  if isSettled (p.evidence site.name) site.status ∧ p.document.footnote? site.name = none then
    some (site.name, p.footnoteText site.name)
  else none

/-- The edit of a footnote in place settles its text; one that is added leaves the lines as they are. -/
theorem exists_footnoteActions (path : Path) (describes : Describes p.document header old) {f : LineFile}
    {site : Site} (hs : site ∈ p.document.sites)
    (settled : isSettled (p.evidence site.name) site.status) {done : List Identifier}
    (fresh : site.name ∉ done) {status : Identifier → SiteStatus}
    (h : Retold header old f.lines status (progress done p.text fun _ => none)) :
    ∃ lines, ((p.declaration site).footnoteActions (p.evidence site.name)).foldlM
        (LineFile.patch path) f = .ok { f with lines } ∧
      Retold header old lines status (progress (site.name :: done) p.text fun _ => none) := by
  rw [← describes.status_of_mem hs] at settled
  unfold Declaration.footnoteActions
  simp only
  split
  · rename_i existing hexisting
    have hfound : p.document.footnote? site.name = some existing := hexisting
    obtain ⟨hmem, hname⟩ := (find?_key_eq_some_iff Footnote.name describes.nodup_footnotes).mp hfound
    have hview := describes.view_of_footnote hmem
    rw [hname] at hview
    split
    · rename_i hsame
      have hkept : existing.raw = p.footnoteText site.name := hsame
      refine ⟨f.lines, rfl, ?_⟩
      rw [progress_cons_of_eq done (by simp [text, hfound, hkept])]
      exact h
    · rename_i hother
      have htarget : p.text site.name = some (p.footnoteText site.name) := by
        rw [text, hfound]
        exact if_pos ⟨settled, hother⟩
      obtain ⟨n, hn⟩ : ∃ n, existing.line = n + 1 := by
        obtain ⟨n, -, -, -, hn, -⟩ := mem_views_iff.mp hview
        exact ⟨n, hn⟩
      have hplace : (existing.line, LineView.footnote (p.id site.name).name existing.raw) ∈
        views header old := hview
      obtain ⟨lines, hpatched, hlines⟩ := h.patchFootnote path describes.unambiguous hplace
        (if_neg fresh) (p.footnoteText site.name)
      refine ⟨lines, ?_, ?_⟩
      · rw [hn] at hpatched ⊢
        rw [List.foldlM_cons]
        exact (congrArg (· >>= _) hpatched).trans rfl
      · rw [progress_cons, htarget]
        exact hlines
  · rename_i hnone
    have hnone' : p.document.footnote? site.name = none := hnone
    refine ⟨f.lines, rfl, ?_⟩
    rw [progress_cons_of_eq done (by simp [text, hnone'])]
    exact h

/-- The edits for one site settle its status and its footnote. -/
theorem exists_actions (path : Path) (describes : Describes p.document header old) {f : LineFile}
    {site : Site} (hs : site ∈ p.document.sites) {done : List Identifier} (fresh : site.name ∉ done)
    (h : p.Reached header old f.lines done) :
    ∃ lines, (p.actions site).foldlM (LineFile.patch path) f = .ok { f with lines } ∧
      p.Reached header old lines (site.name :: done) := by
  have hstatus := describes.status_of_mem hs
  unfold actions Declaration.actions
  by_cases settled : isSettled (p.evidence site.name) site.status
  · have hdesired : desiredStatus? (p.declaration site).site (p.evidence site.name) =
        some (settledStatus (p.evidence site.name) site.status) := desiredStatus?_eq_some settled
    rw [hdesired]
    obtain ⟨lines, hsites, hlines⟩ := exists_siteActions path describes hs settled h
    obtain ⟨lines', hnotes, hlines'⟩ := exists_footnoteActions path describes hs settled fresh
      (f := { f with lines }) hlines
    refine ⟨lines', ?_, hlines'⟩
    rw [List.foldlM_append, hsites]
    exact hnotes
  · have hdesired : desiredStatus? (p.declaration site).site (p.evidence site.name) = none :=
      desiredStatus?_eq_none settled
    rw [hdesired]
    refine ⟨f.lines, rfl, ?_⟩
    have hsame : p.status site.name = p.document.status site.name := by
      rw [status, hstatus, settledStatus_of_not settled]
    have htext : p.text site.name = none := by
      cases hfound : p.document.footnote? site.name with
      | none => simp [text, hfound]
      | some existing => simp [text, hfound, hstatus, settled]
    rw [Reached, progress_cons_of_eq done hsame, progress_cons_of_eq done htext]
    exact h

/-- The edits for some sites settle their statuses and footnotes, whatever the order of the sites. -/
theorem exists_flatMap_actions (path : Path) (describes : Describes p.document header old)
    {sites : List Site} (hsites : ∀ site ∈ sites, site ∈ p.document.sites)
    (names : (sites.map Site.name).Nodup) {f : LineFile} {done : List Identifier}
    (fresh : ∀ site ∈ sites, site.name ∉ done) (h : p.Reached header old f.lines done) :
    ∃ lines, (sites.flatMap p.actions).foldlM (LineFile.patch path) f = .ok { f with lines } ∧
      p.Reached header old lines ((sites.map Site.name).reverse ++ done) := by
  induction sites generalizing f done with
  | nil => exact ⟨f.lines, rfl, h⟩
  | cons site sites ih =>
      obtain ⟨hnew, names⟩ := List.nodup_cons.mp names
      obtain ⟨lines, hfirst, hlines⟩ :=
        exists_actions path describes (hsites site List.mem_cons_self) (fresh site List.mem_cons_self) h
      have hfresh : ∀ s ∈ sites, s.name ∉ site.name :: done := by
        intro s hs hmem
        rcases List.mem_cons.mp hmem with heq | hdone
        · exact hnew (List.mem_map.mpr ⟨s, hs, heq⟩)
        · exact fresh s (List.mem_cons_of_mem _ hs) hdone
      obtain ⟨lines', hrest, hlines'⟩ := ih (fun s hs => hsites s (List.mem_cons_of_mem _ hs)) names
        (f := { f with lines }) hfresh hlines
      refine ⟨lines', ?_, ?_⟩
      · rw [List.flatMap_cons, List.foldlM_append, hfirst]
        exact hrest
      · simpa using hlines'

end DocumentPlan

end ReqTrace
