/-
Module: ReqTrace.Proofs.Plan.Apart
Purpose: The edits that a plan has for one document do not get into each other's way. No line has both sites and a
  footnote, and no two footnotes are on one line.
Main exports: ParsedDocument.line_ne_of_mem, ParsedDocument.eq_of_line, apart_of_declarations, apart_of_mem_plan
-/
import ReqTrace.Proofs.Document.Apart
import ReqTrace.Proofs.Document.Located
import ReqTrace.Proofs.Plan.Coverage

namespace ReqTrace

/-! ### Lines of a document -/

namespace ParsedDocument

variable {t : Text}

/-- A footnote and a site are on different lines. -/
theorem line_ne_of_mem {site : Site} {note : Footnote} (hsite : site ∈ (parse t).sites)
    (hnote : note ∈ (parse t).footnotes) : note.line ≠ site.line := by
  intro hline
  rw [parse_eq_ofLines] at hsite hnote
  obtain ⟨-, text, htext, hshape, -⟩ := mem_sites_iff.mp hsite
  obtain ⟨⟨-, text', htext', hread⟩, -⟩ := mem_footnotes_iff.mp hnote
  rw [hline, htext] at htext'
  obtain rfl := Option.some.inj htext'
  obtain ⟨shape, hsome, -⟩ := Option.bind_eq_some_iff.mp hread
  rw [Footnote.isFootnoteLine, hsome] at hshape
  cases hshape

/-- There is one footnote on a line at most. -/
theorem eq_of_line {note note' : Footnote} (hnote : note ∈ (parse t).footnotes)
    (hnote' : note' ∈ (parse t).footnotes) (hline : note.line = note'.line) : note = note' := by
  rw [parse_eq_ofLines] at hnote hnote'
  obtain ⟨⟨-, text, htext, hread⟩, -⟩ := mem_footnotes_iff.mp hnote
  obtain ⟨⟨-, text', htext', hread'⟩, -⟩ := mem_footnotes_iff.mp hnote'
  rw [← hline, htext] at htext'
  obtain rfl := Option.some.inj htext'
  rw [← hline, hread] at hread'
  exact Except.ok.inj (Option.some.inj hread')

end ParsedDocument

/-! ### Edits for the declarations of a document -/

theorem Declaration.footnoteLine_cases (x : Declaration) :
    x.footnoteLine = 0 ∨
      ∃ note ∈ x.document.footnotes, note.name = x.site.name ∧ x.footnoteLine = note.line := by
  unfold footnoteLine
  cases hnote : x.document.footnote? x.site.name with
  | none => exact .inl rfl
  | some note =>
      exact .inr ⟨note, List.mem_of_find?_eq_some hnote, by simpa using List.find?_some hnote, rfl⟩

section Declarations

variable {t : Text} {d : DocumentRecord} {x y : Declaration} {evidence : RequirementId → List Evidence}
  {a b : Action}

/-- The edit of a footnote is not for the line of a site. -/
theorem inPlace?_footnote_ne_site (parsed : d = .ofParsed d.path (ParsedDocument.parse t))
    (hx : x ∈ d.declarations) (hy : y ∈ d.declarations) (path : Path) (payload : Text) :
    (Action.footnote path x.footnoteLine x.id payload).inPlace? ≠ some y.site.line := by
  obtain ⟨package, site, -, hsite, rfl⟩ := DocumentRecord.mem_declarations_iff.mp hy
  rw [parsed] at hsite
  rw [Action.inPlace?_footnote]
  rcases x.footnoteLine_cases with hzero | ⟨note, hnote, -, hline⟩
  · rw [if_pos hzero]
    simp
  · rw [DocumentRecord.document_of_mem_declarations hx, parsed] at hnote
    have hne := ParsedDocument.line_ne_of_mem hsite hnote
    rw [hline]
    split
    · simp
    · exact fun heq => hne (Option.some.inj heq)

/-- A requirement has one site in its document. -/
theorem eq_of_site_name (names : (d.sites.map Site.name).Nodup) (hx : x ∈ d.declarations)
    (hy : y ∈ d.declarations) (hname : x.site.name = y.site.name) : x = y := by
  obtain ⟨package, site, hpackage, hsite, rfl⟩ := DocumentRecord.mem_declarations_iff.mp hx
  obtain ⟨package', site', hpackage', hsite', rfl⟩ := DocumentRecord.mem_declarations_iff.mp hy
  cases hpackage.symm.trans hpackage'
  obtain rfl := List.inj_on_of_nodup_map names hsite hsite' hname
  rfl

/-- The edits of two markers are for different lines or for different names, or they are one edit. -/
theorem apart_of_markers (names : (d.sites.map Site.name).Nodup) (hx : x ∈ d.declarations)
    (hy : y ∈ d.declarations) {status status' : SiteStatus}
    (hstatus : desiredStatus? x.site (evidence x.id) = some status)
    (hstatus' : desiredStatus? y.site (evidence y.id) = some status') :
    (Action.site x.document.path x.site.line x.id (Site.render x.site.name status)).Apart
      (.site y.document.path y.site.line y.id (Site.render y.site.name status')) := by
  by_cases hline : x.site.line = y.site.line
  · by_cases hname : x.site.name = y.site.name
    · obtain rfl := eq_of_site_name names hx hy hname
      cases hstatus.symm.trans hstatus'
      exact .same _
    · have hx' := DocumentRecord.name_of_mem_declarations hx
      have hy' := DocumentRecord.name_of_mem_declarations hy
      rw [← hline, ← hx', ← hy']
      exact .markers (by rwa [hx', hy']) (annotated_of_desiredStatus? hstatus)
        (annotated_of_desiredStatus? hstatus')
  · exact .lines fun heq => hline (Option.some.inj heq)

/-- The edits of two footnotes are for different lines, or they are one edit; or the first one adds a footnote. -/
theorem apart_of_footnotes (parsed : d = .ofParsed d.path (ParsedDocument.parse t))
    (names : (d.sites.map Site.name).Nodup) (hx : x ∈ d.declarations) (hy : y ∈ d.declarations) :
    (Action.footnote x.document.path x.footnoteLine x.id (x.footnoteText (evidence x.id))).Apart
      (.footnote y.document.path y.footnoteLine y.id (y.footnoteText (evidence y.id))) := by
  by_cases hzero : x.footnoteLine = 0
  · refine .idle ?_
    rw [Action.inPlace?_footnote, if_pos hzero]
  · by_cases hline : x.footnoteLine = y.footnoteLine
    · obtain ⟨note, hnote, hname, hat⟩ := x.footnoteLine_cases.resolve_left hzero
      obtain ⟨note', hnote', hname', hat'⟩ := y.footnoteLine_cases.resolve_left (hline ▸ hzero)
      rw [DocumentRecord.document_of_mem_declarations hx, parsed] at hnote
      rw [DocumentRecord.document_of_mem_declarations hy, parsed] at hnote'
      obtain rfl := ParsedDocument.eq_of_line hnote hnote' (hat.symm.trans (hline.trans hat'))
      obtain rfl := eq_of_site_name names hx hy (hname.symm.trans hname')
      exact .same _
    · refine .lines fun heq => ?_
      rw [Action.inPlace?_footnote, Action.inPlace?_footnote, if_neg hzero] at heq
      split at heq
      · cases heq
      · exact hline (Option.some.inj heq)

/-- The edits for the declarations of a document are apart from each other. -/
theorem apart_of_declarations (parsed : d = .ofParsed d.path (ParsedDocument.parse t))
    (names : (d.sites.map Site.name).Nodup) (hx : x ∈ d.declarations) (hy : y ∈ d.declarations)
    (ha : a ∈ x.actions (evidence x.id)) (hb : b ∈ y.actions (evidence y.id)) : a.Apart b := by
  rcases Declaration.eq_of_mem_actions ha with ⟨status, hstatus, rfl⟩ | rfl
  · rcases Declaration.eq_of_mem_actions hb with ⟨status', hstatus', rfl⟩ | rfl
    · exact apart_of_markers names hx hy hstatus hstatus'
    · exact .lines (inPlace?_footnote_ne_site parsed hy hx _ _).symm
  · rcases Declaration.eq_of_mem_actions hb with ⟨status', hstatus', rfl⟩ | rfl
    · exact .lines (inPlace?_footnote_ne_site parsed hx hy _ _)
    · exact apart_of_footnotes parsed names hx hy

end Declarations

/-! ### Plans -/

/-- The edits that a plan has for documents are apart from each other where they have the same path, if the documents
    are read from texts and have different paths. -/
theorem apart_of_mem_plan {s : ScanResult} {actions : List Action} (h : plan s = .ok actions)
    (parsed : ∀ d ∈ s.documents, ∃ t, d = .ofParsed d.path (ParsedDocument.parse t))
    (distinct : s.documents.Pairwise fun a b => a.path.same b.path = false) {a b : Action} (ha : a ∈ actions)
    (hb : b ∈ actions) (same : a.path.same b.path = true) (document : a.isManifestEdit = false)
    (document' : b.isManifestEdit = false) : a.Apart b := by
  have horigin : ∀ a ∈ actions, a.isManifestEdit = false → ∃ d ∈ s.documents, ∃ x ∈ d.declarations,
      a ∈ x.actions (evidenceFor s.sources x.id) ∧ a.path = d.path := by
    intro a ha hkind
    rcases mem_plan_cases h ha with ⟨-, hfor⟩ | ⟨hmanifest, -⟩
    · exact hfor
    · rw [hmanifest] at hkind
      cases hkind
  obtain ⟨d, hd, x, hx, hown, hpath⟩ := horigin a ha document
  obtain ⟨d', hd', y, hy, hown', hpath'⟩ := horigin b hb document'
  rw [hpath, hpath'] at same
  obtain rfl := Path.eq_of_same distinct hd hd' same
  obtain ⟨t, ht⟩ := parsed d hd
  obtain ⟨package, -, hpackage, -, -⟩ := DocumentRecord.mem_declarations_iff.mp hx
  have hnames := nodup_names_of_plan h hd hpackage
  exact apart_of_declarations ht hnames hx hy hown hown'

end ReqTrace
