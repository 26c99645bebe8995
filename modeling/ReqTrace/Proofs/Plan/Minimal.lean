/-
Module: ReqTrace.Proofs.Plan.Minimal
Purpose: A plan holds no needless edit. No two edits write to the same thing, each one changes what it writes to, and
  what is as the tags demand is not written to.
Main exports: Target, Action.target, IsListing, Action.IsNeeded, Declaration.MarkerStands,
  Declaration.FootnoteStands, plan_minimal
-/
import ReqTrace.Proofs.Document.Located
import ReqTrace.Proofs.Plan.Ordered
import ReqTrace.Proofs.Plan.Settled

namespace ReqTrace

/-! ### Targets -/

/-- What an edit writes to. -/
inductive Target where
  | marker (document : List PathComponent) (requirement : RequirementId)
  | footnote (document : List PathComponent) (requirement : RequirementId)
  | entry (manifest : List PathComponent) (url : Text)
  deriving DecidableEq

/-- The requirement that is written about. -/
def Target.requirement? : Target → Option RequirementId
  | marker _ requirement => some requirement
  | footnote _ requirement => some requirement
  | entry _ _ => none

namespace Action

/-- What an edit writes to. Two spellings of a path lead to the same file. -/
def target : Action → Target
  | site path _ requirement _ => .marker path.components requirement
  | footnote path _ requirement _ => .footnote path.components requirement
  | setHash path url _ => .entry path.components url
  | dropHash path url => .entry path.components url

/-- Edits of one target differ in nothing that edits are ordered by, but one may set what the other one drops. -/
theorem eq_of_target {a b : Action} (h : a.target = b.target) :
    a.isManifestEdit = b.isManifestEdit ∧ a.path.components = b.path.components ∧ a.requirement? = b.requirement? ∧
      a.isFootnoteEdit = b.isFootnoteEdit ∧ a.url? = b.url? := by
  cases a <;> cases b <;>
    simp only [target, Target.marker.injEq, Target.footnote.injEq, Target.entry.injEq, reduceCtorEq] at h <;>
    simp [isManifestEdit, path, requirement?, isFootnoteEdit, url?, h]

theorem requirement?_target (a : Action) : a.target.requirement? = a.requirement? := by
  cases a with
  | site path line requirement payload => rfl
  | footnote path line requirement payload => rfl
  | setHash path url hash => rfl
  | dropHash path url => rfl

/-- A removal is an edit of a manifest. -/
theorem isManifestEdit_of_isRemoval {a : Action} (h : a.isRemoval = true) : a.isManifestEdit = true := by
  cases a with
  | site path line requirement payload => cases h
  | footnote path line requirement payload => cases h
  | setHash path url hash => rfl
  | dropHash path url => rfl

end Action

theorem ScanResult.comparePlanned_eq_of_target {s : ScanResult} {a b : Action} (target : a.target = b.target)
    (removal : a.isRemoval = b.isRemoval) : s.comparePlanned a b = .eq := by
  obtain ⟨hkind, hpath, hrequirement, hmarker, hurl⟩ := Action.eq_of_target target
  have hkey : a.fileKey = b.fileKey := by rw [Action.fileKey, Action.fileKey, hkind, hpath]
  have hsite : s.siteOf? a = s.siteOf? b := by rw [siteOf?, siteOf?, hrequirement]
  simp [comparePlanned, Action.compareFiles, compareSites, compareLex, compareOn, hkind, hkey, hsite, hrequirement,
    hmarker, hurl, removal]

section

variable {s : ScanResult} {actions : List Action} (plan : plan s = .ok actions)
include plan

/-- An address that a manifest loses is not one that it gets. -/
theorem isRemoval_of_target {a b : Action} (ha : a ∈ actions) (hb : b ∈ actions) (target : a.target = b.target)
    (hdrop : b.isRemoval = true) : a.isRemoval = true := by
  by_contra hset
  rw [Bool.not_eq_true] at hset
  obtain ⟨hkind, hpath, -, -, hurl⟩ := Action.eq_of_target target
  have hmanifest := Action.isManifestEdit_of_isRemoval hdrop
  obtain ⟨directory, hdirectory, ha⟩ := List.mem_flatMap.mp (mem_manifestEdits plan ha (hkind.trans hmanifest))
  obtain ⟨directory', hdirectory', hb⟩ := List.mem_flatMap.mp (mem_manifestEdits plan hb hmanifest)
  have hin := ScanResult.isEditIn_of_mem ha
  have hin' := ScanResult.isEditIn_of_mem hb
  have hkey : directory.components = directory'.components := by
    rw [← hin.fileKey, ← hin'.fileKey, Action.fileKey, Action.fileKey, hkind, hpath]
  obtain rfl := Table.eq_of_mem_keys hdirectory hdirectory' (Path.compare_eq_iff.mpr (Path.same_iff.mpr hkey))
  have hbefore : compare a.isRemoval b.isRemoval = .lt := by rw [hset, hdrop]; rfl
  obtain ⟨path, url, hash, rfl⟩ := hin.eq_setHash hbefore
  obtain ⟨path', url', rfl⟩ := hin'.eq_dropHash hbefore
  cases hurl
  -- The one is to be recorded, the other one is not.
  rw [ScanResult.manifestEditsIn_eq] at ha hb
  obtain ⟨-, hsome, -⟩ := setHash_mem_manifestActions_iff.mp ha
  obtain ⟨-, -, hnone⟩ := dropHash_mem_manifestActions_iff.mp hb
  rw [hsome] at hnone
  cases hnone

/-- No two edits of a plan write to the same thing. -/
theorem nodup_target : (actions.map Action.target).Nodup := by
  refine List.pairwise_map.mpr ((plan_ascending plan).imp_of_mem fun {a b} ha hb hlt target => ?_)
  have hremoval : a.isRemoval = b.isRemoval :=
    Bool.eq_iff_iff.mpr ⟨isRemoval_of_target plan hb ha target.symm, isRemoval_of_target plan ha hb target⟩
  rw [ScanResult.comparePlanned_eq_of_target target hremoval] at hlt
  cases hlt

end

/-! ### What the tags demand -/

/-- The tags that name a requirement as a footnote lists them: by file and line, those of one line as they were
    found. -/
structure IsListing (sources : List SourceRecord) (id : RequirementId) (evidence : List Evidence) : Prop where
  ordered : evidence.Pairwise fun a b => (Evidence.compare a b).isLE = true
  ties : ∀ e, evidence.filter (Evidence.compare e · == .eq) =
    ((allEvidence sources).filter (·.tag.requirement == id)).filter (Evidence.compare e · == .eq)

theorem isListing_iff {sources : List SourceRecord} {id : RequirementId} {evidence : List Evidence} :
    IsListing sources id evidence ↔ evidence = evidenceFor sources id := by
  have hlisting : IsListing sources id (evidenceFor sources id) :=
    ⟨(isEvidence_evidenceFor sources id).ordered, filter_mergeSort Evidence.compare _⟩
  constructor
  · intro h
    refine eq_of_sorted_of_ranks Evidence.compare h.ordered hlisting.ordered fun e => ?_
    rw [h.ties, hlisting.ties]
  · rintro rfl
    exact hlisting

namespace Declaration

/-- The marker of a requirement is as its tags demand: it says "covered" if there is one, and then only. -/
def MarkerStands (sources : List SourceRecord) (x : Declaration) : Prop :=
  x.site.status = .covered ↔ IsTagged sources x.id

/-- The footnote of a requirement is as its tags demand. Where there are tags, or were some, it lists those that there
    are; otherwise nothing is demanded of it. -/
def FootnoteStands (sources : List SourceRecord) (x : Declaration) : Prop :=
  IsTagged sources x.id ∨ x.site.status = .covered → ∃ evidence, IsListing sources x.id evidence ∧
    ∃ note ∈ x.document.footnotes, note.name = x.site.name ∧ note.raw = x.footnoteText evidence

variable {sources : List SourceRecord} {x : Declaration}

/-- A marker is edited unless it is as its tags demand. -/
theorem exists_marker_mem_actions_iff :
    (∃ a ∈ x.actions (evidenceFor sources x.id), a.target = .marker x.document.path.components x.id) ↔
      ¬ x.MarkerStands sources := by
  have hedit : (∃ a ∈ x.actions (evidenceFor sources x.id), a.target = .marker x.document.path.components x.id) ↔
      ∃ status, desiredStatus? x.site (evidenceFor sources x.id) = some status ∧ x.site.status ≠ status := by
    constructor
    · rintro ⟨a, ha, htarget⟩
      obtain ⟨status, hdesired, ⟨hdiffers, -⟩ | ⟨-, rfl⟩⟩ := mem_actions_iff.mp ha
      · exact ⟨status, hdesired, hdiffers⟩
      · cases htarget
    · rintro ⟨status, hdesired, hdiffers⟩
      exact ⟨_, mem_actions_iff.mpr ⟨status, hdesired, .inl ⟨hdiffers, rfl⟩⟩, rfl⟩
  rw [hedit, MarkerStands, isTagged_iff, desiredStatus?]
  by_cases hevidence : evidenceFor sources x.id = []
  · by_cases hcovered : x.site.status = .covered <;> simp [hevidence, hcovered]
  · simp [hevidence]

/-- A footnote is edited unless it is as its tags demand. -/
theorem exists_footnote_mem_actions_iff
    (found : ∀ note ∈ x.document.footnotes, x.document.footnote? note.name = some note) :
    (∃ a ∈ x.actions (evidenceFor sources x.id), a.target = .footnote x.document.path.components x.id) ↔
      ¬ x.FootnoteStands sources := by
  have hedit : (∃ a ∈ x.actions (evidenceFor sources x.id), a.target = .footnote x.document.path.components x.id) ↔
      isSettled (evidenceFor sources x.id) x.site.status ∧ ∀ note, x.document.footnote? x.site.name = some note →
        note.raw ≠ x.footnoteText (evidenceFor sources x.id) := by
    constructor
    · rintro ⟨a, ha, htarget⟩
      obtain ⟨status, hdesired, ⟨-, rfl⟩ | ⟨hdiffers, -⟩⟩ := mem_actions_iff.mp ha
      · cases htarget
      · refine ⟨?_, hdiffers⟩
        by_contra hopen
        rw [desiredStatus?_eq_none hopen] at hdesired
        cases hdesired
    · rintro ⟨hsettled, hdiffers⟩
      exact ⟨_, mem_actions_iff.mpr ⟨_, desiredStatus?_eq_some hsettled, .inr ⟨hdiffers, rfl⟩⟩, rfl⟩
  have hlisted : (∃ note ∈ x.document.footnotes, note.name = x.site.name ∧
        note.raw = x.footnoteText (evidenceFor sources x.id)) ↔
      ∃ note, x.document.footnote? x.site.name = some note ∧ note.raw = x.footnoteText (evidenceFor sources x.id) := by
    constructor
    · rintro ⟨note, hnote, hname, hraw⟩
      exact ⟨note, hname ▸ found note hnote, hraw⟩
    · rintro ⟨note, hfound, hraw⟩
      exact ⟨note, List.mem_of_find?_eq_some hfound, by simpa using List.find?_some hfound, hraw⟩
  rw [hedit, FootnoteStands, isTagged_iff]
  simp only [isListing_iff, exists_eq_left, hlisted, isSettled]
  simp only [Classical.not_imp, not_exists, not_and, ne_eq]

end Declaration

/-! ### What edits change -/

/-- An edit that changes what it writes to, in documents with the given texts: a marker that reads otherwise in its
    line, a footnote that reads otherwise or is missing, a hash that is another one or missing, an address that is
    there. -/
inductive Action.IsNeeded (s : ScanResult) (text : DocumentRecord → Text) : Action → Prop where
  | marker {d : DocumentRecord} {x : Declaration} {line old payload : Text} (document : d ∈ s.documents)
      (declared : x ∈ d.declarations) (found : (LineFile.parse (text d)).line? x.site.line = some line)
      (placed : x.site.span.textIn? line = some old) (differs : old ≠ payload) :
      IsNeeded s text (.site d.path x.site.line x.id payload)
  | replaced {d : DocumentRecord} {x : Declaration} {note : Footnote} {payload : Text} (document : d ∈ s.documents)
      (declared : x ∈ d.declarations) (found : note ∈ d.footnotes) (named : note.name = x.site.name)
      (placed : 0 < note.line) (differs : note.raw ≠ payload) :
      IsNeeded s text (.footnote d.path note.line x.id payload)
  | added {d : DocumentRecord} {x : Declaration} {payload : Text} (document : d ∈ s.documents)
      (declared : x ∈ d.declarations) (missing : ∀ note ∈ d.footnotes, note.name ≠ x.site.name) :
      IsNeeded s text (.footnote d.path 0 x.id payload)
  | entered {directory : Path} {url hash : Text}
      (differs : ((s.manifests.get? directory).getD Table.empty).get? url ≠ some hash) :
      IsNeeded s text (.setHash (directory.join ⟨Manifest.fileName⟩) url hash)
  | dropped {directory : Path} {url : Text}
      (present : ((s.manifests.get? directory).getD Table.empty).get? url ≠ none) :
      IsNeeded s text (.dropHash (directory.join ⟨Manifest.fileName⟩) url)

/-- The status of a marker can be told from how it is written: after the name, a word follows or none. -/
theorem Site.render_injective (name : Identifier) : Function.Injective (render name) := by
  have hword : ∀ status, ((render name status).drop (markerOf name .bare).head.length).head? =
      (markerOf name status).word.head? := by
    intro status
    have hhead : (markerOf name .bare).head = (markerOf name status).head := by cases status <;> rfl
    rw [hhead, render, Marker.text, List.append_assoc, List.append_assoc, List.drop_left]
    cases status <;> rfl
  intro status status' h
  have hsame := hword status
  rw [h, hword status'] at hsame
  cases status <;> cases status' <;> first | rfl | cases hsame

/-- An edit for a declaration changes what it writes to. -/
theorem Declaration.isNeeded_of_mem_actions {s : ScanResult} {text : DocumentRecord → Text} {d : DocumentRecord}
    (document : d ∈ s.documents) (parsed : d = .ofParsed d.path (ParsedDocument.parse (text d))) {x : Declaration}
    (declared : x ∈ d.declarations) {evidence : List Evidence} {a : Action} (ha : a ∈ x.actions evidence) :
    a.IsNeeded s text := by
  have hdocument := DocumentRecord.document_of_mem_declarations declared
  rw [ParsedDocument.parse_eq_ofLines] at parsed
  obtain ⟨status, -, ⟨hdiffers, rfl⟩ | ⟨hdiffers, rfl⟩⟩ := mem_actions_iff.mp ha
  · obtain ⟨package, site, -, hsite, rfl⟩ := DocumentRecord.mem_declarations_iff.mp declared
    rw [parsed] at hsite
    obtain ⟨-, line, hline, -, hread⟩ := ParsedDocument.mem_sites_iff.mp hsite
    exact .marker document declared hline (Site.textIn?_of_mem hread) fun heq =>
      hdiffers (Site.render_injective site.name heq)
  · rw [hdocument] at hdiffers ⊢
    cases hnote : d.footnote? x.site.name with
    | none =>
        have hline : x.footnoteLine = 0 := by rw [footnoteLine, hdocument, hnote]; rfl
        rw [hline]
        refine .added document declared fun note hmem hname => ?_
        have hother := List.find?_eq_none.mp hnote note hmem
        simp [hname] at hother
    | some note =>
        have hline : x.footnoteLine = note.line := by rw [footnoteLine, hdocument, hnote]; rfl
        have hmem : note ∈ d.footnotes := List.mem_of_find?_eq_some hnote
        have hplaced : 0 < note.line := by
          rw [parsed] at hmem
          obtain ⟨⟨hbody, -⟩, -⟩ := ParsedDocument.mem_footnotes_iff.mp hmem
          exact Nat.zero_lt_of_lt hbody
        rw [hline]
        exact .replaced document declared hmem (by simpa using List.find?_some hnote) hplaced (hdiffers note hnote)

/-- An edit of a manifest changes what it writes to. -/
theorem ScanResult.isNeeded_of_mem_manifestEdits {s : ScanResult} (text : DocumentRecord → Text) {a : Action}
    (ha : a ∈ s.manifestEdits) : a.IsNeeded s text := by
  obtain ⟨directory, -, ha⟩ := List.mem_flatMap.mp ha
  obtain ⟨hkind, hpath⟩ := of_mem_manifestEditsIn ha
  cases a with
  | site path line requirement payload => cases hkind
  | footnote path line requirement payload => cases hkind
  | setHash path url hash =>
      obtain ⟨rfl, -, hdiffers⟩ := setHash_mem_manifestActions_iff.mp ha
      exact .entered hdiffers
  | dropHash path url =>
      obtain ⟨rfl, hpresent, -⟩ := dropHash_mem_manifestActions_iff.mp ha
      exact .dropped hpresent

/-! ### Minimal plans -/

/-- The planned edits that name a declared requirement are those for its declaration. -/
theorem mem_plan_iff_of_requirement {s : ScanResult} {actions : List Action} (plan : plan s = .ok actions)
    {x : Declaration} (hx : x ∈ s.declared) {a : Action} :
    a ∈ actions ∧ a.requirement? = some x.id ↔ a ∈ x.actions (evidenceFor s.sources x.id) := by
  obtain ⟨fine, rfl⟩ := plan_eq_ok_iff.mp plan
  constructor
  · rintro ⟨ha, hrequirement⟩
    rcases List.mem_append.mp ha with ha | ha
    · obtain ⟨y, hy, hedit⟩ := List.mem_flatMap.mp ha
      have hid := (ScanResult.isEditFor fine hy hedit).requirement.symm.trans hrequirement
      have hfound := ScanResult.find?_declarations fine hy
      rw [Option.some.inj hid, ScanResult.find?_declarations fine hx] at hfound
      obtain rfl := Option.some.inj hfound
      exact hedit
    · obtain ⟨directory, -, hedit⟩ := List.mem_flatMap.mp ha
      rw [(ScanResult.isEditIn_of_mem hedit).requirement] at hrequirement
      cases hrequirement
  · intro ha
    exact ⟨List.mem_append_left _ (List.mem_flatMap.mpr ⟨x, hx, ha⟩), (ScanResult.isEditFor fine hx ha).requirement⟩

theorem exists_target_iff {s : ScanResult} {actions : List Action} (plan : plan s = .ok actions) {x : Declaration}
    (hx : x ∈ s.declared) {target : Target} (names : target.requirement? = some x.id) :
    (∃ a ∈ actions, a.target = target) ↔ ∃ a ∈ x.actions (evidenceFor s.sources x.id), a.target = target := by
  refine exists_congr fun a => and_congr_left fun htarget => ?_
  have hrequirement : a.requirement? = some x.id := by rw [← a.requirement?_target, htarget, names]
  rw [← mem_plan_iff_of_requirement plan hx, and_iff_left hrequirement]

/-- A plan for documents with the given texts, in which nothing is malformed, holds no needless edit. No two of its
    edits write to the same thing and each one changes what it writes to. A marker or a footnote is edited just if it
    is not as its tags demand. -/
theorem plan_minimal {s : ScanResult} {actions : List Action} (plan : plan s = .ok actions)
    (text : DocumentRecord → Text)
    (parsed : ∀ d ∈ s.documents, (ParsedDocument.parse (text d)).faults = [] ∧
      d = .ofParsed d.path (ParsedDocument.parse (text d))) :
    (actions.map Action.target).Nodup ∧ (∀ a ∈ actions, a.IsNeeded s text) ∧
      ∀ d ∈ s.documents, ∀ x ∈ d.declarations,
        ((∃ a ∈ actions, a.target = .marker d.path.components x.id) ↔ ¬ x.MarkerStands s.sources) ∧
        ((∃ a ∈ actions, a.target = .footnote d.path.components x.id) ↔ ¬ x.FootnoteStands s.sources) := by
  refine ⟨nodup_target plan, fun a ha => ?_, fun d hd x hx => ?_⟩
  · obtain ⟨fine, rfl⟩ := plan_eq_ok_iff.mp plan
    rcases List.mem_append.mp ha with ha | ha
    · obtain ⟨x, hx, hedit⟩ := List.mem_flatMap.mp ha
      obtain ⟨d, hd, hdeclared⟩ := (ScanResult.mem_declared_iff fine).mp hx
      exact Declaration.isNeeded_of_mem_actions hd (parsed d hd).2 hdeclared hedit
    · exact s.isNeeded_of_mem_manifestEdits text ha
  · have hdeclared := (ScanResult.mem_declared_iff (plan_eq_ok_iff.mp plan).1).mpr ⟨d, hd, hx⟩
    obtain rfl := DocumentRecord.document_of_mem_declarations hx
    have hfound : ∀ note ∈ x.document.footnotes, x.document.footnote? note.name = some note := by
      obtain ⟨hfaults, hparsed⟩ := parsed x.document hd
      intro note hnote
      rw [hparsed] at hnote ⊢
      exact ParsedDocument.footnote?_of_mem hfaults hnote
    rw [exists_target_iff plan hdeclared rfl, exists_target_iff plan hdeclared rfl]
    exact ⟨Declaration.exists_marker_mem_actions_iff, Declaration.exists_footnote_mem_actions_iff hfound⟩

/-- A document with a tagged requirement that is bare and one that is as its tag demands, in a directory whose manifest
    knows another hash and another file: four edits, and none is for the second requirement. -/
theorem plan_minimal_one_stands :
    let p : Identifier := ⟨['p'], by decide⟩
    let a : RequirementId := ⟨p, ⟨['A'], by decide⟩⟩
    let b : RequirementId := ⟨p, ⟨['B'], by decide⟩⟩
    let path : Path := ⟨"a.md".toList⟩
    let url := "https://e.org/x.rs".toList
    let raw := "[^~B~]: `[~p/B~impl]` [x.rs:2:impl](https://e.org/x.rs#L2)".toList
    let t := "```\nreqmd.package: p\n```\n`~A~`\n`~B~`covered[^~B~]✅\n".toList ++ raw
    let note : Footnote :=
      ⟨b.name, 6, b.hint, [⟨"x.rs:2:impl".toList, "https://e.org/x.rs#L2".toList⟩], raw⟩
    let document : DocumentRecord :=
      { path, package := some p
        sites := [⟨a.name, 4, ⟨0, 5⟩, .bare, none⟩, ⟨b.name, 5, ⟨0, 21⟩, .covered, some Site.coveredWord⟩]
        footnotes := [note] }
    let source : SourceRecord :=
      { path := ⟨"x.rs".toList⟩, tags := [⟨a, "impl".toList, 1⟩, ⟨b, "impl".toList, 2⟩]
        hash := some ['2'], url := some url, relative := none }
    let s : ScanResult :=
      { files := [.document document, .source source]
        manifests := Table.ofList [(⟨[]⟩, Table.ofList [(url, ['1']), ("https://e.org/y.rs".toList, ['1'])])]
        errors := [] }
    ∃ actions, plan s = .ok actions ∧ actions.length = 4 ∧ (actions.map Action.target).Nodup ∧
      (∀ a ∈ actions, a.IsNeeded s fun _ => t) ∧ (¬ ∃ a ∈ actions, a.target = .marker path.components b) ∧
      ¬ ∃ a ∈ actions, a.target = .footnote path.components b := by
  intro p a b path url raw t note document source s
  have h : plan s = .ok s.editsInOrder :=
    plan_of_ascending (by decide +kernel) (by decide +kernel) (by decide +kernel) rfl
  have hlength : s.editsInOrder.length = 4 := by decide +kernel
  have hparsed : ∀ d ∈ s.documents, (ParsedDocument.parse t).faults = [] ∧
      d = .ofParsed d.path (ParsedDocument.parse t) := by decide +kernel
  obtain ⟨hnodup, hneeded, hedited⟩ := plan_minimal h (fun _ => t) hparsed
  let x : Declaration := ⟨b, document, ⟨b.name, 5, ⟨0, 21⟩, .covered, some Site.coveredWord⟩⟩
  have hx : x ∈ document.declarations := by decide +kernel
  have htagged : IsTagged s.sources b := ⟨⟨source, ⟨b, "impl".toList, 2⟩⟩, by decide +kernel, rfl⟩
  have hmarker : x.MarkerStands s.sources := iff_of_true rfl htagged
  have hfootnote : x.FootnoteStands s.sources := fun _ =>
    ⟨_, isListing_iff.mpr rfl, note, List.mem_singleton_self note, rfl, by decide +kernel⟩
  obtain ⟨hmarkers, hfootnotes⟩ := hedited document (List.mem_singleton_self document) x hx
  exact ⟨_, h, hlength, hnodup, hneeded, fun hedit => hmarkers.mp hedit hmarker,
    fun hedit => hfootnotes.mp hedit hfootnote⟩

end ReqTrace
