/-
Module: ReqTrace.Proofs.Plan.Ordered
Purpose: The order of a plan. Its edits ascend by document, by site, marker before footnote, and then by directory,
  what a manifest gets before what it loses. So the addresses of one manifest do not ascend where a lost one comes
  before one that is got.
Main exports: Action.compareFiles, ScanResult.siteOf?, ScanResult.compareDocumented, ScanResult.comparePlanned,
  plan_ascending, plan_ordered
-/
import ReqTrace.Proofs.Plan.Reordered

namespace ReqTrace

/-! ### What edits are ordered by -/

namespace Action

/-- The requirement that an edit of a document is for. -/
def requirement? : Action → Option RequirementId
  | site _ _ requirement _ => some requirement
  | footnote _ _ requirement _ => some requirement
  | setHash _ _ _ => none
  | dropHash _ _ => none

/-- The address that an edit of a manifest is for. -/
def url? : Action → Option Text
  | site _ _ _ _ => none
  | footnote _ _ _ _ => none
  | setHash _ url _ => some url
  | dropHash _ url => some url

/-- Whether an edit is of a footnote. -/
def isFootnoteEdit : Action → Bool
  | site _ _ _ _ => false
  | footnote _ _ _ _ => true
  | setHash _ _ _ => false
  | dropHash _ _ => false

/-- Whether an edit takes an address out of a manifest. -/
def isRemoval : Action → Bool
  | site _ _ _ _ => false
  | footnote _ _ _ _ => false
  | setHash _ _ _ => false
  | dropHash _ _ => true

/-- What places a file among those of its kind: the path of a document, the directory of a manifest. -/
def fileKey (a : Action) : List PathComponent :=
  if a.isManifestEdit then a.path.components.dropLast else a.path.components

/-- The order of the edited files: documents by path, then manifests by directory. -/
def compareFiles : Action → Action → Ordering :=
  compareLex (compareOn isManifestEdit) (compareOn fileKey)

instance : Std.TransCmp compareFiles :=
  inferInstanceAs (Std.TransCmp (compareLex (compareOn isManifestEdit) (compareOn fileKey)))

end Action

namespace ScanResult

/-- The site that declares the requirement of an edit. -/
def siteOf? (s : ScanResult) (a : Action) : Option Site :=
  a.requirement?.bind fun id =>
    ((s.documents.flatMap DocumentRecord.declarations).find? (·.id == id)).map Declaration.site

/-- The order of edits by the sites that they are for: by line, then by place in the line. -/
def compareSites (s : ScanResult) : Action → Action → Ordering :=
  compareLex (compareOn fun a => (s.siteOf? a).map Site.line)
    (compareOn fun a => (s.siteOf? a).map fun site => site.span.start)

/-- The order that edits are documented to be in: the file, the site, a marker before its footnote, the address. -/
def compareDocumented (s : ScanResult) : Action → Action → Ordering :=
  compareLex Action.compareFiles (compareLex s.compareSites
    (compareLex (compareOn Action.isFootnoteEdit) (compareOn Action.url?)))

/-- The order that the edits of a plan are in. Sites of one place, which no document that was read has, are told
    apart by their requirements, and what a manifest gets is before what it loses. -/
def comparePlanned (s : ScanResult) : Action → Action → Ordering :=
  compareLex Action.compareFiles (compareLex s.compareSites (compareLex (compareOn Action.requirement?)
    (compareLex (compareOn Action.isFootnoteEdit)
      (compareLex (compareOn Action.isRemoval) (compareOn Action.url?)))))

instance (s : ScanResult) : Std.TransCmp s.comparePlanned :=
  inferInstanceAs (Std.TransCmp (compareLex
    (compareLex (compareOn Action.isManifestEdit) (compareOn Action.fileKey))
    (compareLex
      (compareLex (compareOn fun a => (s.siteOf? a).map Site.line)
        (compareOn fun a => (s.siteOf? a).map fun site => site.span.start))
      (compareLex (compareOn Action.requirement?) (compareLex (compareOn Action.isFootnoteEdit)
        (compareLex (compareOn Action.isRemoval) (compareOn Action.url?)))))))

theorem compareDocumented_eq_lt_iff {s : ScanResult} {a b : Action} :
    s.compareDocumented a b = .lt ↔ Action.compareFiles a b = .lt ∨ Action.compareFiles a b = .eq ∧
      (s.compareSites a b = .lt ∨ s.compareSites a b = .eq ∧
        (compare a.isFootnoteEdit b.isFootnoteEdit = .lt ∨
          compare a.isFootnoteEdit b.isFootnoteEdit = .eq ∧ compare a.url? b.url? = .lt)) := by
  simp only [compareDocumented, compareLex, compareOn, Ordering.then_eq_lt]

theorem comparePlanned_eq_lt_iff {s : ScanResult} {a b : Action} :
    s.comparePlanned a b = .lt ↔ Action.compareFiles a b = .lt ∨ Action.compareFiles a b = .eq ∧
      (s.compareSites a b = .lt ∨ s.compareSites a b = .eq ∧
        (compare a.requirement? b.requirement? = .lt ∨ compare a.requirement? b.requirement? = .eq ∧
          (compare a.isFootnoteEdit b.isFootnoteEdit = .lt ∨
            compare a.isFootnoteEdit b.isFootnoteEdit = .eq ∧
              (compare a.isRemoval b.isRemoval = .lt ∨
                compare a.isRemoval b.isRemoval = .eq ∧ compare a.url? b.url? = .lt)))) := by
  simp only [comparePlanned, compareLex, compareOn, Ordering.then_eq_lt]

end ScanResult

/-! ### Edits of documents in order -/

/-- A declaration has one edit of its marker at most, and then one of its footnote at most. -/
theorem Declaration.pairwise_actions (d : Declaration) (evidence : List Evidence) :
    (d.actions evidence).Pairwise fun a b => a.isFootnoteEdit = false ∧ b.isFootnoteEdit = true := by
  unfold actions
  split
  · exact .nil
  · rename_i status _
    refine List.pairwise_append.mpr ⟨?_, ?_, fun a ha b hb => ?_⟩
    · unfold siteActions
      split <;> simp
    · unfold footnoteActions
      dsimp only
      split
      · split <;> simp
      · simp
    · rw [(mem_siteActions_iff.mp ha).2, (mem_footnoteActions_iff.mp hb).2]
      exact ⟨rfl, rfl⟩

namespace ScanResult

variable {s : ScanResult}

/-- What an edit of a document says of its place: that of the declaration that it is for. -/
structure IsEditFor (s : ScanResult) (d : Declaration) (a : Action) : Prop where
  document : a.isManifestEdit = false
  path : a.path = d.document.path
  requirement : a.requirement? = some d.id
  site : s.siteOf? a = some d.site
  removal : a.isRemoval = false
  url : a.url? = none

/-- What an edit of a manifest says of its place: the directory. -/
structure IsEditIn (s : ScanResult) (directory : Path) (a : Action) : Prop where
  manifest : a.isManifestEdit = true
  path : a.path = directory.join ⟨Manifest.fileName⟩
  requirement : a.requirement? = none
  site : s.siteOf? a = none
  marker : a.isFootnoteEdit = false

/-- A declared requirement has one site. -/
theorem find?_declarations (fine : (Index.ofDocuments s.documents).errors = []) {d : Declaration}
    (hd : d ∈ s.declared) :
    (s.documents.flatMap DocumentRecord.declarations).find? (·.id == d.id) = some d := by
  have hids := (Index.errors_ofDocuments_eq_nil_iff.mp fine).2
  exact (find?_key_eq_some_iff Declaration.id hids).mpr
    ⟨(Index.holds_ofDocuments fine).perm_inDocumentOrder.mem_iff.mp hd, rfl⟩

theorem isEditFor (fine : (Index.ofDocuments s.documents).errors = []) {d : Declaration} (hd : d ∈ s.declared)
    {a : Action} (ha : a ∈ d.actions (evidenceFor s.sources d.id)) : s.IsEditFor d a := by
  have hsite : ((s.documents.flatMap DocumentRecord.declarations).find? (·.id == d.id)).map Declaration.site =
      some d.site := by
    rw [find?_declarations fine hd]
    rfl
  rcases Declaration.eq_of_mem_actions ha with ⟨status, -, rfl⟩ | rfl
  · exact ⟨rfl, rfl, rfl, hsite, rfl, rfl⟩
  · exact ⟨rfl, rfl, rfl, hsite, rfl, rfl⟩

theorem isEditIn {directory : Path} {a : Action} (manifest : a.isManifestEdit = true)
    (path : a.path = directory.join ⟨Manifest.fileName⟩) : s.IsEditIn directory a := by
  cases a with
  | site path line requirement payload => cases manifest
  | footnote path line requirement payload => cases manifest
  | setHash file url hash => exact ⟨rfl, path, rfl, rfl, rfl⟩
  | dropHash file url => exact ⟨rfl, path, rfl, rfl, rfl⟩

theorem isEditIn_of_mem {directory : Path} {a : Action} (ha : a ∈ s.manifestEditsIn directory) :
    s.IsEditIn directory a :=
  isEditIn (of_mem_manifestEditsIn ha).1 (of_mem_manifestEditsIn ha).2

theorem IsEditFor.fileKey {d : Declaration} {a : Action} (h : s.IsEditFor d a) :
    a.fileKey = d.document.path.components := by
  rw [Action.fileKey, h.document, h.path, if_neg (by simp)]

theorem IsEditIn.fileKey {directory : Path} {a : Action} (h : s.IsEditIn directory a) :
    a.fileKey = directory.components := by
  rw [Action.fileKey, h.manifest, if_pos rfl, h.path, Path.components_join directory isFileName_manifest,
    List.dropLast_concat]

/-- Edits of documents are in order as their declarations are. -/
theorem IsEditFor.compare_eq {d d' : Declaration} {a b : Action} (h : s.IsEditFor d a) (h' : s.IsEditFor d' b) :
    (Action.compareFiles a b).then (s.compareSites a b) = Declaration.compare d d' := by
  have hkind : compare a.isManifestEdit b.isManifestEdit = .eq := by rw [h.document, h'.document]; rfl
  have hfiles : Action.compareFiles a b = compare d.document.path d'.document.path := by
    simp only [Action.compareFiles, compareLex, compareOn, hkind, h.fileKey, h'.fileKey, Ordering.eq_then]
    rfl
  have hsites : s.compareSites a b = Site.compare d.site d'.site := by
    simp only [compareSites, compareLex, compareOn, h.site, h'.site, Option.map_some]
    rfl
  rw [hfiles, hsites, Declaration.compare_eq]

/-- Edits for declarations are planned in the order of these, and for one declaration marker first. -/
theorem IsEditFor.comparePlanned_eq_lt_iff {d d' : Declaration} {a b : Action} (h : s.IsEditFor d a)
    (h' : s.IsEditFor d' b) : s.comparePlanned a b = .lt ↔ Declaration.compare d d' = .lt ∨
      Declaration.compare d d' = .eq ∧ (compare d.id d'.id = .lt ∨
        compare d.id d'.id = .eq ∧ compare a.isFootnoteEdit b.isFootnoteEdit = .lt) := by
  have hrequirement : compare a.requirement? b.requirement? = compare d.id d'.id := by
    rw [h.requirement, h'.requirement]
    rfl
  have hremoval : compare a.isRemoval b.isRemoval = .eq := by rw [h.removal, h'.removal]; rfl
  have hurl : compare a.url? b.url? = .eq := by rw [h.url, h'.url]; rfl
  rw [ScanResult.comparePlanned_eq_lt_iff, ← h.compare_eq h', Ordering.then_eq_lt, Ordering.then_eq_eq, hrequirement,
    hremoval, hurl]
  simp only [reduceCtorEq, and_false, or_false]
  tauto

/-- Edits for declarations are documented to be in the order of these, and for one place marker first. -/
theorem IsEditFor.compareDocumented_eq_lt_iff {d d' : Declaration} {a b : Action} (h : s.IsEditFor d a)
    (h' : s.IsEditFor d' b) : s.compareDocumented a b = .lt ↔ Declaration.compare d d' = .lt ∨
      Declaration.compare d d' = .eq ∧ compare a.isFootnoteEdit b.isFootnoteEdit = .lt := by
  have hurl : compare a.url? b.url? = .eq := by rw [h.url, h'.url]; rfl
  rw [ScanResult.compareDocumented_eq_lt_iff, ← h.compare_eq h', Ordering.then_eq_lt, Ordering.then_eq_eq, hurl]
  simp only [reduceCtorEq, and_false, or_false]
  tauto

/-- Edits of manifests are in order as their directories are. -/
theorem IsEditIn.compareFiles_eq {directory directory' : Path} {a b : Action} (h : s.IsEditIn directory a)
    (h' : s.IsEditIn directory' b) : Action.compareFiles a b = compare directory directory' := by
  have hkind : compare a.isManifestEdit b.isManifestEdit = .eq := by rw [h.manifest, h'.manifest]; rfl
  simp only [Action.compareFiles, compareLex, compareOn, hkind, h.fileKey, h'.fileKey, Ordering.eq_then]
  rfl

/-- The edits of the documents ascend. -/
theorem ascending_documentEdits (fine : (Index.ofDocuments s.documents).errors = []) :
    s.documentEdits.Pairwise fun a b => s.comparePlanned a b = .lt := by
  refine List.pairwise_flatMap.mpr ⟨fun d hd => ?_, ?_⟩
  · refine (d.pairwise_actions _).imp_of_mem fun {a b} ha hb ⟨hmarker, hfootnote⟩ => ?_
    have hkind : compare a.isFootnoteEdit b.isFootnoteEdit = .lt := by rw [hmarker, hfootnote]; rfl
    refine ((isEditFor fine hd ha).comparePlanned_eq_lt_iff (isEditFor fine hd hb)).mpr (.inr ⟨?_, .inr ⟨?_, hkind⟩⟩)
    · exact Std.ReflCmp.compare_self
    · exact Std.ReflOrd.compare_self
  · refine (ordered_declared fine).imp_of_mem fun {d d'} hd hd' hbefore a ha b hb => ?_
    refine ((isEditFor fine hd ha).comparePlanned_eq_lt_iff (isEditFor fine hd' hb)).mpr ?_
    exact hbefore.imp_right fun ⟨heq, hid⟩ => ⟨heq, .inl hid⟩

/-- The edits of documents ascend as it is documented, if the documents have paths of their own and their sites
    places of their own. -/
theorem documented_documentEdits (fine : (Index.ofDocuments s.documents).errors = [])
    (documents : s.documents.Pairwise fun a b => a.path.same b.path = false)
    (sites : ∀ d ∈ s.documents, d.sites.Pairwise fun a b => Site.compare a b ≠ .eq) :
    s.documentEdits.Pairwise fun a b => s.compareDocumented a b = .lt := by
  refine (ascending_documentEdits fine).imp_of_mem fun {a b} ha hb hlt => ?_
  obtain ⟨d, hd, ha⟩ := List.mem_flatMap.mp ha
  obtain ⟨d', hd', hb⟩ := List.mem_flatMap.mp hb
  have hfor := isEditFor fine hd ha
  have hfor' := isEditFor fine hd' hb
  refine (hfor.compareDocumented_eq_lt_iff hfor').mpr ?_
  rcases (hfor.comparePlanned_eq_lt_iff hfor').mp hlt with hplace | ⟨hplace, hid | ⟨-, hkind⟩⟩
  · exact .inl hplace
  · obtain rfl := Declaration.eq_of_compare documents sites ((mem_declared_iff fine).mp hd)
      ((mem_declared_iff fine).mp hd') hplace
    have hself : compare d.id d.id = .eq := Std.ReflOrd.compare_self
    rw [hself] at hid
    cases hid
  · exact .inr ⟨hplace, hkind⟩

end ScanResult

/-! ### Edits of manifests in order -/

/-- The edits of a manifest: the addresses that it gets, in order, and then those that it loses, in order. -/
theorem pairwise_manifestActions (path : Path) (previous desired : Manifest) :
    (manifestActions path previous desired).Pairwise fun a b => compare a.isRemoval b.isRemoval = .lt ∨
      compare a.isRemoval b.isRemoval = .eq ∧ compare a.url? b.url? = .lt := by
  rw [manifestActions_eq]
  refine List.pairwise_append.mpr ⟨?_, ?_, fun a ha b hb => ?_⟩
  · exact List.pairwise_map.mpr ((desired.ascending.filter _).imp fun hlt => .inr ⟨rfl, hlt⟩)
  · exact List.pairwise_map.mpr (List.pairwise_map.mpr ((previous.ascending.filter _).imp fun hlt => .inr ⟨rfl, hlt⟩))
  · obtain ⟨entry, -, rfl⟩ := List.mem_map.mp ha
    obtain ⟨url, -, rfl⟩ := List.mem_map.mp hb
    exact .inl rfl

namespace ScanResult

variable {s : ScanResult}

/-- Edits of one manifest differ in what they do with which address only. -/
theorem IsEditIn.compare_eq {directory : Path} {a b : Action} (h : s.IsEditIn directory a)
    (h' : s.IsEditIn directory b) : Action.compareFiles a b = .eq ∧ s.compareSites a b = .eq ∧
      compare a.requirement? b.requirement? = .eq ∧ compare a.isFootnoteEdit b.isFootnoteEdit = .eq := by
  refine ⟨?_, ?_, ?_, ?_⟩
  · rw [h.compareFiles_eq h']
    exact Std.ReflOrd.compare_self
  · simp only [compareSites, compareLex, compareOn, h.site, h'.site]
    rfl
  · rw [h.requirement, h'.requirement]
    rfl
  · rw [h.marker, h'.marker]
    rfl

theorem IsEditIn.comparePlanned_eq_lt_iff {directory : Path} {a b : Action} (h : s.IsEditIn directory a)
    (h' : s.IsEditIn directory b) : s.comparePlanned a b = .lt ↔ compare a.isRemoval b.isRemoval = .lt ∨
      compare a.isRemoval b.isRemoval = .eq ∧ compare a.url? b.url? = .lt := by
  obtain ⟨hfiles, hsites, hrequirement, hmarker⟩ := h.compare_eq h'
  simp [ScanResult.comparePlanned_eq_lt_iff, hfiles, hsites, hrequirement, hmarker]

theorem IsEditIn.compareDocumented_eq_lt_iff {directory : Path} {a b : Action} (h : s.IsEditIn directory a)
    (h' : s.IsEditIn directory b) : s.compareDocumented a b = .lt ↔ compare a.url? b.url? = .lt := by
  obtain ⟨hfiles, hsites, -, hmarker⟩ := h.compare_eq h'
  simp [ScanResult.compareDocumented_eq_lt_iff, hfiles, hsites, hmarker]

/-- If of two edits of a manifest only the other one is a removal, this one sets a hash. -/
theorem IsEditIn.eq_setHash {directory : Path} {a b : Action} (h : s.IsEditIn directory a)
    (hremoval : compare a.isRemoval b.isRemoval = .lt) : ∃ path url hash, a = .setHash path url hash := by
  cases a with
  | site path line requirement payload => cases h.manifest
  | footnote path line requirement payload => cases h.manifest
  | setHash path url hash => exact ⟨path, url, hash, rfl⟩
  | dropHash path url => cases b <;> cases hremoval

theorem IsEditIn.eq_dropHash {directory : Path} {a b : Action} (h : s.IsEditIn directory b)
    (hremoval : compare a.isRemoval b.isRemoval = .lt) : ∃ path url, b = .dropHash path url := by
  cases b with
  | site path line requirement payload => cases h.manifest
  | footnote path line requirement payload => cases h.manifest
  | setHash path url hash => cases a <;> cases hremoval
  | dropHash path url => exact ⟨path, url, rfl⟩

/-- The edits of the manifests ascend. -/
theorem ascending_manifestEdits (s : ScanResult) :
    s.manifestEdits.Pairwise fun a b => s.comparePlanned a b = .lt := by
  refine List.pairwise_flatMap.mpr ⟨fun directory _ => ?_, ?_⟩
  · exact (pairwise_manifestActions _ _ _).imp_of_mem fun ha hb hbefore =>
      ((isEditIn_of_mem ha).comparePlanned_eq_lt_iff (isEditIn_of_mem hb)).mpr hbefore
  · refine (List.pairwise_map.mp s.ascending_manifestDirectories).imp fun {directory directory'} hlt a ha b hb => ?_
    refine ScanResult.comparePlanned_eq_lt_iff.mpr (.inl ?_)
    rw [(isEditIn_of_mem ha).compareFiles_eq (isEditIn_of_mem hb)]
    exact hlt

/-- The edits of manifests ascend as it is documented, if no manifest loses an address before one that it gets. -/
theorem documented_manifestEdits
    (addresses : ∀ path url hash url', .setHash path url hash ∈ s.manifestEdits →
      .dropHash path url' ∈ s.manifestEdits → compare url url' = .lt) :
    s.manifestEdits.Pairwise fun a b => s.compareDocumented a b = .lt := by
  refine List.pairwise_flatMap.mpr ⟨fun directory hdirectory => ?_, ?_⟩
  · refine (pairwise_manifestActions _ _ _).imp_of_mem fun {a b} ha hb hbefore => ?_
    have hin := isEditIn_of_mem ha
    have hin' := isEditIn_of_mem hb
    refine (hin.compareDocumented_eq_lt_iff hin').mpr ?_
    rcases hbefore with hremoval | ⟨-, hurl⟩
    · have hmem : ∀ c ∈ s.manifestEditsIn directory, c ∈ s.manifestEdits := fun c hc =>
        List.mem_flatMap.mpr ⟨directory, hdirectory, hc⟩
      obtain ⟨path, url, hash, rfl⟩ := hin.eq_setHash hremoval
      obtain ⟨path', url', rfl⟩ := hin'.eq_dropHash hremoval
      obtain rfl : path' = path := hin'.path.trans hin.path.symm
      exact addresses _ url hash url' (hmem _ ha) (hmem _ hb)
    · exact hurl
  · refine (List.pairwise_map.mp s.ascending_manifestDirectories).imp fun {directory directory'} hlt a ha b hb => ?_
    refine ScanResult.compareDocumented_eq_lt_iff.mpr (.inl ?_)
    rw [(isEditIn_of_mem ha).compareFiles_eq (isEditIn_of_mem hb)]
    exact hlt

end ScanResult

/-! ### Plans in order -/

/-- Edits of documents come before edits of manifests. -/
theorem ScanResult.compareFiles_eq_lt {s : ScanResult} {a b : Action} (ha : a ∈ s.documentEdits)
    (hb : b ∈ s.manifestEdits) : Action.compareFiles a b = .lt := by
  have hkind : compare a.isManifestEdit b.isManifestEdit = .lt := by
    rw [not_isManifestEdit_of_mem ha, s.isManifestEdit_of_mem hb]
    rfl
  simp only [Action.compareFiles, compareLex, compareOn, hkind, Ordering.lt_then]

/-- The edits of a plan ascend, whatever the scan, and no two are for one place. -/
theorem plan_ascending {s : ScanResult} {actions : List Action} (h : plan s = .ok actions) :
    actions.Pairwise fun a b => s.comparePlanned a b = .lt := by
  obtain ⟨fine, rfl⟩ := plan_eq_ok_iff.mp h
  refine List.pairwise_append.mpr ⟨ScanResult.ascending_documentEdits fine, s.ascending_manifestEdits, ?_⟩
  exact fun a ha b hb => ScanResult.comparePlanned_eq_lt_iff.mpr (.inl (ScanResult.compareFiles_eq_lt ha hb))

/-- The edits of a plan ascend by document, site, marker and footnote, and then by directory, what a manifest gets
    before what it loses. So they are in the documented order, which looks at the addresses of a manifest alone, just
    if no manifest loses an address before one that it gets. -/
theorem plan_ordered {s : ScanResult} {actions : List Action} (plan : plan s = .ok actions)
    (documents : s.documents.Pairwise fun a b => a.path.same b.path = false)
    (sites : ∀ d ∈ s.documents, d.sites.Pairwise fun a b => Site.compare a b ≠ .eq) :
    (actions.Pairwise fun a b => s.comparePlanned a b = .lt) ∧
      ((actions.Pairwise fun a b => s.compareDocumented a b = .lt) ↔
        ∀ path url hash url', .setHash path url hash ∈ actions → .dropHash path url' ∈ actions →
          compare url url' = .lt) := by
  have hascending := plan_ascending plan
  refine ⟨hascending, fun hdocumented path url hash url' hset hdrop => ?_, fun addresses => ?_⟩
  · obtain ⟨directory, -, hpath⟩ := exists_manifestDirectory plan hset rfl
    have hin : s.IsEditIn directory (.setHash path url hash) := ScanResult.isEditIn rfl hpath
    have hin' : s.IsEditIn directory (.dropHash path url') := ScanResult.isEditIn rfl hpath
    have hbefore : s.comparePlanned (.setHash path url hash) (.dropHash path url') = .lt :=
      (hin.comparePlanned_eq_lt_iff hin').mpr (.inl rfl)
    have hurl := rel_of_ascending s.comparePlanned hascending hdocumented hset hdrop hbefore
    exact (hin.compareDocumented_eq_lt_iff hin').mp hurl
  · obtain ⟨fine, rfl⟩ := plan_eq_ok_iff.mp plan
    refine List.pairwise_append.mpr ⟨ScanResult.documented_documentEdits fine documents sites, ?_, ?_⟩
    · exact ScanResult.documented_manifestEdits fun path url hash url' hset hdrop =>
        addresses path url hash url' (List.mem_append_right _ hset) (List.mem_append_right _ hdrop)
    · exact fun a ha b hb => ScanResult.compareDocumented_eq_lt_iff.mpr (.inl (ScanResult.compareFiles_eq_lt ha hb))

/-- A manifest that knows of `a.go`, which is no longer cited, gets `z.go` before it loses `a.go`. -/
theorem plan_ordered_address_lost :
    let p : Identifier := ⟨['p'], by decide⟩
    let d : DocumentRecord := ⟨⟨"/docs/d.md".toList⟩, some p, [⟨⟨['A'], by decide⟩, 4, ⟨0, 5⟩, .bare, none⟩], []⟩
    let source : SourceRecord :=
      ⟨⟨"/src/z.go".toList⟩, [⟨⟨p, ⟨['A'], by decide⟩⟩, "impl".toList, 1⟩], some ['h'], some "https://h/z.go".toList,
        some "z.go".toList⟩
    let s : ScanResult := ⟨[.document d, .source source],
      Table.empty.insert ⟨"/docs".toList⟩ (Table.empty.insert "https://h/a.go".toList ['h']), []⟩
    ∃ actions, plan s = .ok actions ∧ (actions.Pairwise fun a b => s.comparePlanned a b = .lt) ∧
      ¬ actions.Pairwise fun a b => s.compareDocumented a b = .lt := by
  intro p d source s
  have h : plan s = .ok (s.documentEdits ++ s.manifestEdits) := plan_eq_ok_iff.mpr ⟨by decide +kernel, rfl⟩
  obtain ⟨hascending, hdocumented⟩ := plan_ordered h (by decide +kernel) (by decide +kernel)
  refine ⟨_, h, hascending, fun hall => ?_⟩
  have hset : .setHash ⟨"/docs/reqmdfiles.json".toList⟩ "https://h/z.go".toList ['h'] ∈
      s.documentEdits ++ s.manifestEdits := by decide +kernel
  have hdrop : .dropHash ⟨"/docs/reqmdfiles.json".toList⟩ "https://h/a.go".toList ∈
      s.documentEdits ++ s.manifestEdits := by decide +kernel
  have hbefore := hdocumented.mp hall _ _ _ _ hset hdrop
  revert hbefore
  decide

end ReqTrace
