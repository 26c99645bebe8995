/-
Module: ReqTrace.Proofs.Run.Footnotes
Purpose: Whether the footnotes that a run plans can be read back. It depends on two things only: that no path
  of a tagged file has a line feed, and that no parenthesis closes in the address of its repository.
Main exports: Footnote.ReadsBack, trace_footnote
-/
import ReqTrace.Proofs.Address
import ReqTrace.Proofs.Plan.Coverage
import ReqTrace.Proofs.Run.Groups
import ReqTrace.Proofs.Tag

namespace ReqTrace

open Text

/-! ### Tags and the files that hold them -/

/-- A file that a scan has read tags from belongs to the repository of a root. -/
theorem exists_root_of_scan {t : FileTree} {roots : List ScanRoot} {config : Config} {s : ScanResult}
    (h : scan t roots config = .ok s) {source : SourceRecord} (hsource : source ∈ s.sources) :
    ∃ root ∈ roots, ∃ repository relative text, root.repository = some repository ∧
      repository.relative? source.path = some relative ∧ source.relative = some relative ∧
      source.url = some (repository.location.fileUrl relative) ∧ source.tags = (ParsedSource.parse text).tags := by
  obtain ⟨units, hunits, hs⟩ := bind_eq_ok_iff.mp h
  cases hs
  obtain ⟨record, hrecord, hkind⟩ := List.mem_filterMap.mp hsource
  cases record with
  | document d => cases hkind
  | source source' =>
      cases hkind
      rw [List.mem_mergeSort, List.flatMap_map] at hrecord
      obtain ⟨dir, name, hfound⟩ :=
        (mem_flatMap_scanDirectory_iff t config units (·.files) (fun _ => rfl) rfl _).mp hrecord
      rcases findingsAt_cases t config units dir name with hnone | ⟨known, content, hunit, -, hscanned⟩
      · rw [hnone] at hfound
        cases hfound
      · rw [hscanned] at hfound
        obtain ⟨repository, relative, hash, text, rfl, hrelative, -, rfl⟩ := source_of_mem_scanFile hfound
        obtain ⟨root, hroot, -, hrepository⟩ := Units.exists_root hunits hunit
        exact ⟨root, hroot, repository, relative, text, hrepository, hrelative, rfl, rfl, rfl⟩

theorem mem_allEvidence_iff {sources : List SourceRecord} {e : Evidence} :
    e ∈ allEvidence sources ↔ e.source ∈ sources ∧ e.tag ∈ e.source.tags := by
  simp only [allEvidence, List.mem_flatMap, List.mem_map]
  constructor
  · rintro ⟨source, hsource, tag, htag, rfl⟩
    exact ⟨hsource, htag⟩
  · rintro ⟨hsource, htag⟩
    exact ⟨e.source, hsource, e.tag, htag, rfl⟩

/-- A planned footnote lists the evidence for its requirement. -/
theorem exists_evidence_of_footnote {s : ScanResult} {actions : List Action} (h : plan s = .ok actions)
    {path : Path} {line : Nat} {id : RequirementId} {payload : Text}
    (hplanned : .footnote path line id payload ∈ actions) :
    payload = Footnote.render id.name id.hint ((evidenceFor s.sources id).map Evidence.coverer) := by
  rcases mem_plan_cases h hplanned with ⟨-, d, -, x, hdeclared, hactions, -⟩ | ⟨hkind, -⟩
  · rcases Declaration.mem_actions_cases hactions with ⟨status, -, hsite⟩ | ⟨line, hfootnote⟩
    · cases hsite
    · cases hfootnote
      rw [DocumentRecord.name_of_mem_declarations hdeclared]
      rfl
  · cases hkind

/-! ### Links to tags -/

/-- When the link to a tag can stand in a line. -/
theorem Evidence.linkable_coverer_iff {e : Evidence} {relative : Text} {l : Location}
    (hrelative : e.source.relative = some relative) (hurl : e.source.url = some (l.fileUrl relative))
    (htype : ∀ c ∈ e.tag.type, TagText.isTypeChar c = true) (printable : l.root.Printable) :
    e.coverer.Linkable ↔ '\n' ∉ relative ∧ ')' ∉ l.root.authority ++ l.root.tail := by
  have hdigits : ∀ c ∈ decimal e.tag.line, IsPrintable c ∧ c ≠ ')' := by
    intro c hc
    refine ⟨isPrintable_of_mem_toDigits hc, ?_⟩
    rintro rfl
    exact absurd (Nat.isDigit_of_mem_toDigits (by decide) (by decide) hc) (by decide)
  have hfeed : '\n' ∉ decimal e.tag.line ∧ '\n' ∉ e.tag.type :=
    ⟨fun hmem => absurd (hdigits _ hmem).1 (by decide), fun hmem => absurd (htype _ hmem) (by decide)⟩
  have hlabel : '\n' ∈ e.coverer.label ↔ '\n' ∈ relative := by
    simp [coverer, hrelative, hfeed]
  have htarget : (∀ c ∈ e.coverer.url, Coverer.isUrlChar c = true) ↔
      ∀ c ∈ l.fileUrl relative, Coverer.isUrlChar c = true := by
    have hmark : ∀ c ∈ "#L".toList, Coverer.isUrlChar c = true := List.all_eq_true.mp (by decide)
    have hline : ∀ c ∈ "#L".toList ++ decimal e.tag.line, Coverer.isUrlChar c = true := by
      intro c hc
      rcases List.mem_append.mp hc with hc | hc
      · exact hmark c hc
      · exact (hdigits c hc).1.isUrlChar_iff.mpr (hdigits c hc).2
    simp only [coverer, hurl, Option.getD_some, lineUrl, List.append_assoc]
    exact ⟨fun h c hc => h c (List.mem_append_left _ hc), fun h => List.forall_mem_append.mpr ⟨h, hline⟩⟩
  rw [← Location.isUrlChar_fileUrl_iff printable relative, ← htarget, ← hlabel]
  exact ⟨fun h => ⟨h.label, h.url⟩, fun h => ⟨h.1, h.2⟩⟩

/-! ### Footnotes of a run -/

/-- A text is one line that reads as a footnote with given parts, whichever line it is. -/
structure Footnote.ReadsBack (text : Text) (name : Identifier) (hint : Text) (coverers : List Coverer) :
    Prop where
  single : '\n' ∉ text
  reads : ∀ line, ofLine? line text = some (.ok { name, line, hint, coverers, raw := text })

/-- What a footnote that a run plans says, and whether it can be read back. It links to all tags of its
    requirement by the path of their file in its repository, the line and the type. It reads back exactly if
    every link can stand in a line, which means that the path has no line feed and that there is no closing
    parenthesis in the address of the repository outside of its path. -/
theorem trace_footnote {t : FileTree} {roots : List ScanRoot} {config : Config} {traced : Traced}
    (h : trace t roots config = .ok traced)
    (hosted : ∀ root ∈ roots, ∀ repository, root.repository = some repository →
      ∃ remote revision, Location.ofRemote remote revision = .ok repository.location)
    {path : Path} {line : Nat} {id : RequirementId} {payload : Text}
    (hplanned : .footnote path line id payload ∈ traced.actions) :
    ∃ evidence, IsEvidence traced.scan.sources id evidence ∧
      payload = Footnote.render id.name id.hint (evidence.map Evidence.coverer) ∧
      (∀ e ∈ evidence, ∃ root ∈ roots, ∃ repository relative, root.repository = some repository ∧
        repository.relative? e.source.path = some relative ∧
        e.coverer =
          { label := relative ++ ':' :: decimal e.tag.line ++ ':' :: e.tag.type
            url := lineUrl (repository.location.fileUrl relative) e.tag.line } ∧
        (e.coverer.Linkable ↔ '\n' ∉ relative ∧
          ')' ∉ repository.location.root.authority ++ repository.location.root.tail)) ∧
      (Footnote.ReadsBack payload id.name id.hint (evidence.map Evidence.coverer) ↔
        ∀ e ∈ evidence, e.coverer.Linkable) := by
  obtain ⟨hscan, -, hplan⟩ := trace_eq_ok_iff.mp h
  have hpayload := exists_evidence_of_footnote hplan hplanned
  have hevidence := isEvidence_evidenceFor traced.scan.sources id
  refine ⟨evidenceFor traced.scan.sources id, hevidence, hpayload, fun e he => ?_, ?_⟩
  · obtain ⟨hsource, htag⟩ := mem_allEvidence_iff.mp (List.mem_of_mem_filter (hevidence.perm.mem_iff.mp he))
    obtain ⟨root, hroot, repository, relative, text, hrepository, hpath, hrelative, hurl, htags⟩ :=
      exists_root_of_scan hscan hsource
    obtain ⟨remote, revision, hlocation⟩ := hosted root hroot repository hrepository
    rw [htags] at htag
    refine ⟨root, hroot, repository, relative, hrepository, hpath, ?_, ?_⟩
    · rw [Evidence.coverer, hrelative, hurl]
      rfl
    · exact Evidence.linkable_coverer_iff hrelative hurl (ParsedSource.isTypeChar_of_mem_tags htag)
        (Location.printable_of_ofRemote hlocation)
  · have hplain : '`' ∉ id.hint := id.not_mem_hint (by decide) (by decide)
    have hfeed : '\n' ∉ id.hint := id.not_mem_hint (by decide) (by decide)
    have hlinks : (∀ c ∈ (evidenceFor traced.scan.sources id).map Evidence.coverer, c.Linkable) ↔
        ∀ e ∈ evidenceFor traced.scan.sources id, e.coverer.Linkable := List.forall_mem_map
    rw [← hlinks, hpayload]
    constructor
    · intro hreads
      exact (Footnote.ofLine?_render_iff 0 id.name hplain hfeed _).mp (hreads.reads 0)
    · intro hlinkable
      refine ⟨Footnote.not_mem_render id.name hfeed hlinkable, fun line => ?_⟩
      exact (Footnote.ofLine?_render_iff line id.name hplain hfeed _).mpr hlinkable

/-- A tagged file whose name has a line feed gets a footnote that does not read back. -/
theorem trace_footnote_line_feed :
    let source : Repository :=
      { root := ⟨"/src".toList⟩
        location :=
          { family := .github
            root := { scheme := .https, host := "e.org".toList, port := none
                      segments := ["main", "blob", "r", "o"].map String.toList
                      query := none, fragment := none } }
        hashes := Table.ofList [("x\ny.go".toList, "h".toList)] }
    let t : FileTree :=
      { nodes := Table.ofList [
          (["docs".toList], .directory),
          (["docs".toList, "a.md".toList], .file (.text "```\nreqmd.package: p\n```\n`~A~`\n".toList)),
          (["src".toList], .directory),
          (["src".toList, "x\ny.go".toList], .file (.text "// [~p/A~impl]\n".toList))]
        workingDirectory := [] }
    let roots : List ScanRoot := [⟨⟨"/docs".toList⟩, none⟩, ⟨⟨"/src".toList⟩, some source⟩]
    let id : RequirementId := ⟨⟨['p'], by decide⟩, ⟨['A'], by decide⟩⟩
    ∃ traced payload coverers, trace t roots .default = .ok traced ∧
      .footnote ⟨"/docs/a.md".toList⟩ 0 id payload ∈ traced.actions ∧
      payload = Footnote.render id.name id.hint coverers ∧
      ¬ Footnote.ReadsBack payload id.name id.hint coverers := by
  intro source t roots id
  have hlocation : Location.ofRemote "https://e.org/o/r".toList "main".toList = .ok source.location := by
    decide +kernel
  have hosted : ∀ root ∈ roots, ∀ repository, root.repository = some repository →
      ∃ remote revision, Location.ofRemote remote revision = .ok repository.location := by
    simp only [roots, List.mem_cons, List.not_mem_nil, or_false]
    rintro root (rfl | rfl) repository hrepository
    · cases hrepository
    · cases hrepository
      exact ⟨_, _, hlocation⟩
  let units : Units := Table.ofList [(["docs".toList], none), (["src".toList], some source)]
  have hunits : Units.ofRoots t roots = .ok units := by decide +kernel
  have hscan := @scan_eq_ok_of_ordered t roots .default units hunits (by decide +kernel)
  generalize hs : ScanResult.mk _ _ _ = s at hscan
  generalize hpayload :
    Footnote.render id.name id.hint ((evidenceFor s.sources id).map Evidence.coverer) = payload
  have hfacts : s.errors = [] ∧ (Index.ofDocuments s.documents).errors = [] ∧
      .footnote ⟨"/docs/a.md".toList⟩ 0 id payload ∈ s.documentEdits ++ s.manifestEdits ∧
      ∃ e ∈ (allEvidence s.sources).filter (·.tag.requirement == id), ¬ e.coverer.Linkable := by
    rw [← hpayload, ← hs]
    decide +kernel
  obtain ⟨hclean, hindex, hplanned, e, he, hbroken⟩ := hfacts
  have htrace : trace t roots .default = .ok ⟨s, s.documentEdits ++ s.manifestEdits⟩ :=
    trace_eq_ok_iff.mpr ⟨hscan, hclean, plan_eq_ok_iff.mpr ⟨hindex, rfl⟩⟩
  obtain ⟨evidence, hevidence, hrender, -, hreads⟩ := trace_footnote htrace hosted hplanned
  refine ⟨_, payload, _, htrace, hplanned, hrender, fun hback => hbroken ?_⟩
  exact hreads.mp hback e (hevidence.perm.mem_iff.mpr he)

end ReqTrace
