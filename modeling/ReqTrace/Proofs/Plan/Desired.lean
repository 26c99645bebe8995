/-
Module: ReqTrace.Proofs.Plan.Desired
Purpose: The manifest that a directory is to have, told from the tags alone: every address has the hash that the
  last tag gives for it. A plan takes the tags in just that order.
Main exports: Declaration.eq_of_compare, Citation, Citation.compare, ScanResult.Cites, ScanResult.IsDesired,
  isDesired_iff
-/
import ReqTrace.Proofs.Plan.Citations
import ReqTrace.Proofs.Plan.Coverage
import ReqTrace.Proofs.Plan.Order

namespace ReqTrace

/-! ### Citations -/

/-- A tag together with the requirement that it names. -/
structure Citation where
  declaration : Declaration
  evidence : Evidence

namespace Citation

/-- The order in which citations count: by document, by site, by source file and by line. Two sites of one
    place, which no document that was read has, are told apart by their requirements. -/
def compare : Citation → Citation → Ordering :=
  compareLex (fun a b => Declaration.compare a.declaration b.declaration)
    (compareLex (compareOn fun c : Citation => c.declaration.id)
      fun a b => Evidence.compare a.evidence b.evidence)

instance : Std.TransCmp compare :=
  inferInstanceAs (Std.TransCmp (compareLex
    (compareLex (compareOn fun c : Citation => c.declaration.document.path)
      (compareLex (compareOn fun c : Citation => c.declaration.site.line)
        (compareOn fun c : Citation => c.declaration.site.span.start)))
    (compareLex (compareOn fun c : Citation => c.declaration.id)
      (compareLex (compareOn fun c : Citation => c.evidence.source.path)
        (compareOn fun c : Citation => c.evidence.tag.line)))))

theorem compare_eq (a b : Citation) :
    compare a b = (Declaration.compare a.declaration b.declaration).then
      ((Ord.compare a.declaration.id b.declaration.id).then (Evidence.compare a.evidence b.evidence)) := rfl

end Citation

namespace ScanResult

/-- A tag of some source file names a requirement that a document in a directory declares. -/
structure Cites (s : ScanResult) (directory : Path) (c : Citation) : Prop where
  declared : ∃ document ∈ s.documents, document.isIn directory = true ∧ c.declaration ∈ document.declarations
  tagged : c.evidence ∈ allEvidence s.sources
  named : c.evidence.tag.requirement = c.declaration.id

/-- The manifest that a directory is to have. It has the addresses of the cited files for which a hash is known,
    and of several hashes for an address the one that is cited last. -/
def IsDesired (s : ScanResult) (directory : Path) (m : Manifest) : Prop :=
  ∀ url hash, m.get? url = some hash ↔
    ∃ c, s.Cites directory c ∧ c.evidence.citation? = some (url, hash) ∧
      ∀ c', s.Cites directory c' → ∀ hash', c'.evidence.citation? = some (url, hash') →
        (Citation.compare c' c).isLE = true

end ScanResult

/-- In documents with paths of their own, whose sites have places of their own, a place tells the declaration. -/
theorem Declaration.eq_of_compare {documents : List DocumentRecord}
    (distinct : documents.Pairwise fun a b => a.path.same b.path = false)
    (sites : ∀ d ∈ documents, d.sites.Pairwise fun a b => Site.compare a b ≠ .eq) {x y : Declaration}
    (hx : ∃ d ∈ documents, x ∈ d.declarations) (hy : ∃ d ∈ documents, y ∈ d.declarations)
    (h : compare x y = .eq) : x = y := by
  obtain ⟨d, hd, hx⟩ := hx
  obtain ⟨d', hd', hy⟩ := hy
  obtain ⟨package, site, hpackage, hsite, rfl⟩ := DocumentRecord.mem_declarations_iff.mp hx
  obtain ⟨package', site', hpackage', hsite', rfl⟩ := DocumentRecord.mem_declarations_iff.mp hy
  rw [compare_eq, Ordering.then_eq_eq, Path.compare_eq_iff] at h
  obtain rfl := Path.eq_of_same distinct hd hd' h.1
  obtain rfl := eq_of_distinct Std.OrientedCmp.eq_symm (sites d hd) hsite hsite' h.2
  cases hpackage.symm.trans hpackage'
  rfl

/-- In documents whose sites have places of their own, as all that were read do, the document, the place of the
    site, the source file and the line tell the order of two citations. -/
theorem ScanResult.Cites.compare_eq {s : ScanResult}
    (documents : s.documents.Pairwise fun a b => a.path.same b.path = false)
    (sites : ∀ d ∈ s.documents, d.sites.Pairwise fun a b => Site.compare a b ≠ .eq) {directory : Path}
    {c c' : Citation} (h : s.Cites directory c) (h' : s.Cites directory c') :
    Citation.compare c c' = (Declaration.compare c.declaration c'.declaration).then
      (Evidence.compare c.evidence c'.evidence) := by
  have hdeclared : ∀ {c : Citation}, s.Cites directory c → ∃ d ∈ s.documents, c.declaration ∈ d.declarations := by
    intro c h
    obtain ⟨d, hd, -, hx⟩ := h.declared
    exact ⟨d, hd, hx⟩
  rw [Citation.compare_eq]
  cases hplace : Declaration.compare c.declaration c'.declaration with
  | lt => rfl
  | gt => rfl
  | eq =>
      have hself : compare c.declaration.id c'.declaration.id = .eq := by
        rw [Declaration.eq_of_compare documents sites (hdeclared h) (hdeclared h') hplace]
        exact Std.ReflOrd.compare_self
      rw [hself]
      rfl

/-! ### Citations in order -/

/-- What a declaration cites for the manifest of a directory, with the tags that do so. -/
def Declaration.citationsIn (sources : List SourceRecord) (directory : Path) (d : Declaration) : List Citation :=
  if d.document.isIn directory then (evidenceFor sources d.id).map (Citation.mk d) else []

theorem Declaration.mem_citationsIn_iff {sources : List SourceRecord} {directory : Path} {d : Declaration}
    {c : Citation} : c ∈ d.citationsIn sources directory ↔ c.declaration = d ∧
      d.document.isIn directory = true ∧ c.evidence ∈ allEvidence sources ∧
      c.evidence.tag.requirement = d.id := by
  have hevidence : c.evidence ∈ evidenceFor sources d.id ↔
      c.evidence ∈ allEvidence sources ∧ c.evidence.tag.requirement = d.id := by
    rw [(isEvidence_evidenceFor sources d.id).perm.mem_iff, List.mem_filter, beq_iff_eq]
  rw [citationsIn, ← hevidence]
  split
  · rename_i hin
    rw [List.mem_map]
    constructor
    · rintro ⟨e, he, rfl⟩
      exact ⟨rfl, hin, he⟩
    · rintro ⟨rfl, -, he⟩
      exact ⟨c.evidence, he, rfl⟩
  · rename_i hin
    simp [hin]

namespace ScanResult

variable {s : ScanResult}

/-- What the documents of a directory cite, in document order. -/
def citationsIn (s : ScanResult) (directory : Path) : List Citation :=
  s.declared.flatMap (Declaration.citationsIn s.sources directory)

theorem citedIn_eq_filterMap (s : ScanResult) (directory : Path) :
    s.citedIn directory = (s.citationsIn directory).filterMap (·.evidence.citation?) := by
  rw [citedIn, citationsIn, List.filterMap_flatMap]
  refine List.flatMap_congr fun d _ => ?_
  unfold Declaration.citedIn Declaration.citationsIn
  split
  · rw [List.filterMap_map]
    rfl
  · rfl

theorem mem_citationsIn_iff (fine : (Index.ofDocuments s.documents).errors = []) {directory : Path}
    {c : Citation} : c ∈ s.citationsIn directory ↔ s.Cites directory c := by
  rw [citationsIn, List.mem_flatMap]
  constructor
  · rintro ⟨d, hd, hc⟩
    obtain ⟨rfl, hin, htag, hname⟩ := Declaration.mem_citationsIn_iff.mp hc
    obtain ⟨document, hdocument, hx⟩ := (mem_declared_iff fine).mp hd
    rw [DocumentRecord.document_of_mem_declarations hx] at hin
    exact ⟨⟨document, hdocument, hin, hx⟩, htag, hname⟩
  · rintro ⟨⟨document, hdocument, hin, hx⟩, htag, hname⟩
    rw [← DocumentRecord.document_of_mem_declarations hx] at hin
    exact ⟨c.declaration, (mem_declared_iff fine).mpr ⟨document, hdocument, hx⟩,
      Declaration.mem_citationsIn_iff.mpr ⟨rfl, hin, htag, hname⟩⟩

/-- Declarations come by place, and those of one place by their ids. -/
theorem ordered_declared (fine : (Index.ofDocuments s.documents).errors = []) :
    s.declared.Pairwise fun a b => Declaration.compare a b = .lt ∨
      Declaration.compare a b = .eq ∧ compare a.id b.id = .lt := by
  have hholds := Index.holds_ofDocuments fine
  have hids : ((Index.ofDocuments s.documents).declarations.toList.map Prod.snd).Pairwise
      fun a b => compare a.id b.id = .lt := by
    refine List.pairwise_map.mpr
      ((Index.ofDocuments s.documents).declarations.ascending.imp_of_mem fun {a b} ha hb hlt => ?_)
    rwa [hholds.ids a ha, hholds.ids b hb] at hlt
  exact pairwise_mergeSort_of_pairwise Declaration.compare hids

/-- Citations come in the order in which they count. -/
theorem ordered_citationsIn (fine : (Index.ofDocuments s.documents).errors = []) (directory : Path) :
    (s.citationsIn directory).Pairwise fun a b => (Citation.compare a b).isLE = true := by
  refine List.pairwise_flatMap.mpr ⟨fun d _ => ?_, ?_⟩
  · unfold Declaration.citationsIn
    split
    · refine List.pairwise_map.mpr ((isEvidence_evidenceFor s.sources d.id).ordered.imp fun {a b} hle => ?_)
      have hplace : Declaration.compare d d = .eq := Std.ReflCmp.compare_self
      have hid : compare d.id d.id = .eq := Std.ReflOrd.compare_self
      rw [Citation.compare_eq, hplace, hid]
      exact hle
    · exact .nil
  · refine (ordered_declared fine).imp fun {d d'} hbefore a ha b hb => ?_
    obtain ⟨rfl, -⟩ := Declaration.mem_citationsIn_iff.mp ha
    obtain ⟨rfl, -⟩ := Declaration.mem_citationsIn_iff.mp hb
    rw [Citation.compare_eq]
    rcases hbefore with hlt | ⟨heq, hlt⟩
    · rw [hlt]
      rfl
    · rw [heq, hlt]
      rfl

/-- Citations of equal rank are of tags in one file, so they cite the same. -/
theorem citation?_eq_of_compare (distinct : s.files.Pairwise fun a b => a.path.same b.path = false)
    {directory : Path} {c c' : Citation} (hc : s.Cites directory c) (hc' : s.Cites directory c')
    (h : Citation.compare c c' = .eq) : c.evidence.citation? = c'.evidence.citation? := by
  have hfile : ∀ {c : Citation}, s.Cites directory c → .source c.evidence.source ∈ s.files := by
    intro c hc
    obtain ⟨source, hsource, htag⟩ := List.mem_flatMap.mp hc.tagged
    obtain ⟨tag, -, heq⟩ := List.mem_map.mp htag
    obtain ⟨record, hrecord, hsome⟩ := List.mem_filterMap.mp hsource
    rw [← heq]
    cases record with
    | document d => cases hsome
    | source source' =>
        cases hsome
        exact hrecord
  rw [Citation.compare_eq] at h
  simp only [Ordering.then_eq_eq] at h
  have hpath : compare c.evidence.source.path c'.evidence.source.path = .eq :=
    (compareLex_eq_eq.mp h.2.2).1
  have hsame := Path.eq_of_same distinct (hfile hc) (hfile hc') (Path.compare_eq_iff.mp hpath)
  unfold Evidence.citation?
  rw [FileRecord.source.inj hsame]

end ScanResult

/-- There is one manifest that a directory is to have, and it is the one that a plan aims at. -/
theorem isDesired_iff {s : ScanResult} (fine : (Index.ofDocuments s.documents).errors = [])
    (distinct : s.files.Pairwise fun a b => a.path.same b.path = false) {directory : Path} {m : Manifest} :
    s.IsDesired directory m ↔ m = Table.ofList (s.citedIn directory) := by
  have hcited : s.IsDesired directory (Table.ofList (s.citedIn directory)) := by
    intro url hash
    rw [ScanResult.citedIn_eq_filterMap,
      Table.get?_ofList_filterMap_iff Citation.compare (ScanResult.ordered_citationsIn fine directory)]
    · simp only [ScanResult.mem_citationsIn_iff fine]
    · intro c hc c' hc'
      rw [ScanResult.mem_citationsIn_iff fine] at hc hc'
      exact ScanResult.citation?_eq_of_compare distinct hc hc'
  constructor
  · intro h
    refine Table.ext_get? fun url => Option.ext fun hash => ?_
    rw [h url hash, hcited url hash]
  · rintro rfl
    exact hcited

end ReqTrace
