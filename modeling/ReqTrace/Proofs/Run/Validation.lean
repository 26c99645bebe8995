/-
Module: ReqTrace.Proofs.Run.Validation
Purpose: What a plan reports instead of edits: every document that has sites and names no package, and every
  declaration of a requirement that is declared before. Each is reported once, nothing else is, and the
  declaration that is named as the first one stands before the one that is reported.
Main exports: ScanResult.InOrder, ScanResult.inOrder_of_scan, ScanResult.planErrors,
  ScanResult.planErrors_exact
-/
import ReqTrace.Proofs.Plan.Order
import ReqTrace.Proofs.Run.Groups

namespace ReqTrace

/-! ### The order of the declarations -/

namespace ScanResult

/-- Each document has one record, the records come in the order of their paths, and the sites of each in the order
    of their lines. -/
structure InOrder (s : ScanResult) : Prop where
  documents : s.documents.Pairwise fun a b => compare a.path b.path = .lt
  sites : ∀ d ∈ s.documents, d.sites.Pairwise fun a b => a.line ≤ b.line

/-- A scan reads the documents in the order of their paths and each one from top to bottom. -/
theorem inOrder_of_scan {t : FileTree} {roots : List ScanRoot} {config : Config} {s : ScanResult}
    (wellFormed : t.WellFormed) (h : scan t roots config = .ok s) : s.InOrder := by
  obtain ⟨units, -, hscanned⟩ := exists_scanned h wellFormed
  refine ⟨hscanned.ascending_documents, fun d hd => ?_⟩
  obtain ⟨dir, name, text, -, rfl⟩ := hscanned.exists_text hd
  refine (ParsedDocument.sites_ascending _).imp fun {a b} hlt => ?_
  rcases Site.compare_eq_lt_iff.mp hlt with hline | ⟨hline, -⟩
  · exact Nat.le_of_lt hline
  · exact Nat.le_of_eq hline

/-- Of two declarations the first one stands before the other one. -/
theorem InOrder.declarations {s : ScanResult} (h : s.InOrder) :
    (s.documents.flatMap DocumentRecord.declarations).Pairwise fun a b =>
      ((compare a.document.path b.document.path).then (compare a.site.line b.site.line)).isLE = true := by
  refine List.pairwise_flatMap.mpr ⟨fun d hd => ?_, ?_⟩
  · unfold DocumentRecord.declarations
    split
    · exact .nil
    · refine List.pairwise_map.mpr ((h.sites d hd).imp fun {a b} hle => ?_)
      have hself : compare d.path d.path = .eq := Std.ReflCmp.compare_self
      rw [hself]
      exact Nat.isLE_compare.mpr hle
  · refine h.documents.imp fun {d d'} hlt x hx y hy => ?_
    rw [DocumentRecord.document_of_mem_declarations hx, DocumentRecord.document_of_mem_declarations hy, hlt]
    rfl

/-! ### The errors of a plan -/

/-- What a plan reports instead of edits. -/
def planErrors (s : ScanResult) : List SemanticError :=
  match plan s with
  | .ok _ => []
  | .error errors => errors

/-- A plan reports the errors of the index, and it edits nothing if there are some. -/
theorem plan_cases (s : ScanResult) :
    s.planErrors = sortErrors (Index.ofDocuments s.documents).errors.reverse ∧
      (s.planErrors = [] ∧ (∃ actions, plan s = .ok actions) ∨
        s.planErrors ≠ [] ∧ plan s = .error s.planErrors) := by
  by_cases hfine : (Index.ofDocuments s.documents).errors = []
  · have hplan := plan_eq_ok_iff.mpr ⟨hfine, rfl⟩
    have hnone : s.planErrors = [] := by rw [planErrors, hplan]
    exact ⟨by simp [hnone, hfine, sortErrors], .inl ⟨hnone, _, hplan⟩⟩
  · have hplan : plan s = .error (sortErrors (Index.ofDocuments s.documents).errors.reverse) := by
      simp [plan, hfine]
    have herrors : s.planErrors = sortErrors (Index.ofDocuments s.documents).errors.reverse := by
      rw [planErrors, hplan]
    refine ⟨herrors, .inr ⟨fun hnone => hfine ?_, by rw [herrors, hplan]⟩⟩
    rw [herrors, sortErrors, ← List.length_eq_zero_iff, List.length_mergeSort] at hnone
    simpa using hnone

/-- The errors of a plan are those of the index, sorted. -/
theorem perm_planErrors (s : ScanResult) :
    s.planErrors.Perm (Index.ofDocuments s.documents).errors.reverse := by
  rw [s.plan_cases.1]
  exact List.mergeSort_perm _ _

/-- The errors about one requirement, or about no requirement, are those that are to be reported. -/
theorem perm_filter_planErrors (s : ScanResult) :
    (s.planErrors.filter (·.repeated? == none)).Perm
        (s.documents.filterMap DocumentRecord.missingPackage?) ∧
      ∀ id, (s.planErrors.filter (·.repeated? == some id)).Perm
        (repetitions (declarationsOf id (s.documents.flatMap DocumentRecord.declarations))) := by
  have hreports := Index.reports_ofDocuments s.documents
  constructor
  · rw [← hreports.missing]
    exact s.perm_planErrors.filter _
  · intro id
    rw [← hreports.repeated id]
    exact s.perm_planErrors.filter _

/-- In documents that come in order, the declaration that an error names as the first one does not stand after
    the error. -/
theorem InOrder.first_before {s : ScanResult} (h : s.InOrder) {e : SemanticError} (he : e ∈ s.planErrors)
    {id : RequirementId} {firstPath : Path} {firstLine : Nat}
    (fault : e.fault = .duplicateRequirement id firstPath firstLine) :
    ((compare firstPath e.path).then (compare firstLine e.line)).isLE = true := by
  have hkind : (e.repeated? == some id) = true := by simp [SemanticError.repeated?, fault]
  have hmem := (s.perm_filter_planErrors.2 id).mem_iff.mp (List.mem_filter.mpr ⟨he, hkind⟩)
  obtain ⟨first, rest, hdeclared, d, hd, rfl⟩ := mem_repetitions_iff.mp hmem
  have hordered := h.declarations.filter (·.id == id)
  rw [← declarationsOf, hdeclared] at hordered
  cases fault
  exact List.rel_of_pairwise_cons hordered hd

/-- A plan reports, for each document that has sites and names no package, one error at its first site, and for
    each requirement that is declared `k` times `k - 1` errors: one at each declaration but the first, which it
    names. There are no others, they are sorted by path and line, and if there is one nothing is edited. A scan
    gives the documents in such an order that the declaration named never stands after the error. -/
theorem planErrors_exact (s : ScanResult) :
    (s.planErrors.filter (·.repeated? == none)).Perm
        (s.documents.filterMap DocumentRecord.missingPackage?) ∧
      (∀ id, (s.planErrors.filter (·.repeated? == some id)).Perm
          (repetitions (declarationsOf id (s.documents.flatMap DocumentRecord.declarations))) ∧
        (s.planErrors.filter (·.repeated? == some id)).length =
          (declarationsOf id (s.documents.flatMap DocumentRecord.declarations)).length - 1) ∧
      (s.planErrors.Pairwise fun a b =>
        ((compare a.path b.path).then (compare a.line b.line)).isLE = true) ∧
      (s.planErrors = [] ∧ (∃ actions, plan s = .ok actions) ∨
        s.planErrors ≠ [] ∧ plan s = .error s.planErrors) ∧
      (s.InOrder → ∀ e ∈ s.planErrors, ∀ id firstPath firstLine,
        e.fault = .duplicateRequirement id firstPath firstLine →
          ((compare firstPath e.path).then (compare firstLine e.line)).isLE = true) ∧
      ∀ (t : FileTree) (roots : List ScanRoot) (config : Config), t.WellFormed →
        scan t roots config = .ok s → s.InOrder := by
  obtain ⟨herrors, hcases⟩ := s.plan_cases
  obtain ⟨hmissing, hrepeated⟩ := s.perm_filter_planErrors
  refine ⟨hmissing, fun id => ⟨hrepeated id, ?_⟩, ?_, hcases, ?_, ?_⟩
  · rw [(hrepeated id).length_eq, length_repetitions]
  · rw [herrors]
    exact pairwise_mergeSort (compareLex (compareOn SemanticError.path) (compareOn SemanticError.line)) _
  · intro ordered e he id firstPath firstLine fault
    exact ordered.first_before he fault
  · intro t roots config wellFormed h
    exact inOrder_of_scan wellFormed h

/-- A requirement that one document declares twice and the next one once more, and a document without a
    package: the first declaration is named twice. -/
theorem planErrors_three_declarations :
    let p : Identifier := ⟨['p'], by decide⟩
    let name : Identifier := ⟨['A'], by decide⟩
    let a : DocumentRecord :=
      ⟨⟨"a.md".toList⟩, some p, [⟨name, 2, ⟨0, 5⟩, .bare, none⟩, ⟨name, 5, ⟨0, 5⟩, .bare, none⟩], []⟩
    let b : DocumentRecord := ⟨⟨"b.md".toList⟩, some p, [⟨name, 1, ⟨0, 5⟩, .bare, none⟩], []⟩
    let c : DocumentRecord := ⟨⟨"c.md".toList⟩, none, [⟨name, 7, ⟨0, 5⟩, .bare, none⟩], []⟩
    let s : ScanResult := ⟨[.document a, .document b, .document c], Table.empty, []⟩
    s.InOrder ∧ (s.planErrors.filter (·.repeated? == some ⟨p, name⟩)).length = 2 ∧
      s.planErrors =
        [⟨⟨"a.md".toList⟩, 5, .duplicateRequirement ⟨p, name⟩ ⟨"a.md".toList⟩ 2⟩,
          ⟨⟨"b.md".toList⟩, 1, .duplicateRequirement ⟨p, name⟩ ⟨"a.md".toList⟩ 2⟩,
          ⟨⟨"c.md".toList⟩, 7, .missingPackage⟩] ∧
      ∀ e ∈ s.planErrors, ∀ id firstPath firstLine,
        e.fault = .duplicateRequirement id firstPath firstLine →
          ((compare firstPath e.path).then (compare firstLine e.line)).isLE = true := by
  intro p name a b c s
  have hordered : s.InOrder := ⟨by decide, by decide⟩
  obtain ⟨-, hcounts, -, -, hfirst, -⟩ := s.planErrors_exact
  refine ⟨hordered, ?_, ?_, hfirst hordered⟩
  · rw [(hcounts ⟨p, name⟩).2]
    decide
  · rw [s.plan_cases.1]
    exact List.mergeSort_of_pairwise (by decide)

end ScanResult

end ReqTrace
