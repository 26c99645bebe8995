/-
Module: ReqTrace.Proofs.Plan.Order
Purpose: The declarations of a scan in document order: document by document, and in each document site by
  site.
Main exports: ParsedDocument.sites_ascending, ScanResult.declared_eq_flatMap
-/
import ReqTrace.Proofs.Document.WellFormed
import ReqTrace.Proofs.Index

namespace ReqTrace

/-! ### Sites in order -/

/-- The order of the sites of a document: by line, then by column. -/
def Site.compare : Site → Site → Ordering :=
  compareLex (compareOn Site.line) (compareOn fun s : Site => s.span.start)

instance : Std.TransCmp Site.compare :=
  inferInstanceAs (Std.TransCmp (compareLex (compareOn Site.line) (compareOn fun s : Site => s.span.start)))

theorem Site.compare_eq_lt_iff {a b : Site} :
    compare a b = .lt ↔ a.line < b.line ∨ a.line = b.line ∧ a.span.start < b.span.start := by
  simp only [compare, compareLex, compareOn, Ordering.then_eq_lt, Nat.compare_eq_lt, Nat.compare_eq_eq]

theorem ParsedDocument.sites_ascending (lines : List Text) :
    (ofLines lines).sites.Pairwise fun a b => Site.compare a b = .lt :=
  (sites_precede lines).imp fun h => Site.compare_eq_lt_iff.mpr (h.imp_right fun h => ⟨h.1, h.2.1⟩)

/-! ### Declarations in order -/

/-- The order of declarations: by document, then by site. -/
def Declaration.compare : Declaration → Declaration → Ordering :=
  compareLex (compareOn fun d : Declaration => d.document.path)
    (compareLex (compareOn fun d : Declaration => d.site.line)
      (compareOn fun d : Declaration => d.site.span.start))

instance : Std.TransCmp Declaration.compare :=
  inferInstanceAs (Std.TransCmp (compareLex (compareOn fun d : Declaration => d.document.path)
    (compareLex (compareOn fun d : Declaration => d.site.line)
      (compareOn fun d : Declaration => d.site.span.start))))

theorem Declaration.compare_eq (a b : Declaration) :
    compare a b = (Ord.compare a.document.path b.document.path).then (Site.compare a.site b.site) := rfl

theorem DocumentRecord.declarations_ascending {d : DocumentRecord}
    (sites : d.sites.Pairwise fun a b => Site.compare a b = .lt) :
    d.declarations.Pairwise fun a b => Declaration.compare a b = .lt := by
  unfold declarations
  split
  · exact .nil
  · refine List.pairwise_map.mpr (sites.imp fun {a b} hlt => ?_)
    have hself : compare d.path d.path = .eq := Std.ReflCmp.compare_self
    rw [Declaration.compare_eq, hself]
    exact hlt

namespace ScanResult

/-- Documents in the order of their paths, each with its sites in order, give the declarations in document
    order. -/
theorem declared_eq_flatMap {s : ScanResult} (fine : (Index.ofDocuments s.documents).errors = [])
    (documents : s.documents.Pairwise fun a b => compare a.path b.path = .lt)
    (sites : ∀ d ∈ s.documents, d.sites.Pairwise fun a b => Site.compare a b = .lt) :
    s.declared = s.documents.flatMap DocumentRecord.declarations := by
  have hascending : (s.documents.flatMap DocumentRecord.declarations).Pairwise
      fun a b => Declaration.compare a b = .lt := by
    refine List.pairwise_flatMap.mpr ⟨fun d hd => d.declarations_ascending (sites d hd), ?_⟩
    refine documents.imp fun {d d'} hlt x hx y hy => ?_
    rw [Declaration.compare_eq, DocumentRecord.document_of_mem_declarations hx,
      DocumentRecord.document_of_mem_declarations hy, hlt]
    rfl
  have hdistinct : ((Index.ofDocuments s.documents).declarations.toList.map Prod.snd).Pairwise
      fun a b => Declaration.compare a b ≠ .eq := by
    refine ((Index.holds_ofDocuments fine).entries.pairwise_iff
      fun {a b} hne heq => hne (Std.OrientedCmp.eq_symm heq)).mpr (hascending.imp fun {a b} hlt heq => ?_)
    rw [hlt] at heq
    cases heq
  exact eq_of_ascending Declaration.compare (ascending_mergeSort Declaration.compare hdistinct) hascending
    fun x => (Index.holds_ofDocuments fine).perm_inDocumentOrder.mem_iff

end ScanResult

end ReqTrace
