/-
Module: ReqTrace.Proofs.Plan.Citations
Purpose: What the manifest of a directory is to record: the hashes of the files that the documents of the
  directory cite, in document order.
Main exports: Declaration.key, ScanResult.citedIn, ScanResult.citedIn_congr, ScanResult.getD_citations
-/
import ReqTrace.Proofs.Index
import ReqTrace.Proofs.Path
import ReqTrace.Proofs.Plan.DocumentRun

namespace ReqTrace

/-- A table answers alike for keys that compare as equal. -/
theorem Table.get?_congr {κ ν : Type} [Ord κ] [Std.TransOrd κ] (t : Table κ ν) {k k' : κ}
    (h : compare k k' = .eq) : t.get? k = t.get? k' := by
  simp only [get?, Std.TransCmp.congr_left h]

/-- Whether a document lies right in a directory. -/
def DocumentRecord.isIn (d : DocumentRecord) (directory : Path) : Bool :=
  d.path.parent?.any (·.same directory)

/-- What a declaration stands for, whatever its site says. -/
def Declaration.key (d : Declaration) : Path × RequirementId :=
  (d.document.path, d.id)

/-- What a declaration cites for the manifest of a directory. -/
def Declaration.citedIn (sources : List SourceRecord) (directory : Path) (d : Declaration) :
    List (Text × Text) :=
  if d.document.isIn directory then (evidenceFor sources d.id).filterMap Evidence.citation? else []

namespace ScanResult

/-- The files that the documents of a directory cite, with their hashes, in document order. -/
def citedIn (s : ScanResult) (directory : Path) : List (Text × Text) :=
  s.declared.flatMap (Declaration.citedIn s.sources directory)

/-- The same files are cited whatever the spelling of the directory. -/
theorem citedIn_congr_directory (s : ScanResult) {directory directory' : Path}
    (h : directory.same directory' = true) : s.citedIn directory = s.citedIn directory' := by
  have hin : ∀ d : DocumentRecord, d.isIn directory = d.isIn directory' := fun d => by
    unfold DocumentRecord.isIn
    simp only [Path.same_congr_right h]
  unfold citedIn Declaration.citedIn
  simp only [hin]

end ScanResult

/-- Scans that differ only in what the sites say cite the same files. -/
theorem ScanResult.citedIn_congr {s s' : ScanResult} (sources : s'.sources = s.sources)
    (keys : s'.declared.map Declaration.key = s.declared.map Declaration.key) (directory : Path) :
    s'.citedIn directory = s.citedIn directory := by
  let cited (key : Path × RequirementId) : List (Text × Text) :=
    if key.1.parent?.any (·.same directory) then (evidenceFor s.sources key.2).filterMap Evidence.citation?
    else []
  have hcited : ∀ declared : List Declaration, declared.flatMap (Declaration.citedIn s.sources directory) =
      (declared.map Declaration.key).flatMap cited := by
    intro declared
    rw [List.flatMap_map]
    rfl
  rw [citedIn, citedIn, sources, hcited, hcited, keys]

/-- A declaration about which nothing is to be said has no evidence. -/
theorem eq_nil_of_desiredStatus?_eq_none {site : Site} {evidence : List Evidence}
    (h : desiredStatus? site evidence = none) : evidence = [] := by
  by_contra hne
  rw [desiredStatus?, if_pos hne] at h
  cases h

theorem Citations.getD_add (citations : Citations) (sources : List SourceRecord) (d : Declaration)
    (directory : Path) :
    ((citations.add d (evidenceFor sources d.id)).get? directory).getD Table.empty =
      ((citations.get? directory).getD Table.empty).insertAll (d.citedIn sources directory) := by
  cases hparent : d.document.path.parent? with
  | none =>
      simp only [add, hparent, Declaration.citedIn, DocumentRecord.isIn]
      cases desiredStatus? d.site (evidenceFor sources d.id) <;> rfl
  | some parent =>
      simp only [add, hparent, Declaration.citedIn, DocumentRecord.isIn, Option.any_some]
      cases hdesired : desiredStatus? d.site (evidenceFor sources d.id) with
      | none =>
          rw [eq_nil_of_desiredStatus?_eq_none hdesired, List.filterMap_nil, ite_self]
          rfl
      | some status =>
          rw [Table.get?_insert]
          by_cases hsame : parent.same directory = true
          · have hcompare := Path.compare_eq_iff.mpr hsame
            rw [if_pos (Std.OrientedCmp.eq_symm hcompare), if_pos hsame, Table.get?_congr citations hcompare]
            rfl
          · have hcompare : compare directory parent ≠ .eq := by
              rw [ne_eq, Path.compare_eq_iff, Path.same_comm]
              exact hsame
            rw [if_neg hcompare, if_neg hsame]
            rfl

/-- The manifest of a directory is to record what the documents of the directory cite. -/
theorem ScanResult.getD_citations (s : ScanResult) (directory : Path) :
    (s.citations.get? directory).getD Table.empty = Table.ofList (s.citedIn directory) := by
  have hrun : ∀ (declared : List Declaration) (citations : Citations),
      ((declared.foldl (fun citations d => citations.add d (evidenceFor s.sources d.id)) citations).get?
        directory).getD Table.empty = ((citations.get? directory).getD Table.empty).insertAll
          (declared.flatMap (Declaration.citedIn s.sources directory)) := by
    intro declared
    induction declared with
    | nil => exact fun _ => rfl
    | cons d declared ih =>
        intro citations
        rw [List.foldl_cons, ih, Citations.getD_add, List.flatMap_cons]
        simp only [Table.insertAll, List.foldl_append]
  exact hrun s.declared Table.empty

end ReqTrace
