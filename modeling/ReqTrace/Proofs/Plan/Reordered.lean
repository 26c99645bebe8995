/-
Module: ReqTrace.Proofs.Plan.Reordered
Purpose: A plan does not depend on the order in which files were found. The declarations and the evidence are
  sorted, files have paths of their own, so no two members of one rank come from different files, and what is
  left to the order of the files is how a directory is spelled that several documents lie in.
Main exports: Action.Same, ScanResult.filter_declared_congr, ScanResult.declared_reordered,
  evidenceFor_reordered, ScanResult.manifestDirectories_reordered, plan_reordered
-/
import Mathlib.Data.List.Forall2
import ReqTrace.Proofs.Plan.Desired
import ReqTrace.Proofs.Plan.Manifests

namespace ReqTrace

/-! ### Edits of the same files -/

/-- Two actions are the same edit of the same file, whose path may be spelled in two ways. -/
inductive Action.Same : Action → Action → Prop where
  | site {path path' : Path} (file : path.same path' = true) (line : Nat) (requirement : RequirementId)
      (payload : Text) : Same (.site path line requirement payload) (.site path' line requirement payload)
  | footnote {path path' : Path} (file : path.same path' = true) (line : Nat) (requirement : RequirementId)
      (payload : Text) :
      Same (.footnote path line requirement payload) (.footnote path' line requirement payload)
  | setHash {path path' : Path} (file : path.same path' = true) (url hash : Text) :
      Same (.setHash path url hash) (.setHash path' url hash)
  | dropHash {path path' : Path} (file : path.same path' = true) (url : Text) :
      Same (.dropHash path url) (.dropHash path' url)

theorem Action.same_refl (a : Action) : Same a a := by
  cases a with
  | site path line requirement payload => exact .site (Path.same_self path) line requirement payload
  | footnote path line requirement payload => exact .footnote (Path.same_self path) line requirement payload
  | setHash path url hash => exact .setHash (Path.same_self path) url hash
  | dropHash path url => exact .dropHash (Path.same_self path) url

/-- The edits that turn one manifest into another do not depend on how its path is spelled. -/
theorem same_manifestActions {path path' : Path} (file : path.same path' = true)
    (previous desired : Manifest) :
    List.Forall₂ Action.Same (manifestActions path previous desired)
      (manifestActions path' previous desired) := by
  have hequal : ∀ l : List (Text × Text), List.Forall₂ Eq l l := fun l => List.forall₂_eq_eq_eq ▸ rfl
  apply List.rel_append
  · apply List.rel_filterMap _ (hequal desired.toList)
    intro entry entry' heq
    rw [heq]
    simp only
    split
    · exact .none
    · exact .some (.setHash file _ _)
  · apply List.rel_filterMap _ (hequal previous.toList)
    intro entry entry' heq
    rw [heq]
    simp only
    split
    · exact .none
    · exact .some (.dropHash file _)

/-! ### Declarations and evidence -/

/-- An index is free of errors or not, in whatever order the documents come. -/
theorem Index.errors_eq_nil_reordered {documents documents' : List DocumentRecord}
    (perm : documents.Perm documents') :
    (ofDocuments documents).errors = [] ↔ (ofDocuments documents').errors = [] := by
  have hids := ((perm.flatMap_right DocumentRecord.declarations).map Declaration.id).nodup_iff
  rw [errors_ofDocuments_eq_nil_iff, errors_ofDocuments_eq_nil_iff, hids]
  simp only [perm.mem_iff]

/-- Evidence of one rank comes from one file. -/
theorem filter_allEvidence (sources : List SourceRecord) (e : Evidence) :
    (allEvidence sources).filter (Evidence.compare e · == .eq) =
      (allEvidence (sources.filter (compare e.source.path ·.path == .eq))).filter
        (compare e.tag.line ·.tag.line == .eq) := by
  have horigin : (allEvidence sources).filter (compare e.source.path ·.source.path == .eq) =
      allEvidence (sources.filter (compare e.source.path ·.path == .eq)) := by
    apply filter_flatMap_of_origin
    intro source _ x hx
    obtain ⟨tag, -, rfl⟩ := List.mem_map.mp hx
    rfl
  rw [← horigin, List.filter_filter]
  apply List.filter_congr
  intro x _
  rw [Bool.eq_iff_iff, Bool.and_eq_true, beq_iff_eq, beq_iff_eq, beq_iff_eq, and_comm]
  exact compareLex_eq_eq

/-- The evidence for a requirement is the same in whatever order the source files come. Tags of one file and
    line keep the order that they have in the file. -/
theorem evidenceFor_reordered {sources sources' : List SourceRecord} (perm : sources.Perm sources')
    (distinct : sources.Pairwise fun a b => a.path.same b.path = false) (id : RequirementId) :
    evidenceFor sources id = evidenceFor sources' id := by
  have hfile : ∀ path : Path, sources.filter (compare path ·.path == .eq) =
      sources'.filter (compare path ·.path == .eq) := by
    intro path
    apply filter_eq_of_perm perm distinct
    intro a b ha hb hdifferent
    rw [beq_iff_eq, Path.compare_eq_iff] at ha hb
    rw [← Path.same_congr ha, hb] at hdifferent
    cases hdifferent
  -- Only the ties matter, and a tie is between tags of one file.
  apply mergeSort_congr Evidence.compare
  intro e
  rw [List.filter_comm, List.filter_comm _ _ (allEvidence sources'), filter_allEvidence,
    filter_allEvidence, hfile]

namespace ScanResult

variable {s s' : ScanResult}

/-- The declarations of some documents come in the same order in any two scans with these documents. -/
theorem filter_declared_congr (fine : (Index.ofDocuments s.documents).errors = [])
    (fine' : (Index.ofDocuments s'.documents).errors = []) {p : DocumentRecord → Bool}
    (documents : ∀ d, p d = true → (d ∈ s.documents ↔ d ∈ s'.documents)) :
    s.declared.filter (p ·.document) = s'.declared.filter (p ·.document) := by
  have hascending : ∀ {s : ScanResult}, (Index.ofDocuments s.documents).errors = [] →
      (s.declared.filter (p ·.document)).Pairwise fun a b =>
        compareLex Declaration.compare (compareOn Declaration.id) a b = .lt := by
    intro s fine
    apply ((ordered_declared fine).filter _).imp
    intro a b h
    exact Ordering.then_eq_lt.mpr h
  apply eq_of_ascending _ (hascending fine) (hascending fine')
  intro x
  rw [List.mem_filter, List.mem_filter, mem_declared_iff fine, mem_declared_iff fine']
  apply and_congr_left
  intro hp
  apply exists_congr
  intro d
  apply and_congr_left
  intro hx
  rw [DocumentRecord.document_of_mem_declarations hx] at hp
  exact documents d hp

/-- The declarations come in the same order, in whatever order the documents come. -/
theorem declared_reordered (perm : s.documents.Perm s'.documents)
    (fine : (Index.ofDocuments s.documents).errors = []) : s.declared = s'.declared := by
  have hall := filter_declared_congr fine ((Index.errors_eq_nil_reordered perm).mp fine)
    (p := fun _ => true) fun d _ => perm.mem_iff
  rwa [List.filter_true, List.filter_true] at hall

theorem distinct_sources (distinct : s.files.Pairwise fun a b => a.path.same b.path = false) :
    s.sources.Pairwise fun a b => a.path.same b.path = false := by
  apply List.pairwise_filterMap.mpr
  apply distinct.imp
  intro file file' hdifferent a ha b hb
  cases file with
  | document d => cases ha
  | source a' =>
      cases file' with
      | document d => cases hb
      | source b' =>
          cases ha
          cases hb
          exact hdifferent

section
variable (files : s.files.Perm s'.files)
  (distinct : s.files.Pairwise fun a b => a.path.same b.path = false)
include files distinct

theorem evidence_reordered (id : RequirementId) : evidenceFor s.sources id = evidenceFor s'.sources id :=
  evidenceFor_reordered (files.filterMap FileRecord.source?) (distinct_sources distinct) id

variable (fine : (Index.ofDocuments s.documents).errors = [])
include fine

/-- The edits of the documents are the same. -/
theorem documentEdits_reordered : s.documentEdits = s'.documentEdits := by
  rw [documentEdits, documentEdits, ← declared_reordered (files.filterMap FileRecord.document?) fine]
  apply List.flatMap_congr
  intro d _
  rw [evidence_reordered files distinct d.id]

/-- The documents of a directory cite the same files. -/
theorem citedIn_reordered (directory : Path) : s.citedIn directory = s'.citedIn directory := by
  rw [citedIn, citedIn, ← declared_reordered (files.filterMap FileRecord.document?) fine]
  apply List.flatMap_congr
  intro d _
  rw [Declaration.citedIn, Declaration.citedIn, evidence_reordered files distinct d.id]

end

/-! ### Directories -/

theorem isManifestDirectory_reordered (files : s.files.Perm s'.files)
    (manifests : ∀ directory, s.manifests.get? directory = s'.manifests.get? directory)
    {directory : Path} (h : s.IsManifestDirectory directory) : s'.IsManifestDirectory directory := by
  cases h with
  | inl hdocument =>
      obtain ⟨d, hd, hin⟩ := hdocument
      exact .inl ⟨d, (files.filterMap FileRecord.document?).mem_iff.mp hd, hin⟩
  | inr hmanifest =>
      rw [manifests directory] at hmanifest
      exact .inr hmanifest

/-- The directories come in the order of their paths. -/
theorem ascending_manifestDirectories (s : ScanResult) :
    ((manifestDirectories s).map Path.components).Pairwise fun a b => compare a b = .lt :=
  List.pairwise_map.mpr (List.pairwise_map.mpr (Table.ascending _))

/-- The same directories are looked at in the same order, but perhaps under other spellings. -/
theorem manifestDirectories_reordered (files : s.files.Perm s'.files)
    (manifests : ∀ directory, s.manifests.get? directory = s'.manifests.get? directory) :
    List.Forall₂ (fun directory directory' => directory.same directory' = true)
      (manifestDirectories s) (manifestDirectories s') := by
  have himp : ∀ {s s' : ScanResult}, s.files.Perm s'.files →
      (∀ directory, s.manifests.get? directory = s'.manifests.get? directory) →
      ∀ components ∈ (manifestDirectories s).map Path.components,
        components ∈ (manifestDirectories s').map Path.components := by
    intro s s' files manifests components hmem
    obtain ⟨directory, hdirectory, rfl⟩ := List.mem_map.mp hmem
    have hhere := isManifestDirectory_iff.mpr ⟨directory, hdirectory, Path.same_self directory⟩
    have hthere := isManifestDirectory_reordered files manifests hhere
    obtain ⟨other, hother, hsame⟩ := isManifestDirectory_iff.mp hthere
    rw [← Path.same_iff.mp hsame]
    exact List.mem_map_of_mem hother
  -- Both lists ascend, so they are equal if they have the same members.
  have hcomponents : (manifestDirectories s).map Path.components =
      (manifestDirectories s').map Path.components := by
    apply eq_of_ascending compare (ascending_manifestDirectories s) (ascending_manifestDirectories s')
    intro components
    exact ⟨himp files manifests components, himp files.symm (fun d => (manifests d).symm) components⟩
  have hequal := List.forall₂_eq_eq_eq ▸ hcomponents
  rw [List.forall₂_map_left_iff, List.forall₂_map_right_iff] at hequal
  exact hequal.imp fun _ _ => Path.same_iff.mpr

end ScanResult

/-! ### Plans -/

/-- The plan for some files does not depend on the order in which they were found: for every order there are
    errors, or for none, and the edits are the same one by one. -/
theorem plan_reordered {s s' : ScanResult} (files : s.files.Perm s'.files)
    (distinct : s.files.Pairwise fun a b => a.path.same b.path = false)
    (manifests : ∀ directory, s.manifests.get? directory = s'.manifests.get? directory) :
    (∃ errors errors', plan s = .error errors ∧ plan s' = .error errors') ∨
      ∃ actions actions', plan s = .ok actions ∧ plan s' = .ok actions' ∧
        List.Forall₂ Action.Same actions actions' := by
  have hindex := Index.errors_eq_nil_reordered (files.filterMap FileRecord.document?)
  by_cases fine : (Index.ofDocuments s.documents).errors = []
  · right
    refine ⟨_, _, plan_eq_ok_iff.mpr ⟨fine, rfl⟩, plan_eq_ok_iff.mpr ⟨hindex.mp fine, rfl⟩, ?_⟩
    apply List.rel_append
    · rw [ScanResult.documentEdits_reordered files distinct fine]
      exact List.forall₂_same.mpr fun a _ => a.same_refl
    · apply List.rel_flatMap (ScanResult.manifestDirectories_reordered files manifests)
      intro directory directory' hsame
      -- What was found and what is cited in a directory are looked up alike under both spellings.
      have hfile := (Path.same_join_iff isFileName_manifest).mpr hsame
      rw [ScanResult.manifestEditsIn_eq, ScanResult.manifestEditsIn_eq,
        ScanResult.citedIn_reordered files distinct fine, s'.citedIn_congr_directory hsame, manifests,
        Table.get?_congr s'.manifests (Path.compare_eq_iff.mpr hsame)]
      exact same_manifestActions hfile _ _
  · left
    have fine' : (Index.ofDocuments s'.documents).errors ≠ [] := fun h => fine (hindex.mpr h)
    exact ⟨_, _, if_pos fine, if_pos fine'⟩

/-- Of two spellings of a directory the one of the last document is taken, so the order shows in how the path of
    the manifest is written. -/
theorem plan_reordered_two_spellings :
    let p : Identifier := ⟨['p'], by decide⟩
    let a : FileRecord :=
      .document ⟨⟨"d/e/a.md".toList⟩, some p, [⟨⟨['A'], by decide⟩, 1, ⟨0, 5⟩, .bare, none⟩], []⟩
    let b : FileRecord := .document ⟨⟨"d//e/b.md".toList⟩, none, [], []⟩
    let c : FileRecord :=
      .source ⟨⟨"c.go".toList⟩, [⟨⟨p, ⟨['A'], by decide⟩⟩, "impl".toList, 1⟩], some ['h'], some ['u'], none⟩
    let s : ScanResult := ⟨[a, b, c], Table.empty, []⟩
    let s' : ScanResult := ⟨[c, b, a], Table.empty, []⟩
    ∃ actions actions', plan s = .ok actions ∧ plan s' = .ok actions' ∧
      List.Forall₂ Action.Same actions actions' ∧
        actions.getLast? = some (.setHash ⟨"d//e/reqmdfiles.json".toList⟩ ['u'] ['h']) ∧
        actions'.getLast? = some (.setHash ⟨"d/e/reqmdfiles.json".toList⟩ ['u'] ['h']) := by
  intro p a b c s s'
  have hlast : (plan s).toOption.bind List.getLast? =
      some (.setHash ⟨"d//e/reqmdfiles.json".toList⟩ ['u'] ['h']) := by decide +kernel
  have hlast' : (plan s').toOption.bind List.getLast? =
      some (.setHash ⟨"d/e/reqmdfiles.json".toList⟩ ['u'] ['h']) := by decide +kernel
  have hperm : [a, b, c].Perm [c, b, a] := by decide
  have hdistinct : [a, b, c].Pairwise fun x y => x.path.same y.path = false := by decide
  cases @plan_reordered s s' hperm hdistinct fun _ => rfl with
  | inl failed =>
      obtain ⟨errors, _, hplan, -⟩ := failed
      rw [hplan] at hlast
      cases hlast
  | inr planned =>
      obtain ⟨actions, actions', hplan, hplan', hsame⟩ := planned
      rw [hplan] at hlast
      rw [hplan'] at hlast'
      exact ⟨actions, actions', hplan, hplan', hsame, hlast, hlast'⟩

end ReqTrace
