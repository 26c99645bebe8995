/-
Module: ReqTrace.Proofs.Reordering
Purpose: A plan can be carried out in other orders. If new footnotes and edits of manifests keep their order, a run
  succeeds or fails as it does in the order of the plan, and it leaves the same tree.
Main exports: Reordering, Reordering.alike, FileTree.apply_reordered
-/
import ReqTrace.Proofs.FailFast
import ReqTrace.Proofs.Plan.Apart
import ReqTrace.Proofs.Plan.Manifests
import ReqTrace.Proofs.Separate

namespace ReqTrace

/-! ### Plans in another order -/

/-- Whether an action adds a footnote at the end of a document. -/
def Action.isNewFootnote : Action → Bool
  | site _ _ _ _ => false
  | footnote _ line _ _ => line == 0
  | setHash _ _ _ => false
  | dropHash _ _ => false

theorem newFootnotes_filter (actions : List Action) :
    newFootnotes (actions.filter Action.isNewFootnote) = newFootnotes actions := by
  induction actions with
  | nil => rfl
  | cons a actions ih =>
      cases a with
      | site _ _ _ _ => exact ih
      | footnote path line id payload =>
          cases line with
          | zero => exact congrArg (payload :: ·) ih
          | succ n => exact ih
      | setHash _ _ _ => exact ih
      | dropHash _ _ => exact ih

theorem patchManifest_filter (m : Manifest) (actions : List Action) :
    patchManifest m (actions.filter Action.isManifestEdit) = patchManifest m actions := by
  rw [patchManifest, patchManifest, List.foldl_filter]
  congr 1
  funext m a
  cases a <;> rfl

/-- The same actions in another order. The new footnotes of every document and the edits of every manifest come in
    the order in which they came. -/
structure Reordering (actions reordered : List Action) : Prop where
  perm : actions.Perm reordered
  footnotes : ∀ path : Path, reordered.filter (fun a => a.isNewFootnote && a.path.same path) =
    actions.filter (fun a => a.isNewFootnote && a.path.same path)
  manifests : ∀ path : Path, reordered.filter (fun a => a.isManifestEdit && a.path.same path) =
    actions.filter (fun a => a.isManifestEdit && a.path.same path)

/-- Edits for which the order in their file does not matter, apart from new footnotes and edits of manifests. -/
def ApartInFiles (actions : List Action) : Prop :=
  ∀ a ∈ actions, ∀ b ∈ actions, a.path.same b.path = true → a.isManifestEdit = false →
    b.isManifestEdit = false → a.Apart b

namespace Reordering

variable {actions reordered : List Action} {t t' : FileTree}

/-- New footnotes and edits of manifests keep their order in every file if they do so altogether. -/
theorem of_filter (perm : actions.Perm reordered)
    (footnotes : reordered.filter Action.isNewFootnote = actions.filter Action.isNewFootnote)
    (manifests : reordered.filter Action.isManifestEdit = actions.filter Action.isManifestEdit) :
    Reordering actions reordered := by
  have hfilter : ∀ {kind : Action → Bool}, reordered.filter kind = actions.filter kind → ∀ path : Path,
      reordered.filter (fun a => kind a && a.path.same path) =
        actions.filter (fun a => kind a && a.path.same path) := by
    intro kind h path
    have hcomm : (fun a : Action => kind a && a.path.same path) = fun a => a.path.same path && kind a := by
      funext a
      exact Bool.and_comm _ _
    rw [hcomm, ← List.filter_filter, ← List.filter_filter, h]
  exact ⟨perm, hfilter footnotes, hfilter manifests⟩

theorem symm (h : Reordering actions reordered) : Reordering reordered actions :=
  ⟨h.perm.symm, fun path => (h.footnotes path).symm, fun path => (h.manifests path).symm⟩

theorem apartInFiles (h : Reordering actions reordered) (apart : ApartInFiles actions) : ApartInFiles reordered :=
  fun a ha b hb => apart a (h.perm.mem_iff.mpr ha) b (h.perm.mem_iff.mpr hb)

/-! ### The edits of one file -/

theorem newFootnotes_eq (h : Reordering actions reordered) (path : Path) :
    newFootnotes (reordered.filter (·.path.same path)) = newFootnotes (actions.filter (·.path.same path)) := by
  rw [← newFootnotes_filter, ← newFootnotes_filter (actions.filter _), List.filter_filter, List.filter_filter,
    h.footnotes path]

theorem patchManifest_eq (h : Reordering actions reordered) (m : Manifest) (path : Path) :
    patchManifest m (reordered.filter (·.path.same path)) =
      patchManifest m (actions.filter (·.path.same path)) := by
  rw [← patchManifest_filter, ← patchManifest_filter m (actions.filter _), List.filter_filter, List.filter_filter,
    h.manifests path]

/-- The edits of a file make the same of it in both orders. -/
theorem alike (h : Reordering actions reordered) (apart : ApartInFiles actions) {e e' : FileEdits}
    (edits : e.actions = actions.filter (·.path.same e.path))
    (edits' : e'.actions = reordered.filter (·.path.same e'.path)) (same : e.path.same e'.path = true) :
    e.Alike e' := by
  have hactions : e'.actions = reordered.filter (·.path.same e.path) := by
    rw [edits']
    exact List.filter_congr fun a _ => (Path.same_congr_right same a.path).symm
  have hperm : e.actions.Perm e'.actions := by
    rw [edits, hactions]
    exact h.perm.filter _
  have hkind : e'.isManifest = e.isManifest := hperm.symm.any_eq
  refine ⟨same, fun node node' hrevise => ?_⟩
  cases hmanifest : e.isManifest with
  | true =>
      obtain ⟨m, hm, rfl⟩ := (FileEdits.revise_manifest_eq_ok_iff hmanifest).mp hrevise
      refine (FileEdits.revise_manifest_eq_ok_iff (hkind.trans hmanifest)).mpr ⟨m, ?_, ?_⟩
      · exact FileEdits.manifestIn_eq_ok_iff.mpr (FileEdits.manifestIn_eq_ok_iff.mp hm)
      · rw [edits, hactions, h.patchManifest_eq m e.path]
  | false =>
      obtain ⟨text, patched, htext, hpatched, rfl⟩ := (FileEdits.revise_document_eq_ok_iff hmanifest).mp hrevise
      refine (FileEdits.revise_document_eq_ok_iff (hkind.trans hmanifest)).mpr ⟨text, patched, htext, ?_, rfl⟩
      apply patchDocument_reordered e'.path hperm _ _ hpatched
      · have hdocument : ∀ a ∈ e.actions, a.isManifestEdit = false := by
          simpa using List.any_eq_false.mp hmanifest
        have hfile : ∀ a ∈ e.actions, a ∈ actions ∧ a.path.same e.path = true := fun a ha =>
          List.mem_filter.mp (edits ▸ ha)
        intro a ha b hb
        obtain ⟨hmem, hpath⟩ := hfile a ha
        obtain ⟨hmem', hpath'⟩ := hfile b hb
        rw [Path.same_comm, ← Path.same_congr hpath] at hpath'
        exact apart a hmem b hmem' hpath' (hdocument a ha) (hdocument b hb)
      · rw [edits, hactions, h.newFootnotes_eq e.path]

end Reordering

/-! ### Runs -/

namespace Reordering

variable {actions reordered : List Action} {t t' : FileTree}

/-- The files of both orders are the same, and their edits make the same of them. -/
theorem exists_alike (h : Reordering actions reordered) (apart : ApartInFiles actions) :
    ∃ groups : List FileEdits, (groupByFile actions).Perm groups ∧
      List.Forall₂ FileEdits.Alike groups (groupByFile reordered) := by
  have hgrouping := isGrouping_groupByFile actions
  have hgrouping' := isGrouping_groupByFile reordered
  apply exists_perm_forall₂
  · refine hgrouping.distinct.imp fun {e₁ e₂} hother e' h₁ h₂ => ?_
    rw [Path.same_congr h₁.1, Path.same_comm, h₂.1] at hother
    cases hother
  · refine hgrouping'.distinct.imp fun {e₁ e₂} hother e h₁ h₂ => ?_
    rw [← Path.same_congr h₁.1, h₂.1] at hother
    cases hother
  · intro e he
    obtain ⟨a, ha, hpath⟩ := hgrouping.named e he
    obtain ⟨e', he', hsame⟩ := hgrouping'.all a (h.perm.mem_iff.mp ha)
    rw [hpath, Path.same_comm] at hsame
    exact ⟨e', he', h.alike apart (hgrouping.edits e he) (hgrouping'.edits e' he') hsame⟩
  · intro e' he'
    obtain ⟨a, ha, hpath⟩ := hgrouping'.named e' he'
    obtain ⟨e, he, hsame⟩ := hgrouping.all a (h.perm.mem_iff.mpr ha)
    rw [hpath] at hsame
    exact ⟨e, he, h.alike apart (hgrouping.edits e he) (hgrouping'.edits e' he') hsame⟩

/-- What succeeds in one order succeeds in the other one, and leaves the same tree. -/
theorem apply_eq (h : Reordering actions reordered) (apart : ApartInFiles actions)
    (files : t.DistinctFiles (actions.map Action.path)) {n : Nat} (run : t.apply actions = (t', .ok n)) :
    t.apply reordered = (t', .ok n) := by
  obtain ⟨hrun, rfl⟩ := FileTree.apply_eq_ok_iff.mp run
  obtain ⟨groups, hperm, halike⟩ := h.exists_alike apart
  have hseparate := files.separate
  refine FileTree.apply_eq_ok_iff.mpr ⟨?_, hperm.length_eq.trans halike.length_eq⟩
  exact FileTree.Separate.foldlM_of_alike halike (hseparate.perm (hperm.map _)) (files.perm (h.perm.map _)).separate
    (hseparate.foldlM_of_perm hperm hrun)

end Reordering

/-- A plan for documents that were read from texts is carried out alike in every order in which the new footnotes of
    each document and the edits of each manifest stay in order, on every tree in which its paths lead to different
    files: either both runs succeed and leave the same tree, or both fail. -/
theorem FileTree.apply_reordered {s : ScanResult} {actions reordered : List Action} (h : plan s = .ok actions)
    (parsed : ∀ d ∈ s.documents, ∃ t, d = .ofParsed d.path (ParsedDocument.parse t))
    (distinct : s.documents.Pairwise fun a b => a.path.same b.path = false)
    (reordering : Reordering actions reordered) {t : FileTree}
    (files : t.DistinctFiles (actions.map Action.path)) :
    (∃ t' n, t.apply actions = (t', .ok n) ∧ t.apply reordered = (t', .ok n)) ∨
      (∃ error, (t.apply actions).2 = .error error) ∧ ∃ error, (t.apply reordered).2 = .error error := by
  have hapart : ApartInFiles actions := fun a ha b hb => apart_of_mem_plan h parsed distinct ha hb
  obtain ⟨t₁, result, hrun⟩ : ∃ t₁ result, t.apply actions = (t₁, result) := ⟨_, _, rfl⟩
  obtain ⟨t₂, result', hrun'⟩ : ∃ t₂ result', t.apply reordered = (t₂, result') := ⟨_, _, rfl⟩
  rw [hrun, hrun']
  cases result with
  | ok n =>
      have hsame := reordering.apply_eq hapart files hrun
      exact .inl ⟨t₁, n, rfl, hrun'.symm.trans hsame⟩
  | error error =>
      cases result' with
      | error error' => exact .inr ⟨⟨error, rfl⟩, error', rfl⟩
      | ok n =>
          have hsame := reordering.symm.apply_eq (reordering.apartInFiles hapart) (files.perm (reordering.perm.map _)) hrun'
          cases hrun.symm.trans hsame

/-- The markers of one line are replaced from right to left, and the manifest comes first. -/
theorem FileTree.apply_reordered_markers :
    let p : Identifier := ⟨['p'], by decide⟩
    let a : RequirementId := ⟨p, ⟨['A'], by decide⟩⟩
    let b : RequirementId := ⟨p, ⟨['B'], by decide⟩⟩
    let document := "```\nreqmd.package: p\n```\n`~A~` and `~B~`\n".toList
    let file : Path := ⟨"a.md".toList⟩
    let manifest : Path := ⟨Manifest.fileName⟩
    let url := "https://e.org/x.rs".toList
    let url' := "https://e.org/y.rs".toList
    let source : SourceRecord :=
      { path := ⟨"x.rs".toList⟩, tags := [⟨a, "impl".toList, 1⟩, ⟨b, "impl".toList, 2⟩]
        hash := some ['2'], url := some url, relative := none }
    let previous : Manifest := Table.ofList [(url', ['1'])]
    let s : ScanResult :=
      { files := [.document (.ofParsed file (ParsedDocument.parse document)), .source source]
        manifests := Table.ofList [(⟨[]⟩, previous)], errors := [] }
    let t : FileTree :=
      { nodes := Table.ofList [(["a.md".toList], .file (.text document)),
          ([Manifest.fileName], .file (.text previous.render))]
        workingDirectory := [] }
    let first := Action.site file 4 a "`~A~`covered[^~A~]✅".toList
    let second := Action.site file 4 b "`~B~`covered[^~B~]✅".toList
    let note := Action.footnote file 0 a "[^~A~]: `[~p/A~impl]` [x.rs:1:impl](https://e.org/x.rs#L1)".toList
    let note' := Action.footnote file 0 b "[^~B~]: `[~p/B~impl]` [x.rs:2:impl](https://e.org/x.rs#L2)".toList
    let set := Action.setHash manifest url ['2']
    let drop := Action.dropHash manifest url'
    let actions := [first, note, second, note', set, drop]
    let reordered := [set, drop, second, note, note', first]
    plan s = .ok actions ∧ Reordering actions reordered ∧ t.DistinctFiles (actions.map Action.path) ∧
      ∃ t', t.apply actions = (t', .ok 2) ∧ t.apply reordered = (t', .ok 2) := by
  intro p a b document file manifest url url' source previous s t first second note note' set drop actions reordered
  have hplan : plan s = .ok actions := by
    apply plan_of_ascending (by decide +kernel) (by decide +kernel)
    · intro d hd
      obtain rfl := List.mem_singleton.mp hd
      exact ParsedDocument.sites_ascending _
    · decide +kernel
  have hparsed : ∀ d ∈ s.documents, ∃ t, d = .ofParsed d.path (ParsedDocument.parse t) := by
    intro d hd
    obtain rfl := List.mem_singleton.mp hd
    exact ⟨document, rfl⟩
  have hreordering : Reordering actions reordered :=
    .of_filter (by decide +kernel) (by decide +kernel) (by decide +kernel)
  have hfiles : t.DistinctFiles (actions.map Action.path) := by decide +kernel
  have hresult : (t.apply actions).2 = .ok 2 := by decide +kernel
  refine ⟨hplan, hreordering, hfiles, ?_⟩
  rcases FileTree.apply_reordered hplan hparsed (by decide +kernel) hreordering hfiles with
    ⟨t', n, hrun, hrun'⟩ | ⟨⟨error, herror⟩, -⟩
  · rw [hrun] at hresult
    cases hresult
    exact ⟨t', hrun, hrun'⟩
  · rw [herror] at hresult
    cases hresult

/-- A path that leads on through the file of another one leads nowhere, and there the order matters: what is found
    depends on whether the other file is still there. -/
example :
    let outer : Path := ⟨Manifest.fileName⟩
    let inner : Path := outer.join outer
    let m : Manifest := Table.ofList [(['u'], ['1'])]
    let t : FileTree :=
      { nodes := Table.ofList [([Manifest.fileName], .file (.text m.render))], workingDirectory := [] }
    t.locate .writing inner = .error .notDirectory ∧
      (t.apply [.dropHash outer ['u'], .dropHash inner ['v']]).2 = .ok 2 ∧
      (t.apply [.dropHash inner ['v'], .dropHash outer ['u']]).2 = .error (.manifestFile inner .notDirectory) := by
  decide +kernel

end ReqTrace
