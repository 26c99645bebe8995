/-
Module: ReqTrace.Proofs.FailFast
Purpose: Where a run of edits stops. A run goes from file to file; it carries out all edits of a file or none,
  and after the first file that fails it carries out nothing more.
Main exports: FileTree.applyGroups_cut, FileTree.apply_eq_ok_iff, FileTree.apply_cut
-/
import ReqTrace.Proofs.LinkFree

namespace ReqTrace

namespace FileTree

variable {t : FileTree}

/-- A run carries out the edits of some first files, and either these are all files or the next one fails on
    the tree that they leave. -/
theorem applyGroups_cut (t : FileTree) (groups : List FileEdits) :
    ∃ done left t', groups = done ++ left ∧ done.foldlM applyGroup t = .ok t' ∧
      (left = [] ∧ t.applyGroups groups = (t', none) ∨
        ∃ e rest error, left = e :: rest ∧ t'.applyGroup e = .error error ∧
          t.applyGroups groups = (t', some error)) := by
  induction groups generalizing t with
  | nil => exact ⟨[], [], t, rfl, rfl, .inl ⟨rfl, rfl⟩⟩
  | cons e groups ih =>
      cases hgroup : t.applyGroup e with
      | error error =>
          refine ⟨[], e :: groups, t, rfl, rfl, .inr ⟨e, groups, error, rfl, hgroup, ?_⟩⟩
          rw [applyGroups, hgroup]
      | ok next =>
          have hrun : t.applyGroups (e :: groups) = next.applyGroups groups := by
            rw [applyGroups, hgroup]
          obtain ⟨done, left, t', rfl, hdone, hend⟩ := ih next
          rw [hrun]
          exact ⟨e :: done, left, t', rfl, bind_eq_ok_iff.mpr ⟨next, hgroup, hdone⟩, hend⟩

/-- A run succeeds exactly if the edits of all files can be carried out one after the other. -/
theorem apply_eq_ok_iff {t' : FileTree} {actions : List Action} {n : Nat} : t.apply actions = (t', .ok n) ↔
    (groupByFile actions).foldlM applyGroup t = .ok t' ∧ n = (groupByFile actions).length := by
  obtain ⟨done, left, last, hgroups, hdone, ⟨rfl, hrun⟩ | ⟨e, rest, error, rfl, hfails, hrun⟩⟩ :=
    applyGroups_cut t (groupByFile actions)
  · rw [List.append_nil] at hgroups
    rw [FileTree.apply, hrun, hgroups, hdone]
    simp [eq_comm]
  · rw [FileTree.apply, hrun, hgroups, List.foldlM_append, hdone]
    simp only [Prod.mk.injEq, reduceCtorEq, and_false, false_iff, not_and]
    intro hall
    obtain ⟨_, ⟨⟩, hrest⟩ := bind_eq_ok_iff.mp hall
    rw [List.foldlM_cons, hfails] at hrest
    cases hrest

namespace NoLinks

/-- What the edits of some files leave alone: everything that no path of theirs leads to. -/
theorem foldlM_applyGroup (h : t.NoLinks) {done : List FileEdits} {t' : FileTree}
    (hdone : done.foldlM applyGroup t = .ok t') {names : Names}
    (hnames : ∀ e ∈ done, t.place e.path ≠ names) : t'.node? names = t.node? names := by
  induction done generalizing t with
  | nil =>
      cases hdone
      rfl
  | cons e done ih =>
      obtain ⟨next, hgroup, hrest⟩ := bind_eq_ok_iff.mp hdone
      obtain ⟨hlinks, hdirectory, hkept⟩ := h.applyGroup_frame hgroup
      have hplace : ∀ p, next.place p = t.place p := by
        intro p
        rw [place, place, hdirectory]
      have hnext : t'.node? names = next.node? names := by
        apply ih hlinks hrest
        intro e' he'
        rw [hplace]
        exact hnames e' (List.mem_cons_of_mem _ he')
      rw [hnext]
      exact hkept names (hnames e List.mem_cons_self).symm

end NoLinks

/-- A run of edits cuts between files. The groups hold every edit once, in order, with one group for a path.
    Those that come first are carried out one by one, each in full. If the run succeeds these are all groups,
    and their number is what it returns. If it fails, the next group fails on the tree that is left, which is
    then also the tree that the run leaves: what is in its place has only been changed by an earlier group
    with another path to the same place, and no later group has had any effect. Nothing changes that no path
    of an edit leads to. -/
theorem apply_cut (t : FileTree) (h : t.NoLinks) (actions : List Action) :
    IsGrouping actions (groupByFile actions) ∧
      ∃ done left t', groupByFile actions = done ++ left ∧ done.foldlM applyGroup t = .ok t' ∧
        (∀ names, (∀ e ∈ done, t.place e.path ≠ names) → t'.node? names = t.node? names) ∧
        (∀ names, (∀ a ∈ actions, t.place a.path ≠ names) → t'.node? names = t.node? names) ∧
        (left = [] ∧ t.apply actions = (t', .ok (groupByFile actions).length) ∨
          ∃ e rest error, left = e :: rest ∧ t'.applyGroup e = .error error ∧
            t.apply actions = (t', .error error) ∧
            ((∀ e' ∈ done, t.place e'.path ≠ t.place e.path) →
              t'.node? (t.place e.path) = t.node? (t.place e.path))) := by
  have hgrouping := isGrouping_groupByFile actions
  obtain ⟨done, left, t', hgroups, hdone, hend⟩ := applyGroups_cut t (groupByFile actions)
  have hkept : ∀ names, (∀ e ∈ done, t.place e.path ≠ names) → t'.node? names = t.node? names :=
    fun names hnames => h.foldlM_applyGroup hdone hnames
  refine ⟨hgrouping, done, left, t', hgroups, hdone, hkept, fun names hnames => hkept names ?_, ?_⟩
  · intro e he
    obtain ⟨a, ha, hpath⟩ := hgrouping.named e (by rw [hgroups]; exact List.mem_append_left _ he)
    rw [← hpath]
    exact hnames a ha
  · rcases hend with ⟨hall, hrun⟩ | ⟨e, rest, error, hleft, hfails, hrun⟩
    · refine .inl ⟨hall, ?_⟩
      rw [FileTree.apply, hrun]
    · refine .inr ⟨e, rest, error, hleft, hfails, ?_, hkept (t.place e.path)⟩
      rw [FileTree.apply, hrun]

/-- An edit of a line that is gone stops a run before the file that it is in and the one after it. -/
theorem apply_cut_line_gone :
    let marker : Text := "`~A~`covered[^~A~]✅".toList
    let requirement : RequirementId := ⟨⟨"p".toList, by decide⟩, ⟨"A".toList, by decide⟩⟩
    let t : FileTree :=
      { nodes := Table.ofList [
          (["a.md".toList], .file (.text "`~A~`\n".toList)),
          (["b.md".toList], .file (.text "`~A~`\n".toList)),
          (["c.md".toList], .file (.text "`~A~`\n".toList))]
        workingDirectory := [] }
    let actions : List Action := [.site ⟨"/a.md".toList⟩ 1 requirement marker,
      .site ⟨"/b.md".toList⟩ 1 requirement marker, .site ⟨"/b.md".toList⟩ 9 requirement marker]
    t.NoLinks ∧ ∃ t', t.apply actions = (t', .error (.lineDrift ⟨"/b.md".toList⟩ 9)) ∧
      t'.node? ["c.md".toList] = t.node? ["c.md".toList] := by
  intro marker requirement t actions
  have hlinks : t.NoLinks := by decide +kernel
  have hresult : (t.apply actions).2 = .error (.lineDrift ⟨"/b.md".toList⟩ 9) := by decide +kernel
  obtain ⟨-, done, left, t', -, -, -, hkept, hend⟩ := apply_cut t hlinks actions
  refine ⟨hlinks, t', ?_, hkept _ (by decide +kernel)⟩
  rcases hend with ⟨-, hrun⟩ | ⟨e, rest, error, -, -, hrun, -⟩
  · rw [hrun] at hresult
    cases hresult
  · rw [hrun] at hresult
    exact hrun.trans (Prod.ext rfl hresult)

/-- Two paths that go up again from different directories lead to one document and are two groups. The second
    group fails, and the document does not hold any more what it held before the run. -/
theorem apply_two_ways :
    let marker : Text := "`~A~`covered[^~A~]✅".toList
    let requirement : RequirementId := ⟨⟨"p".toList, by decide⟩, ⟨"A".toList, by decide⟩⟩
    let t : FileTree :=
      { nodes := Table.ofList [
          (["a.md".toList], .file (.text "`~A~`\n".toList)),
          (["x".toList], .directory),
          (["y".toList], .directory)]
        workingDirectory := [] }
    let first : Action := .site ⟨"/x/../a.md".toList⟩ 1 requirement marker
    let second : Action := .site ⟨"/y/../a.md".toList⟩ 9 requirement marker
    t.NoLinks ∧ (groupByFile [first, second]).map (·.actions) = [[first], [second]] ∧
      ∃ t', t.apply [first, second] = (t', .error (.lineDrift second.path 9)) ∧
        t.readText second.path = .ok "`~A~`\n".toList ∧ t'.readText second.path = .ok (marker ++ ['\n']) := by
  intro marker requirement t first second
  have hfacts : (t.apply [first, second]).2 = .error (.lineDrift second.path 9) ∧
      t.readText second.path = .ok "`~A~`\n".toList ∧
      (t.apply [first, second]).1.readText second.path = .ok (marker ++ ['\n']) := by
    decide +kernel
  obtain ⟨hresult, hbefore, hafter⟩ := hfacts
  exact ⟨by decide +kernel, by decide +kernel, _, Prod.ext rfl hresult, hbefore, hafter⟩

end FileTree

end ReqTrace
