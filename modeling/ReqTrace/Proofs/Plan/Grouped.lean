/-
Module: ReqTrace.Proofs.Plan.Grouped
Purpose: The edits of one file stand together in a plan. So grouping them by file changes nothing about their order,
  no file takes edits of both kinds, and a dry run prints one heading for every file that a run would write.
Main exports: Contiguous, Contiguous.flatMap_groupByFile, FileEdits.lines, Contiguous.actionLines_eq,
  contiguous_of_plan, plan_grouped
-/
import ReqTrace.Proofs.Plan.Ordered
import ReqTrace.Report

namespace ReqTrace

/-! ### Edits that stand together -/

/-- Between two edits of one file there is no edit of another one. -/
def Contiguous (actions : List Action) : Prop :=
  ∀ a b c, [a, b, c].Sublist actions → a.path.same c.path = true → a.path.same b.path = true

theorem Contiguous.of_append {first second : List Action} (h : Contiguous (first ++ second)) : Contiguous first :=
  fun a b c hsub => h a b c (hsub.trans (List.sublist_append_left first second))

/-- Edits in the order of some rank stand together, if edits of one rank are just those of one file. -/
theorem contiguous_of_ordered (cmp : Action → Action → Ordering) [Std.TransCmp cmp] {actions : List Action}
    (ordered : actions.Pairwise fun a b => (cmp a b).isLE = true)
    (ranks : ∀ a ∈ actions, ∀ b ∈ actions, cmp a b = .eq ↔ a.path.same b.path = true) : Contiguous actions := by
  intro a b c hsub hsame
  have hmem : ∀ d ∈ [a, b, c], d ∈ actions := fun d hd => hsub.subset hd
  have hrun := ordered.sublist hsub
  have hfirst : (cmp a b).isLE = true := List.rel_of_pairwise_cons hrun (by simp)
  have hsecond : (cmp b c).isLE = true := List.rel_of_pairwise_cons hrun.of_cons (by simp)
  have hends := (ranks a (hmem a (by simp)) c (hmem c (by simp))).mpr hsame
  rw [Std.TransCmp.congr_right (Std.OrientedCmp.eq_symm hends)] at hsecond
  exact (ranks a (hmem a (by simp)) b (hmem b (by simp))).mp (Std.OrientedCmp.isLE_antisymm hfirst hsecond)

theorem groupByFile_concat (actions : List Action) (a : Action) :
    groupByFile (actions ++ [a]) = addToGroup a (groupByFile actions) := by
  rw [groupByFile, List.foldl_append]
  rfl

/-- The next edit joins the last group or starts a new one. -/
theorem Contiguous.groupByFile_cases {actions : List Action} {a : Action} (h : Contiguous (actions ++ [a]))
    (flat : (groupByFile actions).flatMap FileEdits.actions = actions) :
    (∃ before e, groupByFile actions = before ++ [e] ∧ e.path.same a.path = true ∧
      groupByFile (actions ++ [a]) = before ++ [{ e with actions := e.actions ++ [a] }]) ∨
    ((∀ e ∈ groupByFile actions, e.path.same a.path = false) ∧
      groupByFile (actions ++ [a]) = groupByFile actions ++ [{ path := a.path, actions := [a] }]) := by
  have hgroups := isGrouping_groupByFile actions
  rw [groupByFile_concat]
  rcases addToGroup_cases a (groupByFile actions) with ⟨before, e, after, hsplit, hsame, hadd⟩ | hnew
  · left
    obtain rfl : after = [] := by
      -- An edit of a later group would stand between one of this group and the next one.
      by_contra hafter
      obtain ⟨e', rest, rfl⟩ := List.exists_cons_of_ne_nil hafter
      rw [hsplit] at hgroups flat
      obtain ⟨b, hb, hpath⟩ := hgroups.exists_mem (e := e) (by simp)
      obtain ⟨b', hb', hpath'⟩ := hgroups.exists_mem (e := e') (by simp)
      have hpair : [b, b'].Sublist actions := by
        have hsub := (List.singleton_sublist.mpr hb).append (List.singleton_sublist.mpr hb')
        rw [← flat, List.flatMap_append, List.flatMap_cons, List.flatMap_cons, ← List.append_assoc e.actions]
        exact (hsub.trans (List.sublist_append_left _ _)).trans (List.sublist_append_right _ _)
      have hfile := h b b' a (hpair.append (List.Sublist.refl [a])) (by rw [hpath]; exact hsame)
      have hother : e'.path.same e.path = false := hgroups.same_eq_false (by simp)
      rw [hpath, hpath', Path.same_comm, hother] at hfile
      cases hfile
    exact ⟨before, e, hsplit, hsame, hadd⟩
  · exact .inr hnew

/-- Grouping edits that stand together does not change their order. -/
theorem Contiguous.flatMap_groupByFile {actions : List Action} (h : Contiguous actions) :
    (groupByFile actions).flatMap FileEdits.actions = actions := by
  induction actions using List.reverseRecOn with
  | nil => rfl
  | append_singleton actions a ih =>
      have flat := ih h.of_append
      rcases h.groupByFile_cases flat with ⟨before, e, hsplit, -, hnext⟩ | ⟨-, hnext⟩
      · rw [hsplit] at flat
        rw [hnext, ← flat]
        simp
      · rw [hnext, List.flatMap_append, flat]
        rfl

/-! ### Headings -/

/-- The lines that a dry run prints for the edits of a file. -/
def FileEdits.lines (coloured : Bool) (e : FileEdits) : List Text :=
  Tone.warning.paint coloured e.path.text ::
    e.actions.map fun a => "  ".toList ++ Tone.info.paint coloured a.text

/-- A further edit is told under the heading of the last one, if it is of the same file. -/
theorem actionLines_concat (coloured : Bool) (previous : Option Path) (actions : List Action) (a : Action) :
    actionLines coloured previous (actions ++ [a]) = actionLines coloured previous actions ++
      actionLines coloured ((actions.getLast?.map Action.path).or previous) [a] := by
  induction actions generalizing previous with
  | nil => rfl
  | cons b actions ih =>
      have hlast : ((b :: actions).getLast?.map Action.path).or previous =
          (actions.getLast?.map Action.path).or (some b.path) := by
        rw [List.getLast?_cons]
        cases actions.getLast? <;> rfl
      rw [List.cons_append, actionLines, actionLines, ih, hlast]
      split <;> rfl

/-- There are as many lines as groups and edits. -/
theorem length_flatMap_lines (coloured : Bool) (groups : List FileEdits) :
    (groups.flatMap (FileEdits.lines coloured)).length =
      groups.length + (groups.flatMap FileEdits.actions).length := by
  induction groups with
  | nil => rfl
  | cons e groups ih =>
      have hlines : (e.lines coloured).length = e.actions.length + 1 := by simp [FileEdits.lines]
      rw [List.flatMap_cons, List.flatMap_cons, List.length_append, List.length_append, ih, hlines, List.length_cons]
      omega

/-- A dry run prints one heading for each file, if the edits of a file stand together. -/
theorem Contiguous.actionLines_eq (coloured : Bool) {actions : List Action} (h : Contiguous actions) :
    actionLines coloured none actions = (groupByFile actions).flatMap (FileEdits.lines coloured) := by
  induction actions using List.reverseRecOn with
  | nil => rfl
  | append_singleton actions a ih =>
      have hgroups := isGrouping_groupByFile actions
      have flat := h.of_append.flatMap_groupByFile
      rw [actionLines_concat, ih h.of_append, Option.or_none]
      rcases h.groupByFile_cases flat with ⟨before, e, hsplit, hsame, hnext⟩ | ⟨hother, hnext⟩
      · rw [hsplit] at hgroups flat
        have he : e ∈ before ++ [e] := by simp
        obtain ⟨c, hc, -⟩ := hgroups.exists_mem he
        obtain ⟨rest, b, hrest⟩ := (List.eq_nil_or_concat e.actions).resolve_left (List.ne_nil_of_mem hc)
        have hlast : actions.getLast? = some b := by
          rw [← flat]
          simp [hrest]
        have hfile : a.path.same b.path = true := by
          rw [Path.same_comm, Path.same_congr ((hgroups.mem_actions_iff he).mp (by simp [hrest])).2, hsame]
        rw [hlast, hnext]
        simp [actionLines, hfile, hsplit, FileEdits.lines]
      · have hheading : (actions.getLast?.map Action.path).any a.path.same = false := by
          cases hlast : actions.getLast? with
          | none => rfl
          | some b =>
              obtain ⟨e, he, hsame⟩ := hgroups.all b (List.mem_of_getLast? hlast)
              have hdifferent := hother e he
              rwa [Path.same_congr hsame, Path.same_comm] at hdifferent
        rw [hnext]
        simp [actionLines, hheading, FileEdits.lines]

/-! ### Plans by file -/

section Plans

variable {s : ScanResult} {actions : List Action} (plan : plan s = .ok actions)
  (noManifest : ∀ d ∈ s.documents, d.path.fileName? ≠ some Manifest.fileName)
include plan noManifest

/-- Planned edits that are of one rank among the files are of one file. -/
theorem compareFiles_eq_iff {a b : Action} (ha : a ∈ actions) (hb : b ∈ actions) :
    Action.compareFiles a b = .eq ↔ a.path.same b.path = true := by
  have hkeys : Action.compareFiles a b = .eq ↔ a.isManifestEdit = b.isManifestEdit ∧ a.fileKey = b.fileKey := by
    rw [Action.compareFiles, compareLex_eq_eq, compareOn, compareOn, Std.LawfulEqCmp.compare_eq_iff_eq,
      Std.LawfulEqCmp.compare_eq_iff_eq]
  rw [hkeys, Path.same_iff]
  constructor
  · rintro ⟨hkind, hkey⟩
    cases hmanifest : a.isManifestEdit with
    | false =>
        rw [hmanifest] at hkind
        simpa [Action.fileKey, hmanifest, ← hkind] using hkey
    | true =>
        rw [hmanifest] at hkind
        obtain ⟨directory, -, hpath⟩ := exists_manifestDirectory plan ha hmanifest
        obtain ⟨directory', -, hpath'⟩ := exists_manifestDirectory plan hb hkind.symm
        have hdirectories : directory.components = directory'.components := by
          rw [← (ScanResult.isEditIn (s := s) hmanifest hpath).fileKey, hkey,
            (ScanResult.isEditIn (s := s) hkind.symm hpath').fileKey]
        rw [hpath, hpath', Path.components_join _ isFileName_manifest, hdirectories,
          Path.components_join _ isFileName_manifest]
  · intro hcomponents
    have hkind := isManifestEdit_congr plan noManifest ha hb (Path.same_iff.mpr hcomponents)
    exact ⟨hkind, by rw [Action.fileKey, Action.fileKey, hkind, hcomponents]⟩

/-- The edits of one file stand together in a plan. -/
theorem contiguous_of_plan : Contiguous actions := by
  refine contiguous_of_ordered Action.compareFiles ?_ fun a ha b hb => compareFiles_eq_iff plan noManifest ha hb
  refine (plan_ascending plan).imp fun {a b} hlt => ?_
  rcases ScanResult.comparePlanned_eq_lt_iff.mp hlt with hfiles | ⟨hfiles, -⟩
  · rw [hfiles]
    rfl
  · rw [hfiles]
    rfl

end Plans

/-- The edits of a run that succeeds are made in as many files as they have groups. -/
theorem FileTree.length_groupByFile {t t' : FileTree} {actions : List Action} {files : Nat}
    (h : t.apply actions = (t', .ok files)) : files = (groupByFile actions).length := by
  unfold apply at h
  dsimp only at h
  split at h
  · cases h
    rfl
  · cases h

/-- In a plan the edits of one file stand together. The groups by file are the plan again, each has edits of one kind,
    and those of documents come first. A dry run prints a heading and the edits for each group, and a run reports as
    many files as there are headings. -/
theorem plan_grouped {s : ScanResult} {actions : List Action} (plan : plan s = .ok actions)
    (noManifest : ∀ d ∈ s.documents, d.path.fileName? ≠ some Manifest.fileName) :
    (groupByFile actions).flatMap FileEdits.actions = actions ∧
      (∀ e ∈ groupByFile actions, ∀ a ∈ e.actions, a.isManifestEdit = e.isManifest) ∧
      ((groupByFile actions).Pairwise fun e e' => e.isManifest = true → e'.isManifest = true) ∧
      ∀ coloured, actionLines coloured none actions = (groupByFile actions).flatMap (FileEdits.lines coloured) ∧
        ∀ t t' files, FileTree.apply t actions = (t', .ok files) →
          (actionLines coloured none actions).length = files + actions.length := by
  have hcontiguous := contiguous_of_plan plan noManifest
  refine ⟨hcontiguous.flatMap_groupByFile, fun e he a ha => isManifestEdit_of_mem_group plan noManifest he ha,
    pairwise_isManifest plan noManifest, fun coloured => ⟨hcontiguous.actionLines_eq coloured, ?_⟩⟩
  intro t t' files happly
  rw [hcontiguous.actionLines_eq coloured, length_flatMap_lines, hcontiguous.flatMap_groupByFile,
    FileTree.length_groupByFile happly]

/-- A document and one in a directory that is named like it, with a manifest for each: four files, eight edits. -/
theorem plan_grouped_four_files :
    let p : Identifier := ⟨['p'], by decide⟩
    let outer : Path := ⟨"docs.md".toList⟩
    let inner : Path := ⟨"docs/a.md".toList⟩
    let text := "```\nreqmd.package: p\n```\n`~A~`\n".toList
    let text' := "```\nreqmd.package: p\n```\n`~B~` `~C~`\n".toList
    let source : SourceRecord := { path := ⟨"x.rs".toList⟩
                                   tags := [⟨⟨p, ⟨['A'], by decide⟩⟩, "impl".toList, 1⟩,
                                     ⟨⟨p, ⟨['B'], by decide⟩⟩, "impl".toList, 2⟩,
                                     ⟨⟨p, ⟨['C'], by decide⟩⟩, "impl".toList, 3⟩]
                                   hash := some ['1'], url := some "https://e.org/x.rs".toList
                                   relative := some "x.rs".toList }
    let s : ScanResult :=
      { files := [.document (.ofParsed inner (ParsedDocument.parse text')),
          .document (.ofParsed outer (ParsedDocument.parse text)), .source source]
        manifests := Table.empty
        errors := [] }
    let t : FileTree :=
      { nodes := Table.ofList [(["docs.md".toList], .file (.text text)), (["docs".toList], .directory),
          (["docs".toList, "a.md".toList], .file (.text text'))]
        workingDirectory := [] }
    ∃ actions, plan s = .ok actions ∧ actions.length = 8 ∧ (t.apply actions).2 = .ok 4 ∧
      (groupByFile actions).flatMap FileEdits.actions = actions ∧ (actionLines false none actions).length = 4 + 8 := by
  intro p outer inner text text' source s t
  have hsites : ∀ d ∈ s.documents, d.sites.Pairwise fun a b => Site.compare a b = .lt := by
    intro d hd
    rcases List.mem_cons.mp hd with rfl | hd
    · exact ParsedDocument.sites_ascending _
    · rw [List.mem_singleton.mp hd]
      exact ParsedDocument.sites_ascending _
  obtain ⟨actions, hactions⟩ : ∃ actions, s.editsInOrder = actions := ⟨_, rfl⟩
  have h := plan_of_ascending (by decide +kernel) (by decide +kernel) hsites hactions
  have hlength : actions.length = 8 := by
    rw [← hactions]
    decide +kernel
  have hfiles : (t.apply actions).2 = .ok 4 := by
    rw [← hactions]
    decide +kernel
  obtain ⟨hflat, -, -, hlines⟩ := plan_grouped h (by decide +kernel)
  refine ⟨actions, h, hlength, hfiles, hflat, ?_⟩
  rw [(hlines false).2 t _ 4 (Prod.ext rfl hfiles), hlength]

end ReqTrace
