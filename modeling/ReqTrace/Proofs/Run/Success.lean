/-
Module: ReqTrace.Proofs.Run.Success
Purpose: When the edits that follow from a scan can be carried out. Documents never fail. A manifest that is
  passed over by the scan, because it is no text or no file, fails when it has to be edited.
Main exports: Permitted, ManifestsReadable, apply_trace
-/
import ReqTrace.Proofs.Run.Groups

namespace ReqTrace

/-- The operating system has no objection to the edits of some files: there is no link in their places, and
    their paths are not too long. -/
structure Permitted (t : FileTree) (actions : List Action) : Prop where
  regular : ∀ a ∈ actions, ∀ target, t.node? a.path.names ≠ some (.link target)
  short : ∀ a ∈ actions, Text.byteLength a.path.text ≤ FileTree.maxPathLength

instance (t : FileTree) (actions : List Action) : Decidable (Permitted t actions) :=
  decidable_of_iff ((∀ a ∈ actions, ∀ target, t.node? a.path.names ≠ some (.link target)) ∧
    ∀ a ∈ actions, Text.byteLength a.path.text ≤ FileTree.maxPathLength)
    ⟨fun ⟨regular, short⟩ => ⟨regular, short⟩, fun ⟨regular, short⟩ => ⟨regular, short⟩⟩

/-- Every manifest that is edited is missing or a text. -/
def ManifestsReadable (t : FileTree) (actions : List Action) : Prop :=
  ∀ a ∈ actions, a.isManifestEdit = true →
    t.readText a.path = .error .notFound ∨ ∃ text, t.readText a.path = .ok text

namespace Planned

variable {t : FileTree} {config : Config} {units : Units} {s : ScanResult} {actions : List Action}

/-- The file of a group has a place. -/
theorem hasPlace (h : Planned t config units s actions) (permitted : Permitted t actions) {e : FileEdits}
    (he : e ∈ groupByFile actions) : e.HasPlace t := by
  obtain ⟨a, ha, hsame⟩ := (isGrouping_groupByFile actions).named e he
  obtain ⟨dir, name, hpath, hunit, hall⟩ := h.exists_place ha
  have hnames : a.path.names = dir ++ [name] := by
    rw [hpath]
    exact FileTree.names_pathOf hall
  refine ⟨dir, name, hsame.symm.trans hpath, h.scanned.isDirectory hunit, hall name (by simp),
    fun target => ?_, ?_⟩
  · rw [← hnames]
    exact permitted.regular a ha target
  · rw [← hpath]
    exact permitted.short a ha

/-- Different groups are for different files. -/
theorem distinct_names (h : Planned t config units s actions) (permitted : Permitted t actions) :
    (groupByFile actions).Pairwise fun e e' => e.path.names ≠ e'.path.names := by
  refine (isGrouping_groupByFile actions).distinct.imp_of_mem fun {e e'} he he' hne heq => ?_
  obtain ⟨dir, name, hpath, hplace⟩ := h.hasPlace permitted he
  obtain ⟨dir', name', hpath', hplace'⟩ := h.hasPlace permitted he'
  have hnames := hplace.names h.wellFormed
  have hnames' := hplace'.names h.wellFormed
  rw [hpath, hpath', FileTree.names_pathOf hnames, FileTree.names_pathOf hnames'] at heq
  rw [hpath, hpath', ← Bool.not_eq_true, FileTree.same_pathOf_iff hnames hnames'] at hne
  exact hne heq

/-- The group of an edit. -/
theorem exists_group (h : Planned t config units s actions) {a : Action} (ha : a ∈ actions) :
    ∃ e ∈ groupByFile actions, e.path = a.path ∧ e.isManifest = a.isManifestEdit := by
  obtain ⟨e, he, hsame⟩ := (isGrouping_groupByFile actions).all a ha
  exact ⟨e, he, h.group_eq he ha hsame⟩

/-- A document whose edits have been carried out holds what they made of its text. -/
theorem exists_written (h : Planned t config units s actions) (permitted : Permitted t actions) {e : FileEdits}
    (he : e ∈ groupByFile actions) (hkind : e.isManifest = false) {t' : FileTree} {groups : List FileEdits}
    (revised : FileTree.Revised t t' groups) (hdone : e ∈ groups) :
    ∃ text patched, t.readText e.path = .ok text ∧
      patchDocument e.path text (actions.filter (·.path.same e.path)) = .ok patched ∧
      t'.readText e.path = .ok patched := by
  have hplace := h.hasPlace permitted he
  rcases h.group_cases he with ⟨-, dir, name, text, hat⟩ | ⟨hkind', -⟩
  · obtain ⟨patched, hpatched, hrevise⟩ := h.revise_document he hkind hat
    have hnames : e.path.names = dir ++ [name] := by
      rw [hat.path]
      exact FileTree.names_pathOf (h.wellFormed.isFileName hat.node)
    refine ⟨text, patched, ?_, hpatched, ?_⟩
    · rw [FileTree.readText_of_hasPlace h.wellFormed hplace, hnames, hat.node]
      rfl
    · have hnode := revised.revised e hdone
      rw [hrevise, Except.ok.injEq] at hnode
      rw [FileTree.readText_of_hasPlace revised.wellFormed (revised.places e hplace), ← hnode]
      rfl
  · rw [hkind] at hkind'
    cases hkind'

/-- The edits of a manifest fail exactly if it is there and no text. -/
theorem revise_manifest_cases (h : Planned t config units s actions) (permitted : Permitted t actions)
    {e : FileEdits} (he : e ∈ groupByFile actions) (hkind : e.isManifest = true) :
    (∃ node, e.revise (t.node? e.path.names) = .ok node ∧
      (t.readText e.path = .error .notFound ∨ ∃ text, t.readText e.path = .ok text)) ∨
    ∃ cause, (cause = .notText ∨ cause = .isDirectory) ∧ t.readText e.path = .error cause ∧
      e.revise (t.node? e.path.names) = .error (.manifestFile e.path cause) := by
  rcases h.group_cases he with ⟨hkind', -⟩ | ⟨-, dir, hat⟩
  · rw [hkind] at hkind'
    cases hkind'
  · rw [FileTree.readText_of_hasPlace h.wellFormed (h.hasPlace permitted he)]
    exact h.revise_manifest hkind hat

end Planned

/-- Every document with edits holds what the edits make of the text that it held. -/
def DocumentsWritten (t t' : FileTree) (actions : List Action) : Prop :=
  ∀ a ∈ actions, a.isManifestEdit = false → ∃ text patched, t.readText a.path = .ok text ∧
    patchDocument a.path text (actions.filter (·.path.same a.path)) = .ok patched ∧
    t'.readText a.path = .ok patched

/-- A run carries out all edits if the manifests among their files are missing or texts. If one of them is
    not, then the run stops there, with all documents rewritten. -/
theorem apply_trace {t : FileTree} {roots : List ScanRoot} {config : Config} {traced : Traced}
    (h : trace t roots config = .ok traced) (wellFormed : t.WellFormed)
    (permitted : Permitted t traced.actions) :
    DocumentsWritten t (t.apply traced.actions).1 traced.actions ∧
      (ManifestsReadable t traced.actions →
        (t.apply traced.actions).2 = .ok (groupByFile traced.actions).length) ∧
      (¬ ManifestsReadable t traced.actions → ∃ a ∈ traced.actions, a.isManifestEdit = true ∧
        ∃ cause, (cause = .notText ∨ cause = .isDirectory) ∧ t.readText a.path = .error cause ∧
          (t.apply traced.actions).2 = .error (.manifestFile a.path cause)) := by
  obtain ⟨units, -, planned⟩ := exists_planned h wellFormed
  rcases FileTree.applyGroups_cases wellFormed (fun e he => planned.hasPlace permitted he)
    (planned.distinct_names permitted) with
    ⟨t', hrun, hrevised⟩ | ⟨done, e, rest, t', error, hgroups, hrun, hrevised, herror⟩
  · have hreadable : ManifestsReadable t traced.actions := by
      intro a ha hkind
      obtain ⟨e, he, hpath, hsame⟩ := planned.exists_group ha
      rw [hkind] at hsame
      rw [← hpath]
      rcases planned.revise_manifest_cases permitted he hsame with ⟨_, _, hread⟩ | ⟨cause, _, _, hfail⟩
      · exact hread
      · rw [hrevised.revised e he] at hfail
        cases hfail
    rw [FileTree.apply, hrun]
    refine ⟨fun a ha hkind => ?_, fun _ => rfl, fun hne => absurd hreadable hne⟩
    obtain ⟨e, he, hpath, hsame⟩ := planned.exists_group ha
    rw [← hpath]
    exact planned.exists_written permitted he (hsame.trans hkind) hrevised he
  · have he : e ∈ groupByFile traced.actions := by rw [hgroups]; simp
    have hkind : e.isManifest = true := by
      rcases planned.group_cases he with ⟨hkind, dir, name, text, hat⟩ | ⟨hkind, -⟩
      · obtain ⟨patched, -, hrevise⟩ := planned.revise_document he hkind hat
        rw [hrevise] at herror
        cases herror
      · exact hkind
    obtain ⟨a, ha, hpath⟩ := (isGrouping_groupByFile traced.actions).named e he
    have hedit := (planned.group_eq he ha (by rw [hpath]; exact Path.same_self _)).2
    rw [hkind] at hedit
    obtain ⟨cause, hcause, hread, hfail⟩ : ∃ cause, (cause = .notText ∨ cause = .isDirectory) ∧
        t.readText e.path = .error cause ∧
        e.revise (t.node? e.path.names) = .error (.manifestFile e.path cause) := by
      rcases planned.revise_manifest_cases permitted he hkind with ⟨_, hok, _⟩ | hfail
      · rw [hok] at herror
        cases herror
      · exact hfail
    rw [hfail, Except.error.injEq] at herror
    rw [FileTree.apply, hrun, ← herror, ← hpath]
    rw [← hpath] at hread
    refine ⟨fun b hb hkind' => ?_, fun hreadable => ?_, fun _ => ⟨a, ha, hedit.symm, cause, hcause, hread, rfl⟩⟩
    · obtain ⟨e', he', hpath', hsame⟩ := planned.exists_group hb
      rw [hkind'] at hsame
      rw [← hpath']
      refine planned.exists_written permitted he' hsame hrevised ?_
      -- The file that stops the run is a manifest, so the documents come before it.
      have horder := pairwise_isManifest planned.plan planned.fileName?_ne
      rw [hgroups] at he' horder
      rcases List.mem_append.mp he' with hdone | hlater
      · exact hdone
      · rcases List.mem_cons.mp hlater with rfl | hlater
        · rw [hkind] at hsame
          cases hsame
        · have hmanifest := (List.pairwise_cons.mp (List.pairwise_append.mp horder).2.1).1 e' hlater hkind
          rw [hsame] at hmanifest
          cases hmanifest
    · rcases hreadable a ha hedit.symm with hmissing | ⟨text, htext⟩
      · rw [hread] at hmissing
        rcases hcause with rfl | rfl <;> cases hmissing
      · rw [hread] at htext
        cases htext

/-- A manifest that is no text stops a run that has covered a requirement. -/
theorem apply_trace_binary_manifest :
    let source : Repository :=
      { root := ⟨"/src".toList⟩
        location :=
          { family := .github
            root := { scheme := .https, host := "e.org".toList, port := none
                      segments := ["main".toList], query := none, fragment := none } }
        hashes := Table.ofList [("x.go".toList, "h".toList)] }
    let t : FileTree :=
      { nodes := Table.ofList [
          (["docs".toList], .directory),
          (["docs".toList, "a.md".toList], .file (.text "```\nreqmd.package: p\n```\n`~A~`\n".toList)),
          (["docs".toList, "reqmdfiles.json".toList], .file (.binary [255])),
          (["src".toList], .directory),
          (["src".toList, "x.go".toList], .file (.text "// [~p/A~impl]\n".toList))]
        workingDirectory := [] }
    let roots : List ScanRoot := [⟨⟨"/docs".toList⟩, none⟩, ⟨⟨"/src".toList⟩, some source⟩]
    ∃ traced, trace t roots .default = .ok traced ∧ traced.actions.length = 3 ∧
      DocumentsWritten t (t.apply traced.actions).1 traced.actions ∧
      ∃ a ∈ traced.actions, a.isManifestEdit = true ∧
        ∃ cause, (t.apply traced.actions).2 = .error (.manifestFile a.path cause) := by
  intro source t roots
  let units : Units := Table.ofList [(["docs".toList], none), (["src".toList], some source)]
  have hunits : Units.ofRoots t roots = .ok units := by decide +kernel
  have hscan := @scan_eq_ok_of_ordered t roots .default units hunits (by decide +kernel)
  generalize hs : ScanResult.mk _ _ _ = s at hscan
  have hfacts : s.errors = [] ∧ (Index.ofDocuments s.documents).errors = [] ∧
      (s.documentEdits ++ s.manifestEdits).length = 3 ∧
      Permitted t (s.documentEdits ++ s.manifestEdits) ∧
      ∃ a ∈ s.documentEdits ++ s.manifestEdits, a.isManifestEdit = true ∧
        t.readText a.path = .error .notText := by
    rw [← hs]
    decide +kernel
  obtain ⟨hclean, hindex, hlength, hpermitted, a, ha, hkind, hread⟩ := hfacts
  have htrace : trace t roots .default = .ok ⟨s, s.documentEdits ++ s.manifestEdits⟩ :=
    trace_eq_ok_iff.mpr ⟨hscan, hclean, plan_eq_ok_iff.mpr ⟨hindex, rfl⟩⟩
  have hunreadable : ¬ ManifestsReadable t (s.documentEdits ++ s.manifestEdits) := by
    intro h
    rcases h a ha hkind with hmissing | ⟨text, htext⟩
    · rw [hread] at hmissing
      cases hmissing
    · rw [hread] at htext
      cases htext
  obtain ⟨hwritten, -, hstopped⟩ := apply_trace htrace (by decide +kernel) hpermitted
  obtain ⟨a, ha, hkind, cause, -, -, herror⟩ := hstopped hunreadable
  exact ⟨_, htrace, hlength, hwritten, a, ha, hkind, cause, herror⟩

end ReqTrace
