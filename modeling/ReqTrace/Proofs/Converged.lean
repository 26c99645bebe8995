/-
Module: ReqTrace.Proofs.Converged
Purpose: Planned edits make the manifests record exactly the files that the documents cite, and a run of edits
  leaves such a manifest in its file, or no file.
Main exports: Converges, converges_of_filter, plan_converges
-/
import ReqTrace.Proofs.Plan.Desired
import ReqTrace.Proofs.Plan.Manifests
import ReqTrace.Proofs.Untouched

namespace ReqTrace

/-- The edits of a file turn the manifest that it held into another one. -/
structure Converges (actions : List Action) (file : Path) (previous desired : Manifest) : Prop where
  patched : patchManifest previous (actions.filter (·.path.same file)) = desired
  settled : actions.filter (·.path.same file) = [] → previous = desired
  /-- They are one group. If the file still holds the manifest it can be carried out, and so a run that succeeds
      leaves the other manifest, if no edit of another file leads to the same place. There may be links on the way. -/
  applied : actions.filter (·.path.same file) ≠ [] →
    ∃ e ∈ groupByFile actions, e.path.same file = true ∧ e.actions = actions.filter (·.path.same file) ∧
      (∀ t : FileTree, t.HoldsManifest e.path previous →
        ∃ t', t.applyGroup e = .ok t' ∧ t'.readText e.path = desired.contents) ∧
      ∀ (t t' : FileTree) (n : Nat), t.HoldsManifest e.path previous →
        (∀ a ∈ actions, ∀ place, t.Reaches a.path place → t.Reaches e.path place → a.path.same e.path = true) →
        t.apply actions = (t', .ok n) → t'.readText e.path = desired.contents

theorem converges_of_filter {actions : List Action} {file file' : Path} {previous desired : Manifest}
    (h : actions.filter (·.path.same file) = manifestActions file' previous desired) :
    Converges actions file previous desired := by
  have hpatched : patchManifest previous (actions.filter (·.path.same file)) = desired := by
    rw [h, patchManifest_manifestActions]
  refine ⟨hpatched, fun hnil => manifestActions_eq_nil_iff.mp (h ▸ hnil), fun hne => ?_⟩
  obtain ⟨a, hmem⟩ := List.exists_mem_of_ne_nil _ hne
  obtain ⟨ha, hsame⟩ := List.mem_filter.mp hmem
  have hgrouping := isGrouping_groupByFile actions
  obtain ⟨e, he, hpath⟩ := hgrouping.all a ha
  have hfile : e.path.same file = true := by rw [Path.same_congr hpath, hsame]
  have hedits : e.actions = actions.filter (·.path.same file) := by
    rw [hgrouping.edits e he]
    exact List.filter_congr fun b _ => Path.same_congr_right hfile b.path
  have hkind : e.isManifest = true := by
    rw [FileEdits.isManifest, hedits, List.any_eq_true]
    exact ⟨a, hmem, (isManifestEdit_of_mem_manifestActions (h ▸ hmem)).1⟩
  refine ⟨e, he, hfile, hedits, fun t holds => ?_, fun t t' n holds alone happly => ?_⟩
  · rw [← hpatched, ← hedits]
    exact holds.applyGroup hkind
  · rw [← hpatched, ← hedits]
    exact FileTree.readText_apply happly he hkind holds alone

/-- A plan makes the manifests converge to what the documents cite. Manifests are edited only in directories with
    a document or a manifest. In each of these there is one manifest that the directory is to have, the edits turn
    the one that was found into it, and there are none only if it was found. -/
theorem plan_converges {s : ScanResult} {actions : List Action} (plan : plan s = .ok actions)
    (distinct : s.files.Pairwise fun a b => a.path.same b.path = false)
    (noManifest : ∀ d ∈ s.documents, d.path.fileName? ≠ some Manifest.fileName) :
    (∀ a ∈ actions, a.isManifestEdit = true →
      ∃ directory, s.IsManifestDirectory directory ∧ a.path = directory.join ⟨Manifest.fileName⟩) ∧
    ∀ directory, s.IsManifestDirectory directory →
      ∃ desired, (∀ m, s.IsDesired directory m ↔ m = desired) ∧
        Converges actions (directory.join ⟨Manifest.fileName⟩)
          ((s.manifests.get? directory).getD Table.empty) desired := by
  have fine := (plan_eq_ok_iff.mp plan).1
  refine ⟨fun a ha hkind => ?_, fun directory _ => ?_⟩
  · obtain ⟨directory, hdirectory, hpath⟩ := exists_manifestDirectory plan ha hkind
    exact ⟨directory, isManifestDirectory_iff.mpr ⟨directory, hdirectory, Path.same_self _⟩, hpath⟩
  · obtain ⟨file, hfilter⟩ := exists_filter_same_manifest plan noManifest directory
    exact ⟨Table.ofList (s.citedIn directory), fun m => isDesired_iff fine distinct,
      converges_of_filter hfilter⟩

/-- A hash that has changed is recorded anew, and the address of a file that is no longer cited is dropped. The
    manifest is behind a link. -/
theorem plan_converges_changed :
    let id : RequirementId := ⟨⟨['p'], by decide⟩, ⟨['A'], by decide⟩⟩
    let document := "```\nreqmd.package: p\n```\n`~A~`\n".toList
    let url := "https://e.org/x.rs".toList
    let source : SourceRecord :=
      { path := ⟨"x.rs".toList⟩, tags := [{ requirement := id, type := "impl".toList, line := 1 }]
        hash := some ['2'], url := some url, relative := none }
    let previous : Manifest := Table.ofList [(url, ['1']), ("https://e.org/y.rs".toList, ['1'])]
    let s : ScanResult :=
      { files := [.document (.ofParsed ⟨"a.md".toList⟩ (ParsedDocument.parse document)), .source source]
        manifests := Table.ofList [(⟨[]⟩, previous)], errors := [] }
    let t : FileTree :=
      { nodes := Table.ofList [(["a.md".toList], .file (.text document)),
          (["m.json".toList], .file (.text previous.render)),
          ([Manifest.fileName], .link ⟨"m.json".toList⟩)]
        workingDirectory := [] }
    let desired : Manifest := Table.ofList [(url, ['2'])]
    ∃ actions t', plan s = .ok actions ∧ s.IsDesired ⟨[]⟩ desired ∧ t.apply actions = (t', .ok 2) ∧
      t'.readText ⟨Manifest.fileName⟩ = .ok desired.render := by
  intro id document url source previous s t desired
  have h : plan s = .ok (s.documentEdits ++ s.manifestEdits) := plan_eq_ok_iff.mpr ⟨by decide +kernel, rfl⟩
  generalize hactions : s.documentEdits ++ s.manifestEdits = actions at h
  obtain ⟨hresult, hpatched, hedits, hspelled, hnamed, hfiles⟩ : (t.apply actions).2 = .ok 2 ∧
      patchManifest previous (actions.filter (·.path.same ⟨Manifest.fileName⟩)) = desired ∧
      actions.filter (·.path.same ⟨Manifest.fileName⟩) ≠ [] ∧
      (∀ e ∈ groupByFile actions, e.path.same ⟨Manifest.fileName⟩ = true → e.path = ⟨Manifest.fileName⟩) ∧
      ⟨Manifest.fileName⟩ ∈ actions.map Action.path ∧ t.DistinctFiles (actions.map Action.path) := by
    rw [← hactions]
    decide +kernel
  obtain ⟨-, hdirectories⟩ := plan_converges h (by decide +kernel) (by decide +kernel)
  obtain ⟨m, hdesired, hconverges⟩ := hdirectories ⟨[]⟩ (by decide +kernel)
  obtain rfl : desired = m := hpatched.symm.trans hconverges.patched
  obtain ⟨e, he, hsame, -, -, hleaves⟩ := hconverges.applied hedits
  rw [hspelled e he hsame] at hleaves
  have hplace : t.locate .writing ⟨Manifest.fileName⟩ =
      .ok (["m.json".toList], some (.file (.text previous.render))) := by decide +kernel
  have holds : t.HoldsManifest ⟨Manifest.fileName⟩ previous :=
    ⟨by decide +kernel, [], _, FileTree.writeText_of_locate hplace (by simp) []⟩
  have happly : t.apply actions = ((t.apply actions).1, .ok 2) := Prod.ext rfl hresult
  have halone : ∀ a ∈ actions, ∀ place, t.Reaches a.path place → t.Reaches ⟨Manifest.fileName⟩ place →
      a.path.same ⟨Manifest.fileName⟩ = true := fun a ha _ =>
    hfiles.same_of_reaches (List.mem_map_of_mem ha) hnamed
  exact ⟨actions, _, h, (hdesired _).mpr rfl, happly, hleaves t _ 2 holds halone happly⟩

end ReqTrace
