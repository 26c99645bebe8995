/-
Module: ReqTrace.Proofs.Run.Manifests
Purpose: The manifest of a scanned directory. The edits of its file lead from the manifest that was scanned to
  what the documents of the directory cite.
Main exports: Planned.filter_manifest, manifestOf, Scanned.get?_manifests, FileEdits.manifestOf_revise
-/
import ReqTrace.Proofs.Run.Groups

namespace ReqTrace

/-! ### Edits of one manifest -/

/-- The edits of one manifest among those of a plan. -/
theorem Planned.filter_manifest {t : FileTree} {config : Config} {units : Units} {s : ScanResult}
    {actions : List Action} (h : Planned t config units s actions) {dir : Names}
    (hunit : units.get? dir ≠ none) :
    actions.filter (·.path.same (FileTree.pathOf (dir ++ [Manifest.fileName]))) =
      s.manifestEditsIn (FileTree.pathOf dir) := by
  have hdir : ∀ {dir}, units.get? dir ≠ none → ∀ name ∈ dir, IsFileName name := fun hunit name hname =>
    h.names_manifest hunit name (List.mem_append_left _ hname)
  rw [← FileTree.join_pathOf (hdir hunit) isFileName_manifest.noSlash]
  refine filter_same_manifest h.plan h.fileName?_ne fun other hother hsame => ?_
  obtain ⟨dir', rfl, hunit'⟩ := h.scanned.exists_of_mem_manifestDirectories h.wellFormed h.clean hother
  rw [FileTree.same_pathOf_iff (hdir hunit') (hdir hunit)] at hsame
  rw [hsame]

/-! ### Manifest files -/

/-- The manifest that is read where there is a given node. -/
def manifestOf : Option Node → Option Manifest
  | some (.file (.text text)) => (Manifest.parse text).toOption
  | _ => none

theorem manifest_findingsAt {t : FileTree} {config : Config} {units : Units} {dir : Names}
    (hunit : units.get? dir ≠ none) :
    (findingsAt t config units dir Manifest.fileName).manifest =
      manifestOf (t.node? (dir ++ [Manifest.fileName])) := by
  obtain ⟨repository, hunit⟩ := Option.ne_none_iff_exists'.mp hunit
  unfold findingsAt
  rw [hunit]
  cases t.node? (dir ++ [Manifest.fileName]) with
  | none => rfl
  | some node =>
      cases node with
      | directory => rfl
      | link target => rfl
      | file content =>
          cases content with
          | binary bytes => rfl
          | text text => exact manifest_scanManifest _ text

/-- The manifest of a scanned directory is the one in its file. -/
theorem Scanned.get?_manifests {t : FileTree} {config : Config} {units : Units} {s : ScanResult}
    (h : Scanned t config units s) (wellFormed : t.WellFormed) {dir : Names}
    (hunit : units.get? dir ≠ none) :
    s.manifests.get? (FileTree.pathOf dir) = manifestOf (t.node? (dir ++ [Manifest.fileName])) := by
  rw [h.get?_manifests_eq wellFormed hunit, manifest_findingsAt hunit]

/-- The edits of a manifest leave no file, or a manifest. -/
theorem FileEdits.revise_eq_manifest {e : FileEdits} (hkind : e.isManifest = true) {node node' : Option Node}
    (h : e.revise node = .ok node') :
    node' = none ∨ ∃ m : Manifest, node' = some (.file (.text m.render)) := by
  obtain ⟨m, -, rfl⟩ := (revise_manifest_eq_ok_iff hkind).mp h
  split
  · exact .inl rfl
  · exact .inr ⟨_, rfl⟩

/-- The edits of a manifest lead from the manifest in its file to the one in the file that is left. -/
theorem FileEdits.manifestOf_revise {e : FileEdits} (hkind : e.isManifest = true) {node node' : Option Node}
    (h : e.revise node = .ok node') :
    (manifestOf node').getD Table.empty = patchManifest ((manifestOf node).getD Table.empty) e.actions := by
  obtain ⟨m, hm, rfl⟩ := (revise_manifest_eq_ok_iff hkind).mp h
  have hold : (manifestOf node).getD Table.empty = m := by
    rcases manifestIn_eq_ok_iff.mp hm with ⟨hmissing, rfl⟩ | ⟨text, htext, hparse⟩
    · rw [FileTree.textOf_eq_notFound_iff.mp hmissing]
      rfl
    · rw [FileTree.textOf_eq_ok_iff.mp htext, manifestOf, hparse]
      rfl
  rw [hold]
  by_cases hempty : (patchManifest m e.actions).isEmpty = true
  · rw [if_pos hempty, Table.eq_empty_of_isEmpty hempty]
    rfl
  · rw [if_neg hempty, manifestOf, Manifest.parse_render]
    rfl

end ReqTrace
