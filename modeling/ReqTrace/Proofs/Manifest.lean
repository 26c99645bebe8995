/-
Module: ReqTrace.Proofs.Manifest
Purpose: Manifests are read back as they were written, in the order of the bytes of their keys, and the edits that
  turn one manifest into another do so.
Main exports: Manifest.readObject_render, Manifest.parse_render, Manifest.bytes_ascending,
  setHash_mem_manifestActions_iff, dropHash_mem_manifestActions_iff, patchManifest_manifestActions,
  manifestActions_eq_nil_iff
-/
import ReqTrace.Apply
import ReqTrace.Plan
import ReqTrace.Proofs.Json
import ReqTrace.Proofs.Table
import ReqTrace.Proofs.Text.Utf8

namespace ReqTrace

namespace Manifest

/-! ### Texts -/

/-- What is written is an object with the entries in key order. -/
theorem readObject_render (m : Manifest) : Json.readObject m.render = .ok m.toList :=
  Json.readObject_renderObject _ (List.all_eq_true.mp (by decide))

theorem parse_render (m : Manifest) : parse m.render = .ok m := by
  rw [parse, readObject_render]
  exact congrArg Except.ok m.ofList_toList

/-- Different manifests have different texts. -/
theorem render_injective : Function.Injective render := fun m m' h =>
  Except.ok.inj ((m.parse_render.symm.trans (congrArg parse h)).trans m'.parse_render)

/-- The text ends with the brace of the object and a line feed. -/
theorem exists_render_eq (m : Manifest) : ∃ body, m.render = body ++ ['\n'] ∧ body.getLast? = some '\x7d' := by
  refine ⟨Json.renderObject m.toList, rfl, ?_⟩
  cases m.toList with
  | nil => rfl
  | cons entry entries =>
      have hbrace : "\n\x7d".toList = ['\n'] ++ ['\x7d'] := rfl
      rw [Json.renderObject_cons, Json.renderMore, hbrace, ← List.append_assoc, ← List.append_assoc,
        List.getLast?_concat]

/-- The keys are in the order of their bytes. -/
theorem bytes_ascending (m : Manifest) :
    m.toList.Pairwise fun a b => compare (Text.utf8 a.1) (Text.utf8 b.1) = .lt :=
  m.ascending.imp fun h => (Utf8.compare_utf8 _ _).trans h

end Manifest

/-! ### Edits -/

theorem patchManifest_append (m : Manifest) (first second : List Action) :
    patchManifest m (first ++ second) = patchManifest (patchManifest m first) second := by
  simp only [patchManifest, List.foldl_append]

/-- Hashes that are set one after the other. -/
theorem patchManifest_setHash (m : Manifest) (path : Path) (entries : List (Text × Text)) :
    patchManifest m (entries.map fun entry => .setHash path entry.1 entry.2) = m.insertAll entries := by
  rw [patchManifest, List.foldl_map]
  rfl

theorem patchManifest_dropHash (m : Manifest) (path : Path) (urls : List Text) :
    patchManifest m (urls.map (.dropHash path)) = urls.foldl Table.erase m := by
  rw [patchManifest, List.foldl_map]
  rfl

/-- The edits are the hashes that differ and the files that are no longer cited. -/
theorem manifestActions_eq (path : Path) (previous desired : Manifest) :
    manifestActions path previous desired =
      (desired.toList.filter fun entry => previous.get? entry.1 ≠ some entry.2).map
        (fun entry => .setHash path entry.1 entry.2) ++
      ((previous.toList.filter fun entry => desired.get? entry.1 = none).map Prod.fst).map
        (.dropHash path) := by
  rw [manifestActions, ← List.filterMap_eq_map, ← List.filterMap_eq_map, ← List.filterMap_eq_map,
    List.filterMap_filter, List.filterMap_filterMap, List.filterMap_filter]
  refine congrArg₂ (· ++ ·) (List.filterMap_congr ?_) (List.filterMap_congr ?_)
  · rintro ⟨url, hash⟩ -
    by_cases h : previous.get? url = some hash <;> simp [h]
  · rintro ⟨url, hash⟩ -
    cases h : desired.get? url <;> simp [h]

/-- A hash is set if it is to be recorded and is not yet. -/
theorem setHash_mem_manifestActions_iff {path file : Path} {previous desired : Manifest} {url hash : Text} :
    .setHash file url hash ∈ manifestActions path previous desired ↔
      file = path ∧ desired.get? url = some hash ∧ previous.get? url ≠ some hash := by
  simp only [manifestActions_eq, List.mem_append, List.mem_map, List.mem_filter, decide_eq_true_eq, reduceCtorEq,
    and_false, exists_false, or_false, ← Table.mem_toList_iff]
  constructor
  · rintro ⟨entry, ⟨hentry, hdiffers⟩, heq⟩
    cases heq
    exact ⟨rfl, hentry, hdiffers⟩
  · rintro ⟨rfl, hentry, hdiffers⟩
    exact ⟨(url, hash), ⟨hentry, hdiffers⟩, rfl⟩

/-- A file is dropped if it is recorded and is not to be. -/
theorem dropHash_mem_manifestActions_iff {path file : Path} {previous desired : Manifest} {url : Text} :
    .dropHash file url ∈ manifestActions path previous desired ↔
      file = path ∧ previous.get? url ≠ none ∧ desired.get? url = none := by
  simp only [manifestActions_eq, List.mem_append, List.mem_map, List.mem_filter, decide_eq_true_eq, reduceCtorEq,
    and_false, exists_false, false_or, Option.ne_none_iff_exists', ← Table.mem_toList_iff]
  constructor
  · rintro ⟨_, ⟨entry, ⟨hentry, hmissing⟩, rfl⟩, heq⟩
    cases heq
    exact ⟨rfl, ⟨entry.2, hentry⟩, hmissing⟩
  · rintro ⟨rfl, ⟨hash, hentry⟩, hmissing⟩
    exact ⟨url, ⟨(url, hash), ⟨hentry, hmissing⟩, rfl⟩, rfl⟩

/-- The edits turn the one manifest into the other. -/
theorem patchManifest_manifestActions (path : Path) (previous desired : Manifest) :
    patchManifest previous (manifestActions path previous desired) = desired := by
  rw [manifestActions_eq, patchManifest_append, patchManifest_setHash, patchManifest_dropHash]
  refine Table.ext_get? fun url => ?_
  have hdropped : (∃ url' ∈ (previous.toList.filter fun entry => desired.get? entry.1 = none).map Prod.fst,
      compare url url' = .eq) ↔ (previous.get? url).isSome = true ∧ desired.get? url = none := by
    simp only [List.mem_map, List.mem_filter, decide_eq_true_eq, Option.isSome_iff_exists,
      ← Table.mem_toList_iff, Std.LawfulEqCmp.compare_eq_iff_eq]
    constructor
    · rintro ⟨_, ⟨⟨url', hash⟩, ⟨hmem, hnone⟩, rfl⟩, rfl⟩
      exact ⟨⟨hash, hmem⟩, hnone⟩
    · rintro ⟨⟨hash, hmem⟩, hnone⟩
      exact ⟨url, ⟨(url, hash), ⟨hmem, hnone⟩, rfl⟩, rfl⟩
  rw [Table.get?_foldl_erase, Table.get?_insertAll_filter]
  simp only [hdropped]
  cases hnew : desired.get? url with
  | none =>
      by_cases hold : (previous.get? url).isSome = true
      · simp [hold]
      · simp [Option.not_isSome_iff_eq_none.mp hold]
  | some hash =>
      by_cases hold : previous.get? url = some hash
      · simp [hold, Option.filter]
      · simp [hold]

/-- There are no edits exactly between equal manifests. -/
theorem manifestActions_eq_nil_iff {path : Path} {previous desired : Manifest} :
    manifestActions path previous desired = [] ↔ previous = desired := by
  constructor
  · intro h
    have hpatched := patchManifest_manifestActions path previous desired
    rw [h] at hpatched
    exact hpatched
  · rintro rfl
    rw [manifestActions_eq]
    simp only [List.append_eq_nil_iff, List.map_eq_nil_iff, List.filter_eq_nil_iff, Bool.not_eq_true,
      decide_eq_false_iff_not]
    refine ⟨fun entry hentry => ?_, fun entry hentry => ?_⟩
    · rw [Table.mem_toList_iff.mp hentry]
      simp
    · rw [Table.mem_toList_iff.mp hentry]
      simp

end ReqTrace
