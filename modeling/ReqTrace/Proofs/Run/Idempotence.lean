/-
Module: ReqTrace.Proofs.Run.Idempotence
Purpose: A run after a run. Its scan succeeds, finds nothing wrong, and no edits follow from it.
Main exports: Applied.plan_eq_nil, Repeatable, trace_apply_again
-/
import ReqTrace.Proofs.Plan.Order
import ReqTrace.Proofs.Rewritten
import ReqTrace.Proofs.Run.Rescan

namespace ReqTrace

/-- The declarations of a scan without errors come document by document. -/
theorem Scanned.declared_eq {t : FileTree} {config : Config} {units : Units} {s : ScanResult}
    (h : Scanned t config units s) (clean : s.errors = [])
    (fine : (Index.ofDocuments s.documents).errors = []) :
    s.declared = s.documents.flatMap DocumentRecord.declarations := by
  refine ScanResult.declared_eq_flatMap fine h.ascending_documents fun d hd => ?_
  obtain ⟨dir, name, text, -, hparsed⟩ := h.exists_document clean hd
  rw [hparsed]
  exact ParsedDocument.sites_ascending _

namespace Applied

variable {t t' : FileTree} {config : Config} {units : Units} {s s' : ScanResult} {actions : List Action}

/-- Every document is settled when it is read again. -/
theorem exists_settled_reread (h : Applied t t' config units s actions) (linkable : s.Linkable)
    {d : DocumentRecord} (hd : d ∈ s.documents) : ∃ before after, d = .ofParsed d.path before ∧
      d.reread t' = .ofParsed d.path after ∧ Settled s.sources d.path before after := by
  obtain ⟨dir, name, text, hat, hparsed⟩ := h.scanned.exists_document h.clean hd
  obtain ⟨text', hnode, settled⟩ := h.document linkable hat
  refine ⟨_, _, hparsed, ?_, settled⟩
  rw [DocumentRecord.reread_eq (h.wellFormed.isFileName hat.node) hnode hat.path, ← hat.path]

section Again

variable (h : Applied t t' config units s actions) (linkable : s.Linkable)
  (fits : DocumentsFit t' config actions) (again : Scanned t' config units s')

include h linkable fits again

/-- The documents declare the same requirements as before. -/
theorem map_key_declarations :
    (s'.documents.flatMap DocumentRecord.declarations).map Declaration.key =
      (s.documents.flatMap DocumentRecord.declarations).map Declaration.key := by
  rw [h.documents_eq linkable fits again, List.flatMap_map, List.map_flatMap, List.map_flatMap]
  refine List.flatMap_congr fun d hd => ?_
  obtain ⟨before, after, hbefore, hafter, settled⟩ := h.exists_settled_reread linkable hd
  have hkeys := settled.map_key_declarations
  rw [← hbefore, ← hafter] at hkeys
  exact hkeys

/-- The requirements are declared as consistently as before. -/
theorem index_errors : (Index.ofDocuments s'.documents).errors = [] := by
  obtain ⟨packages, nodup⟩ := Index.errors_ofDocuments_eq_nil_iff.mp (plan_eq_ok_iff.mp h.plan).1
  refine Index.errors_ofDocuments_eq_nil_iff.mpr ⟨fun d' hd' hsites => ?_, ?_⟩
  · rw [h.documents_eq linkable fits again] at hd'
    obtain ⟨d, hd, rfl⟩ := List.mem_map.mp hd'
    obtain ⟨before, after, hbefore, hafter, settled⟩ := h.exists_settled_reread linkable hd
    rw [hafter] at hsites ⊢
    have hpackage := packages d hd fun hnone => hsites ?_
    · rw [hbefore] at hpackage
      exact (congrArg Option.isSome settled.package).trans hpackage
    · rw [hbefore] at hnone
      have hnames := settled.names
      rw [show before.sites = [] from hnone] at hnames
      exact List.map_eq_nil_iff.mp hnames
  · have hid : Declaration.id = Prod.snd ∘ Declaration.key := rfl
    rw [hid, ← List.map_map, h.map_key_declarations linkable fits again, List.map_map]
    exact nodup

/-- No document needs an edit. -/
theorem documentEdits_eq_nil : s'.documentEdits = [] := by
  have hclean := h.errors_eq linkable fits again
  refine List.flatMap_eq_nil_iff.mpr fun x hx => ?_
  rw [again.declared_eq hclean (h.index_errors linkable fits again), h.documents_eq linkable fits again] at hx
  obtain ⟨d', hd', hx⟩ := List.mem_flatMap.mp hx
  obtain ⟨d, hd, rfl⟩ := List.mem_map.mp hd'
  obtain ⟨before, after, -, hafter, settled⟩ := h.exists_settled_reread linkable hd
  rw [hafter] at hx
  rw [h.sources_eq linkable fits again]
  exact settled.actions x hx

/-- The documents of a directory cite the same files as before. -/
theorem citedIn_eq (directory : Path) : s'.citedIn directory = s.citedIn directory := by
  refine ScanResult.citedIn_congr (h.sources_eq linkable fits again) ?_ directory
  rw [again.declared_eq (h.errors_eq linkable fits again) (h.index_errors linkable fits again),
    h.scanned.declared_eq h.clean (plan_eq_ok_iff.mp h.plan).1]
  exact h.map_key_declarations linkable fits again

/-- No manifest needs an edit. -/
theorem manifestEdits_eq_nil : s'.manifestEdits = [] := by
  have hclean := h.errors_eq linkable fits again
  have hwell := h.revised.wellFormed
  refine List.flatMap_eq_nil_iff.mpr fun directory hdirectory => ?_
  obtain ⟨dir, rfl, hunit⟩ := again.exists_of_mem_manifestDirectories hwell hclean hdirectory
  rw [s'.manifestEditsIn_eq, again.get?_manifests hwell hunit, h.manifest hunit,
    h.citedIn_eq linkable fits again]
  exact manifestActions_eq_nil_iff.mpr rfl

/-- Nothing is planned after a run. -/
theorem plan_eq_nil : ReqTrace.plan s' = .ok [] := by
  refine plan_eq_ok_iff.mpr ⟨h.index_errors linkable fits again, ?_⟩
  rw [h.documentEdits_eq_nil linkable fits again, h.manifestEdits_eq_nil linkable fits again]
  rfl

end Again

end Applied

/-! ### Runs -/

/-- What a run has to leave within the reach of another one. The tags can be linked to, the documents are not
    too large for a scan when they have been rewritten, no manifest is edited through a link, which a scan does
    not follow, and wherever a root leads something is left. -/
structure Repeatable (t t' : FileTree) (roots : List ScanRoot) (config : Config) (traced : Traced) : Prop where
  linkable : traced.scan.Linkable
  fits : DocumentsFit t' config traced.actions
  regular : ∀ a ∈ traced.actions, a.isManifestEdit = true → ∀ target, t.node? a.path.names ≠ some (.link target)
  roots : ∀ root ∈ roots, ∀ names, t.destination root.path = .ok names → t'.node? names ≠ none

/-- A run that has carried out all its edits was permitted to do so. -/
theorem Planned.permitted {t t' : FileTree} {config : Config} {units : Units} {s : ScanResult}
    {actions : List Action} (h : Planned t config units s actions)
    (applied : t.applyGroups (groupByFile actions) = (t', none))
    (regular : ∀ a ∈ actions, a.isManifestEdit = true → ∀ target, t.node? a.path.names ≠ some (.link target)) :
    Permitted t actions := by
  refine ⟨fun a ha target => ?_, fun a ha => ?_⟩
  · rcases h.action_cases ha with ⟨-, dir, name, text, hat⟩ | ⟨hkind, -⟩
    · rw [hat.path, FileTree.names_pathOf (h.wellFormed.isFileName hat.node), hat.node]
      simp
    · exact regular a ha hkind target
  · obtain ⟨e, he, hpath, -⟩ := h.exists_group ha
    obtain ⟨dir, name, hplace, -, hnames⟩ := h.exists_place ha
    obtain ⟨before, after, hgroup⟩ := FileTree.exists_applyGroup applied he
    rw [← hpath]
    refine FileTree.byteLength_le_of_applyGroup hgroup ?_
    rw [hpath, hplace]
    exact FileTree.zero_not_mem_pathOf (by simp) hnames

/-- A run after a run that has carried out all its edits finds nothing wrong and has nothing to do. -/
theorem trace_apply_again {t t' : FileTree} {roots : List ScanRoot} {config : Config} {traced : Traced} {n : Nat}
    (h : trace t roots config = .ok traced) (wellFormed : t.WellFormed)
    (applied : t.apply traced.actions = (t', .ok n)) (repeatable : Repeatable t t' roots config traced) :
    ∃ s, trace t' roots config = .ok ⟨s, []⟩ := by
  obtain ⟨units, hunits, planned⟩ := exists_planned h wellFormed
  have hgroups : t.applyGroups (groupByFile traced.actions) = (t', none) := by
    rw [FileTree.apply] at applied
    split at applied
    · rename_i left hrun
      rw [hrun, (Prod.mk.inj applied).1]
    · cases applied
  have permitted := planned.permitted hgroups repeatable.regular
  have hrevised : FileTree.Revised t t' (groupByFile traced.actions) := by
    rcases FileTree.applyGroups_cases wellFormed (fun e he => planned.hasPlace permitted he)
      (planned.distinct_names permitted) with ⟨left, hrun, hrevised⟩ | ⟨_, _, _, _, _, -, hrun, -⟩
    · rw [hgroups] at hrun
      cases hrun
      exact hrevised
    · rw [hgroups] at hrun
      cases hrun
  have done : Applied t t' config units traced.scan traced.actions := ⟨planned, permitted, hrevised⟩
  have hunits' := done.rewritten.ofRoots hunits repeatable.roots
  obtain ⟨s, hscan⟩ := exists_scan_eq_ok hunits' config
  obtain ⟨units', hsame, again⟩ := exists_scanned hscan hrevised.wellFormed
  obtain rfl : units' = units := Except.ok.inj (hsame.symm.trans hunits')
  exact ⟨s, trace_eq_ok_iff.mpr ⟨hscan, done.errors_eq repeatable.linkable repeatable.fits again,
    done.plan_eq_nil repeatable.linkable repeatable.fits again⟩⟩

/-- A run that covers one requirement leaves nothing to be done. -/
theorem trace_apply_again_one_tag :
    let source : Repository :=
      { root := ⟨"/src".toList⟩
        location :=
          { family := .github
            root := { scheme := .https, host := "e.org".toList, port := none
                      segments := ["main".toList], query := none, fragment := none } }
        hashes := Table.ofList [("x.go".toList, "h".toList)] }
    let t : FileTree :=
      { nodes := Table.ofList [
          (["docs".toList], .directory),
          (["docs".toList, "a.md".toList], .file (.text "```\nreqmd.package: p\n```\n`~A~`\n".toList)),
          (["src".toList], .directory),
          (["src".toList, "x.go".toList], .file (.text "// [~p/A~impl]\n".toList))]
        workingDirectory := [] }
    let roots : List ScanRoot := [⟨⟨"/docs".toList⟩, none⟩, ⟨⟨"/src".toList⟩, some source⟩]
    ∃ traced t' s, trace t roots .default = .ok traced ∧ traced.actions.length = 3 ∧
      t.apply traced.actions = (t', .ok 2) ∧ trace t' roots .default = .ok ⟨s, []⟩ := by
  intro source t roots
  let units : Units := Table.ofList [(["docs".toList], none), (["src".toList], some source)]
  have hunits : Units.ofRoots t roots = .ok units := by decide +kernel
  have hscan := @scan_eq_ok_of_ordered t roots .default units hunits (by decide +kernel)
  generalize hs : ScanResult.mk _ _ _ = s at hscan
  generalize hactions : s.documentEdits ++ s.manifestEdits = actions
  have hfacts : s.errors = [] ∧ (Index.ofDocuments s.documents).errors = [] ∧ actions.length = 3 ∧
      (t.apply actions).2 = .ok 2 ∧ s.Linkable ∧ DocumentsFit (t.apply actions).1 .default actions ∧
      (∀ a ∈ actions, a.isManifestEdit = true → ∀ target, t.node? a.path.names ≠ some (.link target)) ∧
      ∀ root ∈ roots, ∀ names, t.destination root.path = .ok names → (t.apply actions).1.node? names ≠ none := by
    rw [← hactions, ← hs]
    decide +kernel
  obtain ⟨hclean, hindex, hlength, hresult, hlinkable, hfits, hregular, hroots⟩ := hfacts
  have htrace : trace t roots .default = .ok ⟨s, actions⟩ :=
    trace_eq_ok_iff.mpr ⟨hscan, hclean, plan_eq_ok_iff.mpr ⟨hindex, hactions.symm⟩⟩
  have happly : t.apply actions = ((t.apply actions).1, .ok 2) := Prod.ext rfl hresult
  obtain ⟨s', hagain⟩ :=
    trace_apply_again htrace (by decide +kernel) happly ⟨hlinkable, hfits, hregular, hroots⟩
  exact ⟨_, _, s', htrace, hlength, happly, hagain⟩

/-- A document that has outgrown the largest size is passed over by the next run, which takes back the hash of
    the file that the document cites. -/
theorem trace_apply_outgrown :
    let source : Repository :=
      { root := ⟨"/src".toList⟩
        location :=
          { family := .github
            root := { scheme := .https, host := "e.org".toList, port := none
                      segments := ["main".toList], query := none, fragment := none } }
        hashes := Table.ofList [("x.go".toList, "h".toList)] }
    let t : FileTree :=
      { nodes := Table.ofList [
          (["docs".toList], .directory),
          (["docs".toList, "a.md".toList], .file (.text "```\nreqmd.package: p\n```\n`~A~`\n".toList)),
          (["src".toList], .directory),
          (["src".toList, "x.go".toList], .file (.text "// [~p/A~impl]\n".toList))]
        workingDirectory := [] }
    let roots : List ScanRoot := [⟨⟨"/docs".toList⟩, none⟩, ⟨⟨"/src".toList⟩, some source⟩]
    let config : Config := { Config.default with maxFileSize := 40 }
    t.WellFormed ∧ ∃ traced t' s, trace t roots config = .ok traced ∧ t.apply traced.actions = (t', .ok 2) ∧
      trace t' roots config = .ok ⟨s,
        [.dropHash ⟨"/docs/reqmdfiles.json".toList⟩ "https://e.org/main/x.go".toList]⟩ := by
  intro source t roots config
  let units : Units := Table.ofList [(["docs".toList], none), (["src".toList], some source)]
  have hunits : Units.ofRoots t roots = .ok units := by decide +kernel
  have hscan := @scan_eq_ok_of_ordered t roots config units hunits (by decide +kernel)
  generalize hs : ScanResult.mk _ _ _ = s at hscan
  generalize hactions : s.documentEdits ++ s.manifestEdits = actions
  generalize hleft : (t.apply actions).1 = t'
  have hfacts : s.errors = [] ∧ (Index.ofDocuments s.documents).errors = [] ∧
      (t.apply actions).2 = .ok 2 ∧ Units.ofRoots t' roots = .ok units ∧
      (units.toList.flatMap fun u => (scanDirectory t' config u.1 u.2).files).Pairwise
        fun a b => (compare a.path b.path).isLE = true := by
    rw [← hleft, ← hactions, ← hs]
    decide +kernel
  obtain ⟨hclean, hindex, hresult, hunits', hordered⟩ := hfacts
  have htrace : trace t roots config = .ok ⟨s, actions⟩ :=
    trace_eq_ok_iff.mpr ⟨hscan, hclean, plan_eq_ok_iff.mpr ⟨hindex, hactions.symm⟩⟩
  have hagain := scan_eq_ok_of_ordered hunits' hordered
  generalize hs' : ScanResult.mk _ _ _ = s' at hagain
  have hfacts' : s'.errors = [] ∧ (Index.ofDocuments s'.documents).errors = [] ∧
      s'.documentEdits ++ s'.manifestEdits =
        [.dropHash ⟨"/docs/reqmdfiles.json".toList⟩ "https://e.org/main/x.go".toList] := by
    rw [← hs', ← hleft, ← hactions, ← hs]
    decide +kernel
  obtain ⟨hclean', hindex', hactions'⟩ := hfacts'
  exact ⟨by decide +kernel, _, t', s', htrace, Prod.ext hleft hresult,
    trace_eq_ok_iff.mpr ⟨hagain, hclean', plan_eq_ok_iff.mpr ⟨hindex', hactions'.symm⟩⟩⟩

end ReqTrace
