/-
Module: ReqTrace.Proofs.Apply
Purpose: What a run of edits does to a tree. The edits are grouped by file, the edits of a file depend on
  what is there and change nothing else, and so a run succeeds if the edits of every file do on the tree as it
  was before the run.
Main exports: IsGrouping, isGrouping_groupByFile, FileEdits.revise, FileTree.applyGroup_eq,
  FileTree.Revised, FileTree.applyGroups_cases
-/
import ReqTrace.Apply
import ReqTrace.Proofs.FileTree

namespace ReqTrace

/-! ### Grouping by file -/

/-- Every edit is in the one group of its file, and the edits of a file stay in order. -/
structure IsGrouping (actions : List Action) (groups : List FileEdits) : Prop where
  edits : ∀ e ∈ groups, e.actions = actions.filter (·.path.same e.path)
  named : ∀ e ∈ groups, ∃ a ∈ actions, a.path = e.path
  all : ∀ a ∈ actions, ∃ e ∈ groups, e.path.same a.path = true
  distinct : groups.Pairwise fun e e' => e.path.same e'.path = false

/-- An edit joins the group of its file, or starts one at the end. -/
theorem addToGroup_cases (a : Action) (groups : List FileEdits) :
    (∃ before e after, groups = before ++ e :: after ∧ e.path.same a.path = true ∧
      addToGroup a groups = before ++ { e with actions := e.actions ++ [a] } :: after) ∨
    ((∀ e ∈ groups, e.path.same a.path = false) ∧
      addToGroup a groups = groups ++ [{ path := a.path, actions := [a] }]) := by
  induction groups with
  | nil => exact .inr ⟨by simp, rfl⟩
  | cons e groups ih =>
      by_cases he : e.path.same a.path = true
      · exact .inl ⟨[], e, groups, rfl, he, by rw [addToGroup, if_pos he]; rfl⟩
      · rw [addToGroup, if_neg he]
        rcases ih with ⟨before, e', after, rfl, he', hadd⟩ | ⟨hnone, hadd⟩
        · exact .inl ⟨e :: before, e', after, rfl, he', by rw [hadd]; rfl⟩
        · refine .inr ⟨fun e' he' => ?_, by rw [hadd]; rfl⟩
          rcases List.mem_cons.mp he' with rfl | he'
          · simpa using he
          · exact hnone e' he'

/-- The edits of a file are the ones before and the next one, if it is of the file. -/
theorem filter_same_append (actions : List Action) (a : Action) (p : Path) :
    (actions ++ [a]).filter (·.path.same p) =
      actions.filter (·.path.same p) ++ if p.same a.path = true then [a] else [] := by
  rw [List.filter_append, List.filter_singleton, Path.same_comm, cond_eq_ite]

namespace IsGrouping

variable {actions : List Action} {a : Action}

/-- The other groups are of other files. -/
theorem same_eq_false {before after : List FileEdits} {e e' : FileEdits}
    (h : IsGrouping actions (before ++ e :: after)) (he' : e' ∈ before ++ after) :
    e'.path.same e.path = false := by
  obtain ⟨-, hafter, hbefore⟩ := List.pairwise_append.mp h.distinct
  rcases List.mem_append.mp he' with hmem | hmem
  · exact hbefore e' hmem e List.mem_cons_self
  · rw [Path.same_comm]
    exact (List.pairwise_cons.mp hafter).1 e' hmem

theorem join {before after : List FileEdits} {e : FileEdits} (h : IsGrouping actions (before ++ e :: after))
    (he : e.path.same a.path = true) :
    IsGrouping (actions ++ [a]) (before ++ { e with actions := e.actions ++ [a] } :: after) := by
  have hother : ∀ e' ∈ before ++ after, e'.path.same a.path = false := by
    intro e' he'
    rw [Path.same_comm, ← Path.same_congr he, Path.same_comm]
    exact h.same_eq_false he'
  have hold : ∀ e' ∈ before ++ after, e' ∈ before ++ e :: after := fun e' he' => by
    simp only [List.mem_append, List.mem_cons] at he' ⊢
    exact he'.imp_right .inr
  have hcases : ∀ e' ∈ before ++ { e with actions := e.actions ++ [a] } :: after,
      e' = { e with actions := e.actions ++ [a] } ∨ e' ∈ before ++ after := fun e' he' => by
    simp only [List.mem_append, List.mem_cons] at he' ⊢
    tauto
  refine ⟨fun e' he' => ?_, fun e' he' => ?_, fun b hb => ?_, ?_⟩
  · rw [filter_same_append]
    rcases hcases e' he' with rfl | he'
    · rw [if_pos he, ← h.edits e (by simp)]
    · rw [hother e' he', ← h.edits e' (hold e' he')]
      simp
  · have hnamed : ∃ b ∈ actions, b.path = e'.path := by
      rcases hcases e' he' with rfl | he'
      · exact h.named e (by simp)
      · exact h.named e' (hold e' he')
    obtain ⟨b, hb, hpath⟩ := hnamed
    exact ⟨b, List.mem_append_left _ hb, hpath⟩
  · rcases List.mem_append.mp hb with hb | hb
    · obtain ⟨e', he', hpath⟩ := h.all b hb
      simp only [List.mem_append, List.mem_cons] at he'
      rcases he' with he' | rfl | he'
      · exact ⟨e', List.mem_append_left _ he', hpath⟩
      · exact ⟨_, List.mem_append_right _ List.mem_cons_self, hpath⟩
      · exact ⟨e', List.mem_append_right _ (List.mem_cons_of_mem _ he'), hpath⟩
    · rw [List.mem_singleton.mp hb]
      exact ⟨_, List.mem_append_right _ List.mem_cons_self, he⟩
  · have hpaths : (before ++ { e with actions := e.actions ++ [a] } :: after).map FileEdits.path =
        (before ++ e :: after).map FileEdits.path := by simp
    have hdistinct : ((before ++ e :: after).map FileEdits.path).Pairwise fun p q => p.same q = false :=
      List.pairwise_map.mpr h.distinct
    rw [← hpaths] at hdistinct
    exact List.pairwise_map.mp hdistinct

theorem start {groups : List FileEdits} (h : IsGrouping actions groups)
    (hnone : ∀ e ∈ groups, e.path.same a.path = false) :
    IsGrouping (actions ++ [a]) (groups ++ [{ path := a.path, actions := [a] }]) := by
  refine ⟨fun e he => ?_, fun e he => ?_, fun b hb => ?_, ?_⟩
  · rw [filter_same_append]
    rcases List.mem_append.mp he with he | he
    · rw [hnone e he, ← h.edits e he]
      simp
    · have hnew : actions.filter (·.path.same a.path) = [] := by
        refine List.filter_eq_nil_iff.mpr fun b hb hsame => ?_
        obtain ⟨e', he', hpath⟩ := h.all b hb
        have hne := hnone e' he'
        rw [Path.same_congr hpath, hsame] at hne
        cases hne
      rw [List.mem_singleton.mp he, hnew, if_pos (Path.same_self a.path)]
      rfl
  · rcases List.mem_append.mp he with he | he
    · obtain ⟨b, hb, hpath⟩ := h.named e he
      exact ⟨b, List.mem_append_left _ hb, hpath⟩
    · rw [List.mem_singleton.mp he]
      exact ⟨a, by simp, rfl⟩
  · rcases List.mem_append.mp hb with hb | hb
    · obtain ⟨e, he, hpath⟩ := h.all b hb
      exact ⟨e, List.mem_append_left _ he, hpath⟩
    · rw [List.mem_singleton.mp hb]
      exact ⟨_, List.mem_append_right _ (List.mem_singleton_self _), Path.same_self a.path⟩
  · refine List.pairwise_append.mpr ⟨h.distinct, List.pairwise_singleton _ _, fun e he e' he' => ?_⟩
    rw [List.mem_singleton.mp he']
    exact hnone e he

theorem addToGroup {groups : List FileEdits} (h : IsGrouping actions groups) (a : Action) :
    IsGrouping (actions ++ [a]) (addToGroup a groups) := by
  rcases addToGroup_cases a groups with ⟨before, e, after, rfl, he, hadd⟩ | ⟨hnone, hadd⟩
  · rw [hadd]
    exact h.join he
  · rw [hadd]
    exact h.start hnone

variable {groups : List FileEdits} {e : FileEdits}

/-- A group has the edits of its file. -/
theorem mem_actions_iff (h : IsGrouping actions groups) (he : e ∈ groups) :
    a ∈ e.actions ↔ a ∈ actions ∧ a.path.same e.path = true := by
  rw [h.edits e he, List.mem_filter]

theorem exists_mem (h : IsGrouping actions groups) (he : e ∈ groups) : ∃ a ∈ e.actions, a.path = e.path := by
  obtain ⟨a, ha, hpath⟩ := h.named e he
  exact ⟨a, (h.mem_actions_iff he).mpr ⟨ha, by rw [hpath]; exact Path.same_self e.path⟩, hpath⟩

end IsGrouping

theorem isGrouping_groupByFile (actions : List Action) : IsGrouping actions (groupByFile actions) := by
  have hrun : ∀ (rest done : List Action) (groups : List FileEdits), IsGrouping done groups →
      IsGrouping (done ++ rest) (rest.foldl (fun groups a => addToGroup a groups) groups) := by
    intro rest
    induction rest with
    | nil =>
        intro done groups h
        simpa using h
    | cons a rest ih =>
        intro done groups h
        simpa using ih (done ++ [a]) _ (h.addToGroup a)
  exact hrun actions [] [] ⟨by simp, by simp, by simp, .nil⟩

/-- An edit does not change the order of the groups; a new group is the last one. -/
theorem pairwise_addToGroup {P : Path → Prop} {groups : List FileEdits}
    (h : groups.Pairwise fun e e' => P e.path → P e'.path) {a : Action}
    (hlast : ∀ e ∈ groups, P e.path → P a.path) :
    (addToGroup a groups).Pairwise fun e e' => P e.path → P e'.path := by
  have hpaths : ∀ groups : List FileEdits, (groups.Pairwise fun e e' => P e.path → P e'.path) ↔
      (groups.map FileEdits.path).Pairwise fun p q => P p → P q := fun groups => by
    rw [List.pairwise_map]
  rcases addToGroup_cases a groups with ⟨before, e, after, rfl, he, hadd⟩ | ⟨hnone, hadd⟩
  · rw [hpaths] at h
    rw [hadd, hpaths]
    simpa using h
  · rw [hadd]
    refine List.pairwise_append.mpr ⟨h, List.pairwise_singleton _ _, fun e he e' he' => ?_⟩
    rw [List.mem_singleton.mp he']
    exact hlast e he

/-- The files of the first edits come before those that only later edits name. -/
theorem pairwise_groupByFile {P : Path → Prop} {first second : List Action}
    (hfirst : ∀ a ∈ first, ¬ P a.path) (hsecond : ∀ a ∈ second, P a.path) :
    (groupByFile (first ++ second)).Pairwise fun e e' => P e.path → P e'.path := by
  have hrun : ∀ groups : List FileEdits, (groups.Pairwise fun e e' => P e.path → P e'.path) →
      (second.foldl (fun groups a => addToGroup a groups) groups).Pairwise
        fun e e' => P e.path → P e'.path := by
    induction second with
    | nil => exact fun _ h => h
    | cons a second ih =>
        intro groups h
        exact ih (fun b hb => hsecond b (List.mem_cons_of_mem _ hb)) _
          (pairwise_addToGroup h fun _ _ _ => hsecond a List.mem_cons_self)
  rw [groupByFile, List.foldl_append]
  refine hrun _ (List.pairwise_of_forall_mem_list fun e he e' _ hpath => ?_)
  obtain ⟨a, ha, heq⟩ := (isGrouping_groupByFile first).named e he
  exact absurd (heq ▸ hpath) (hfirst a ha)

/-! ### The edits of one file -/

namespace FileEdits

/-- The manifest that edits start from where there is a given node. -/
def manifestIn (e : FileEdits) (node : Option Node) : Except ApplyError Manifest :=
  match FileTree.textOf node with
  | .error .notFound => .ok Table.empty
  | .error error => .error (.manifestFile e.path error)
  | .ok text => (Manifest.parse text).mapError (.manifestText e.path)

/-- What the edits of a file make of what is there. -/
def revise (e : FileEdits) (node : Option Node) : Except ApplyError (Option Node) := do
  if e.isManifest then
    let m ← e.manifestIn node
    return if (patchManifest m e.actions).isEmpty then none
      else some (.file (.text (patchManifest m e.actions).render))
  else
    let text ← (FileTree.textOf node).mapError (ApplyError.document e.path)
    let patched ← patchDocument e.path text e.actions
    return some (.file (.text patched))

theorem manifestIn_eq_ok_iff {e : FileEdits} {node : Option Node} {m : Manifest} : e.manifestIn node = .ok m ↔
    FileTree.textOf node = .error .notFound ∧ m = Table.empty ∨
      ∃ text, FileTree.textOf node = .ok text ∧ Manifest.parse text = .ok m := by
  unfold manifestIn
  cases FileTree.textOf node with
  | error error => cases error <;> simp [eq_comm]
  | ok text => simp [mapError_eq_ok_iff]

theorem revise_manifest_eq_ok_iff {e : FileEdits} (h : e.isManifest = true) {node node' : Option Node} :
    e.revise node = .ok node' ↔ ∃ m, e.manifestIn node = .ok m ∧
      node' = if (patchManifest m e.actions).isEmpty then none
        else some (.file (.text (patchManifest m e.actions).render)) := by
  rw [revise, if_pos h, bind_eq_ok_iff]
  exact exists_congr fun m => and_congr_right fun _ => ⟨fun h => (Except.ok.inj h).symm, fun h => congrArg _ h.symm⟩

theorem revise_document_eq_ok_iff {e : FileEdits} (h : e.isManifest = false) {node node' : Option Node} :
    e.revise node = .ok node' ↔ ∃ text patched, FileTree.textOf node = .ok text ∧
      patchDocument e.path text e.actions = .ok patched ∧ node' = some (.file (.text patched)) := by
  rw [revise, h, if_neg Bool.false_ne_true, bind_eq_ok_iff]
  refine exists_congr fun text => ?_
  rw [mapError_eq_ok_iff, bind_eq_ok_iff]
  constructor
  · rintro ⟨htext, patched, hpatched, hresult⟩
    exact ⟨patched, htext, hpatched, (Except.ok.inj hresult).symm⟩
  · rintro ⟨patched, htext, hpatched, rfl⟩
    exact ⟨htext, patched, hpatched, rfl⟩

/-- Edits that succeed do not start from a directory, and they leave a text or nothing. -/
theorem revise_eq_ok {e : FileEdits} {node node' : Option Node} (h : e.revise node = .ok node') :
    node ≠ some .directory ∧ (node' = none ∨ ∃ text, node' = some (.file (.text text))) := by
  cases hkind : e.isManifest with
  | true =>
      obtain ⟨m, hm, rfl⟩ := (revise_manifest_eq_ok_iff hkind).mp h
      refine ⟨?_, ?_⟩
      · rintro rfl
        cases hm
      · split
        · exact .inl rfl
        · exact .inr ⟨_, rfl⟩
  | false =>
      obtain ⟨text, patched, htext, -, rfl⟩ := (revise_document_eq_ok_iff hkind).mp h
      refine ⟨?_, .inr ⟨patched, rfl⟩⟩
      rintro rfl
      cases htext

/-- The file of the edits has a place in a tree. -/
def HasPlace (e : FileEdits) (t : FileTree) : Prop :=
  ∃ dir name, e.path = FileTree.pathOf (dir ++ [name]) ∧ t.HasPlace dir name

end FileEdits

namespace FileTree

variable {t : FileTree}

/-- What edits change that leave a given node: the place of the file, or the entry that stands for the file if they
    leave none. -/
def changed (file entry : Names) : Option Node → Names
  | some _ => file
  | none => entry

/-- The edits of a file depend on what is read from it, and change what is written or removed. -/
theorem applyGroup_of_place {e : FileEdits} {file entry : Names} (read : t.readText e.path = textOf (t.node? file))
    (write : t.node? file ≠ some .directory →
      ∀ text, t.writeText e.path text = .ok (t.set file (some (.file (.text text)))))
    (remove : t.node? file ≠ some .directory → t.remove e.path = .ok (t.set entry none) ∨
      t.remove e.path = .error .notFound ∧ t.set entry none = t) :
    t.applyGroup e = (e.revise (t.node? file)).map fun node => t.set (changed file entry node) node := by
  unfold applyGroup FileEdits.revise
  split
  · have hload : t.loadManifest e.path = e.manifestIn (t.node? file) := by
      rw [loadManifest, read]
      rfl
    rw [hload]
    cases hm : e.manifestIn (t.node? file) with
    | error error => rfl
    | ok m =>
        have hold : t.node? file ≠ some .directory := fun hdirectory => by
          rw [hdirectory] at hm
          cases hm
        simp only [bind, Except.bind, saveManifest]
        split
        · rcases remove hold with hremove | ⟨hremove, hsame⟩
          · rw [hremove]
            rfl
          · rw [hremove]
            exact congrArg Except.ok hsame.symm
        · rw [write hold]
          rfl
  · rw [read]
    cases htext : textOf (t.node? file) with
    | error error => rfl
    | ok text =>
        have hold : t.node? file ≠ some .directory := fun hdirectory => by
          rw [hdirectory] at htext
          cases htext
        cases hpatched : patchDocument e.path text e.actions with
        | error error =>
            simp only [Except.mapError, bind, Except.bind, hpatched]
            rfl
        | ok patched =>
            simp only [Except.mapError, bind, Except.bind, hpatched, write hold]
            rfl

/-- The edits of a file change what is in its place, and nothing else. -/
theorem applyGroup_eq (h : t.WellFormed) {e : FileEdits} (place : e.HasPlace t) :
    t.applyGroup e = (e.revise (t.node? e.path.names)).map (t.set e.path.names) := by
  obtain ⟨dir, name, hpath, place⟩ := place
  have hnames : e.path.names = dir ++ [name] := by
    rw [hpath]
    exact names_pathOf (place.names h)
  have hread := place.readText h
  have hwrite := place.writeText h
  have hremove := place.remove h
  rw [← hpath, ← hnames] at hread hwrite hremove
  have hchanged : (fun node => t.set (changed e.path.names e.path.names node) node) = t.set e.path.names := by
    funext node
    cases node <;> rfl
  rw [applyGroup_of_place hread hwrite hremove, hchanged]

/-- A place is read as what is there. -/
theorem readText_of_hasPlace (h : t.WellFormed) {e : FileEdits} (place : e.HasPlace t) :
    t.readText e.path = textOf (t.node? e.path.names) := by
  obtain ⟨dir, name, hpath, place⟩ := place
  rw [hpath, names_pathOf (place.names h)]
  exact place.readText h

/-! ### The edits of all files -/

/-- A tree after the edits of some files. Each of these holds what its own edits made of it, and nothing else
    has changed. -/
structure Revised (t t' : FileTree) (groups : List FileEdits) : Prop where
  wellFormed : t'.WellFormed
  workingDirectory : t'.workingDirectory = t.workingDirectory
  revised : ∀ e ∈ groups, e.revise (t.node? e.path.names) = .ok (t'.node? e.path.names)
  kept : ∀ names, (∀ e ∈ groups, e.path.names ≠ names) → t'.node? names = t.node? names
  places : ∀ e : FileEdits, e.HasPlace t → e.HasPlace t'

theorem Revised.refl (h : t.WellFormed) : Revised t t [] :=
  ⟨h, rfl, by simp, fun _ _ => rfl, fun _ place => place⟩

/-- The step of a run: the edits of one file, which leave all other places as they are. -/
theorem revised_cons (h : t.WellFormed) {e : FileEdits} (place : e.HasPlace t) {node : Option Node}
    (hrevise : e.revise (t.node? e.path.names) = .ok node) :
    (t.set e.path.names node).WellFormed ∧
      (∀ names, names ≠ e.path.names → (t.set e.path.names node).node? names = t.node? names) ∧
      (∀ e' : FileEdits, e'.HasPlace t → e'.HasPlace (t.set e.path.names node)) ∧
      ∀ t' groups, (∀ e' ∈ groups, e'.path.names ≠ e.path.names) →
        Revised (t.set e.path.names node) t' groups → Revised t t' (e :: groups) := by
  obtain ⟨dir, name, hpath, place⟩ := place
  have hnames : e.path.names = dir ++ [name] := by
    rw [hpath]
    exact names_pathOf (place.names h)
  obtain ⟨hold, hnew⟩ := FileEdits.revise_eq_ok hrevise
  have hregular : ∀ target, node ≠ some (.link target) := by
    rintro target rfl
    rcases hnew with hnew | ⟨text, hnew⟩ <;> cases hnew
  rw [hnames] at hrevise hold ⊢
  have hset : ∀ names, names ≠ dir ++ [name] → (t.set (dir ++ [name]) node).node? names = t.node? names :=
    fun names hne => by rw [node?_set (by simp), if_neg hne]
  have hself : (t.set (dir ++ [name]) node).node? (dir ++ [name]) = node := by
    rw [node?_set (by simp), if_pos rfl]
  have hplaces : ∀ e' : FileEdits, e'.HasPlace t → e'.HasPlace (t.set (dir ++ [name]) node) := by
    rintro e' ⟨dir', name', hpath', place'⟩
    exact ⟨dir', name', hpath', place'.set (by simp) hold hregular⟩
  refine ⟨h.set place.directory place.fileName hold node, hset, hplaces, fun t' groups hother hrest => ?_⟩
  · have hkept := hrest.kept (dir ++ [name]) hother
    rw [hself] at hkept
    refine ⟨hrest.wellFormed, ?_, fun e' he' => ?_, fun names hnone => ?_,
      fun e' place' => hrest.places e' (hplaces e' place')⟩
    · rw [hrest.workingDirectory]
      cases node <;> rfl
    · rcases List.mem_cons.mp he' with rfl | he'
      · rw [hnames, hkept]
        exact hrevise
      · have hrevised := hrest.revised e' he'
        rwa [hset _ (hother e' he')] at hrevised
    · rw [hrest.kept names fun e' he' => hnone e' (List.mem_cons_of_mem _ he'), hset]
      intro heq
      exact hnone e List.mem_cons_self (hnames.trans heq.symm)

/-- A run carries out the edits of all files, or it stops at the first file whose edits fail where they
    start from what was there before the run. -/
theorem applyGroups_cases (h : t.WellFormed) {groups : List FileEdits}
    (places : ∀ e ∈ groups, e.HasPlace t)
    (distinct : groups.Pairwise fun e e' => e.path.names ≠ e'.path.names) :
    (∃ t', t.applyGroups groups = (t', none) ∧ Revised t t' groups) ∨
    ∃ done e rest t' error, groups = done ++ e :: rest ∧ t.applyGroups groups = (t', some error) ∧
      Revised t t' done ∧ e.revise (t.node? e.path.names) = .error error := by
  induction groups generalizing t with
  | nil => exact .inl ⟨t, rfl, .refl h⟩
  | cons e groups ih =>
      obtain ⟨hfirst, hrest⟩ := List.pairwise_cons.mp distinct
      have hplace := places e List.mem_cons_self
      have hgroup := applyGroup_eq h hplace
      cases hrevise : e.revise (t.node? e.path.names) with
      | error error =>
          rw [hrevise] at hgroup
          refine .inr ⟨[], e, groups, t, error, rfl, ?_, .refl h, hrevise⟩
          rw [applyGroups, hgroup]
          rfl
      | ok node =>
          rw [hrevise] at hgroup
          have hrun : t.applyGroups (e :: groups) = (t.set e.path.names node).applyGroups groups := by
            rw [applyGroups, hgroup]
            rfl
          obtain ⟨hwell, hkeep, hplaces, hcons⟩ := revised_cons h hplace hrevise
          rcases ih hwell (fun e' he' => hplaces e' (places e' (List.mem_cons_of_mem _ he'))) hrest with
            ⟨t', hrest, hrevised⟩ | ⟨done, e', rest, t', error, rfl, hrest, hrevised, herror⟩
          · exact .inl ⟨t', hrun.trans hrest,
              hcons t' groups (fun e' he' => (hfirst e' he').symm) hrevised⟩
          · have hdone : ∀ e'' ∈ done, e''.path.names ≠ e.path.names := fun e'' he'' =>
              (hfirst e'' (List.mem_append_left _ he'')).symm
            have hlast := hfirst e' (List.mem_append_right _ List.mem_cons_self)
            refine .inr ⟨e :: done, e', rest, t', error, rfl, hrun.trans hrest, hcons t' done hdone hrevised,
              ?_⟩
            rwa [hkeep _ hlast.symm] at herror

/-! ### Paths that are too long -/

/-- The edits of a file fail if its path is too long. -/
theorem byteLength_le_of_applyGroup {t' : FileTree} {e : FileEdits} (h : t.applyGroup e = .ok t')
    (noZero : '\x00' ∉ e.path.text) : Text.byteLength e.path.text ≤ maxPathLength := by
  by_contra hlong
  have hread : t.readText e.path = .error .nameTooLong :=
    readText_of_locate_error (if_pos ⟨noZero, Nat.lt_of_not_le hlong⟩)
  unfold applyGroup at h
  split at h
  · rw [loadManifest, hread] at h
    cases h
  · rw [hread] at h
    cases h

/-- A run that does not stop carries out the edits of every file. -/
theorem exists_applyGroup {t' : FileTree} {groups : List FileEdits}
    (h : t.applyGroups groups = (t', none)) {e : FileEdits} (he : e ∈ groups) :
    ∃ before after : FileTree, before.applyGroup e = .ok after := by
  induction groups generalizing t with
  | nil => cases he
  | cons first groups ih =>
      rw [applyGroups] at h
      split at h
      · rename_i next hfirst
        rcases List.mem_cons.mp he with rfl | he
        · exact ⟨t, next, hfirst⟩
        · exact ih h he
      · cases h

end FileTree

end ReqTrace
