/-
Module: ReqTrace.Proofs.Leads
Purpose: What the edits of one file change in any tree and by any path: what is in the place that the path leads to,
  or, if no file is left, the entry that a removal by this path removes, which may be a link. Paths to other
  places lead there still.
Main exports: FileTree.Leads, FileTree.Leads.of_locate, FileTree.Leads.applyGroup_eq,
  FileTree.Leads.set, FileTree.Leads.of_same
-/
import ReqTrace.Proofs.Apply
import ReqTrace.Proofs.SameBut
import ReqTrace.Proofs.Written

namespace ReqTrace

namespace FileTree

variable {t : FileTree}

/-! ### Spellings of one path -/

/-- A dot before other steps leads nowhere else. -/
theorem advance_here (purpose : Purpose) (slash : Bool) (current : Names) (before : List PathComponent)
    {after : List PathComponent} (further : after ≠ []) :
    t.advance purpose slash current (before ++ .here :: after) =
        t.advance purpose slash current (before ++ after) ∨
      ∃ current' before', t.advance purpose slash current (before ++ .here :: after) =
          .ok (.linked current' (before' ++ .here :: after) slash) ∧
        t.advance purpose slash current (before ++ after) = .ok (.linked current' (before' ++ after) slash) := by
  induction before generalizing current with
  | nil => exact .inl rfl
  | cons step before ih =>
      cases step with
      | root => exact ih []
      | here => exact ih current
      | up => exact ih current.dropLast
      | name name =>
          rw [List.cons_append, List.cons_append, advance_name purpose slash current name (by simp),
            advance_name purpose slash current name (by simp [further])]
          split
          · exact .inl rfl
          · cases t.node? (current ++ [name]) with
            | none => exact .inl rfl
            | some node =>
                cases node with
                | directory => exact ih (current ++ [name])
                | file content => exact .inl rfl
                | link target =>
                    refine .inr ⟨current, steps target ++ before, ?_, ?_⟩
                    · rw [List.append_assoc]
                    · rw [List.append_assoc]

theorem walk_here (purpose : Purpose) (links : Nat) (slash : Bool) (current : Names)
    (before : List PathComponent) {after : List PathComponent} (further : after ≠ []) :
    t.walk purpose links slash current (before ++ .here :: after) =
      t.walk purpose links slash current (before ++ after) := by
  induction links generalizing current before with
  | zero =>
      rw [walk, walk]
      rcases advance_here purpose slash current before further with hsame | ⟨_, _, hlinked, hlinked'⟩
      · rw [hsame]
      · rw [hlinked, hlinked']
        rfl
  | succ links ih =>
      rcases advance_here purpose slash current before further with hsame | ⟨_, _, hlinked, hlinked'⟩
      · rw [walk, walk, hsame]
      · rw [walk_linked hlinked, walk_linked hlinked']
        exact ih _ _

/-- A walk that ends with a dot ends in a directory. -/
theorem advance_concat_here {purpose : Purpose} {slash : Bool} {current : Names} {before : List PathComponent}
    {progress : Progress} (h : t.advance purpose slash current (before ++ [.here]) = .ok progress) :
    (∃ names, progress = .arrived names (some .directory)) ∨
      ∃ current' before', progress = .linked current' (before' ++ [.here]) slash := by
  induction before generalizing current with
  | nil =>
      cases h
      exact .inl ⟨_, rfl⟩
  | cons step before ih =>
      cases step with
      | root => exact ih h
      | here => exact ih h
      | up => exact ih h
      | name name =>
          rw [List.cons_append, advance_name purpose slash current name (by simp)] at h
          split at h
          · cases h
          · cases hnode : t.node? (current ++ [name]) with
            | none =>
                rw [hnode] at h
                cases h
            | some node =>
                rw [hnode] at h
                cases node with
                | directory => exact ih h
                | file content => cases h
                | link target =>
                    cases h
                    exact .inr ⟨current, steps target ++ before, by rw [List.append_assoc]⟩

theorem walk_concat_here {purpose : Purpose} {links : Nat} {slash : Bool} {current names : Names}
    {before : List PathComponent} {node : Option Node}
    (h : t.walk purpose links slash current (before ++ [.here]) = .ok (names, node)) :
    node = some .directory := by
  replace h := walks_of_walk h
  generalize hleft : before ++ [.here] = left at h
  induction h generalizing before with
  | arrived advances =>
      rcases advance_concat_here (hleft ▸ advances) with ⟨_, harrived⟩ | ⟨_, _, hlinked⟩
      · cases harrived
        rfl
      · cases hlinked
  | linked advances _ ih =>
      rcases advance_concat_here (hleft ▸ advances) with ⟨_, harrived⟩ | ⟨_, _, hlinked⟩
      · cases harrived
      · cases hlinked
        exact ih rfl

/-- Dots count for nothing in a walk that does not end with one. -/
theorem walk_filter_here (purpose : Purpose) (links : Nat) (slash : Bool) (current : Names)
    (before : List PathComponent) {left : List PathComponent} (last : ∀ l, left ≠ l ++ [.here]) :
    t.walk purpose links slash current (before ++ left) =
      t.walk purpose links slash current (before ++ left.filter (· ≠ .here)) := by
  induction left generalizing before with
  | nil => rfl
  | cons step left ih =>
      have hlast : ∀ l, left ≠ l ++ [.here] := fun l heq => last (step :: l) (by rw [heq]; rfl)
      by_cases hstep : step = .here
      · subst hstep
        have hne : left ≠ [] := by
          rintro rfl
          exact last [] rfl
        rw [walk_here purpose links slash current before hne, List.filter_cons_of_neg (by simp)]
        exact ih before hlast
      · have hrest := ih (before ++ [step]) hlast
        rw [List.append_assoc, List.append_assoc] at hrest
        rw [List.filter_cons_of_pos (by simpa using hstep)]
        exact hrest

/-! ### Where paths lead -/

/-- A path under which a file can be written: the place that it leads to, and the entry that is removed under it. If
    these are not the same, the entry is a link that leads on to the place. -/
structure Leads (t : FileTree) (p : Path) (file entry : Names) : Prop where
  writing : t.locate .writing p = .ok (file, t.node? file)
  isOpen : IsOpen (t.node? file)
  removing : t.locate .removing p = .ok (entry, t.node? entry)
  leadsOn : entry = file ∨ ∃ target links, t.node? entry = some (.link target) ∧
    t.walk .writing links (meansDirectory target) entry.dropLast (steps target) = .ok (file, t.node? file)

namespace Leads

variable {p q : Path} {file entry file' entry' : Names}

/-- A path that a file can be written under leads to a place for files. -/
theorem of_locate {names : Names} {node : Option Node} (h : t.locate .writing p = .ok (names, node))
    (regular : node ≠ some .directory) : ∃ entry, t.Leads p names entry := by
  obtain ⟨hzero, hlength, hempty, hwalk⟩ := locate_eq_ok_iff.mp h
  obtain ⟨-, rfl, hopen⟩ := node_of_walk hwalk regular
  rcases walk_removing hwalk with hremoving | ⟨entry, target, links, hlink, hremoving, hleads⟩
  · exact ⟨names, h, hopen (by simp), locate_eq_ok_iff.mpr ⟨hzero, hlength, hempty, hremoving⟩, .inl rfl⟩
  · refine ⟨entry, h, hopen (by simp), ?_, .inr ⟨target, links, hlink, hleads⟩⟩
    rw [hlink]
    exact locate_eq_ok_iff.mpr ⟨hzero, hlength, hempty, hremoving⟩

theorem not_directory (h : t.Leads p file entry) : t.node? file ≠ some .directory :=
  (isOpen_iff.mp h.isOpen).1

theorem entry_not_directory (h : t.Leads p file entry) : t.node? entry ≠ some .directory := by
  rcases h.leadsOn with rfl | ⟨target, _, hlink, -⟩
  · exact h.not_directory
  · simp [hlink]

theorem file_ne_nil (h : t.Leads p file entry) : file ≠ [] := by
  obtain ⟨-, -, -, hwalk⟩ := locate_eq_ok_iff.mp h.writing
  exact (node_of_walk hwalk h.not_directory).1

theorem entry_ne_nil (h : t.Leads p file entry) : entry ≠ [] := by
  obtain ⟨-, -, -, hwalk⟩ := locate_eq_ok_iff.mp h.removing
  exact (node_of_walk hwalk h.entry_not_directory).1

/-- The place of a file is not the entry that stands for another one. -/
theorem file_ne_entry (h : t.Leads p file entry) (h' : t.Leads q file' entry') (other : file ≠ file') :
    file ≠ entry' := by
  rintro rfl
  rcases h'.leadsOn with heq | ⟨target, _, hlink, -⟩
  · exact other heq
  · exact (isOpen_iff.mp h.isOpen).2 target hlink

/-- Different places have different entries. -/
theorem entry_ne_entry (h : t.Leads p file entry) (h' : t.Leads q file' entry') (other : file ≠ file') :
    entry ≠ entry' := by
  rintro rfl
  rcases h.leadsOn with rfl | ⟨target, _, hlink, hleads⟩
  · exact h.file_ne_entry h' other rfl
  · rcases h'.leadsOn with rfl | ⟨target', _, hlink', hleads'⟩
    · exact h'.file_ne_entry h other.symm rfl
    · cases hlink.symm.trans hlink'
      exact other (congrArg Prod.fst (walk_unique hleads hleads'))

/-- No walk goes on from the link in the entry of a path to something else than the place of that path. -/
theorem spared (h : t.Leads p file entry) {x : Names} (hx : x = file ∨ x = entry) {purpose : Purpose}
    (notReading : purpose ≠ .reading) {names : Names} {node : Option Node}
    (other : purpose = .writing → names ≠ file ∧ node ≠ some .directory) (target : Path)
    (more : List PathComponent) (links : Nat) (slash : Bool) (hlink : t.node? x = some (.link target))
    (further : more = [] → purpose ≠ .removing ∧ (meansDirectory target = true → slash = true)) :
    t.walk purpose links slash x.dropLast (steps target ++ more) ≠ .ok (names, node) := by
  intro hwalk
  obtain ⟨_, hleads⟩ : ∃ links, t.walk .writing links (meansDirectory target) x.dropLast (steps target) =
      .ok (file, t.node? file) := by
    rcases hx with rfl | rfl
    · exact absurd hlink ((isOpen_iff.mp h.isOpen).2 target)
    · rcases h.leadsOn with rfl | ⟨target', links', hlink', hleads⟩
      · exact absurd hlink ((isOpen_iff.mp h.isOpen).2 target)
      · cases hlink.symm.trans hlink'
        exact ⟨links', hleads⟩
  by_cases hmore : more = []
  · subst hmore
    cases purpose with
    | reading => exact notReading rfl
    | removing => exact (further rfl).1 rfl
    | writing =>
        rw [List.append_nil] at hwalk
        rw [walk_writing_slash hwalk (other rfl).2] at hwalk
        rw [walk_writing_slash hleads h.not_directory] at hleads
        exact (other rfl).1 (congrArg Prod.fst (walk_unique hwalk hleads))
  · exact walk_append_ne hleads h.not_directory hmore _ hwalk

/-- A change in the place or the entry of a path leaves it where other paths lead. -/
theorem set (h : t.Leads p file entry) (h' : t.Leads q file' entry') (other : file ≠ file') {x : Names}
    (hx : x = file ∨ x = entry) (new : Option Node) :
    (t.set x new).Leads q file' entry' ∧ (t.set x new).node? file' = t.node? file' := by
  have hne : x ≠ [] := by
    rcases hx with rfl | rfl
    · exact h.file_ne_nil
    · exact h.entry_ne_nil
  have hold : t.node? x ≠ some .directory := by
    rcases hx with rfl | rfl
    · exact h.not_directory
    · exact h.entry_not_directory
  have hfile : file' ≠ x := by
    rcases hx with rfl | rfl
    · exact other.symm
    · exact h'.file_ne_entry h other.symm
  have hentry : entry' ≠ x := by
    rcases hx with rfl | rfl
    · exact (h.file_ne_entry h' other).symm
    · exact (h.entry_ne_entry h' other).symm
  have hbut : SameBut x t (t.set x new) := .set hne new
  have hwriting : ∀ {links slash current left},
      t.walk .writing links slash current left = .ok (file', t.node? file') →
        (t.set x new).walk .writing links slash current left = .ok (file', (t.set x new).node? file') := by
    intro links slash current left hwalk
    rw [hbut.nodes file' hfile]
    exact hbut.walk_eq hold hwalk hfile (h.spared hx (by simp) fun _ => ⟨other.symm, h'.not_directory⟩)
  obtain ⟨hzero, hlength, hempty, hwalk⟩ := locate_eq_ok_iff.mp h'.writing
  obtain ⟨-, -, -, hremoving⟩ := locate_eq_ok_iff.mp h'.removing
  refine ⟨⟨?_, ?_, ?_, ?_⟩, hbut.nodes file' hfile⟩
  · rw [locate_eq_ok_iff, hbut.workingDirectory]
    exact ⟨hzero, hlength, hempty, hwriting hwalk⟩
  · rw [hbut.nodes file' hfile]
    exact h'.isOpen
  · rw [locate_eq_ok_iff, hbut.workingDirectory, hbut.nodes entry' hentry]
    exact ⟨hzero, hlength, hempty,
      hbut.walk_eq hold hremoving hentry (h.spared hx (by simp) fun hpurpose => by cases hpurpose)⟩
  · refine h'.leadsOn.imp id ?_
    rintro ⟨target, links, hlink, hleads⟩
    exact ⟨target, links, (hbut.nodes entry' hentry).trans hlink, hwriting hleads⟩

/-- Spellings of one path lead to the same place and the same entry, if files can be written under both. -/
theorem of_same (h : t.Leads p file entry) (same : p.same q = true) {found : Names × Option Node}
    (writing : t.locate .writing q = .ok found) (regular : found.2 ≠ some .directory) :
    t.Leads q file entry := by
  obtain ⟨names, node⟩ := found
  obtain ⟨-, -, -, hwalk⟩ := locate_eq_ok_iff.mp h.writing
  obtain ⟨hzero, hlength, hempty, hwalk'⟩ := locate_eq_ok_iff.mp writing
  have hlast : ∀ l, steps p ≠ l ++ [.here] := by
    intro l heq
    rw [heq] at hwalk
    exact h.not_directory (walk_concat_here hwalk)
  have hlast' : ∀ l, steps q ≠ l ++ [.here] := by
    intro l heq
    rw [heq] at hwalk'
    exact regular (walk_concat_here hwalk')
  have hslash : meansDirectory q = meansDirectory p := by
    rw [walk_writing_slash hwalk h.not_directory, walk_writing_slash hwalk' regular]
  have hsteps : ∀ purpose, t.walk purpose maxLinks (meansDirectory q) t.workingDirectory (steps q) =
      t.walk purpose maxLinks (meansDirectory p) t.workingDirectory (steps p) := by
    intro purpose
    have hp := walk_filter_here (t := t) purpose maxLinks (meansDirectory p) t.workingDirectory [] hlast
    have hq := walk_filter_here (t := t) purpose maxLinks (meansDirectory p) t.workingDirectory [] hlast'
    rw [List.nil_append, List.nil_append] at hp hq
    rw [hslash, hp, hq, filter_steps, filter_steps, Path.same_iff.mp same]
  have hlocate : ∀ {purpose found}, t.locate purpose p = .ok found → t.locate purpose q = .ok found := by
    intro purpose found hfound
    obtain ⟨-, -, -, hfound⟩ := locate_eq_ok_iff.mp hfound
    exact locate_eq_ok_iff.mpr ⟨hzero, hlength, hempty, (hsteps purpose).trans hfound⟩
  exact ⟨hlocate h.writing, h.isOpen, hlocate h.removing, h.leadsOn⟩

/-- The edits of a file by a path change what is in its place, or remove its entry. -/
theorem applyGroup_eq {e : FileEdits} (h : t.Leads e.path file entry) :
    t.applyGroup e = (e.revise (t.node? file)).map fun node => t.set (changed file entry node) node := by
  apply applyGroup_of_place
  · exact readText_of_locate (locate_reading (by simp) h.writing)
  · exact fun hfile text => writeText_of_locate h.writing hfile text
  · exact fun _ => remove_eq_or h.removing h.entry_ne_nil h.entry_not_directory

/-- Edits that are carried out leave what they make of the file, and leave alone where paths to other places lead. -/
theorem exists_of_applyGroup {e : FileEdits} (h : t.Leads e.path file entry) {t' : FileTree}
    (happly : t.applyGroup e = .ok t') :
    ∃ node x, e.revise (t.node? file) = .ok node ∧ x = changed file entry node ∧ t' = t.set x node ∧
      (x = file ∨ x = entry) ∧ ∀ q file' entry', t.Leads q file' entry' → file ≠ file' →
        t'.Leads q file' entry' ∧ t'.node? file' = t.node? file' := by
  rw [h.applyGroup_eq] at happly
  cases hrevise : e.revise (t.node? file) with
  | error error =>
      rw [hrevise] at happly
      cases happly
  | ok node =>
      rw [hrevise] at happly
      cases happly
      have hx : changed file entry node = file ∨ changed file entry node = entry := by
        cases node with
        | none => exact .inr rfl
        | some node => exact .inl rfl
      exact ⟨node, _, rfl, rfl, rfl, hx, fun q file' entry' h' other => h.set h' other hx node⟩

end Leads

end FileTree

end ReqTrace
