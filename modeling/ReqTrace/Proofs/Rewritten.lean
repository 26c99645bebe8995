/-
Module: ReqTrace.Proofs.Rewritten
Purpose: Trees that differ in regular files only. The same directories are found in both, by the same paths.
Main exports: FileTree.Rewritten, FileTree.Rewritten.destination, FileTree.Rewritten.directoriesBelow,
  FileTree.Rewritten.ofRoots
-/
import ReqTrace.Proofs.Scan
import ReqTrace.Proofs.Walk

namespace ReqTrace

namespace FileTree

/-- A tree in which some regular files of another one are rewritten, added or removed. -/
structure Rewritten (t t' : FileTree) : Prop where
  workingDirectory : t'.workingDirectory = t.workingDirectory
  nodes : ∀ names, t'.node? names = t.node? names ∨ IsOpen (t.node? names) ∧ IsOpen (t'.node? names)

namespace Rewritten

variable {t t' : FileTree}

theorem symm (h : Rewritten t t') : Rewritten t' t :=
  ⟨h.workingDirectory.symm, fun names => (h.nodes names).imp Eq.symm And.symm⟩

theorem directory_iff (h : Rewritten t t') (names : Names) :
    t'.node? names = some .directory ↔ t.node? names = some .directory := by
  rcases h.nodes names with hsame | ⟨hopen, hopen'⟩
  · rw [hsame]
  · exact ⟨fun heq => absurd heq (isOpen_iff.mp hopen').1, fun heq => absurd heq (isOpen_iff.mp hopen).1⟩

theorem link (h : Rewritten t t') {names : Names} {target : Path} (hlink : t.node? names = some (.link target)) :
    t'.node? names = some (.link target) := by
  rcases h.nodes names with hsame | ⟨hopen, -⟩
  · rw [hsame, hlink]
  · exact absurd hlink ((isOpen_iff.mp hopen).2 target)

/-! ### Paths -/

/-- What a walk comes to in one tree agrees with how far another one leads: to the same link, or to the same
    place if something is there. -/
def LeadsTo (t' : FileTree) (progress : Progress) (result : Except FileError Progress) : Prop :=
  match progress with
  | .linked _ _ _ => result = .ok progress
  | .arrived _ none => True
  | .arrived names (some _) => t'.node? names ≠ none → ∃ node, result = .ok (.arrived names (some node))

theorem advance (h : Rewritten t t') {slash : Bool} {current : Names} {left : List PathComponent}
    {progress : Progress} (hadvance : t.advance .reading slash current left = .ok progress) :
    LeadsTo t' progress (t'.advance .reading slash current left) := by
  replace hadvance := advances_of_advance hadvance
  induction hadvance with
  | done current => exact fun _ => ⟨_, rfl⟩
  | root _ ih => exact ih
  | here _ ih => exact ih
  | up _ ih => exact ih
  | enter last short node _ ih =>
      rw [advance_enter last short ((h.directory_iff _).mpr node)]
      exact ih
  | @stop current name short stops =>
      cases hnode : t.node? (current ++ [name]) with
      | none => trivial
      | some node =>
          intro hthere
          obtain ⟨node', hnode'⟩ := Option.ne_none_iff_exists'.mp hthere
          -- Behind a slash a walk to read stops only where nothing is.
          have hstops : StopsAt .reading slash (t'.node? (current ++ [name])) := by
            rcases h.nodes (current ++ [name]) with hsame | ⟨-, hopen'⟩
            · rw [hsame]
              exact stops
            · rw [hnode] at stops
              obtain rfl := stops.slash_eq_false
              exact .of_isOpen hopen'
          exact ⟨node', hnode' ▸ (Advances.stop short hstops).advance_eq⟩
  | link more short node => exact (Advances.link more short (h.link node)).advance_eq
  | lastLink last short node follows => exact (Advances.lastLink last short (h.link node) follows).advance_eq

/-- A path leads to the same names if something is there still. -/
theorem walk (h : Rewritten t t') {links : Nat} {slash : Bool} {current : Names}
    {left : List PathComponent} {names : Names} {node : Node}
    (hwalk : t.walk .reading links slash current left = .ok (names, some node))
    (there : t'.node? names ≠ none) :
    ∃ node', t'.walk .reading links slash current left = .ok (names, some node') := by
  replace hwalk := walks_of_walk hwalk
  induction hwalk with
  | arrived advances =>
      obtain ⟨node', hadvance⟩ := h.advance advances there
      exact ⟨node', walk_arrived hadvance _⟩
  | linked advances _ ih =>
      rw [walk_linked (h.advance advances)]
      exact ih

theorem destination (h : Rewritten t t') {p : Path} {names : Names} (hold : t.destination p = .ok names)
    (there : t'.node? names ≠ none) : t'.destination p = .ok names := by
  obtain ⟨node, hfollow⟩ := destination_eq_ok_iff.mp hold
  obtain ⟨hzero, hempty, hwalk⟩ := follow_eq_ok_iff.mp hfollow
  obtain ⟨node', hwalk'⟩ := h.walk hwalk there
  refine destination_eq_ok_iff.mpr ⟨node', follow_eq_ok_iff.mpr ⟨hzero, hempty, ?_⟩⟩
  rw [h.workingDirectory]
  exact hwalk'

/-! ### Directories -/

/-- The directory that an entry of a tree is, if it is one below another directory and not hidden. -/
def below? (top : Names) (entry : Names × Node) : Option Names :=
  match entry.2, top.isPrefixOf? entry.1 with
  | .directory, some rest => if rest ≠ [] ∧ rest.all (·.head? ≠ some '.') then some entry.1 else none
  | _, _ => none

theorem below?_eq_some {top names : Names} {entry : Names × Node} (h : below? top entry = some names) :
    entry = (names, .directory) ∧ names ≠ [] := by
  obtain ⟨names', node⟩ := entry
  unfold below? at h
  split at h
  · rename_i rest hnode hrest
    split at h
    · rename_i hbelow
      cases h
      refine ⟨Prod.ext rfl hnode, ?_⟩
      rintro rfl
      have happend := List.isPrefixOf?_eq_some_iff_append_eq.mp hrest
      exact hbelow.1 (List.append_eq_nil_iff.mp happend).2
    · cases h
  · cases h

theorem directoriesBelow (h : Rewritten t t') (top : Names) :
    t'.directoriesBelow top = t.directoriesBelow top := by
  have hisDirectory : t'.isDirectory top = t.isDirectory top := by
    rw [isDirectory, isDirectory, Bool.eq_iff_iff, beq_iff_eq, beq_iff_eq]
    exact h.directory_iff top
  have hascending : ∀ t : FileTree, (t.nodes.toList.filterMap (below? top)).Pairwise
      fun a b => compare a b = .lt := by
    intro t
    refine List.pairwise_filterMap.mpr (t.nodes.ascending.imp fun {a b} hlt x hx y hy => ?_)
    rw [(below?_eq_some hx).1, (below?_eq_some hy).1] at hlt
    exact hlt
  have hmem : ∀ names, names ∈ t'.nodes.toList.filterMap (below? top) ↔
      names ∈ t.nodes.toList.filterMap (below? top) := by
    intro names
    simp only [List.mem_filterMap]
    refine exists_congr ?_
    rintro ⟨names', node⟩
    refine and_congr_left fun hsome => ?_
    obtain ⟨heq, hne⟩ := below?_eq_some hsome
    cases heq
    have hdirectory := h.directory_iff names
    rw [node?, node?, if_neg hne, if_neg hne] at hdirectory
    rw [Table.mem_toList_iff, Table.mem_toList_iff]
    exact hdirectory
  have hbelow := eq_of_ascending compare (hascending t') (hascending t) hmem
  unfold FileTree.directoriesBelow
  rw [hisDirectory]
  exact congrArg (fun below => if t.isDirectory top = true then top :: below else []) hbelow

/-- The same directories are scanned if something is still there wherever the roots lead. -/
theorem ofRoots (h : Rewritten t t') {roots : List ScanRoot} {units : Units}
    (hunits : Units.ofRoots t roots = .ok units)
    (there : ∀ root ∈ roots, ∀ names, t.destination root.path = .ok names → t'.node? names ≠ none) :
    Units.ofRoots t' roots = .ok units := by
  have hrun : ∀ (roots : List ScanRoot) (start : Units),
      (∀ root ∈ roots, ∀ names, t.destination root.path = .ok names → t'.node? names ≠ none) →
      roots.foldlM (Units.addRoot t) start = .ok units → roots.foldlM (Units.addRoot t') start = .ok units := by
    intro roots
    induction roots with
    | nil => exact fun _ _ hfold => hfold
    | cons root roots ih =>
        intro start there hfold
        rw [List.foldlM_cons] at hfold ⊢
        obtain ⟨next, hroot, hrest⟩ := bind_eq_ok_iff.mp hfold
        obtain ⟨top, htop, hnext⟩ := bind_eq_ok_iff.mp hroot
        have hdestination := h.destination (mapError_eq_ok_iff.mp htop)
          (there root List.mem_cons_self top (mapError_eq_ok_iff.mp htop))
        refine bind_eq_ok_iff.mpr ⟨next, bind_eq_ok_iff.mpr ⟨top, mapError_eq_ok_iff.mpr hdestination, ?_⟩, ?_⟩
        · rw [h.directoriesBelow]
          exact hnext
        · exact ih next (fun root hroot => there root (List.mem_cons_of_mem _ hroot)) hrest
  exact hrun roots Table.empty there hunits

end Rewritten

end FileTree

end ReqTrace
