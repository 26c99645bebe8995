/-
Module: ReqTrace.Proofs.Walk
Purpose: Walks through any tree, step by step and link by link: where they arrive, what they find there, and that
  a walk to read takes the same steps as the others.
Main exports: FileTree.IsOpen, FileTree.Advances, FileTree.advance_eq_ok_iff, FileTree.walk_cases, FileTree.Walks,
  FileTree.follow_eq_ok_iff, FileTree.locate_eq_ok_iff, FileTree.destination_eq_ok_iff, FileTree.node_of_walk,
  FileTree.NoLinks, FileTree.locate_reading
-/
import ReqTrace.Proofs.FileTree

namespace ReqTrace

namespace FileTree

variable {t : FileTree}

/-! ### Places for files -/

/-- A place where a regular file can be written: there is one, or nothing at all. -/
def IsOpen : Option Node → Prop
  | none => True
  | some (.file _) => True
  | some .directory => False
  | some (.link _) => False

theorem isOpen_iff {node : Option Node} :
    IsOpen node ↔ node ≠ some .directory ∧ ∀ target, node ≠ some (.link target) := by
  cases node with
  | none => simp [IsOpen]
  | some node => cases node <;> simp [IsOpen]

/-! ### Walks step by step -/

/-- No file is written under a last name with a slash behind it. -/
def MayEnd (purpose : Purpose) (slash : Bool) : Prop :=
  slash = true → purpose ≠ .writing

/-- What a walk can stop at under its last name. -/
def StopsAt (purpose : Purpose) (slash : Bool) : Option Node → Prop
  | none => MayEnd purpose slash
  | some .directory => False
  | some (.file _) => slash = false
  | some (.link _) => purpose = .removing ∧ slash = false

theorem StopsAt.isOpen {purpose : Purpose} {slash : Bool} {node : Option Node}
    (h : StopsAt purpose slash node) (follows : purpose ≠ .removing) : IsOpen node := by
  cases node with
  | none => trivial
  | some node =>
      cases node with
      | directory => exact h.elim
      | file content => trivial
      | link target => exact absurd h.1 follows

theorem StopsAt.of_isOpen {purpose : Purpose} {node : Option Node} (h : IsOpen node) :
    StopsAt purpose false node := by
  cases node with
  | none => exact fun hslash => Bool.noConfusion hslash
  | some node =>
      cases node with
      | directory => exact h.elim
      | file content => rfl
      | link target => exact h.elim

theorem StopsAt.slash_eq_false {purpose : Purpose} {slash : Bool} {node : Node}
    (h : StopsAt purpose slash (some node)) : slash = false := by
  cases node with
  | directory => exact h.elim
  | file content => exact h
  | link target => exact h.2

theorem StopsAt.slash_of_writing {slash : Bool} {node : Option Node} (h : StopsAt .writing slash node) :
    slash = false := by
  cases node with
  | none => exact eq_false_of_ne_true fun hslash => h hslash rfl
  | some node => exact h.slash_eq_false

/-- A walk up to the end or to the first link that is followed, one step after the other. -/
inductive Advances (t : FileTree) (purpose : Purpose) (slash : Bool) :
    Names → List PathComponent → Progress → Prop where
  | done (current : Names) : Advances t purpose slash current [] (.arrived current (some .directory))
  | root {current : Names} {left : List PathComponent} {progress : Progress}
      (rest : Advances t purpose slash [] left progress) :
      Advances t purpose slash current (.root :: left) progress
  | here {current : Names} {left : List PathComponent} {progress : Progress}
      (rest : Advances t purpose slash current left progress) :
      Advances t purpose slash current (.here :: left) progress
  | up {current : Names} {left : List PathComponent} {progress : Progress}
      (rest : Advances t purpose slash current.dropLast left progress) :
      Advances t purpose slash current (.up :: left) progress
  | enter {current : Names} {name : Text} {left : List PathComponent} {progress : Progress}
      (last : left = [] → MayEnd purpose slash) (short : Text.byteLength name ≤ maxNameLength)
      (node : t.node? (current ++ [name]) = some .directory)
      (rest : Advances t purpose slash (current ++ [name]) left progress) :
      Advances t purpose slash current (.name name :: left) progress
  | stop {current : Names} {name : Text} (short : Text.byteLength name ≤ maxNameLength)
      (stops : StopsAt purpose slash (t.node? (current ++ [name]))) :
      Advances t purpose slash current [.name name]
        (.arrived (current ++ [name]) (t.node? (current ++ [name])))
  | link {current : Names} {name : Text} {left : List PathComponent} {target : Path} (more : left ≠ [])
      (short : Text.byteLength name ≤ maxNameLength)
      (node : t.node? (current ++ [name]) = some (.link target)) :
      Advances t purpose slash current (.name name :: left) (.linked current (steps target ++ left) slash)
  | lastLink {current : Names} {name : Text} {target : Path} (last : MayEnd purpose slash)
      (short : Text.byteLength name ≤ maxNameLength)
      (node : t.node? (current ++ [name]) = some (.link target)) (follows : purpose ≠ .removing) :
      Advances t purpose slash current [.name name]
        (.linked current (steps target) (slash || meansDirectory target))

theorem advance_enter {purpose : Purpose} {slash : Bool} {current : Names} {name : Text}
    {left : List PathComponent} (last : left = [] → MayEnd purpose slash)
    (short : Text.byteLength name ≤ maxNameLength) (node : t.node? (current ++ [name]) = some .directory) :
    t.advance purpose slash current (.name name :: left) = t.advance purpose slash (current ++ [name]) left := by
  rw [advance, if_neg fun h => last h.1 h.2.1 h.2.2, if_neg (Nat.not_lt.mpr short), node]

theorem Advances.advance_eq {purpose : Purpose} {slash : Bool} {current : Names} {left : List PathComponent}
    {progress : Progress} (h : Advances t purpose slash current left progress) :
    t.advance purpose slash current left = .ok progress := by
  induction h with
  | done current => rfl
  | root _ ih => exact ih
  | here _ ih => exact ih
  | up _ ih => exact ih
  | enter last short node _ ih => rw [advance_enter last short node, ih]
  | @stop current name short stops =>
      rw [advance]
      cases hnode : t.node? (current ++ [name]) with
      | none =>
          rw [hnode] at stops
          rw [if_neg fun h => stops h.2.1 h.2.2, if_neg (Nat.not_lt.mpr short)]
          rfl
      | some node =>
          rw [hnode] at stops
          cases node with
          | directory => exact stops.elim
          | file content =>
              obtain rfl : slash = false := stops
              rw [if_neg (by simp), if_neg (Nat.not_lt.mpr short)]
              rfl
          | link target =>
              obtain ⟨rfl, rfl⟩ := stops
              rw [if_neg (by simp), if_neg (Nat.not_lt.mpr short)]
              rfl
  | link more short node =>
      rw [advance, if_neg fun h => more h.1, if_neg (Nat.not_lt.mpr short), node]
      exact if_pos more
  | lastLink last short node follows =>
      rw [advance, if_neg fun h => last h.2.1 h.2.2, if_neg (Nat.not_lt.mpr short), node]
      exact if_pos follows

/-- A name is looked up only if the walk may end with it, when it is the last one, and if it is not too long. -/
theorem mayEnd_and_short_of_advance {purpose : Purpose} {slash : Bool} {current : Names} {name : Text}
    {left : List PathComponent} {progress : Progress}
    (h : t.advance purpose slash current (.name name :: left) = .ok progress) :
    (left = [] → MayEnd purpose slash) ∧ Text.byteLength name ≤ maxNameLength := by
  rw [advance] at h
  split at h
  · cases h
  · rename_i hslash
    split at h
    · cases h
    · rename_i hlong
      exact ⟨fun hnil hs hwriting => hslash ⟨hnil, hs, hwriting⟩, Nat.not_lt.mp hlong⟩

/-- The step over a name, by what has this name. -/
theorem Advances.of_name {purpose : Purpose} {slash : Bool} {current : Names} {name : Text}
    {left : List PathComponent} {progress : Progress}
    (h : t.advance purpose slash current (.name name :: left) = .ok progress)
    (below : t.advance purpose slash (current ++ [name]) left = .ok progress →
      Advances t purpose slash (current ++ [name]) left progress) :
    Advances t purpose slash current (.name name :: left) progress := by
  obtain ⟨last, short⟩ := mayEnd_and_short_of_advance h
  rw [advance, if_neg fun h => last h.1 h.2.1 h.2.2, if_neg (Nat.not_lt.mpr short)] at h
  have hstop : left = [] → StopsAt purpose slash (t.node? (current ++ [name])) →
      Advances t purpose slash current (.name name :: left)
        (.arrived (current ++ [name]) (t.node? (current ++ [name]))) := by
    rintro rfl
    exact .stop short
  cases hnode : t.node? (current ++ [name]) with
  | none =>
      rw [hnode] at h hstop
      simp only at h
      split at h
      · rename_i hnil
        cases h
        exact hstop hnil (last hnil)
      · cases h
  | some node =>
      cases node with
      | directory =>
          rw [hnode] at h
          exact .enter last short hnode (below h)
      | file content =>
          rw [hnode] at h hstop
          simp only at h
          split at h
          · rename_i hfile
            cases h
            exact hstop hfile.1 (by simpa [StopsAt] using hfile.2)
          · cases h
      | link target =>
          rw [hnode] at h hstop
          simp only at h
          split at h
          · rename_i hmore
            cases h
            exact .link hmore short hnode
          · rename_i hnil
            obtain rfl := not_not.mp hnil
            split at h
            · rename_i hfollows
              cases h
              exact .lastLink (last rfl) short hnode hfollows
            · rename_i hremoving
              split at h
              · cases h
              · rename_i hs
                cases h
                exact hstop rfl ⟨not_not.mp hremoving, eq_false_of_ne_true hs⟩

theorem advances_of_advance {purpose : Purpose} {slash : Bool} {current : Names} {left : List PathComponent}
    {progress : Progress} (h : t.advance purpose slash current left = .ok progress) :
    Advances t purpose slash current left progress := by
  induction left generalizing current with
  | nil =>
      cases h
      exact .done current
  | cons step left ih =>
      cases step with
      | root => exact .root (ih h)
      | here => exact .here (ih h)
      | up => exact .up (ih h)
      | name name => exact .of_name h ih

/-- What a walk comes to, step by step. -/
theorem advance_eq_ok_iff {purpose : Purpose} {slash : Bool} {current : Names} {left : List PathComponent}
    {progress : Progress} :
    t.advance purpose slash current left = .ok progress ↔ Advances t purpose slash current left progress :=
  ⟨advances_of_advance, Advances.advance_eq⟩

/-! ### Walks link by link -/

theorem walk_arrived {purpose : Purpose} {slash : Bool} {current names : Names} {left : List PathComponent}
    {node : Option Node} (h : t.advance purpose slash current left = .ok (.arrived names node)) (links : Nat) :
    t.walk purpose links slash current left = .ok (names, node) := by
  rw [walk]
  exact bind_eq_ok_iff.mpr ⟨_, h, rfl⟩

theorem walk_linked {purpose : Purpose} {slash slash' : Bool} {current current' : Names}
    {left left' : List PathComponent} (h : t.advance purpose slash current left = .ok (.linked current' left' slash'))
    (links : Nat) : t.walk purpose (links + 1) slash current left = t.walk purpose links slash' current' left' := by
  rw [walk, h]
  rfl

/-- A walk arrives, or it goes on from a link with one link less to follow. -/
theorem walk_cases {purpose : Purpose} {links : Nat} {slash : Bool} {current : Names}
    {left : List PathComponent} {found : Names × Option Node}
    (h : t.walk purpose links slash current left = .ok found) :
    t.advance purpose slash current left = .ok (.arrived found.1 found.2) ∨
      ∃ links' current' left' slash', links = links' + 1 ∧
        t.advance purpose slash current left = .ok (.linked current' left' slash') ∧
        t.walk purpose links' slash' current' left' = .ok found := by
  rw [walk] at h
  obtain ⟨progress, hadvance, hrest⟩ := bind_eq_ok_iff.mp h
  cases progress with
  | arrived names node =>
      cases hrest
      exact .inl hadvance
  | linked current' left' slash' =>
      cases links with
      | zero => cases hrest
      | succ links => exact .inr ⟨links, current', left', slash', rfl, hadvance, hrest⟩

/-- A walk that arrives: it arrives without following a link, or it goes on from a link with one link less to
    follow, and arrives. -/
inductive Walks (t : FileTree) (purpose : Purpose) (found : Names × Option Node) :
    Nat → Bool → Names → List PathComponent → Prop where
  | arrived {links : Nat} {slash : Bool} {current : Names} {left : List PathComponent}
      (advances : t.advance purpose slash current left = .ok (.arrived found.1 found.2)) :
      Walks t purpose found links slash current left
  | linked {links : Nat} {slash slash' : Bool} {current current' : Names} {left left' : List PathComponent}
      (advances : t.advance purpose slash current left = .ok (.linked current' left' slash'))
      (rest : Walks t purpose found links slash' current' left') :
      Walks t purpose found (links + 1) slash current left

theorem Walks.walk_eq {purpose : Purpose} {links : Nat} {slash : Bool} {current : Names}
    {left : List PathComponent} {found : Names × Option Node} (h : Walks t purpose found links slash current left) :
    t.walk purpose links slash current left = .ok found := by
  induction h with
  | arrived advances => exact walk_arrived advances _
  | linked advances _ ih => rw [walk_linked advances, ih]

theorem walks_of_walk {purpose : Purpose} {links : Nat} {slash : Bool} {current : Names}
    {left : List PathComponent} {found : Names × Option Node}
    (h : t.walk purpose links slash current left = .ok found) : Walks t purpose found links slash current left := by
  induction links generalizing slash current left with
  | zero =>
      rcases walk_cases h with hadvance | ⟨_, _, _, _, hlinks, -, -⟩
      · exact .arrived hadvance
      · cases hlinks
  | succ links ih =>
      rcases walk_cases h with hadvance | ⟨_, _, _, _, hlinks, hadvance, hrest⟩
      · exact .arrived hadvance
      · obtain rfl := Nat.succ.inj hlinks
        exact .linked hadvance (ih hrest)

/-- Where a path leads is the result of a walk. -/
theorem follow_eq_ok_iff {purpose : Purpose} {p : Path} {found : Names × Option Node} :
    t.follow purpose p = .ok found ↔ '\x00' ∉ p.text ∧ p.text ≠ [] ∧
      t.walk purpose maxLinks (meansDirectory p) t.workingDirectory (steps p) = .ok found := by
  unfold follow
  by_cases hzero : '\x00' ∈ p.text
  · simp [hzero]
  · by_cases hempty : p.text = []
    · simp [hempty]
    · simp [hzero, hempty]

theorem locate_eq_ok_iff {purpose : Purpose} {p : Path} {found : Names × Option Node} :
    t.locate purpose p = .ok found ↔
      '\x00' ∉ p.text ∧ Text.byteLength p.text ≤ maxPathLength ∧ p.text ≠ [] ∧
        t.walk purpose maxLinks (meansDirectory p) t.workingDirectory (steps p) = .ok found := by
  unfold locate
  split
  · rename_i hlong
    exact iff_of_false (fun h => nomatch h) fun h => Nat.not_lt.mpr h.2.1 hlong.2
  · rename_i hfits
    rw [follow_eq_ok_iff]
    refine and_congr_right fun hzero => (and_iff_right ?_).symm
    exact Nat.not_lt.mp fun hlong => hfits ⟨hzero, hlong⟩

/-- A path that can be opened leads where its walk leads, or fails as its walk does. -/
theorem locate_eq_walk (t : FileTree) (purpose : Purpose) {p : Path} (noZero : '\x00' ∉ p.text)
    (short : Text.byteLength p.text ≤ maxPathLength) (nonempty : p.text ≠ []) :
    t.locate purpose p = t.walk purpose maxLinks (meansDirectory p) t.workingDirectory (steps p) := by
  rw [locate, if_neg fun h => Nat.not_lt.mpr short h.2, follow, if_neg noZero, if_neg nonempty]

/-- The destination of a path is where it leads, if something is there. -/
theorem destination_eq_ok_iff {p : Path} {names : Names} :
    t.destination p = .ok names ↔ ∃ node, t.follow .reading p = .ok (names, some node) := by
  constructor
  · intro h
    obtain ⟨⟨names', node⟩, hfollow, hrest⟩ := bind_eq_ok_iff.mp h
    cases node with
    | none => cases hrest
    | some node =>
        cases hrest
        exact ⟨node, hfollow⟩
  · rintro ⟨node, hfollow⟩
    exact bind_eq_ok_iff.mpr ⟨_, hfollow, rfl⟩

/-! ### What is found at the end -/

/-- A walk that gets to no directory gets to what is there, which is no link unless it is to be removed. -/
theorem node_of_advance {purpose : Purpose} {slash : Bool} {current names : Names}
    {left : List PathComponent} {node : Option Node}
    (h : t.advance purpose slash current left = .ok (.arrived names node)) (file : node ≠ some .directory) :
    names ≠ [] ∧ node = t.node? names ∧ (purpose ≠ .removing → IsOpen node) := by
  replace h := advances_of_advance h
  generalize hprogress : Progress.arrived names node = progress at h
  induction h with
  | done current =>
      cases hprogress
      exact absurd rfl file
  | root _ ih => exact ih hprogress
  | here _ ih => exact ih hprogress
  | up _ ih => exact ih hprogress
  | enter _ _ _ _ ih => exact ih hprogress
  | stop short stops =>
      cases hprogress
      exact ⟨by simp, rfl, stops.isOpen⟩
  | link more short node => cases hprogress
  | lastLink last short node follows => cases hprogress

theorem node_of_walk {purpose : Purpose} {links : Nat} {slash : Bool} {current names : Names}
    {left : List PathComponent} {node : Option Node}
    (h : t.walk purpose links slash current left = .ok (names, node)) (file : node ≠ some .directory) :
    names ≠ [] ∧ node = t.node? names ∧ (purpose ≠ .removing → IsOpen node) := by
  replace h := walks_of_walk h
  induction h with
  | arrived advances => exact node_of_advance advances file
  | linked _ _ ih => exact ih

/-! ### Walks to read -/

/-- Nothing in the tree is a link. -/
def NoLinks (t : FileTree) : Prop :=
  ∀ names target, t.node? names ≠ some (.link target)

theorem noLinks_iff :
    t.NoLinks ↔ ∀ entry ∈ t.nodes.toList, ∀ target, t.node? entry.1 ≠ some (.link target) := by
  constructor
  · intro h entry _
    exact h entry.1
  · intro h names target hnode
    by_cases hne : names = []
    · subst hne
      cases hnode
    · have hentry : t.nodes.get? names = some (.link target) := by
        rwa [node?, if_neg hne] at hnode
      exact h _ (Table.mem_toList_iff.mpr hentry) target hnode

instance : Decidable t.NoLinks :=
  decidable_of_iff _ noLinks_iff.symm

/-- A walk to read takes the steps of a walk to write, and those of a walk to remove if there are no links. -/
theorem advance_reading {purpose : Purpose} (noLinks : purpose = .removing → t.NoLinks) {slash : Bool}
    {current : Names} {left : List PathComponent} {progress : Progress}
    (h : t.advance purpose slash current left = .ok progress) :
    t.advance .reading slash current left = .ok progress := by
  have hend : MayEnd .reading slash := by simp [MayEnd]
  replace h := advances_of_advance h
  rw [advance_eq_ok_iff]
  induction h with
  | done current => exact .done current
  | root _ ih => exact .root ih
  | here _ ih => exact .here ih
  | up _ ih => exact .up ih
  | enter last short node _ ih => exact .enter (fun _ => hend) short node ih
  | @stop current name short stops =>
      refine .stop short ?_
      cases hnode : t.node? (current ++ [name]) with
      | none => exact hend
      | some node =>
          rw [hnode] at stops
          cases node with
          | directory => exact stops
          | file content => exact stops
          | link target => exact absurd hnode (noLinks stops.1 _ target)
  | link more short node => exact .link more short node
  | lastLink last short node follows => exact .lastLink hend short node (by simp)

theorem walk_reading {purpose : Purpose} (noLinks : purpose = .removing → t.NoLinks) {links : Nat}
    {slash : Bool} {current : Names} {left : List PathComponent} {found : Names × Option Node}
    (h : t.walk purpose links slash current left = .ok found) :
    t.walk .reading links slash current left = .ok found := by
  replace h := walks_of_walk h
  induction h with
  | arrived advances => exact walk_arrived (advance_reading noLinks advances) _
  | linked advances _ ih => rw [walk_linked (advance_reading noLinks advances), ih]

theorem locate_reading {purpose : Purpose} (noLinks : purpose = .removing → t.NoLinks) {p : Path}
    {found : Names × Option Node} (h : t.locate purpose p = .ok found) :
    t.locate .reading p = .ok found := by
  obtain ⟨hzero, hlength, hempty, hwalk⟩ := locate_eq_ok_iff.mp h
  exact locate_eq_ok_iff.mpr ⟨hzero, hlength, hempty, walk_reading noLinks hwalk⟩

end FileTree

end ReqTrace
