/-
Module: ReqTrace.Proofs.SameBut
Purpose: Walks in trees that differ in one place. A walk takes the same steps in both of them until it comes to look
  there, and what it does then depends on what is there.
Main exports: FileTree.walk_unique, FileTree.walk_append_ne, FileTree.walk_goingOn, FileTree.SameBut,
  FileTree.SameBut.walk_cases, FileTree.SameBut.walk_eq
-/
import ReqTrace.Proofs.Walk

namespace ReqTrace

namespace FileTree

variable {t t' : FileTree}

/-! ### Walks that end at a file -/

/-- Where the same steps are taken first, walks are the same. -/
theorem walk_congr {purpose : Purpose} {slash : Bool} {current current' : Names} {left left' : List PathComponent}
    (h : t.advance purpose slash current left = t.advance purpose slash current' left') (links : Nat) :
    t.walk purpose links slash current left = t.walk purpose links slash current' left' := by
  rw [walk, walk, h]

/-- With other links to follow a walk gets to the same place, or there are too few of them. -/
theorem walk_links {purpose : Purpose} {links : Nat} {slash : Bool} {current : Names} {left : List PathComponent}
    {found : Names × Option Node} (h : t.walk purpose links slash current left = .ok found) (links' : Nat) :
    t.walk purpose links' slash current left = .ok found ∨
      t.walk purpose links' slash current left = .error .tooManyLinks := by
  replace h := walks_of_walk h
  induction h generalizing links' with
  | arrived advances => exact .inl (walk_arrived advances links')
  | linked advances _ ih =>
      cases links' with
      | zero =>
          rw [walk, advances]
          exact .inr rfl
      | succ links' =>
          rw [walk_linked advances]
          exact ih links'

/-- A walk gets to one place, however many links it may follow. -/
theorem walk_unique {purpose : Purpose} {links links' : Nat} {slash : Bool} {current : Names}
    {left : List PathComponent} {found found' : Names × Option Node}
    (h : t.walk purpose links slash current left = .ok found)
    (h' : t.walk purpose links' slash current left = .ok found') : found = found' := by
  rcases walk_links h links' with hfound | hfew
  · exact Except.ok.inj (hfound.symm.trans h')
  · cases hfew.symm.trans h'

/-- What a walk comes to that does not end in a directory. -/
def Progress.MayBeFile (progress : Progress) : Prop :=
  ∀ names, progress ≠ .arrived names (some .directory)

theorem mayBeFile_arrived {names : Names} {node : Option Node} (file : node ≠ some .directory) :
    (Progress.arrived names node).MayBeFile := by
  rintro names' ⟨⟩
  exact file rfl

theorem mayBeFile_linked {current : Names} {left : List PathComponent} {slash : Bool} :
    (Progress.linked current left slash).MayBeFile := by
  rintro names' ⟨⟩

theorem advance_writing_slash {slash : Bool} {current : Names} {left : List PathComponent} {progress : Progress}
    (h : t.advance .writing slash current left = .ok progress) (file : progress.MayBeFile) :
    slash = false ∨ ∃ current' left', progress = .linked current' left' slash := by
  replace h := advances_of_advance h
  induction h with
  | done current => exact absurd rfl (file current)
  | root _ ih => exact ih file
  | here _ ih => exact ih file
  | up _ ih => exact ih file
  | enter _ _ _ _ ih => exact ih file
  | stop _ stops => exact .inl stops.slash_of_writing
  | link _ _ _ => exact .inr ⟨_, _, rfl⟩
  | lastLink last _ _ _ => exact .inl (eq_false_of_ne_true fun hslash => last hslash rfl)

/-- No file is written under a path that ends with a slash. -/
theorem walk_writing_slash {links : Nat} {slash : Bool} {current names : Names} {left : List PathComponent}
    {node : Option Node} (h : t.walk .writing links slash current left = .ok (names, node))
    (file : node ≠ some .directory) : slash = false := by
  replace h := walks_of_walk h
  induction h with
  | arrived advances =>
      rcases advance_writing_slash advances (mayBeFile_arrived file) with hslash | ⟨_, _, hlinked⟩
      · exact hslash
      · cases hlinked
  | linked advances _ ih =>
      rcases advance_writing_slash advances mayBeFile_linked with hslash | ⟨_, _, hlinked⟩
      · exact hslash
      · cases hlinked
        exact ih

/-! ### Walks that lead on -/

/-- A name that is not the last step. -/
theorem advance_name (purpose : Purpose) (slash : Bool) (current : Names) (name : Text) {left : List PathComponent}
    (more : left ≠ []) : t.advance purpose slash current (.name name :: left) =
      if maxNameLength < Text.byteLength name then .error .nameTooLong
      else match t.node? (current ++ [name]) with
        | none => .error .notFound
        | some .directory => t.advance purpose slash (current ++ [name]) left
        | some (.file _) => .error .notDirectory
        | some (.link target) => .ok (.linked current (steps target ++ left) slash) := by
  rw [advance, if_neg fun h => more h.1]
  split
  · rfl
  · cases t.node? (current ++ [name]) with
    | none => rfl
    | some node =>
        cases node with
        | directory => rfl
        | file content => exact if_neg fun h => more h.1
        | link target => rfl

/-- Steps that others follow lead to a directory, or to the link that is followed with the others left. -/
theorem advance_prefix {purpose : Purpose} {slash : Bool} {current : Names} {left more : List PathComponent}
    {progress : Progress} (h : t.advance purpose slash current (left ++ more) = .ok progress) (further : more ≠ [])
    (slash' : Bool) :
    (∃ names, t.advance .reading slash' current left = .ok (.arrived names (some .directory))) ∨
      ∃ current' left' slash'', progress = .linked current' (left' ++ more) slash ∧
        t.advance .reading slash' current left = .ok (.linked current' left' slash'') := by
  induction left generalizing current with
  | nil => exact .inl ⟨current, rfl⟩
  | cons step left ih =>
      cases step with
      | root => exact ih h
      | here => exact ih h
      | up => exact ih h
      | name name =>
          rw [List.cons_append, advance_name purpose slash current name (by simp [further])] at h
          split at h
          · cases h
          · rename_i hshort
            replace hshort := Nat.not_lt.mp hshort
            have hend : MayEnd .reading slash' := by simp [MayEnd]
            cases hnode : t.node? (current ++ [name]) with
            | none =>
                rw [hnode] at h
                cases h
            | some node =>
                rw [hnode] at h
                cases node with
                | directory =>
                    rw [advance_enter (fun _ => hend) hshort hnode]
                    exact ih h
                | file content => cases h
                | link target =>
                    cases h
                    refine .inr ⟨current, steps target ++ left, ?_⟩
                    by_cases hleft : left = []
                    · subst hleft
                      exact ⟨_, by rw [List.append_nil]; rfl,
                        by rw [List.append_nil]; exact (Advances.lastLink hend hshort hnode (by simp)).advance_eq⟩
                    · exact ⟨_, by rw [List.append_assoc], (Advances.link hleft hshort hnode).advance_eq⟩

/-- Steps that others follow lead to a directory. -/
theorem walk_prefix {purpose : Purpose} {links : Nat} {slash : Bool} {current : Names}
    {left more : List PathComponent} {found : Names × Option Node}
    (h : t.walk purpose links slash current (left ++ more) = .ok found) (further : more ≠ []) (slash' : Bool) :
    ∃ names, t.walk .reading links slash' current left = .ok (names, some .directory) := by
  replace h := walks_of_walk h
  generalize hall : left ++ more = all at h
  induction h generalizing left slash' with
  | arrived advances =>
      subst hall
      rcases advance_prefix advances further slash' with ⟨names, hdirectory⟩ | ⟨_, _, _, hlinked, -⟩
      · exact ⟨names, walk_arrived hdirectory _⟩
      · cases hlinked
  | linked advances _ ih =>
      subst hall
      rcases advance_prefix advances further slash' with ⟨names, hdirectory⟩ | ⟨_, left', slash'', hlinked, hlink⟩
      · exact ⟨names, walk_arrived hdirectory _⟩
      · cases hlinked
        rw [walk_linked hlink]
        exact ih slash'' rfl

/-- No path leads on through a place for a file. -/
theorem walk_append_ne {links links' : Nat} {slash slash' : Bool} {purpose : Purpose} {current names : Names}
    {left more : List PathComponent} {node : Option Node}
    (h : t.walk .writing links slash current left = .ok (names, node)) (file : node ≠ some .directory)
    (further : more ≠ []) (found : Names × Option Node) :
    t.walk purpose links' slash' current (left ++ more) ≠ .ok found := by
  intro h'
  obtain ⟨names', hdirectory⟩ := walk_prefix h' further slash
  exact file (congrArg Prod.snd (walk_unique (walk_reading (by simp) h) hdirectory))

/-! ### Walks to remove -/

/-- How a walk goes on that does not end at the link that it has come to. -/
def Progress.goingOn : Progress → Progress
  | .arrived names (some (.link target)) => .linked names.dropLast (steps target) (meansDirectory target)
  | progress => progress

/-- Where something is to remove, a walk to remove takes the steps of other walks, but it ends at a link under the last
    name. -/
theorem advance_goingOn {slash : Bool} {current : Names} {left : List PathComponent} {progress : Progress}
    (h : t.advance .removing slash current left = .ok progress) (file : progress.MayBeFile)
    (there : ∀ names, progress ≠ .arrived names none) {purpose : Purpose} (follows : purpose ≠ .removing) :
    t.advance purpose slash current left = .ok progress.goingOn := by
  replace h := advances_of_advance h
  induction h with
  | done current => exact absurd rfl (file current)
  | root _ ih => exact ih file there
  | here _ ih => exact ih file there
  | up _ ih => exact ih file there
  | @enter current name left progress last short node rest ih =>
      have hmore : left ≠ [] := by
        rintro rfl
        cases rest
        exact absurd rfl (file _)
      rw [advance_enter (fun hnil => absurd hnil hmore) short node]
      exact ih file there
  | @stop current name short stops =>
      cases hnode : t.node? (current ++ [name]) with
      | none =>
          rw [hnode] at there
          exact absurd rfl (there _)
      | some node =>
          rw [hnode] at stops
          obtain rfl := stops.slash_eq_false
          cases node with
          | directory => exact stops.elim
          | file content =>
              have hstops : StopsAt purpose false (t.node? (current ++ [name])) := hnode ▸ .of_isOpen trivial
              rw [(Advances.stop short hstops).advance_eq, hnode, Progress.goingOn]
              simp
          | link target =>
              rw [(Advances.lastLink (by simp [MayEnd]) short hnode follows).advance_eq, Progress.goingOn,
                List.dropLast_concat, Bool.false_or]
  | link more short node => exact (Advances.link more short node).advance_eq
  | lastLink _ _ _ follows' => exact absurd rfl follows'

/-- A walk to remove gets to a file where other walks get to it, and to a link that other walks go on from. -/
theorem walk_goingOn {links : Nat} {slash : Bool} {current names : Names} {left : List PathComponent} {node : Node}
    (h : t.walk .removing links slash current left = .ok (names, some node)) (file : node ≠ .directory)
    {purpose : Purpose} (follows : purpose ≠ .removing) :
    IsOpen (some node) ∧ t.walk purpose links slash current left = .ok (names, some node) ∨
      ∃ target k, node = .link target ∧ ∀ l, t.walk purpose (l + k) slash current left =
        t.walk purpose l (meansDirectory target) names.dropLast (steps target) := by
  replace h := walks_of_walk h
  induction h with
  | arrived advances =>
      have hgoes := advance_goingOn advances (by rintro _ ⟨⟩; exact file rfl) (by rintro _ ⟨⟩) follows
      cases node with
      | directory => exact absurd rfl file
      | file content => exact .inl ⟨trivial, walk_arrived hgoes _⟩
      | link target => exact .inr ⟨target, 1, rfl, fun l => walk_linked hgoes l⟩
  | linked advances _ ih =>
      have hgoes := advance_goingOn advances mayBeFile_linked (by rintro _ ⟨⟩) follows
      rcases ih with ⟨hopen, hwalk⟩ | ⟨target, k, hlink, hrest⟩
      · exact .inl ⟨hopen, (walk_linked hgoes _).trans hwalk⟩
      · exact .inr ⟨target, k + 1, hlink, fun l => (walk_linked hgoes _).trans (hrest l)⟩

/-- Walks for other purposes go on from the link that a walk to remove gets to. -/
theorem walk_goingOn_link {links : Nat} {slash : Bool} {current names : Names} {left : List PathComponent}
    {target : Path} (h : t.walk .removing links slash current left = .ok (names, some (.link target)))
    {purpose : Purpose} (follows : purpose ≠ .removing) :
    ∃ k, ∀ l, t.walk purpose (l + k) slash current left =
      t.walk purpose l (meansDirectory target) names.dropLast (steps target) := by
  rcases walk_goingOn h (by simp) follows with ⟨hopen, -⟩ | ⟨_, k, ⟨⟩, hgoes⟩
  · exact hopen.elim
  · exact ⟨k, hgoes⟩

/-! ### Walks that come to a last name -/

section Looks

variable {purpose : Purpose} {links : Nat} {slash : Bool} {dir : Names} {name : Text} {more : List PathComponent}
  {found : Names × Option Node} {target : Path}

theorem short_of_walk (h : t.walk purpose links slash dir (.name name :: more) = .ok found) :
    Text.byteLength name ≤ maxNameLength := by
  rcases walk_cases h with hadvance | ⟨_, _, _, _, -, hadvance, -⟩
  · exact (mayEnd_and_short_of_advance hadvance).2
  · exact (mayEnd_and_short_of_advance hadvance).2

/-- A walk that comes to a link under its last name goes on from it. -/
theorem walk_lastLink (short : Text.byteLength name ≤ maxNameLength)
    (link : t.node? (dir ++ [name]) = some (.link target)) (follows : purpose ≠ .removing) (links : Nat) :
    t.walk purpose (links + 1) false dir [.name name] =
      t.walk purpose links (meansDirectory target) dir (steps target) := by
  rw [walk_linked (Advances.lastLink (by simp [MayEnd]) short link follows).advance_eq, Bool.false_or]

theorem Advances.arrived_of_open {progress : Progress}
    (h : Advances t purpose slash dir (.name name :: more) progress) (isOpen : IsOpen (t.node? (dir ++ [name]))) :
    more = [] ∧ progress = .arrived (dir ++ [name]) (t.node? (dir ++ [name])) := by
  cases h with
  | enter _ _ node _ => exact absurd node (isOpen_iff.mp isOpen).1
  | stop _ _ => exact ⟨rfl, rfl⟩
  | link _ _ node => exact absurd node ((isOpen_iff.mp isOpen).2 _)
  | lastLink _ _ node _ => exact absurd node ((isOpen_iff.mp isOpen).2 _)

/-- A walk that comes to look where a file can be written ends there. -/
theorem walk_arrived_of_open (h : t.walk purpose links slash dir (.name name :: more) = .ok found)
    (isOpen : IsOpen (t.node? (dir ++ [name]))) :
    more = [] ∧ found = (dir ++ [name], t.node? (dir ++ [name])) := by
  rcases walk_cases h with hadvance | ⟨_, _, _, _, -, hadvance, -⟩
  · obtain ⟨hmore, hprogress⟩ := (advances_of_advance hadvance).arrived_of_open isOpen
    injection hprogress with hnames hnode
    exact ⟨hmore, Prod.ext hnames hnode⟩
  · cases ((advances_of_advance hadvance).arrived_of_open isOpen).2

theorem Advances.cases_of_link {progress : Progress}
    (h : Advances t purpose slash dir (.name name :: more) progress)
    (link : t.node? (dir ++ [name]) = some (.link target)) :
    purpose = .removing ∧ more = [] ∧ slash = false ∧ progress = .arrived (dir ++ [name]) (some (.link target)) ∨
      ∃ slash', progress = .linked dir (steps target ++ more) slash' ∧
        (more = [] → purpose ≠ .removing ∧ slash' = (slash || meansDirectory target)) := by
  cases h with
  | enter _ _ node _ => cases link.symm.trans node
  | stop _ stops =>
      rw [link] at stops ⊢
      exact .inl ⟨stops.1, rfl, stops.2, rfl⟩
  | link further _ node =>
      cases link.symm.trans node
      exact .inr ⟨slash, rfl, fun hnil => absurd hnil further⟩
  | lastLink _ _ node follows =>
      cases link.symm.trans node
      exact .inr ⟨_, by rw [List.append_nil], fun _ => ⟨follows, rfl⟩⟩

/-- A walk that comes to look under the name of a link ends there to remove it, or it goes on from the link. -/
theorem walk_cases_of_link (h : t.walk purpose links slash dir (.name name :: more) = .ok found)
    (link : t.node? (dir ++ [name]) = some (.link target)) :
    purpose = .removing ∧ more = [] ∧ slash = false ∧ found = (dir ++ [name], some (.link target)) ∨
      ∃ links' slash', t.walk purpose links' slash' dir (steps target ++ more) = .ok found ∧
        (more = [] → purpose ≠ .removing ∧ slash' = (slash || meansDirectory target)) := by
  rcases walk_cases h with hadvance | ⟨links', _, _, slash', -, hadvance, hrest⟩
  · rcases (advances_of_advance hadvance).cases_of_link link with
      ⟨hpurpose, hmore, hslash, hprogress⟩ | ⟨_, hlinked, -⟩
    · injection hprogress with hnames hnode
      exact .inl ⟨hpurpose, hmore, hslash, Prod.ext hnames hnode⟩
    · cases hlinked
  · rcases (advances_of_advance hadvance).cases_of_link link with ⟨-, -, -, hprogress⟩ | ⟨_, hlinked, hlast⟩
    · cases hprogress
    · cases hlinked
      exact .inr ⟨links', slash', hrest, hlast⟩

end Looks

/-! ### Trees that differ in one place -/

/-- Two trees that are the same except for what is under some names. -/
structure SameBut (x : Names) (t t' : FileTree) : Prop where
  workingDirectory : t'.workingDirectory = t.workingDirectory
  nodes : ∀ names, names ≠ x → t'.node? names = t.node? names

namespace SameBut

variable {x : Names}

theorem symm (h : SameBut x t t') : SameBut x t' t :=
  ⟨h.workingDirectory.symm, fun names hnames => (h.nodes names hnames).symm⟩

theorem set (hne : x ≠ []) (new : Option Node) : SameBut x t (t.set x new) := by
  refine ⟨?_, fun names hnames => ?_⟩
  · cases new <;> rfl
  · rw [node?_set hne, if_neg hnames]

/-- A walk takes the same steps in both trees, or in both it comes to look under the names. What it is for makes no
    difference on the way to them. -/
theorem advance_cases (h : SameBut x t t') (slash : Bool) (current : Names) (left : List PathComponent) :
    (∀ purpose, t'.advance purpose slash current left = t.advance purpose slash current left) ∨
      ∃ dir name more, x = dir ++ [name] ∧ ∀ purpose,
        t.advance purpose slash current left = t.advance purpose slash dir (.name name :: more) ∧
        t'.advance purpose slash current left = t'.advance purpose slash dir (.name name :: more) := by
  induction left generalizing current with
  | nil => exact .inl fun _ => rfl
  | cons step left ih =>
      cases step with
      | root => exact ih []
      | here => exact ih current
      | up => exact ih current.dropLast
      | name name =>
          by_cases hnames : current ++ [name] = x
          · exact .inr ⟨current, name, left, hnames.symm, fun _ => ⟨rfl, rfl⟩⟩
          · by_cases hlast : left = []
            · subst hlast
              refine .inl fun purpose => ?_
              rw [advance, advance, h.nodes _ hnames]
              rfl
            · simp only [advance_name _ slash current name hlast, h.nodes _ hnames]
              split
              · exact .inl fun _ => rfl
              · cases t.node? (current ++ [name]) with
                | none => exact .inl fun _ => rfl
                | some node =>
                    cases node with
                    | directory => exact ih (current ++ [name])
                    | file content => exact .inl fun _ => rfl
                    | link target => exact .inl fun _ => rfl

/-- A walk gets to the same place in both trees, or in both it comes to look under the names. A walk to remove does so
    where walks for other purposes do. -/
theorem walk_cases (h : SameBut x t t') {purpose : Purpose} {links : Nat} {slash : Bool} {current : Names}
    {left : List PathComponent} {found : Names × Option Node}
    (hwalk : t.walk purpose links slash current left = .ok found) :
    t'.walk purpose links slash current left = .ok found ∨
      ∃ dir name more links' slash' k, x = dir ++ [name] ∧ links = links' + k ∧
        t.walk purpose links' slash' dir (.name name :: more) = .ok found ∧
        ∀ purpose', purpose' = purpose ∨ purpose = .removing → ∀ l,
          t'.walk purpose' (l + k) slash current left = t'.walk purpose' l slash' dir (.name name :: more) := by
  replace hwalk := walks_of_walk hwalk
  induction hwalk with
  | @arrived links slash current left advances =>
      rcases h.advance_cases slash current left with hsame | ⟨dir, name, more, hx, hlooks⟩
      · exact .inl (walk_arrived ((hsame purpose).trans advances) _)
      · refine .inr ⟨dir, name, more, links, slash, 0, hx, rfl, ?_, fun purpose' _ l => ?_⟩
        · exact walk_arrived ((hlooks purpose).1.symm.trans advances) _
        · exact walk_congr (hlooks purpose').2 l
  | @linked links slash slash' current current' left left' advances rest ih =>
      rcases h.advance_cases slash current left with hsame | ⟨dir, name, more, hx, hlooks⟩
      · have hlinked : ∀ purpose', purpose' = purpose ∨ purpose = .removing →
            t'.advance purpose' slash current left = .ok (.linked current' left' slash') := by
          rintro purpose' hpurpose
          rw [hsame]
          by_cases heq : purpose' = purpose
          · rw [heq, advances]
          · have hremoving := hpurpose.resolve_left heq
            rw [hremoving] at advances heq
            exact advance_goingOn advances mayBeFile_linked (by rintro _ ⟨⟩) heq
        rcases ih with hrest | ⟨dir, name, more, links', slash'', k, hx, rfl, hcomes, hgoes⟩
        · exact .inl ((walk_linked (hlinked purpose (.inl rfl)) _).trans hrest)
        · refine .inr ⟨dir, name, more, links', slash'', k + 1, hx, rfl, hcomes, fun purpose' hpurpose l => ?_⟩
          rw [← hgoes purpose' hpurpose, ← Nat.add_assoc, walk_linked (hlinked purpose' hpurpose)]
      · refine .inr ⟨dir, name, more, links + 1, slash, 0, hx, rfl, ?_, fun purpose' _ l => ?_⟩
        · rw [← walk_congr (hlooks purpose).1, walk_linked advances]
          exact rest.walk_eq
        · exact walk_congr (hlooks purpose').2 l

/-- A walk gets to the same place in both trees if it does not end under the names and no walk that goes on from the
    link there gets to this place. -/
theorem walk_eq (h : SameBut x t t') (old : t.node? x ≠ some .directory) {purpose : Purpose} {links : Nat}
    {slash : Bool} {current names : Names} {left : List PathComponent} {node : Option Node}
    (hwalk : t.walk purpose links slash current left = .ok (names, node)) (other : names ≠ x)
    (spared : ∀ target more links' slash', t.node? x = some (.link target) →
      (more = [] → purpose ≠ .removing ∧ (meansDirectory target = true → slash' = true)) →
      t.walk purpose links' slash' x.dropLast (steps target ++ more) ≠ .ok (names, node)) :
    t'.walk purpose links slash current left = .ok (names, node) := by
  rcases h.walk_cases hwalk with hsame | ⟨dir, name, more, links', slash', k, rfl, -, hcomes, -⟩
  · exact hsame
  · by_cases hopen : IsOpen (t.node? (dir ++ [name]))
    · exact absurd (congrArg Prod.fst (walk_arrived_of_open hcomes hopen).2) other
    · obtain ⟨target, hlink⟩ : ∃ target, t.node? (dir ++ [name]) = some (.link target) := by
        by_contra hnone
        exact hopen (isOpen_iff.mpr ⟨old, fun target hlink => hnone ⟨target, hlink⟩⟩)
      rcases walk_cases_of_link hcomes hlink with ⟨-, -, -, hfound⟩ | ⟨links'', slash'', hrest, hlast⟩
      · exact absurd (congrArg Prod.fst hfound) other
      · refine absurd ?_ (spared target more links'' slash'' hlink fun hnil => ?_)
        · rw [List.dropLast_concat]
          exact hrest
        · obtain ⟨hfollows, rfl⟩ := hlast hnil
          exact ⟨hfollows, fun hslash => by rw [hslash, Bool.or_true]⟩

end SameBut

end FileTree

end ReqTrace
