/-
Module: ReqTrace.Proofs.Path
Purpose: The files in the directory of a path, and paths that are written down from the names they lead through.
  The names are found again in such a path, and so are its parent and the files in the directory it leads to.
Main exports: IsFileName, Path.components_join, Path.names, FileTree.components_pathOf,
  FileTree.parent?_pathOf, FileTree.join_pathOf, FileTree.same_pathOf_iff
-/
import ReqTrace.FileTree
import ReqTrace.Proofs.Components
import ReqTrace.Proofs.Lists
import ReqTrace.Proofs.Text.Pieces

namespace ReqTrace

/-! ### Components -/

instance : Std.LawfulEqOrd PathComponent where
  eq_of_compare {a b} h := by
    have hparts : compare a.rank b.rank = .eq ∧ compare a.text b.text = .eq := compareLex_eq_eq.mp h
    have hrank := Std.LawfulEqCmp.eq_of_compare hparts.1
    have htext := Std.LawfulEqCmp.eq_of_compare hparts.2
    cases a <;> cases b <;> simp_all [PathComponent.rank, PathComponent.text]

namespace Path

theorem same_iff {p q : Path} : p.same q = true ↔ p.components = q.components :=
  beq_iff_eq

theorem same_self (p : Path) : p.same p = true :=
  same_iff.mpr rfl

theorem same_comm (p q : Path) : p.same q = q.same p := by
  rw [Bool.eq_iff_iff, same_iff, same_iff]
  exact eq_comm

/-- Paths that are the same are the same as others alike. -/
theorem same_congr {p q : Path} (h : p.same q = true) (r : Path) : p.same r = q.same r := by
  rw [same_iff] at h
  rw [Path.same, Path.same, h]

theorem same_congr_right {p q : Path} (h : p.same q = true) (r : Path) : r.same p = r.same q := by
  rw [same_comm, same_congr h, same_comm]

/-- Among files with different paths, those with the same path are one. -/
theorem eq_of_same {α : Type} {path : α → Path} {l : List α}
    (distinct : l.Pairwise fun a b => (path a).same (path b) = false) {a b : α} (ha : a ∈ l) (hb : b ∈ l)
    (h : (path a).same (path b) = true) : a = b := by
  refine eq_of_distinct (R := fun a b => (path a).same (path b) = true) ?_ ?_ ha hb h
  · exact fun hsame => (same_comm _ _).trans hsame
  · exact distinct.imp fun hne => by simp [hne]

theorem compare_eq_iff {p q : Path} : compare p q = .eq ↔ p.same q = true := by
  have hcompare : compare p q = compare p.components q.components := rfl
  rw [same_iff, hcompare, Std.LawfulEqCmp.compare_eq_iff_eq]

end Path

/-! ### Names on a path -/

/-- A name that a file or a directory can have. -/
structure IsFileName (name : Text) : Prop where
  nonempty : name ≠ []
  notHere : name ≠ ['.']
  notUp : name ≠ ['.', '.']
  noSlash : '/' ∉ name
  noZero : '\x00' ∉ name
  short : Text.byteLength name ≤ FileTree.maxNameLength

instance (name : Text) : Decidable (IsFileName name) :=
  decidable_of_iff (name ≠ [] ∧ name ≠ ['.'] ∧ name ≠ ['.', '.'] ∧ '/' ∉ name ∧ '\x00' ∉ name ∧
    Text.byteLength name ≤ FileTree.maxNameLength)
    ⟨fun ⟨h₁, h₂, h₃, h₄, h₅, h₆⟩ => ⟨h₁, h₂, h₃, h₄, h₅, h₆⟩,
      fun ⟨h₁, h₂, h₃, h₄, h₅, h₆⟩ => ⟨h₁, h₂, h₃, h₄, h₅, h₆⟩⟩

/-- The names of files and directories on a path. -/
def Path.names (p : Path) : Names :=
  p.components.filterMap PathComponent.name?

theorem IsFileName.isName {name : Text} (h : IsFileName name) : IsName name where
  nonempty := h.nonempty
  notHere := h.notHere
  notUp := h.notUp
  noSlash := h.noSlash

theorem IsFileName.isIdlePart {name : Text} (h : IsFileName name) : Path.isIdlePart name = false := by
  simp [Path.isIdlePart, h.nonempty, h.notHere]

/-! ### Files of a directory -/

namespace Path

theorem isAbsolute_name {name : Text} (h : '/' ∉ name) : (⟨name⟩ : Path).isAbsolute = false := by
  cases name with
  | nil => rfl
  | cons c name =>
      have hc : c ≠ '/' := fun heq => h (by simp [heq])
      simp [isAbsolute, hc]

/-- The path of a file has one component more than that of its directory, however this is spelled. -/
theorem components_join (p : Path) {name : Text} (h : IsFileName name) :
    (p.join ⟨name⟩).components = p.components ++ [.name name] := by
  have hname : ∀ part ∈ [name], IsName part := fun part hpart => List.mem_singleton.mp hpart ▸ h.isName
  simpa [Text.join] using components_join_names p hname

/-- Files of one name are the same only if their directories are. -/
theorem same_join_iff {p q : Path} {name : Text} (h : IsFileName name) :
    (p.join ⟨name⟩).same (q.join ⟨name⟩) = true ↔ p.same q = true := by
  rw [same_iff, same_iff, components_join p h, components_join q h, List.append_left_inj]

theorem fileName?_join (p : Path) {name : Text} (h : IsFileName name) :
    (p.join ⟨name⟩).fileName? = some name := by
  rw [fileName?, components_join p h, List.getLast?_concat]
  rfl

theorem fileName?_congr {p q : Path} (h : p.same q = true) : p.fileName? = q.fileName? := by
  rw [fileName?, fileName?, same_iff.mp h]

end Path

/-! ### Paths from names -/

namespace FileTree

variable {names : Names}

theorem text_pathOf (hne : names ≠ []) : (pathOf names).text = Text.join ['/'] ([] :: names) := by
  obtain ⟨first, rest, rfl⟩ := List.exists_cons_of_ne_nil hne
  rfl

/-- The parts of a path are its names, after the empty one in front of the first slash. -/
theorem parts_pathOf (hne : names ≠ []) (h : ∀ name ∈ names, IsFileName name) :
    (pathOf names).parts = [] :: names := by
  rw [Path.parts, text_pathOf hne, Text.join, List.splitOn_intercalate]
  · intro part hpart
    rcases List.mem_cons.mp hpart with rfl | hpart
    · simp
    · exact (h part hpart).noSlash
  · simp

theorem zero_not_mem_pathOf (hne : names ≠ []) (h : ∀ name ∈ names, IsFileName name) :
    '\x00' ∉ (pathOf names).text := by
  intro hzero
  have hsplit : ∃ part ∈ (pathOf names).text.splitOn '/', '\x00' ∈ part :=
    (Text.mem_splitOn_iff (by decide)).mpr hzero
  obtain ⟨part, hpart, hmem⟩ := hsplit
  have hparts := parts_pathOf hne h
  rw [Path.parts] at hparts
  rw [hparts] at hpart
  rcases List.mem_cons.mp hpart with rfl | hpart
  · cases hmem
  · exact (h part hpart).noZero hmem

theorem components_pathOf (h : ∀ name ∈ names, IsFileName name) :
    (pathOf names).components = .root :: names.map .name := by
  cases names with
  | nil => rfl
  | cons first rest =>
      rw [Path.components, parts_pathOf (by simp) h]
      simp [Path.filterMap_ofPart?_names fun name hname => (h name hname).isName]

theorem names_pathOf (h : ∀ name ∈ names, IsFileName name) : (pathOf names).names = names := by
  rw [Path.names, components_pathOf h, List.filterMap_cons]
  simp [PathComponent.name?, List.filterMap_map, Function.comp_def]

/-- Two such paths have the same components only if they are the same. -/
theorem same_pathOf_iff {names' : Names} (h : ∀ name ∈ names, IsFileName name)
    (h' : ∀ name ∈ names', IsFileName name) :
    (pathOf names).same (pathOf names') = true ↔ names = names' := by
  rw [Path.same, beq_iff_eq]
  constructor
  · intro hsame
    rw [← names_pathOf h, ← names_pathOf h', Path.names, hsame]
    rfl
  · rintro rfl
    rfl

theorem steps_pathOf (hne : names ≠ []) (h : ∀ name ∈ names, IsFileName name) :
    steps (pathOf names) = .root :: names.map .name := by
  have hinner : (names.filterMap fun part =>
      if part = ['.'] then some PathComponent.here else PathComponent.ofPart? part) =
      names.map .name := by
    rw [← Path.filterMap_ofPart?_names fun name hname => (h name hname).isName]
    exact List.filterMap_congr fun name hname => if_neg (h name hname).notHere
  rw [steps, parts_pathOf hne h, List.filterMap_cons, hinner]
  rfl

theorem filter_filterMap_parts (parts : List Text) :
    (parts.filterMap fun part => if part = ['.'] then some PathComponent.here else PathComponent.ofPart? part).filter
        (· ≠ .here) = parts.filterMap PathComponent.ofPart? := by
  rw [List.filter_filterMap]
  refine List.filterMap_congr fun part _ => ?_
  unfold PathComponent.ofPart?
  split
  · rename_i hdot
    simp [hdot]
  · split
    · rfl
    · split <;> rfl

/-- The steps of a path are its components, apart from dots. -/
theorem filter_steps (p : Path) : (steps p).filter (· ≠ .here) = p.components.filter (· ≠ .here) := by
  have hinner : ∀ parts : List Text, (parts.filterMap PathComponent.ofPart?).filter (· ≠ .here) =
      parts.filterMap PathComponent.ofPart? := by
    intro parts
    rw [← filter_filterMap_parts, List.filter_filter]
    simp
  cases htext : p.text with
  | nil => simp [steps, Path.components, Path.parts, Path.isAbsolute, htext, PathComponent.ofPart?]
  | cons c rest =>
      obtain ⟨first, others, hsplit⟩ := List.exists_cons_of_ne_nil (List.splitOn_ne_nil '/' rest)
      by_cases hc : c = '/'
      · have hparts : p.parts = [] :: first :: others := by
          rw [Path.parts, htext, List.splitOn_cons_eq_if_modifyHead, hc, if_pos (beq_self_eq_true '/'), hsplit]
        have habsolute : p.isAbsolute = true := by rw [Path.isAbsolute, htext, hc]; rfl
        rw [steps, habsolute, if_pos rfl, Path.components, hparts, List.filter_cons_of_pos (by decide),
          filter_filterMap_parts]
        exact congrArg (PathComponent.root :: ·) (hinner (first :: others)).symm
      · have hparts : p.parts = (c :: first) :: others := by
          rw [Path.parts, htext, List.splitOn_cons_eq_if_modifyHead, if_neg (by simpa using hc), hsplit]
          rfl
        have hrelative : p.isAbsolute = false := by simp [Path.isAbsolute, htext, hc]
        rw [steps, hrelative, if_neg (by simp), Path.components, hparts, filter_filterMap_parts, List.filter_append,
          hinner]
        by_cases hdot : c :: first = ['.']
        · simp [hdot, PathComponent.ofPart?]
        · have hfirst := hinner [c :: first]
          rw [List.filterMap_cons, List.filterMap_nil] at hfirst
          rw [List.filterMap_cons, if_neg (by simp), if_neg hdot]
          cases hpart : PathComponent.ofPart? (c :: first) with
          | none => rfl
          | some step =>
              rw [hpart] at hfirst
              exact congrArg (· ++ _) hfirst.symm

/-- A path with one more name. -/
theorem text_pathOf_concat (hne : names ≠ []) (name : Text) :
    (pathOf (names ++ [name])).text = (pathOf names).text ++ '/' :: name := by
  have hjoin : Text.join ['/'] (names ++ [name]) = Text.join ['/'] names ++ '/' :: name := by
    unfold Text.join
    induction names with
    | nil => exact absurd rfl hne
    | cons first rest ih =>
        cases rest with
        | nil => simp
        | cons second rest =>
            rw [List.cons_append, List.cons_append, List.intercalate_cons_cons, ← List.cons_append,
              ih (by simp), List.intercalate_cons_cons]
            simp only [List.append_assoc]
  exact congrArg ('/' :: ·) hjoin

theorem getLast?_text_pathOf (hne : names ≠ []) (h : ∀ name ∈ names, IsFileName name) :
    (pathOf names).text.getLast? ≠ some '/' := by
  have hlast : ∀ {name : Text} (before : Text), IsFileName name →
      (before ++ '/' :: name).getLast? ≠ some '/' := by
    intro name before hname heq
    obtain ⟨start, last, rfl⟩ := (List.eq_nil_or_concat name).resolve_left hname.nonempty
    rw [List.concat_eq_append, ← List.cons_append, ← List.append_assoc, List.getLast?_concat,
      Option.some.injEq] at heq
    exact hname.noSlash (by simp [heq])
  obtain ⟨before, last, rfl⟩ := (List.eq_nil_or_concat names).resolve_left hne
  have hname : IsFileName last := h last (by simp)
  rw [List.concat_eq_append]
  by_cases hbefore : before = []
  · subst hbefore
    have htext : (pathOf ([] ++ [last])).text = [] ++ '/' :: last := by simp [pathOf, Text.join]
    rw [htext]
    exact hlast [] hname
  · rw [text_pathOf_concat hbefore]
    exact hlast _ hname

/-- The file of a name in a directory. -/
theorem join_pathOf {name : Text} (h : ∀ name ∈ names, IsFileName name) (hname : '/' ∉ name) :
    (pathOf names).join ⟨name⟩ = pathOf (names ++ [name]) := by
  rw [Path.join, Path.isAbsolute_name hname, if_neg (by simp)]
  by_cases hne : names = []
  · subst hne
    have hroot : (pathOf []).text = ['/'] := rfl
    rw [hroot, if_pos (.inr rfl)]
    simp [pathOf, Text.join]
  · have hnonempty : (pathOf names).text ≠ [] := by simp [pathOf]
    rw [if_neg (not_or.mpr ⟨hnonempty, getLast?_text_pathOf hne h⟩), ← text_pathOf_concat hne]

theorem dropIdleParts_names (h : ∀ name ∈ names, IsFileName name) :
    Path.dropIdleParts ([] :: names) = [] :: names := by
  have hidle : names.reverse.dropWhile Path.isIdlePart = names.reverse := by
    cases hnames : names.reverse with
    | nil => rfl
    | cons last before =>
        have hmem : last ∈ names := List.mem_reverse.mp (by simp [hnames])
        exact List.dropWhile_cons_of_neg (by simp [(h last hmem).isIdlePart])
  rw [Path.dropIdleParts, hidle, List.reverse_reverse]

/-- The directory that a file is in. -/
theorem parent?_pathOf {name : Text} (h : ∀ name ∈ names, IsFileName name) (hname : IsFileName name) :
    (pathOf (names ++ [name])).parent? = some (pathOf names) := by
  have hall : ∀ other ∈ names ++ [name], IsFileName other := by
    intro other hother
    rcases List.mem_append.mp hother with hother | hother
    · exact h other hother
    · rw [List.mem_singleton.mp hother]
      exact hname
  have hlast : ([] :: (names ++ [name]) : List Text).dropLast = [] :: names := by
    rw [← List.cons_append, List.dropLast_concat]
  rw [Path.parent?, parts_pathOf (by simp) hall, dropIdleParts_names hall]
  cases names with
  | nil => rfl
  | cons first rest =>
      simp only [List.cons_append] at hlast ⊢
      rw [hlast, dropIdleParts_names h]
      rfl

end FileTree

end ReqTrace
