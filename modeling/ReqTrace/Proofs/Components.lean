/-
Module: ReqTrace.Proofs.Components
Purpose: Paths that are put together from a directory and the names below it. Their components are those of the
  directory and the names, however the directory is spelled, so the names are found again below it.
Main exports: IsName, Path.isName_of_mem_components, Path.components_join_names, Path.relativeTo?_eq_some_iff
-/
import ReqTrace.Path
import ReqTrace.Proofs.Text.Pieces

namespace ReqTrace

/-- A part between slashes that is a component of its own and goes one level down. -/
structure IsName (name : Text) : Prop where
  nonempty : name ≠ []
  notHere : name ≠ ['.']
  notUp : name ≠ ['.', '.']
  noSlash : '/' ∉ name

instance (name : Text) : Decidable (IsName name) :=
  decidable_of_iff (name ≠ [] ∧ name ≠ ['.'] ∧ name ≠ ['.', '.'] ∧ '/' ∉ name)
    ⟨fun ⟨h₁, h₂, h₃, h₄⟩ => ⟨h₁, h₂, h₃, h₄⟩, fun ⟨h₁, h₂, h₃, h₄⟩ => ⟨h₁, h₂, h₃, h₄⟩⟩

namespace IsName

theorem ofPart? {name : Text} (h : IsName name) : PathComponent.ofPart? name = some (.name name) := by
  rw [PathComponent.ofPart?, if_neg (not_or.mpr ⟨h.nonempty, h.notHere⟩), if_neg h.notUp]

theorem of_ofPart? {part name : Text} (noSlash : '/' ∉ part) (h : PathComponent.ofPart? part = some (.name name)) :
    IsName name := by
  unfold PathComponent.ofPart? at h
  split at h
  · cases h
  · rename_i hidle
    split at h
    · cases h
    · rename_i hup
      cases h
      exact ⟨fun heq => hidle (.inl heq), fun heq => hidle (.inr heq), hup, noSlash⟩

end IsName

namespace Path

open Text

/-! ### Names among the components -/

/-- A component that is a name stands for a part of the path. -/
theorem exists_part_of_mem_components {p : Path} {name : Text} (h : .name name ∈ p.components) :
    ∃ part ∈ p.parts, PathComponent.ofPart? part = some (.name name) := by
  obtain ⟨first, rest, hparts⟩ := List.exists_cons_of_ne_nil (List.splitOn_ne_nil '/' p.text)
  have hp : p.parts = first :: rest := hparts
  rw [components, hp] at h
  simp only [List.mem_append, List.mem_filterMap] at h
  rw [hp]
  rcases h with hstart | ⟨part, hpart, hname⟩
  · split at hstart
    · split at hstart <;> simp at hstart
    · split at hstart
      · simp at hstart
      · exact ⟨first, List.mem_cons_self, Option.mem_toList.mp hstart⟩
  · exact ⟨part, List.mem_cons_of_mem first hpart, hname⟩

theorem isName_of_mem_components {p : Path} {name : Text} (h : .name name ∈ p.components) : IsName name := by
  obtain ⟨part, hpart, hname⟩ := exists_part_of_mem_components h
  exact .of_ofPart? (not_mem_of_mem_splitOn hpart) hname

/-! ### Components of joined paths -/

/-- What follows a slash adds its own components. -/
theorem components_append_slash (t s : Text) :
    (⟨t ++ '/' :: s⟩ : Path).components =
      (⟨t ++ ['/']⟩ : Path).components ++ (s.splitOn '/').filterMap PathComponent.ofPart? := by
  obtain ⟨first, rest, hsplit⟩ := List.exists_cons_of_ne_nil (List.splitOn_ne_nil '/' t)
  have hlong : (⟨t ++ '/' :: s⟩ : Path).parts = first :: (rest ++ s.splitOn '/') := by
    rw [parts, List.splitOn_append_cons_self, hsplit, List.cons_append]
  have hshort : (⟨t ++ ['/']⟩ : Path).parts = first :: (rest ++ [[]]) := by
    rw [parts, List.splitOn_append_cons_self, hsplit, List.splitOn_nil, List.cons_append]
  rw [components, components, hlong, hshort]
  simp [List.splitOn_ne_nil, PathComponent.ofPart?]

/-- A slash at the end adds nothing, except to the empty path. -/
theorem components_append_slash_nil {t : Text} (nonempty : t ≠ []) :
    (⟨t ++ ['/']⟩ : Path).components = (⟨t⟩ : Path).components := by
  obtain ⟨first, rest, hsplit⟩ := List.exists_cons_of_ne_nil (List.splitOn_ne_nil '/' t)
  have hslash : (⟨t ++ ['/']⟩ : Path).parts = first :: (rest ++ [[]]) := by
    rw [parts, List.splitOn_append_cons_self, hsplit, List.splitOn_nil, List.cons_append]
  have hplain : (⟨t⟩ : Path).parts = first :: rest := hsplit
  -- Only the empty path has a single part that is empty.
  have hroot : first = [] → rest ≠ [] := by
    rintro rfl rfl
    have htext : ['/'].intercalate (t.splitOn '/') = t := List.intercalate_splitOn '/'
    rw [hsplit] at htext
    exact nonempty htext.symm
  rw [components, components, hslash, hplain]
  by_cases hfirst : first = []
  · simp [hfirst, hroot hfirst, PathComponent.ofPart?]
  · simp [hfirst, PathComponent.ofPart?]

variable {names : List Text}

/-- Each name stands for one component. -/
theorem filterMap_ofPart?_names (h : ∀ name ∈ names, IsName name) :
    names.filterMap PathComponent.ofPart? = names.map .name := by
  rw [← List.filterMap_eq_map]
  exact List.filterMap_congr fun name hname => (h name hname).ofPart?

theorem filterMap_splitOn_join (h : ∀ name ∈ names, IsName name) :
    ((Text.join ['/'] names).splitOn '/').filterMap PathComponent.ofPart? = names.map .name := by
  cases names with
  | nil => simp [Text.join, PathComponent.ofPart?]
  | cons first others =>
      rw [Text.join, List.splitOn_intercalate '/' (fun name hname => (h name hname).noSlash) (List.cons_ne_nil _ _)]
      exact filterMap_ofPart?_names h

theorem components_names (h : ∀ name ∈ names, IsName name) :
    (⟨Text.join ['/'] names⟩ : Path).components = names.map .name := by
  cases names with
  | nil => simp [Text.join, components, parts]
  | cons first others =>
      have hfirst := h first List.mem_cons_self
      have hparts : (⟨Text.join ['/'] (first :: others)⟩ : Path).parts = first :: others :=
        List.splitOn_intercalate '/' (fun name hname => (h name hname).noSlash) (List.cons_ne_nil _ _)
      have hothers := filterMap_ofPart?_names fun name hname => h name (List.mem_cons_of_mem first hname)
      rw [components, hparts]
      simp [hfirst.nonempty, hfirst.notHere, hfirst.ofPart?, hothers]

theorem isAbsolute_names (h : ∀ name ∈ names, IsName name) :
    (⟨Text.join ['/'] names⟩ : Path).isAbsolute = false := by
  have hhead : (Text.join ['/'] names).head? ≠ some '/' := by
    cases names with
    | nil => simp [Text.join]
    | cons first others =>
        have hfirst := h first List.mem_cons_self
        obtain ⟨c, rest, rfl⟩ := List.exists_cons_of_ne_nil hfirst.nonempty
        have hc : c ≠ '/' := fun heq => hfirst.noSlash (by simp [heq])
        cases others with
        | nil => simpa [Text.join] using hc
        | cons second others => simpa [Text.join] using hc
  simpa [isAbsolute] using hhead

/-- The path of names below a directory has the components of the directory and the names. -/
theorem components_join_names (top : Path) (h : ∀ name ∈ names, IsName name) :
    (top.join ⟨Text.join ['/'] names⟩).components = top.components ++ names.map .name := by
  rw [join, isAbsolute_names h, if_neg (by simp)]
  by_cases hempty : top.text = []
  · have htop : top.components = [] := by simp [components, parts, hempty]
    rw [if_pos (.inl hempty), hempty, htop, List.nil_append, List.nil_append]
    exact components_names h
  · by_cases hslash : top.text.getLast? = some '/'
    · obtain ⟨t, ht⟩ := List.getLast?_eq_some_iff.mp hslash
      have htop : top = ⟨t ++ ['/']⟩ := by
        cases top
        exact congrArg Path.mk ht
      rw [if_pos (.inr hslash), htop]
      rw [List.append_assoc, List.singleton_append, components_append_slash, filterMap_splitOn_join h]
    · rw [if_neg (not_or.mpr ⟨hempty, hslash⟩), components_append_slash, components_append_slash_nil hempty,
        filterMap_splitOn_join h]

/-! ### Relative paths -/

theorem mapM_name?_eq_some_iff {below : List PathComponent} :
    below.mapM PathComponent.name? = some names ↔ below = names.map .name := by
  induction below generalizing names with
  | nil => cases names <;> simp
  | cons component below ih =>
      simp only [List.mapM_cons, Option.bind_eq_bind, Option.bind_eq_some_iff, Option.pure_def, ih]
      constructor
      · rintro ⟨first, hfirst, others, rfl, heq⟩
        cases heq
        cases component with
        | name text =>
            cases hfirst
            rfl
        | root => cases hfirst
        | here => cases hfirst
        | up => cases hfirst
      · intro h
        cases names with
        | nil => cases h
        | cons first others =>
            cases h
            exact ⟨first, rfl, others, rfl, rfl⟩

/-- The path of `p` below `top` is made of the names that lead from `top` to `p`. -/
theorem relativeTo?_eq_some_iff {top p : Path} {r : Text} :
    top.relativeTo? p = some r ↔
      ∃ names : List Text, (∀ name ∈ names, IsName name) ∧ r = Text.join ['/'] names ∧
        p.components = top.components ++ names.map .name := by
  simp only [relativeTo?, Option.bind_eq_bind, Option.bind_eq_some_iff, List.isPrefixOf?_eq_some_iff_append_eq,
    mapM_name?_eq_some_iff]
  constructor
  · rintro ⟨below, hp, names, rfl, hr⟩
    refine ⟨names, fun name hname => ?_, (Option.some.inj hr).symm, hp.symm⟩
    have hmem : .name name ∈ p.components := by simp [← hp, hname]
    exact isName_of_mem_components hmem
  · rintro ⟨names, -, rfl, hp⟩
    exact ⟨_, hp.symm, names, rfl, rfl⟩

end Path

end ReqTrace
