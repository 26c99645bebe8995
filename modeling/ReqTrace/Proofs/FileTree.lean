/-
Module: ReqTrace.Proofs.FileTree
Purpose: Files in a well-formed tree. A path of names through directories leads to what is there under these
  names, and reading, writing and removing a file look at nothing else and change nothing else.
Main exports: FileTree.WellFormed, FileTree.set, FileTree.HasPlace, FileTree.HasPlace.locate,
  FileTree.readText_eq_ok_iff, FileTree.writeText_eq_ok_iff, FileTree.remove_eq_ok_iff
-/
import Mathlib.Data.List.Induction
import ReqTrace.Proofs.Path
import ReqTrace.Proofs.Table

namespace ReqTrace

/-! ### Stages that may fail -/

section Stages

variable {ε ε' α β : Type}

theorem bind_eq_ok_iff {x : Except ε α} {f : α → Except ε β} {b : β} :
    x >>= f = .ok b ↔ ∃ a, x = .ok a ∧ f a = .ok b := by
  cases x with
  | error error => simp [bind, Except.bind]
  | ok a => simp [bind, Except.bind]

theorem mapError_eq_ok_iff {x : Except ε α} {f : ε → ε'} {a : α} : x.mapError f = .ok a ↔ x = .ok a := by
  cases x with
  | error error => simp [Except.mapError]
  | ok a => simp [Except.mapError]

instance decidableForallOk (x : Except ε α) (P : α → Prop) [DecidablePred P] : Decidable (∀ a, x = .ok a → P a) :=
  match x with
  | .ok a => decidable_of_iff (P a) ⟨fun h b hb => by cases hb; exact h, fun h => h a rfl⟩
  | .error _ => .isTrue fun _ h => by cases h

end Stages

namespace FileTree

/-! ### Well-formed trees -/

/-- Every node has a name that a file can have, and is in a directory. -/
structure WellFormed (t : FileTree) : Prop where
  root : t.nodes.get? [] = none
  names : ∀ {names node}, t.nodes.get? names = some node → ∀ name ∈ names, IsFileName name
  parent : ∀ {dir name node}, t.nodes.get? (dir ++ [name]) = some node → t.node? dir = some .directory

variable {t : FileTree}

/-- Well-formedness is a matter of the nodes one by one. -/
theorem wellFormed_iff : t.WellFormed ↔ ∀ entry ∈ t.nodes.toList,
    entry.1 ≠ [] ∧ (∀ name ∈ entry.1, IsFileName name) ∧ t.node? entry.1.dropLast = some .directory := by
  constructor
  · rintro h ⟨names, node⟩ hentry
    have hget := Table.mem_toList_iff.mp hentry
    have hne : names ≠ [] := by
      rintro rfl
      rw [h.root] at hget
      cases hget
    refine ⟨hne, h.names hget, ?_⟩
    obtain ⟨dir, name, rfl⟩ := (List.eq_nil_or_concat names).resolve_left hne
    rw [List.concat_eq_append] at hget ⊢
    rw [List.dropLast_concat]
    exact h.parent hget
  · intro h
    refine ⟨?_, fun {names node} hget => (h _ (Table.mem_toList_iff.mpr hget)).2.1,
      fun {dir name node} hget => ?_⟩
    · cases hget : t.nodes.get? [] with
      | none => rfl
      | some node => exact absurd rfl (h _ (Table.mem_toList_iff.mpr hget)).1
    · have hparent := (h _ (Table.mem_toList_iff.mpr hget)).2.2
      rwa [List.dropLast_concat] at hparent

instance : Decidable t.WellFormed :=
  decidable_of_iff _ wellFormed_iff.symm

theorem node?_append_singleton (t : FileTree) (dir : Names) (name : Text) :
    t.node? (dir ++ [name]) = t.nodes.get? (dir ++ [name]) := by
  rw [node?, if_neg (by simp)]

namespace WellFormed

theorem isFileName (h : t.WellFormed) {names : Names} {node : Node} (hnode : t.node? names = some node) :
    ∀ name ∈ names, IsFileName name := by
  by_cases hne : names = []
  · subst hne
    simp
  · rw [node?, if_neg hne] at hnode
    exact h.names hnode

/-- Every node is below directories only. -/
theorem directory_of_append (h : t.WellFormed) {dir below : Names} (hne : below ≠ []) {node : Node}
    (hnode : t.node? (dir ++ below) = some node) : t.node? dir = some .directory := by
  induction below using List.reverseRecOn generalizing node with
  | nil => exact absurd rfl hne
  | append_singleton below name ih =>
      rw [← List.append_assoc, node?_append_singleton] at hnode
      have hparent := h.parent hnode
      by_cases hbelow : below = []
      · subst hbelow
        simpa using hparent
      · exact ih hbelow hparent

end WellFormed

/-! ### Changing one node -/

/-- The tree with another node under some names, or with none. -/
def set (t : FileTree) (names : Names) : Option Node → FileTree
  | some node => t.put names node
  | none => t.erase names

theorem node?_set {names : Names} (hne : names ≠ []) (node : Option Node) (other : Names) :
    (t.set names node).node? other = if other = names then node else t.node? other := by
  have hcompare : compare other names = .eq ↔ other = names :=
    ⟨Std.LawfulEqCmp.eq_of_compare, fun h => h ▸ Std.ReflCmp.compare_self⟩
  by_cases hroot : other = []
  · subst hroot
    rw [node?, node?, if_pos rfl, if_pos rfl, if_neg (Ne.symm hne)]
  · cases node with
    | some node =>
        simp only [node?, if_neg hroot, set, put, Table.get?_insert, hcompare]
    | none =>
        simp only [node?, if_neg hroot, set, erase, Table.get?_erase, hcompare]

theorem get?_set (t : FileTree) (names : Names) (node : Option Node) (other : Names) :
    (t.set names node).nodes.get? other = if compare other names = .eq then node else t.nodes.get? other := by
  cases node with
  | some node => exact Table.get?_insert ..
  | none => exact Table.get?_erase ..

/-- Changes at different names can be made in either order. -/
theorem set_comm (t : FileTree) {names other : Names} (h : names ≠ other) (node node' : Option Node) :
    (t.set names node).set other node' = (t.set other node').set names node := by
  have hnodes : ((t.set names node).set other node').nodes = ((t.set other node').set names node).nodes := by
    refine Table.ext_get? fun k => ?_
    simp only [get?_set]
    by_cases hk : compare k names = .eq
    · have hne : compare k other ≠ .eq := fun heq =>
        h ((Std.LawfulEqCmp.eq_of_compare hk).symm.trans (Std.LawfulEqCmp.eq_of_compare heq))
      rw [if_neg hne, if_pos hk, if_pos hk]
    · rw [if_neg hk, if_neg hk]
  have hsame := congrArg (fun nodes => FileTree.mk nodes t.workingDirectory) hnodes
  cases node <;> cases node' <;> exact hsame

/-- Nothing changes if there is no node and none comes. -/
theorem erase_eq_self {names : Names} (h : t.nodes.get? names = none) : t.erase names = t := by
  have hnodes : t.nodes.erase names = t.nodes := by
    refine Table.ext_get? fun k => ?_
    rw [Table.get?_erase]
    split
    · rename_i heq
      rw [Std.LawfulEqCmp.eq_of_compare heq, h]
    · rfl
  rw [erase, hnodes]

theorem WellFormed.set (h : t.WellFormed) {dir : Names} {name : Text}
    (directory : t.node? dir = some .directory) (hname : IsFileName name)
    (hold : t.node? (dir ++ [name]) ≠ some .directory) (node : Option Node) :
    (t.set (dir ++ [name]) node).WellFormed := by
  have hget : ∀ other, other ≠ [] → (t.set (dir ++ [name]) node).nodes.get? other =
      if other = dir ++ [name] then node else t.nodes.get? other := by
    intro other hother
    have hset := @node?_set t (dir ++ [name]) (by simp) node other
    simpa only [node?, if_neg hother] using hset
  refine ⟨?_, fun {names n} hn => ?_, fun {dir' name' n} hn => ?_⟩
  · cases node with
    | some node =>
        rw [FileTree.set, put, Table.get?_insert, if_neg, h.root]
        intro heq
        exact absurd (Std.LawfulEqCmp.eq_of_compare heq) (by simp)
    | none =>
        rw [FileTree.set, erase, Table.get?_erase, h.root]
        simp
  · by_cases hne : names = []
    · subst hne
      simp
    · rw [hget names hne] at hn
      split at hn
      · rename_i heq
        rw [heq]
        intro other hother
        rcases List.mem_append.mp hother with hother | hother
        · exact h.isFileName directory other hother
        · rw [List.mem_singleton.mp hother]
          exact hname
      · exact h.names hn
  · rw [hget _ (by simp)] at hn
    have hparent : t.node? dir' = some .directory := by
      split at hn
      · rename_i heq
        rw [(List.append_inj' heq rfl).1]
        exact directory
      · exact h.parent hn
    rw [node?_set (by simp), if_neg]
    · exact hparent
    · rintro rfl
      exact hold hparent

/-! ### Places for files -/

instance (node : Option Node) : Decidable (∀ target, node ≠ some (.link target)) :=
  match node with
  | some (.link target) => .isFalse fun h => h target rfl
  | some .directory => .isTrue fun _ h => by cases h
  | some (.file _) => .isTrue fun _ h => by cases h
  | none => .isTrue fun _ h => by cases h

/-- A place for a file: a directory and a name in it under which there is no link, with a path that is not
    too long to open files. -/
structure HasPlace (t : FileTree) (dir : Names) (name : Text) : Prop where
  directory : t.node? dir = some .directory
  fileName : IsFileName name
  regular : ∀ target, t.node? (dir ++ [name]) ≠ some (.link target)
  short : Text.byteLength (pathOf (dir ++ [name])).text ≤ maxPathLength

theorem advance_names (t : FileTree) (purpose : Purpose) (last : PathComponent) {current rest : Names}
    (directories : ∀ before, before <+: rest → before ≠ [] →
      t.node? (current ++ before) = some .directory)
    (hrest : ∀ name ∈ rest, IsFileName name) :
    t.advance purpose false current (rest.map .name ++ [last]) =
      t.advance purpose false (current ++ rest) [last] := by
  induction rest generalizing current with
  | nil => simp
  | cons first rest ih =>
      have hshort : ¬ maxNameLength < Text.byteLength first :=
        Nat.not_lt.mpr (hrest first List.mem_cons_self).short
      have hfirst := directories [first] (List.cons_prefix_cons.mpr ⟨rfl, List.nil_prefix⟩) (by simp)
      rw [List.map_cons, List.cons_append, advance, if_neg (by simp), if_neg hshort, hfirst]
      refine (ih (fun before hbefore hne => ?_) fun name hname =>
        hrest name (List.mem_cons_of_mem _ hname)).trans (by simp)
      have hnode := directories (first :: before) (List.cons_prefix_cons.mpr ⟨rfl, hbefore⟩) (by simp)
      simpa using hnode

/-- The last step, if it is not over a link. -/
theorem advance_last (purpose : Purpose) {dir : Names} {name : Text}
    (short : Text.byteLength name ≤ maxNameLength)
    (regular : ∀ target, t.node? (dir ++ [name]) ≠ some (.link target)) :
    t.advance purpose false dir [.name name] =
      .ok (.arrived (dir ++ [name]) (t.node? (dir ++ [name]))) := by
  rw [advance, if_neg (by simp), if_neg (Nat.not_lt.mpr short)]
  cases hnode : t.node? (dir ++ [name]) with
  | none => rfl
  | some node =>
      cases node with
      | directory => rfl
      | file content => rfl
      | link target => exact absurd hnode (regular target)

namespace HasPlace

variable {dir : Names} {name : Text}

theorem names (place : t.HasPlace dir name) (h : t.WellFormed) :
    ∀ other ∈ dir ++ [name], IsFileName other := by
  intro other hother
  rcases List.mem_append.mp hother with hother | hother
  · exact h.isFileName place.directory other hother
  · rw [List.mem_singleton.mp hother]
    exact place.fileName

/-- A path to a place arrives there. -/
theorem locate (place : t.HasPlace dir name) (h : t.WellFormed) (purpose : Purpose) :
    t.locate purpose (pathOf (dir ++ [name])) = .ok (dir ++ [name], t.node? (dir ++ [name])) := by
  have hall := place.names h
  have hwalk : t.advance purpose false t.workingDirectory (steps (pathOf (dir ++ [name]))) =
      .ok (.arrived (dir ++ [name]) (t.node? (dir ++ [name]))) := by
    rw [steps_pathOf (by simp) hall, advance, List.map_append, List.map_singleton,
      advance_names t purpose (.name name) (fun before hbefore hne => ?_)
        (fun other hother => hall other (List.mem_append_left _ hother)),
      List.nil_append, advance_last purpose place.fileName.short place.regular]
    obtain ⟨rest, rfl⟩ := hbefore
    by_cases hrest : rest = []
    · subst hrest
      simpa using place.directory
    · exact h.directory_of_append hrest place.directory
  have hslash : meansDirectory (pathOf (dir ++ [name])) = false := by
    rw [meansDirectory, beq_eq_false_iff_ne]
    exact getLast?_text_pathOf (by simp) hall
  rw [FileTree.locate, if_neg (fun hlong => Nat.not_lt.mpr place.short hlong.2), follow,
    if_neg (zero_not_mem_pathOf (by simp) (place.names h)), if_neg (by simp [pathOf]), hslash, walk, hwalk]
  rfl

/-- A place stays a place when what is under another name changes, and when its own file does. -/
theorem set (place : t.HasPlace dir name) {names : Names} (hne : names ≠ [])
    (hold : t.node? names ≠ some .directory) {node : Option Node}
    (hnode : ∀ target, node ≠ some (.link target)) : (t.set names node).HasPlace dir name := by
  refine ⟨?_, place.fileName, fun target => ?_, place.short⟩
  · rw [node?_set hne, if_neg]
    · exact place.directory
    · rintro rfl
      exact hold place.directory
  · rw [node?_set hne]
    split
    · exact hnode target
    · exact place.regular target

end HasPlace

/-! ### Reading, writing and removing -/

/-- The text that is read where there is a given node. -/
def textOf : Option Node → Except FileError Text
  | none => .error .notFound
  | some (.file (.text t)) => .ok t
  | some (.file (.binary _)) => .error .notText
  | some .directory => .error .isDirectory
  | some (.link _) => .error .isDirectory

section Primitives

variable {t' : FileTree} {p : Path} {names : Names} {node : Option Node} {text : Text}

theorem textOf_eq_ok_iff : textOf node = .ok text ↔ node = some (.file (.text text)) := by
  cases node with
  | none => simp [textOf]
  | some node =>
      cases node with
      | directory => simp [textOf]
      | file content => cases content <;> simp [textOf]
      | link target => simp [textOf]

/-- What is read is missing, a text, or neither, and then the error says so. -/
theorem textOf_cases (node : Option Node) :
    node = none ∨ (∃ text, node = some (.file (.text text))) ∨
      ∃ cause, (cause = .notText ∨ cause = .isDirectory) ∧ textOf node = .error cause := by
  cases node with
  | none => exact .inl rfl
  | some node =>
      cases node with
      | directory => exact .inr (.inr ⟨_, .inr rfl, rfl⟩)
      | file content =>
          cases content with
          | text text => exact .inr (.inl ⟨text, rfl⟩)
          | binary bytes => exact .inr (.inr ⟨_, .inl rfl, rfl⟩)
      | link target => exact .inr (.inr ⟨_, .inr rfl, rfl⟩)

theorem textOf_eq_notFound_iff : textOf node = .error .notFound ↔ node = none := by
  constructor
  · intro h
    rcases textOf_cases node with hnone | ⟨text, rfl⟩ | ⟨cause, hcause, herror⟩
    · exact hnone
    · cases h
    · rw [h] at herror
      cases herror
      rcases hcause with hcause | hcause <;> cases hcause
  · rintro rfl
    rfl

/-- A file is read as what its path leads to. -/
theorem readText_of_locate (h : t.locate .reading p = .ok (names, node)) : t.readText p = textOf node := by
  rw [readText, resolve, h]
  cases node with
  | none => rfl
  | some node =>
      cases node with
      | directory => rfl
      | file content => cases content <;> rfl
      | link target => rfl

theorem readText_of_locate_error {error : FileError} (h : t.locate .reading p = .error error) :
    t.readText p = .error error := by
  rw [readText, resolve, h]
  rfl

theorem readText_eq_ok_iff : t.readText p = .ok text ↔
    ∃ names, t.locate .reading p = .ok (names, some (.file (.text text))) := by
  cases hlocate : t.locate .reading p with
  | error error => simp [readText_of_locate_error hlocate]
  | ok found =>
      rw [readText_of_locate hlocate, textOf_eq_ok_iff]
      simp [Prod.ext_iff]

/-- A text is written to where a path leads, whether or not a file is there. -/
theorem writeText_of_locate (h : t.locate .writing p = .ok (names, node)) (file : node ≠ some .directory)
    (text : Text) : t.writeText p text = .ok (t.set names (some (.file (.text text)))) := by
  rw [writeText, h]
  cases node with
  | none => rfl
  | some node =>
      cases node with
      | directory => exact absurd rfl file
      | file content => rfl
      | link target => rfl

theorem writeText_eq_ok_iff : t.writeText p text = .ok t' ↔
    ∃ names node, t.locate .writing p = .ok (names, node) ∧ node ≠ some .directory ∧
      t' = t.set names (some (.file (.text text))) := by
  constructor
  · intro h
    obtain ⟨⟨names, node⟩, hlocate, hrest⟩ := bind_eq_ok_iff.mp h
    have hfile : node ≠ some .directory := by
      rintro rfl
      cases hrest
    rw [writeText_of_locate hlocate hfile] at h
    cases h
    exact ⟨names, node, hlocate, hfile, rfl⟩
  · rintro ⟨names, node, hlocate, hfile, rfl⟩
    exact writeText_of_locate hlocate hfile text

/-- What a path leads to is removed, if it is there. -/
theorem remove_of_locate {node : Node} (h : t.locate .removing p = .ok (names, some node))
    (file : node ≠ .directory) : t.remove p = .ok (t.set names none) := by
  rw [remove, h]
  cases node with
  | directory => exact absurd rfl file
  | file content => rfl
  | link target => rfl

theorem remove_of_locate_none (h : t.locate .removing p = .ok (names, none)) :
    t.remove p = .error .notFound := by
  rw [remove, h]
  rfl

theorem remove_eq_ok_iff : t.remove p = .ok t' ↔
    ∃ names node, t.locate .removing p = .ok (names, some node) ∧ node ≠ .directory ∧
      t' = t.set names none := by
  constructor
  · intro h
    obtain ⟨⟨names, node⟩, hlocate, hrest⟩ := bind_eq_ok_iff.mp h
    cases node with
    | none => cases hrest
    | some node =>
        have hfile : node ≠ .directory := by
          rintro rfl
          cases hrest
        rw [remove_of_locate hlocate hfile] at h
        cases h
        exact ⟨names, node, hlocate, hfile, rfl⟩
  · rintro ⟨names, node, hlocate, hfile, rfl⟩
    exact remove_of_locate hlocate hfile

/-- There is no file after a removal, whether or not there was one before. -/
theorem remove_eq_or (h : t.locate .removing p = .ok (names, t.node? names)) (hne : names ≠ [])
    (file : t.node? names ≠ some .directory) :
    t.remove p = .ok (t.set names none) ∨ t.remove p = .error .notFound ∧ t.set names none = t := by
  cases hnode : t.node? names with
  | none =>
      rw [hnode] at h
      rw [node?, if_neg hne] at hnode
      exact .inr ⟨remove_of_locate_none h, erase_eq_self hnode⟩
  | some node =>
      rw [hnode] at h file
      exact .inl (remove_of_locate h (by simpa using file))

end Primitives

namespace HasPlace

variable {dir : Names} {name : Text}

theorem readText (place : t.HasPlace dir name) (h : t.WellFormed) :
    t.readText (pathOf (dir ++ [name])) = textOf (t.node? (dir ++ [name])) :=
  readText_of_locate (place.locate h .reading)

theorem writeText (place : t.HasPlace dir name) (h : t.WellFormed)
    (hold : t.node? (dir ++ [name]) ≠ some .directory) (text : Text) :
    t.writeText (pathOf (dir ++ [name])) text =
      .ok (t.set (dir ++ [name]) (some (.file (.text text)))) :=
  writeText_of_locate (place.locate h .writing) hold text

theorem remove (place : t.HasPlace dir name) (h : t.WellFormed)
    (hold : t.node? (dir ++ [name]) ≠ some .directory) :
    t.remove (pathOf (dir ++ [name])) = .ok (t.set (dir ++ [name]) none) ∨
      t.remove (pathOf (dir ++ [name])) = .error .notFound ∧ t.set (dir ++ [name]) none = t :=
  remove_eq_or (place.locate h .removing) (by simp) hold

end HasPlace

end FileTree

end ReqTrace
