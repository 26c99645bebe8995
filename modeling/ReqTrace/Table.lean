/-
Module: ReqTrace.Table
Purpose: Finite maps as lists of entries in strictly ascending key order, so that a table has one
  representation and is listed in key order.
Main exports: Table, Table.get?, Table.insert, Table.erase, Table.ofList, Table.toList
-/

namespace ReqTrace

/-- A finite map. No two keys compare as equal; a key that has several spellings keeps the one it was
    entered with. -/
structure Table (κ ν : Type) [Ord κ] where
  entries : List (κ × ν)
  ascending : entries.Pairwise fun a b => compare a.1 b.1 = .lt

namespace Table

variable {κ ν : Type} [Ord κ]

instance [DecidableEq κ] [DecidableEq ν] : DecidableEq (Table κ ν) := fun a b =>
  if h : a.entries = b.entries then
    .isTrue (by cases a; cases b; simp_all)
  else .isFalse fun heq => h (congrArg entries heq)

/-- The table without entries. -/
def empty : Table κ ν :=
  ⟨[], .nil⟩

instance : Inhabited (Table κ ν) := ⟨empty⟩

/-- The entries in key order. -/
def toList (t : Table κ ν) : List (κ × ν) :=
  t.entries

/-- The keys in order. -/
def keys (t : Table κ ν) : List κ :=
  t.entries.map (·.1)

/-- Whether there is no entry. -/
def isEmpty (t : Table κ ν) : Bool :=
  t.entries.isEmpty

/-- The value at a key. -/
def get? (t : Table κ ν) (k : κ) : Option ν :=
  (t.entries.find? fun entry => compare k entry.1 == .eq).map (·.2)

/-- Enters a value into ascending entries. The value at an equal key is replaced. -/
def insertEntry (k : κ) (v : ν) : List (κ × ν) → List (κ × ν)
  | [] => [(k, v)]
  | (k', v') :: rest =>
      match compare k k' with
      | .lt => (k, v) :: (k', v') :: rest
      | .eq => (k', v) :: rest
      | .gt => (k', v') :: insertEntry k v rest

/-- Every key after an insertion is an old one or the new one. -/
theorem key_of_mem_insertEntry {k : κ} {v : ν} {entries : List (κ × ν)} {e : κ × ν}
    (h : e ∈ insertEntry k v entries) : e.1 = k ∨ ∃ e' ∈ entries, e'.1 = e.1 := by
  induction entries with
  | nil =>
      left
      simp only [insertEntry, List.mem_singleton] at h
      rw [h]
  | cons head rest ih =>
      obtain ⟨k', v'⟩ := head
      rw [insertEntry] at h
      split at h
      · rcases List.mem_cons.mp h with rfl | h
        · exact .inl rfl
        · exact .inr ⟨e, h, rfl⟩
      · rcases List.mem_cons.mp h with rfl | h
        · exact .inr ⟨(k', v'), by simp, rfl⟩
        · exact .inr ⟨e, by simp [h], rfl⟩
      · rcases List.mem_cons.mp h with rfl | h
        · exact .inr ⟨(k', v'), by simp, rfl⟩
        · rcases ih h with hk | ⟨e', he', heq⟩
          · exact .inl hk
          · exact .inr ⟨e', by simp [he'], heq⟩

theorem ascending_insertEntry [Std.TransOrd κ] (k : κ) (v : ν) {entries : List (κ × ν)}
    (h : entries.Pairwise fun a b => compare a.1 b.1 = .lt) :
    (insertEntry k v entries).Pairwise fun a b => compare a.1 b.1 = .lt := by
  induction entries with
  | nil => simp [insertEntry]
  | cons head rest ih =>
      obtain ⟨k', v'⟩ := head
      obtain ⟨below, hrest⟩ := List.pairwise_cons.mp h
      rw [insertEntry]
      split
      · rename_i hlt
        refine List.pairwise_cons.mpr ⟨fun e he => ?_, h⟩
        rcases List.mem_cons.mp he with rfl | he
        · exact hlt
        · exact Std.TransCmp.lt_trans hlt (below e he)
      · exact List.pairwise_cons.mpr ⟨below, hrest⟩
      · rename_i hgt
        refine List.pairwise_cons.mpr ⟨fun e he => ?_, ih hrest⟩
        rcases key_of_mem_insertEntry he with hk | ⟨e', he', heq⟩
        · rw [hk]
          exact Std.OrientedCmp.gt_iff_lt.mp hgt
        · rw [← heq]
          exact below e' he'

/-- Enters a value, replacing the one at an equal key. -/
def insert [Std.TransOrd κ] (t : Table κ ν) (k : κ) (v : ν) : Table κ ν :=
  ⟨insertEntry k v t.entries, ascending_insertEntry k v t.ascending⟩

/-- Removes a key. -/
def erase (t : Table κ ν) (k : κ) : Table κ ν :=
  ⟨t.entries.filter fun entry => compare k entry.1 != .eq, t.ascending.filter _⟩

/-- Enters entries one after the other; of entries with equal keys the last value stays. -/
def insertAll [Std.TransOrd κ] (t : Table κ ν) (entries : List (κ × ν)) : Table κ ν :=
  entries.foldl (fun t (k, v) => t.insert k v) t

/-- The table of a list of entries. -/
def ofList [Std.TransOrd κ] (entries : List (κ × ν)) : Table κ ν :=
  empty.insertAll entries

/-! ### Look-up after each operation -/

@[simp] theorem get?_empty (k : κ) : (empty : Table κ ν).get? k = none := rfl

/-- A table answers for the inserted key with the inserted value, and for others as before. -/
theorem get?_insert [Std.TransOrd κ] (t : Table κ ν) (k k' : κ) (v : ν) :
    (t.insert k v).get? k' = if compare k' k = .eq then some v else t.get? k' := by
  obtain ⟨entries, ascending⟩ := t
  simp only [get?, insert]
  induction entries with
  | nil => by_cases h : compare k' k = .eq <;> simp [insertEntry, h]
  | cons head rest ih =>
      obtain ⟨k₀, v₀⟩ := head
      rw [insertEntry]
      split
      · rename_i hlt
        by_cases h : compare k' k = .eq <;> simp [List.find?_cons, h]
      · rename_i heq
        have hk : compare k' k = compare k' k₀ := Std.TransCmp.congr_right heq
        by_cases h : compare k' k₀ = .eq <;> simp [hk, h]
      · rename_i hgt
        by_cases h : compare k' k₀ = .eq
        · have hk : compare k' k ≠ .eq := by
            rw [Std.TransCmp.congr_left h, Std.OrientedCmp.gt_iff_lt.mp hgt]
            simp
          simp [h, hk]
        · simpa [List.find?_cons, h] using ih (List.pairwise_cons.mp ascending).2

/-- A table answers nothing for an erased key, and for others as before. -/
theorem get?_erase [Std.TransOrd κ] (t : Table κ ν) (k k' : κ) :
    (t.erase k).get? k' = if compare k' k = .eq then none else t.get? k' := by
  obtain ⟨entries, ascending⟩ := t
  simp only [get?, erase, List.find?_filter]
  clear ascending
  induction entries with
  | nil => simp
  | cons e rest ih =>
      simp only [List.find?_cons]
      by_cases he : compare k' e.1 = .eq
      · by_cases h : compare k' k = .eq
        · have : compare k e.1 = .eq := Std.TransCmp.eq_trans (Std.OrientedCmp.eq_symm h) he
          simpa [he, h, this] using ih
        · have : compare k e.1 ≠ .eq := fun hk =>
            h (Std.TransCmp.eq_trans he (Std.OrientedCmp.eq_symm hk))
          simp [he, h, this]
      · have : (compare k' e.1 == .eq) = false := by simpa using he
        simpa [he, this] using ih

end Table

end ReqTrace
