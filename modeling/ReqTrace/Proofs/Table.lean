/-
Module: ReqTrace.Proofs.Table
Purpose: Tables as sets of entries: which entries a table has follows from what it answers, and of many entries for
  a key the last one counts.
Main exports: Table.get?_eq_some_iff, Table.ext_get?, Table.get?_ofList_filterMap_iff
-/
import ReqTrace.Proofs.Lists
import ReqTrace.Table

namespace ReqTrace

namespace Table

variable {κ ν : Type} [Ord κ] [Std.TransOrd κ]

/-! ### Entries and answers -/

/-- Among entries with different keys, those with equal keys are one. -/
theorem eq_of_pairwise {entries : List (κ × ν)} (distinct : entries.Pairwise fun a b => compare a.1 b.1 ≠ .eq)
    {a b : κ × ν} (ha : a ∈ entries) (hb : b ∈ entries) (h : compare a.1 b.1 = .eq) : a = b :=
  eq_of_distinct Std.OrientedCmp.eq_symm distinct ha hb h

omit [Std.TransOrd κ] in
theorem distinct_toList (t : Table κ ν) : t.toList.Pairwise fun a b => compare a.1 b.1 ≠ .eq :=
  t.ascending.imp fun {a b} hlt heq => by
    rw [hlt] at heq
    cases heq

/-- Of the spellings of a key a table has one. -/
theorem eq_of_mem_keys {t : Table κ ν} {k k' : κ} (hk : k ∈ t.keys) (hk' : k' ∈ t.keys)
    (h : compare k k' = .eq) : k = k' := by
  obtain ⟨entry, hentry, rfl⟩ := List.mem_map.mp hk
  obtain ⟨entry', hentry', rfl⟩ := List.mem_map.mp hk'
  exact congrArg Prod.fst (eq_of_pairwise t.distinct_toList hentry hentry' h)

theorem nodup_keys (t : Table κ ν) : t.keys.Nodup :=
  List.pairwise_map.mpr (t.ascending.imp fun {a b} hlt heq => by
    rw [heq, Std.ReflOrd.compare_self] at hlt
    cases hlt)

omit [Std.TransOrd κ] in
theorem eq_empty_of_isEmpty {t : Table κ ν} (h : t.isEmpty = true) : t = empty := by
  obtain ⟨entries, ascending⟩ := t
  obtain rfl : entries = [] := List.isEmpty_iff.mp h
  rfl

/-- Among entries with different keys, one is found by its key. -/
theorem find?_eq_some_iff {entries : List (κ × ν)} (distinct : entries.Pairwise fun a b => compare a.1 b.1 ≠ .eq)
    {k : κ} {entry : κ × ν} :
    (entries.find? fun entry => compare k entry.1 == .eq) = some entry ↔
      entry ∈ entries ∧ compare k entry.1 = .eq := by
  have hfound : ∀ {e}, (entries.find? fun entry => compare k entry.1 == .eq) = some e →
      e ∈ entries ∧ compare k e.1 = .eq := fun h =>
    ⟨List.mem_of_find?_eq_some h, by simpa using List.find?_some h⟩
  constructor
  · exact hfound
  · rintro ⟨hmem, heq⟩
    cases hfind : entries.find? fun entry => compare k entry.1 == .eq with
    | none => exact absurd (beq_iff_eq.mpr heq) (List.find?_eq_none.mp hfind _ hmem)
    | some e =>
        obtain ⟨he, hkey⟩ := hfound hfind
        rw [eq_of_pairwise distinct he hmem (Std.TransCmp.eq_trans (Std.OrientedCmp.eq_symm hkey) heq)]

/-- A table answers with the value of the entry whose key is equal. -/
theorem get?_eq_some_iff {t : Table κ ν} {k : κ} {v : ν} :
    t.get? k = some v ↔ ∃ k', (k', v) ∈ t.toList ∧ compare k k' = .eq := by
  rw [get?, Option.map_eq_some_iff]
  constructor
  · rintro ⟨⟨k', v'⟩, hfind, rfl⟩
    exact ⟨k', (find?_eq_some_iff t.distinct_toList).mp hfind⟩
  · rintro ⟨k', hmem, heq⟩
    exact ⟨(k', v), (find?_eq_some_iff t.distinct_toList).mpr ⟨hmem, heq⟩, rfl⟩

/-! ### Many insertions -/

theorem insertAll_cons (t : Table κ ν) (entry : κ × ν) (entries : List (κ × ν)) :
    t.insertAll (entry :: entries) = (t.insert entry.1 entry.2).insertAll entries := rfl

/-- The last entry with an equal key counts, and else what the table had. -/
theorem get?_insertAll (t : Table κ ν) (entries : List (κ × ν)) (k : κ) :
    (t.insertAll entries).get? k =
      ((entries.reverse.find? fun entry => compare k entry.1 == .eq).map Prod.snd).or (t.get? k) := by
  induction entries generalizing t with
  | nil => rfl
  | cons entry entries ih =>
      rw [insertAll_cons, ih, get?_insert, List.reverse_cons, List.find?_append]
      cases entries.reverse.find? fun entry => compare k entry.1 == .eq with
      | some found => rfl
      | none =>
          by_cases h : compare k entry.1 = .eq
          · simp [h]
          · simp [h]

/-- Every key of a table was in the list that it was made from. -/
theorem exists_of_mem_keys_ofList {entries : List (κ × ν)} {k : κ} (h : k ∈ (ofList entries).keys) :
    ∃ entry ∈ entries, entry.1 = k := by
  have hrun : ∀ (entries : List (κ × ν)) (t : Table κ ν) (k : κ), k ∈ (t.insertAll entries).keys →
      k ∈ t.keys ∨ ∃ entry ∈ entries, entry.1 = k := by
    intro entries
    induction entries with
    | nil => exact fun t k h => .inl h
    | cons entry entries ih =>
        intro t k h
        rcases ih (t.insert entry.1 entry.2) k h with h | ⟨entry', hentry', hkey⟩
        · obtain ⟨e, he, rfl⟩ := List.mem_map.mp h
          rcases key_of_mem_insertEntry he with hnew | ⟨e', he', hkey⟩
          · exact .inr ⟨entry, List.mem_cons_self, hnew.symm⟩
          · exact .inl (List.mem_map.mpr ⟨e', he', hkey⟩)
        · exact .inr ⟨entry', List.mem_cons_of_mem _ hentry', hkey⟩
  rcases hrun entries empty k h with h | h
  · cases h
  · exact h

/-- Every key of a list is a key of the table made from it, perhaps in another spelling. -/
theorem exists_mem_keys_ofList {entries : List (κ × ν)} {entry : κ × ν} (h : entry ∈ entries) :
    ∃ k ∈ (ofList entries).keys, compare entry.1 k = .eq := by
  cases hget : (ofList entries).get? entry.1 with
  | some v =>
      obtain ⟨k, hmem, heq⟩ := get?_eq_some_iff.mp hget
      exact ⟨k, List.mem_map_of_mem (f := Prod.fst) hmem, heq⟩
  | none =>
      rw [ofList, get?_insertAll, get?_empty, Option.or_none, Option.map_eq_none_iff,
        List.find?_eq_none] at hget
      exact absurd (beq_iff_eq.mpr Std.ReflCmp.compare_self) (hget entry (List.mem_reverse.mpr h))

/-- A table made from entries with different keys has these entries. -/
theorem get?_ofList_eq_some_iff {entries : List (κ × ν)}
    (distinct : entries.Pairwise fun a b => compare a.1 b.1 ≠ .eq) {k : κ} {v : ν} :
    (ofList entries).get? k = some v ↔ ∃ k', (k', v) ∈ entries ∧ compare k k' = .eq := by
  have hreverse : entries.reverse.Pairwise fun a b => compare a.1 b.1 ≠ .eq :=
    List.pairwise_reverse.mpr (distinct.imp fun hne heq => hne (Std.OrientedCmp.eq_symm heq))
  rw [ofList, get?_insertAll, get?_empty, Option.or_none, Option.map_eq_some_iff]
  constructor
  · rintro ⟨⟨k', v'⟩, hfind, rfl⟩
    obtain ⟨hmem, heq⟩ := (find?_eq_some_iff hreverse).mp hfind
    exact ⟨k', List.mem_reverse.mp hmem, heq⟩
  · rintro ⟨k', hmem, heq⟩
    exact ⟨(k', v), (find?_eq_some_iff hreverse).mpr ⟨List.mem_reverse.mpr hmem, heq⟩, rfl⟩

/-- After many removals a table answers nothing for the removed keys, and for others as before. -/
theorem get?_foldl_erase (keys : List κ) (t : Table κ ν) (k : κ) :
    (keys.foldl erase t).get? k = if ∃ k' ∈ keys, compare k k' = .eq then none else t.get? k := by
  induction keys generalizing t with
  | nil => simp
  | cons first keys ih =>
      rw [List.foldl_cons, ih, get?_erase]
      by_cases hfirst : compare k first = .eq
      · simp [hfirst]
      · simp [hfirst]

section Lawful

variable [Std.LawfulEqOrd κ]

theorem mem_toList_iff {t : Table κ ν} {k : κ} {v : ν} : (k, v) ∈ t.toList ↔ t.get? k = some v := by
  rw [get?_eq_some_iff]
  constructor
  · exact fun h => ⟨k, h, Std.ReflCmp.compare_self⟩
  · rintro ⟨k', h, heq⟩
    rwa [Std.LawfulEqCmp.eq_of_compare heq]

/-- The keys of a table are what it answers for. -/
theorem mem_keys_iff {t : Table κ ν} {k : κ} : k ∈ t.keys ↔ t.get? k ≠ none := by
  rw [Option.ne_none_iff_exists']
  constructor
  · intro hk
    obtain ⟨⟨k', v⟩, hentry, rfl⟩ := List.mem_map.mp hk
    exact ⟨v, mem_toList_iff.mp hentry⟩
  · rintro ⟨v, hv⟩
    exact List.mem_map.mpr ⟨(k, v), mem_toList_iff.mpr hv, rfl⟩

/-- Tables that answer alike are equal. -/
theorem ext_get? {t t' : Table κ ν} (h : ∀ k, t.get? k = t'.get? k) : t = t' := by
  have hentries : t.toList = t'.toList := by
    refine eq_of_ascending (compareOn Prod.fst) t.ascending t'.ascending ?_
    rintro ⟨k, v⟩
    rw [mem_toList_iff, mem_toList_iff, h]
  cases t
  cases t'
  cases hentries
  rfl

/-- The entries of a table make up the table. -/
theorem ofList_toList (t : Table κ ν) : ofList t.toList = t := by
  refine ext_get? fun k => Option.ext fun v => ?_
  rw [get?_ofList_eq_some_iff t.distinct_toList, get?_eq_some_iff]

/-- A table with some of the entries of another. -/
theorem get?_insertAll_filter (t t' : Table κ ν) (p : κ × ν → Bool) (k : κ) :
    (t.insertAll (t'.toList.filter p)).get? k =
      ((t'.get? k).filter fun v => p (k, v)).or (t.get? k) := by
  have hdistinct : (t'.toList.filter p).reverse.Pairwise fun a b => compare a.1 b.1 ≠ .eq :=
    List.pairwise_reverse.mpr ((t'.distinct_toList.filter p).imp
      fun hne heq => hne (Std.OrientedCmp.eq_symm heq))
  rw [get?_insertAll]
  refine congrArg (Option.or · _) (Option.ext fun v => ?_)
  rw [Option.map_eq_some_iff, Option.filter_eq_some_iff, ← mem_toList_iff]
  constructor
  · rintro ⟨⟨k', v'⟩, hfind, rfl⟩
    obtain ⟨hmem, heq⟩ := (find?_eq_some_iff hdistinct).mp hfind
    obtain rfl := Std.LawfulEqCmp.eq_of_compare heq
    exact List.mem_filter.mp (List.mem_reverse.mp hmem)
  · intro h
    exact ⟨(k, v), (find?_eq_some_iff hdistinct).mpr
      ⟨List.mem_reverse.mpr (List.mem_filter.mpr h), Std.ReflCmp.compare_self⟩, rfl⟩

/-- What a table of sorted sources answers comes from one of them, and none behind it gives the key. -/
theorem exists_last_of_get?_ofList_filterMap {α : Type} (cmp : α → α → Ordering) [Std.TransCmp cmp]
    {f : α → Option (κ × ν)} {l : List α} (sorted : l.Pairwise fun a b => (cmp a b).isLE = true) {k : κ} {v : ν}
    (h : (ofList (l.filterMap f)).get? k = some v) :
    ∃ a ∈ l, f a = some (k, v) ∧ ∀ b ∈ l, ∀ w, f b = some (k, w) → (cmp b a).isLE = true := by
  rw [ofList, get?_insertAll, get?_empty, Option.or_none, ← List.filterMap_reverse, List.find?_filterMap] at h
  obtain ⟨⟨k', v'⟩, hbind, rfl⟩ := Option.map_eq_some_iff.mp h
  obtain ⟨a, hfind, ha⟩ := Option.bind_eq_some_iff.mp hbind
  obtain ⟨hgives, after, before, hl, hafter⟩ := List.find?_eq_some_iff_append.mp hfind
  have hkey : k' = k := by
    rw [ha, Option.any_some, beq_iff_eq] at hgives
    exact (Std.LawfulEqCmp.eq_of_compare hgives).symm
  subst hkey
  have hmem : ∀ {b}, b ∈ l ↔ b ∈ after ∨ b = a ∨ b ∈ before := by
    intro b
    rw [← List.mem_reverse, hl, List.mem_append, List.mem_cons]
  refine ⟨a, hmem.mpr (.inr (.inl rfl)), ha, fun b hb w hw => ?_⟩
  have hsorted : (after ++ a :: before).Pairwise fun a b => (cmp b a).isLE = true :=
    hl ▸ List.pairwise_reverse.mpr sorted
  rcases hmem.mp hb with hb | rfl | hb
  · have hnot := hafter b hb
    rw [hw, Option.any_some, Std.ReflOrd.compare_self] at hnot
    cases hnot
  · exact Ordering.isLE_of_eq_eq Std.ReflCmp.compare_self
  · exact (List.pairwise_cons.mp (List.pairwise_append.mp hsorted).2.1).1 b hb

/-- Of sorted sources the last one that gives a key counts, if those that compare as equal give the same. -/
theorem get?_ofList_filterMap_iff {α : Type} (cmp : α → α → Ordering) [Std.TransCmp cmp] {f : α → Option (κ × ν)}
    {l : List α} (sorted : l.Pairwise fun a b => (cmp a b).isLE = true)
    (tied : ∀ a ∈ l, ∀ b ∈ l, cmp a b = .eq → f a = f b) {k : κ} {v : ν} :
    (ofList (l.filterMap f)).get? k = some v ↔
      ∃ a ∈ l, f a = some (k, v) ∧ ∀ b ∈ l, ∀ w, f b = some (k, w) → (cmp b a).isLE = true := by
  refine ⟨exists_last_of_get?_ofList_filterMap cmp sorted, ?_⟩
  rintro ⟨a, ha, hfa, hmax⟩
  cases hget : (ofList (l.filterMap f)).get? k with
  | none =>
      obtain ⟨key, hkey, heq⟩ := exists_mem_keys_ofList (List.mem_filterMap.mpr ⟨a, ha, hfa⟩)
      obtain rfl := Std.LawfulEqCmp.eq_of_compare heq
      obtain ⟨⟨_, w⟩, hentry, rfl⟩ := List.mem_map.mp hkey
      rw [mem_toList_iff.mp hentry] at hget
      cases hget
  | some w =>
      obtain ⟨b, hb, hfb, hmax'⟩ := exists_last_of_get?_ofList_filterMap cmp sorted hget
      have heq : cmp a b = .eq := Std.OrientedCmp.isLE_antisymm (hmax' a ha v hfa) (hmax b hb w hfb)
      have hsame := tied a ha b hb heq
      rw [hfa, hfb] at hsame
      cases hsame
      rfl

end Lawful

end Table

end ReqTrace
