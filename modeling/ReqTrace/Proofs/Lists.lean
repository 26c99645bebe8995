/-
Module: ReqTrace.Proofs.Lists
Purpose: Lists that are filtered by what they were made from, and sorted lists. Sorting keeps the order of
  members that compare as equal; if there are none, the sorted list is known by its members.
Main exports: filter_flatMap_of_origin, filter_eq_singleton, filter_eq_of_perm, eq_of_distinct,
  pairwise_mergeSort_of_pairwise, ascending_mergeSort, eq_of_ascending, rel_of_ascending, mergeSort_congr
-/
import Mathlib.Data.List.Sort

namespace ReqTrace

/-! ### Filters -/

/-- Members that are kept or dropped together with what they come from. -/
theorem filter_flatMap_of_origin {α β : Type} {l : List α} {f : α → List β} {p : β → Bool} {q : α → Bool}
    (origin : ∀ a ∈ l, ∀ b ∈ f a, p b = q a) : (l.flatMap f).filter p = (l.filter q).flatMap f := by
  induction l with
  | nil => rfl
  | cons a l ih =>
      have hfirst := origin a List.mem_cons_self
      rw [List.flatMap_cons, List.filter_append, ih fun a ha => origin a (List.mem_cons_of_mem _ ha),
        List.filter_cons]
      split
      · rename_i hq
        rw [List.flatMap_cons, List.filter_eq_self.mpr fun b hb => (hfirst b hb).trans hq]
      · rename_i hq
        rw [List.filter_eq_nil_iff.mpr fun b hb => by rw [hfirst b hb]; exact hq, List.nil_append]

/-- A filter that keeps one member of a list of different ones. -/
theorem filter_eq_singleton {α : Type} {l : List α} (nodup : l.Nodup) {a : α} (ha : a ∈ l) {p : α → Bool}
    (only : ∀ b ∈ l, p b = true ↔ b = a) : l.filter p = [a] := by
  refine List.perm_singleton.mp ((List.perm_ext_iff_of_nodup (nodup.filter p) (List.nodup_singleton a)).mpr
    fun b => ?_)
  rw [List.mem_filter, List.mem_singleton]
  constructor
  · exact fun ⟨hb, hp⟩ => (only b hb).mp hp
  · rintro rfl
    exact ⟨ha, (only b ha).mpr rfl⟩

/-- Among members that are pairwise unrelated, related ones are one. -/
theorem eq_of_distinct {α : Type} {R : α → α → Prop} (symm : ∀ {a b}, R a b → R b a) {l : List α}
    (distinct : l.Pairwise fun a b => ¬ R a b) {a b : α} (ha : a ∈ l) (hb : b ∈ l) (h : R a b) : a = b :=
  List.Pairwise.forall_of_forall_of_flip (R := fun a b => R a b → a = b) (fun _ _ _ => rfl)
    (distinct.imp fun hne hrelated => absurd hrelated hne)
    (distinct.imp fun hne hrelated => absurd (symm hrelated) hne) ha hb h

/-- Reordering a list changes nothing of what a filter keeps that keeps at most one member. -/
theorem filter_eq_of_perm {α : Type} {R : α → α → Prop} {l l' : List α} (perm : l.Perm l')
    (distinct : l.Pairwise R) {p : α → Bool} (related : ∀ a b, p a = true → p b = true → ¬ R a b) :
    l.filter p = l'.filter p := by
  have hperm := perm.filter p
  have hdistinct := distinct.filter p
  have hkept : ∀ a ∈ l.filter p, p a = true := fun a ha => (List.mem_filter.mp ha).2
  match h : l.filter p with
  | [] =>
      rw [h] at hperm
      exact (List.nil_perm.mp hperm).symm
  | [a] =>
      rw [h] at hperm
      exact List.singleton_perm.mp hperm
  | a :: b :: rest =>
      rw [h] at hdistinct hkept
      have ha := hkept a List.mem_cons_self
      have hb := hkept b (List.mem_cons_of_mem a List.mem_cons_self)
      exact absurd (List.rel_of_pairwise_cons hdistinct List.mem_cons_self) (related a b ha hb)

/-! ### Sorted lists -/

variable {α : Type} (cmp : α → α → Ordering) [Std.TransCmp cmp]

theorem isLE_or_isLE (a b : α) : ((cmp a b).isLE || (cmp b a).isLE) = true := by
  have hswap : cmp b a = (cmp a b).swap := Std.OrientedCmp.eq_swap
  rw [hswap]
  cases cmp a b <;> rfl

theorem pairwise_mergeSort (l : List α) :
    (l.mergeSort fun a b => (cmp a b).isLE).Pairwise fun a b => (cmp a b).isLE = true :=
  List.pairwise_mergeSort (fun _ _ _ => Std.TransCmp.isLE_trans) (isLE_or_isLE cmp) l

/-- Sorting keeps the order of members that compare as equal. -/
theorem filter_mergeSort (l : List α) (a : α) :
    (l.mergeSort fun a b => (cmp a b).isLE).filter (cmp a · == .eq) = l.filter (cmp a · == .eq) := by
  have hequal : (l.filter (cmp a · == .eq)).Pairwise fun b c => (cmp b c).isLE = true := by
    refine List.pairwise_of_forall_mem_list fun b hb c hc => ?_
    have hb : cmp a b = .eq := by simpa using (List.mem_filter.mp hb).2
    have hc : cmp a c = .eq := by simpa using (List.mem_filter.mp hc).2
    rw [Std.TransCmp.eq_trans (Std.OrientedCmp.eq_symm hb) hc]
    rfl
  have hsub := (List.sublist_mergeSort (fun _ _ _ => Std.TransCmp.isLE_trans) (isLE_or_isLE cmp) hequal
    List.filter_sublist).filter (cmp a · == .eq)
  rw [List.filter_filter] at hsub
  simp only [Bool.and_self] at hsub
  exact (hsub.eq_of_length ((List.mergeSort_perm l _).filter _).length_eq.symm).symm

/-- Sorting by one order leaves a list in another one where members compare as equal. -/
theorem pairwise_mergeSort_of_pairwise {R : α → α → Prop} {l : List α} (h : l.Pairwise R) :
    (l.mergeSort fun a b => (cmp a b).isLE).Pairwise fun a b => cmp a b = .lt ∨ cmp a b = .eq ∧ R a b := by
  refine List.pairwise_iff_forall_sublist.mpr fun {a b} hsub => ?_
  have hle := List.pairwise_iff_forall_sublist.mp (pairwise_mergeSort cmp l) hsub
  cases hcompare : cmp a b with
  | lt => exact .inl rfl
  | gt =>
      rw [hcompare] at hle
      cases hle
  | eq =>
      refine .inr ⟨rfl, List.pairwise_iff_forall_sublist.mp (h.filter (cmp a · == .eq)) ?_⟩
      have hself : cmp a a = .eq := Std.ReflCmp.compare_self
      have hpair : [a, b].filter (cmp a · == .eq) = [a, b] := by simp [hself, hcompare]
      rw [← filter_mergeSort cmp l a, ← hpair]
      exact hsub.filter _

/-- Sorting gives a strictly ascending list if no two members compare as equal. -/
theorem ascending_mergeSort {l : List α} (distinct : l.Pairwise fun a b => cmp a b ≠ .eq) :
    (l.mergeSort fun a b => (cmp a b).isLE).Pairwise fun a b => cmp a b = .lt :=
  (pairwise_mergeSort_of_pairwise cmp distinct).imp fun h => h.resolve_right fun ⟨heq, hne⟩ => hne heq

/-- A strictly ascending list is known by its members. -/
theorem eq_of_ascending {l l' : List α} (h : l.Pairwise fun a b => cmp a b = .lt)
    (h' : l'.Pairwise fun a b => cmp a b = .lt) (members : ∀ a, a ∈ l ↔ a ∈ l') : l = l' := by
  have : Std.Antisymm fun a b => cmp a b = .lt := ⟨fun a b hab hba => by
    rw [Std.OrientedCmp.gt_of_lt hba] at hab
    cases hab⟩
  have : Std.Irrefl fun a b => cmp a b = .lt := ⟨fun a haa => by
    rw [Std.OrientedCmp.gt_of_lt haa] at haa
    cases haa⟩
  exact h.eq_of_mem_iff h' members

/-- In a strictly ascending list what is less comes first, so it is related to what is greater as members are to
    later ones. -/
theorem rel_of_ascending {R : α → α → Prop} {l : List α} (h : l.Pairwise fun a b => cmp a b = .lt)
    (hR : l.Pairwise R) {a b : α} (ha : a ∈ l) (hb : b ∈ l) (hlt : cmp a b = .lt) : R a b := by
  have hself : ∀ a ∈ l, cmp a a = .lt → R a a := by
    intro a _ hlt
    have hself : cmp a a = .eq := Std.ReflCmp.compare_self
    rw [hself] at hlt
    cases hlt
  have hbefore : l.Pairwise fun a b => cmp a b = .lt → R a b := hR.imp fun {a b} hab (_ : cmp a b = .lt) => hab
  have hafter : l.Pairwise fun a b => cmp b a = .lt → R b a := h.imp fun {a b} hab hba => by
    rw [Std.OrientedCmp.gt_of_lt hab] at hba
    cases hba
  exact List.Pairwise.forall_of_forall_of_flip (R := fun a b => cmp a b = .lt → R a b) hself hbefore hafter ha hb hlt

theorem isLE_of_mem_sorted {a b : α} {l : List α} (h : (a :: l).Pairwise fun a b => (cmp a b).isLE = true)
    (hb : b ∈ a :: l) : (cmp a b).isLE = true := by
  cases List.mem_cons.mp hb with
  | inl heq =>
      have hself : cmp a a = .eq := Std.ReflCmp.compare_self
      rw [heq, hself]
      rfl
  | inr htail => exact List.rel_of_pairwise_cons h htail

/-- A sorted list is known by the members of each rank in their order. -/
theorem eq_of_sorted_of_ranks {l l' : List α} (h : l.Pairwise fun a b => (cmp a b).isLE = true)
    (h' : l'.Pairwise fun a b => (cmp a b).isLE = true)
    (ranks : ∀ a, l.filter (cmp a · == .eq) = l'.filter (cmp a · == .eq)) : l = l' := by
  have hself : ∀ a : α, (cmp a a == .eq) = true := fun a => beq_iff_eq.mpr Std.ReflCmp.compare_self
  have hmem : ∀ {l l' : List α}, (∀ a, l.filter (cmp a · == .eq) = l'.filter (cmp a · == .eq)) →
      ∀ a ∈ l, a ∈ l' := by
    intro l l' ranks a ha
    have hrank : a ∈ l.filter (cmp a · == .eq) := List.mem_filter.mpr ⟨ha, hself a⟩
    rw [ranks a] at hrank
    exact (List.mem_filter.mp hrank).1
  induction l generalizing l' with
  | nil =>
      cases l' with
      | nil => rfl
      | cons b l' => exact absurd (hmem (fun a => (ranks a).symm) b List.mem_cons_self) List.not_mem_nil
  | cons a l ih =>
      cases l' with
      | nil => exact absurd (hmem ranks a List.mem_cons_self) List.not_mem_nil
      | cons b l' =>
          -- Each of the two heads is least, so they are of one rank, and both are its first member.
          have hle := isLE_of_mem_sorted cmp h (hmem (fun c => (ranks c).symm) b List.mem_cons_self)
          have hle' := isLE_of_mem_sorted cmp h' (hmem ranks a List.mem_cons_self)
          have heq : cmp a b = .eq := Std.OrientedCmp.isLE_antisymm hle hle'
          have hrank := ranks a
          simp only [List.filter_cons, hself, heq, beq_self_eq_true, if_true, List.cons.injEq] at hrank
          obtain ⟨rfl, -⟩ := hrank
          have htails : ∀ c, l.filter (cmp c · == .eq) = l'.filter (cmp c · == .eq) := by
            intro c
            have hc := ranks c
            simp only [List.filter_cons] at hc
            split at hc
            · exact (List.cons.inj hc).2
            · exact hc
          rw [ih h.of_cons h'.of_cons htails]

/-- Sorting a list depends on the members of each rank in their order only. -/
theorem mergeSort_congr {l l' : List α}
    (ranks : ∀ a, l.filter (cmp a · == .eq) = l'.filter (cmp a · == .eq)) :
    l.mergeSort (fun a b => (cmp a b).isLE) = l'.mergeSort fun a b => (cmp a b).isLE := by
  apply eq_of_sorted_of_ranks cmp (pairwise_mergeSort cmp l) (pairwise_mergeSort cmp l')
  intro a
  rw [filter_mergeSort, filter_mergeSort, ranks a]

end ReqTrace
