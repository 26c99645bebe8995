/-
Module: ReqTrace.Proofs.Swaps
Purpose: Runs of steps that may fail. If neighbouring steps can always be swapped, a run leads to the same state in
  every order of its steps.
Main exports: Swaps, foldlM_of_perm, exists_perm_forall₂
-/
import ReqTrace.Proofs.FileTree

namespace ReqTrace

/-! ### Steps in another order -/

section Runs

variable {σ α ε : Type} {step : σ → α → Except ε σ}

/-- If two steps can be carried out one after the other from a state, they can be the other way round, and lead to
    the same state. -/
def Swaps (step : σ → α → Except ε σ) (s : σ) (a b : α) : Prop :=
  ∀ next last, step s a = .ok next → step next b = .ok last →
    ∃ other, step s b = .ok other ∧ step other a = .ok last

theorem Swaps.refl (step : σ → α → Except ε σ) (s : σ) (a : α) : Swaps step s a a :=
  fun next _ hfirst hsecond => ⟨next, hfirst, hsecond⟩

/-- A run of steps succeeds in every order and with the same result. What is known of a state and the steps that
    are left is to hold again after a step, and it has to allow the next two steps to be swapped. -/
theorem foldlM_of_perm {I : σ → List α → Prop}
    (reorder : ∀ {s : σ} {l l' : List α}, l.Perm l' → I s l → I s l')
    (keeps : ∀ {s next : σ} {a : α} {l : List α}, I s (a :: l) → step s a = .ok next → I next l)
    (swaps : ∀ {s : σ} {a b : α} {l : List α}, I s (a :: b :: l) → Swaps step s a b)
    {l l' : List α} (perm : l.Perm l') {s last : σ} (h : I s l) (run : l.foldlM step s = .ok last) :
    l'.foldlM step s = .ok last := by
  induction perm generalizing s with
  | nil => exact run
  | cons a _ ih =>
      rw [List.foldlM_cons] at run ⊢
      obtain ⟨next, hstep, hrest⟩ := bind_eq_ok_iff.mp run
      exact bind_eq_ok_iff.mpr ⟨next, hstep, ih (keeps h hstep) hrest⟩
  | swap a b l =>
      rw [List.foldlM_cons] at run ⊢
      obtain ⟨next, hfirst, hrest⟩ := bind_eq_ok_iff.mp run
      rw [List.foldlM_cons] at hrest
      obtain ⟨both, hsecond, hrest⟩ := bind_eq_ok_iff.mp hrest
      obtain ⟨other, hfirst', hsecond'⟩ := swaps h next both hfirst hsecond
      refine bind_eq_ok_iff.mpr ⟨other, hfirst', ?_⟩
      rw [List.foldlM_cons]
      exact bind_eq_ok_iff.mpr ⟨both, hsecond', hrest⟩
  | trans perm _ ih ih' => exact ih' (reorder perm h) (ih h run)

end Runs

/-! ### Lists that match -/

/-- Lists whose members are related one to one match once the first one is put into the order of the second. -/
theorem exists_perm_forall₂ {α β : Type} {R : α → β → Prop} {l : List α} {l' : List β}
    (distinct : l.Pairwise fun a a' => ∀ b, R a b → ¬ R a' b)
    (distinct' : l'.Pairwise fun b b' => ∀ a, R a b → ¬ R a b')
    (related : ∀ a ∈ l, ∃ b ∈ l', R a b) (related' : ∀ b ∈ l', ∃ a ∈ l, R a b) :
    ∃ matched : List α, l.Perm matched ∧ List.Forall₂ R matched l' := by
  induction l' generalizing l with
  | nil =>
      cases l with
      | nil => exact ⟨[], .refl _, .nil⟩
      | cons a l =>
          obtain ⟨b, hb, -⟩ := related a List.mem_cons_self
          cases hb
  | cons b l' ih =>
      obtain ⟨a, ha, hab⟩ := related' b List.mem_cons_self
      obtain ⟨before, after, rfl⟩ := List.append_of_mem ha
      have hmoved : (before ++ a :: after).Perm (a :: (before ++ after)) := List.perm_middle
      have hothers := (hmoved.pairwise_iff fun {x y} h c hy hx => h c hx hy).mp distinct
      obtain ⟨hother, hothers⟩ := List.pairwise_cons.mp hothers
      obtain ⟨hother', hothers'⟩ := List.pairwise_cons.mp distinct'
      obtain ⟨matched, hperm, hmatched⟩ := ih hothers hothers'
        (fun x hx => by
          obtain ⟨c, hc, hxc⟩ := related x (hmoved.mem_iff.mpr (List.mem_cons_of_mem a hx))
          rcases List.mem_cons.mp hc with rfl | hc
          · exact absurd hxc (hother x hx c hab)
          · exact ⟨c, hc, hxc⟩)
        (fun c hc => by
          obtain ⟨x, hx, hxc⟩ := related' c (List.mem_cons_of_mem b hc)
          rcases List.mem_cons.mp (hmoved.mem_iff.mp hx) with rfl | hx
          · exact absurd hxc (hother' c hc x hab)
          · exact ⟨x, hx, hxc⟩)
      exact ⟨a :: matched, hmoved.trans (hperm.cons a), .cons hab hmatched⟩

end ReqTrace
