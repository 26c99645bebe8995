/-
Module: ReqTrace.Proofs.Text.Occurrences
Purpose: Leading parts of texts and trimming, and the matches of a pattern in a text that is cut at one of them:
  the matches before the cut do not depend on what follows it, and the ones after it are those of the rest.
Main exports: Text.dropLead?_eq_some_iff, Text.dropWhileEnd_append_stop, Text.trim_append_blank,
  Text.occurrencesFrom_shift, Text.CutAt, Text.occurrencesFrom_eq_append_cons,
  Text.occurrencesFrom_disjoint, Text.exists_mem_occurrencesFrom, Text.Apart, Text.mem_occurrences_iff
-/
import Mathlib.Data.List.Basic
import Mathlib.Data.List.TakeWhile
import ReqTrace.Text.Blank

namespace ReqTrace

namespace Text

/-! ### Leading parts -/

theorem dropLead?_eq_some_iff {lead t rest : Text} :
    dropLead? lead t = some rest ↔ t = lead ++ rest := by
  unfold dropLead?
  rw [List.isPrefixOf?_eq_some_iff_append_eq]
  exact eq_comm

/-- A text does not lead with one that differs from it within its length. -/
theorem dropLead?_append_of_ne {lead s : Text} (length : s.length = lead.length) (hne : s ≠ lead) (rest : Text) :
    dropLead? lead (s ++ rest) = none :=
  Option.eq_none_iff_forall_ne_some.mpr fun _ h =>
    hne (List.append_inj (dropLead?_eq_some_iff.mp h) length).1

theorem isSome_dropLead? (lead t : Text) : (dropLead? lead t).isSome = lead.isPrefixOf t :=
  List.isSome_isPrefixOf?_eq_isPrefixOf lead t

@[simp] theorem dropLead?_append (lead rest : Text) : dropLead? lead (lead ++ rest) = some rest :=
  dropLead?_eq_some_iff.mpr rfl

@[simp] theorem dropLead?_nil (t : Text) : dropLead? [] t = some t := by
  cases t <;> rfl

@[simp] theorem dropLead?_cons_nil (c : Char) (lead : Text) : dropLead? (c :: lead) [] = none := rfl

@[simp] theorem dropLead?_cons_cons (c c' : Char) (lead t : Text) :
    dropLead? (c :: lead) (c' :: t) = if c = c' then dropLead? lead t else none := by
  simp [dropLead?, List.isPrefixOf?]

theorem mem_of_append_eq_cons {s t rest : Text} {c : Char} (nonempty : s ≠ []) (h : s ++ t = c :: rest) : c ∈ s := by
  obtain ⟨first, others, rfl⟩ := List.exists_cons_of_ne_nil nonempty
  cases h
  exact List.mem_cons_self

theorem dropTail?_eq_some_iff {tail t rest : Text} : dropTail? tail t = some rest ↔ t = rest ++ tail := by
  unfold dropTail?
  simp only [Option.map_eq_some_iff, List.isPrefixOf?_eq_some_iff_append_eq]
  constructor
  · rintro ⟨reversed, happend, rfl⟩
    rw [← List.reverse_reverse t, ← happend]
    simp
  · rintro rfl
    exact ⟨rest.reverse, by simp, List.reverse_reverse rest⟩

/-- Whether a text starts with `lead` does not depend on what follows a character that `lead` does not have. -/
theorem dropLead?_append_stop {lead : Text} {c : Char} (plain : c ∉ lead) (s rest : Text) :
    dropLead? lead (s ++ c :: rest) = (dropLead? lead s).map (· ++ c :: rest) := by
  induction s generalizing lead with
  | nil =>
      cases lead with
      | nil => simp
      | cons a lead =>
          have ha : a ≠ c := fun heq => plain (heq ▸ List.mem_cons_self)
          simp [ha]
  | cons b s ih =>
      cases lead with
      | nil => simp
      | cons a lead =>
          have hrest := ih fun hmem => plain (List.mem_cons_of_mem _ hmem)
          by_cases hab : a = b
          · simp [hab, hrest]
          · simp [hab]

/-- Characters of a class run up to the first character outside of it. -/
theorem takeWhile_append_cons {p : Char → Bool} {s : Text} {c : Char} (rest : Text)
    (inside : ∀ x ∈ s, p x = true) (stop : p c = false) : (s ++ c :: rest).takeWhile p = s := by
  rw [List.takeWhile_append_of_pos inside]
  simp [stop]

theorem dropWhile_append_cons {p : Char → Bool} {s : Text} {c : Char} (rest : Text)
    (inside : ∀ x ∈ s, p x = true) (stop : p c = false) :
    (s ++ c :: rest).dropWhile p = c :: rest := by
  rw [List.dropWhile_append_of_pos inside]
  simp [stop]

/-- A text is cut at the first one of a character. -/
theorem cut?_eq_some_iff {sep : Char} {t before after : Text} :
    cut? sep t = some (before, after) ↔ t = before ++ sep :: after ∧ sep ∉ before := by
  constructor
  · intro h
    unfold cut? at h
    split at h
    · cases h
    · rename_i c rest hrest
      cases h
      have hstop := List.head_dropWhile_not (l := t) (· != sep) (by simp [hrest])
      simp only [hrest, List.head_cons, bne_eq_false_iff_eq] at hstop
      have hsplit := List.takeWhile_append_dropWhile (p := (· != sep)) (l := t)
      rw [hrest, hstop] at hsplit
      refine ⟨hsplit.symm, fun hmem => ?_⟩
      have hother := List.mem_takeWhile_imp hmem
      simp at hother
  · intro h
    obtain ⟨rfl, hbefore⟩ := h
    have hother : ∀ c ∈ before, (c != sep) = true := by
      intro c hc
      simpa using fun heq : c = sep => hbefore (heq ▸ hc)
    have hstop : (sep != sep) = false := by simp
    rw [cut?, dropWhile_append_cons after hother hstop, takeWhile_append_cons after hother hstop]

/-- Texts that are cut at their first separators are equal if their parts are. -/
theorem append_cons_inj {sep : Char} {part part' rest rest' : Text} (plain : sep ∉ part) (plain' : sep ∉ part') :
    part ++ sep :: rest = part' ++ sep :: rest' ↔ part = part' ∧ rest = rest' := by
  constructor
  · intro h
    have hcut := cut?_eq_some_iff.mpr ⟨h, plain'⟩
    rw [cut?_eq_some_iff.mpr ⟨rfl, plain⟩] at hcut
    cases hcut
    exact ⟨rfl, rfl⟩
  · rintro ⟨rfl, rfl⟩
    rfl

/-- What runs up to a character outside of the class does not depend on what follows that character. -/
theorem takeWhile_append_stop (p : Char → Bool) (s rest : Text) {c : Char} (stop : p c = false) :
    (s ++ c :: rest).takeWhile p = s.takeWhile p := by
  induction s with
  | nil => simp [stop]
  | cons a s ih =>
      by_cases h : p a = true
      · simp [h, ih]
      · simp [h]

theorem dropWhile_append_stop (p : Char → Bool) (s rest : Text) {c : Char} (stop : p c = false) :
    (s ++ c :: rest).dropWhile p = s.dropWhile p ++ c :: rest := by
  induction s with
  | nil => simp [stop]
  | cons a s ih =>
      by_cases h : p a = true
      · simp [h, ih]
      · simp [h]

/-- What is dropped at the end of a text does not reach beyond a character outside of the class. -/
theorem dropWhileEnd_append_stop (p : Char → Bool) (s rest : Text) {c : Char} (stop : p c = false) :
    dropWhileEnd p (s ++ c :: rest) = s ++ c :: dropWhileEnd p rest := by
  have hsplit : (s ++ c :: rest).reverse = rest.reverse ++ c :: s.reverse := by simp
  rw [dropWhileEnd, hsplit, dropWhile_append_stop p _ _ stop]
  simp [dropWhileEnd]

theorem dropWhileEnd_eq_self {p : Char → Bool} {t : Text} (h : ∀ c ∈ t.getLast?, p c = false) :
    dropWhileEnd p t = t := by
  rcases List.eq_nil_or_concat t with rfl | ⟨s, c, rfl⟩
  · rfl
  · rw [List.concat_eq_append] at h ⊢
    exact dropWhileEnd_append_stop p s [] (h c (by simp))

theorem dropWhileEnd_append_of_pos {p : Char → Bool} {rest : Text} (h : ∀ c ∈ rest, p c = true) (t : Text) :
    dropWhileEnd p (t ++ rest) = dropWhileEnd p t := by
  rw [dropWhileEnd, List.reverse_append, List.dropWhile_append_of_pos (by simpa using h), dropWhileEnd]

theorem prefix_dropWhileEnd (p : Char → Bool) (t : Text) : dropWhileEnd p t <+: t := by
  rw [← List.reverse_suffix, dropWhileEnd, List.reverse_reverse]
  exact List.dropWhile_suffix p

theorem takeWhile_append_of_dropWhile_ne_nil {p : Char → Bool} {s : Text} (h : s.dropWhile p ≠ [])
    (rest : Text) : (s ++ rest).takeWhile p = s.takeWhile p := by
  rw [List.takeWhile_append, if_neg]
  intro hlength
  have hsum := congrArg List.length (List.takeWhile_append_dropWhile (p := p) (l := s))
  rw [List.length_append, hlength] at hsum
  exact h (List.length_eq_zero_iff.mp (by omega))

/-! ### Trimming -/

theorem trimEnd_append_stop (s rest : Text) {c : Char} (stop : isBlankChar c = false) :
    trimEnd (s ++ c :: rest) = s ++ c :: trimEnd rest :=
  dropWhileEnd_append_stop isBlankChar s rest stop

theorem trim_append_blank {blanks : Text} (h : ∀ c ∈ blanks, isBlankChar c = true) (t : Text) :
    trim (t ++ blanks) = trim t := by
  rw [trim, trimStart, List.dropWhile_append]
  split
  · rename_i hblank
    rw [trim, trimStart, List.isEmpty_iff.mp hblank, List.dropWhile_eq_nil_iff.mpr h]
  · exact dropWhileEnd_append_of_pos h _

theorem trim_blank_append {blanks : Text} (h : ∀ c ∈ blanks, isBlankChar c = true) (t : Text) :
    trim (blanks ++ t) = trim t := by
  rw [trim, trimStart, List.dropWhile_append_of_pos h]
  rfl

/-! ### Matches -/

variable {α : Type} (read? : Text → Option (α × Nat))

/-- Matches are found at the same places relative to the start of the text. -/
theorem occurrencesFrom_shift (skip position k : Nat) (t : Text) :
    occurrencesFrom read? skip (position + k) t =
      (occurrencesFrom read? skip position t).map fun found => (found.1 + k, found.2) := by
  induction t generalizing skip position with
  | nil => simp [occurrencesFrom]
  | cons c cs ih =>
      have next : position + k + c.utf8Size = position + c.utf8Size + k := by omega
      cases skip with
      | succ skip => simp only [occurrencesFrom, next, ih]
      | zero =>
          simp only [occurrencesFrom, next]
          cases read? (c :: cs) with
          | none => exact ih 0 _
          | some found => simp [ih]

variable {read?}

/-- No match starts with one of the characters that are passed over. -/
theorem occurrencesFrom_append_of_none {s t : Text} (position : Nat)
    (none : ∀ c ∈ s, ∀ rest, read? (c :: rest) = none) :
    occurrencesFrom read? 0 position (s ++ t) =
      occurrencesFrom read? 0 (position + byteLength s) t := by
  induction s generalizing position with
  | nil => simp
  | cons c s ih =>
      have first : read? (c :: (s ++ t)) = .none := none c (by simp) _
      have rest := ih (position + c.utf8Size) fun c hc => none c (List.mem_cons_of_mem _ hc)
      simp only [List.cons_append, occurrencesFrom, first, rest, byteLength_cons, Nat.add_assoc]

/-- After a match the search goes on behind it. -/
theorem occurrencesFrom_append_match {s t : Text} {found : α} (position : Nat) (nonempty : s ≠ [])
    (first : read? (s ++ t) = some (found, s.length)) :
    occurrencesFrom read? 0 position (s ++ t) =
      (position, found) :: occurrencesFrom read? 0 (position + byteLength s) t := by
  cases s with
  | nil => exact absurd rfl nonempty
  | cons c s =>
      rw [List.cons_append] at first ⊢
      rw [occurrencesFrom, first]
      simp only [List.length_cons, Nat.add_sub_cancel]
      rw [occurrencesFrom_append, byteLength_cons, Nat.add_assoc]

/-- Matches start behind what is passed over. -/
theorem le_of_mem_occurrencesFrom {skip position : Nat} {t : Text} {found : Nat × α}
    (h : found ∈ occurrencesFrom read? skip position t) :
    position + byteLength (t.take skip) ≤ found.1 := by
  induction t generalizing skip position with
  | nil => simp [occurrencesFrom] at h
  | cons c cs ih =>
      cases skip with
      | succ skip =>
          have hrest := ih h
          simp only [List.take_succ_cons, byteLength_cons]
          omega
      | zero =>
          simp only [List.take_zero, byteLength_nil, Nat.add_zero]
          rw [occurrencesFrom] at h
          split at h
          · rcases List.mem_cons.mp h with rfl | h
            · exact Nat.le_refl _
            · have hrest := ih h
              omega
          · have hrest := ih h
            omega

/-- Matches are found from left to right. -/
theorem occurrencesFrom_ascending (skip position : Nat) (t : Text) :
    (occurrencesFrom read? skip position t).Pairwise fun a b => a.1 < b.1 := by
  induction t generalizing skip position with
  | nil => simp [occurrencesFrom]
  | cons c cs ih =>
      cases skip with
      | succ skip => exact ih skip _
      | zero =>
          rw [occurrencesFrom]
          split
          · refine List.pairwise_cons.mpr ⟨fun found hfound => ?_, ih _ _⟩
            have hle := le_of_mem_occurrencesFrom hfound
            have hsize := c.utf8Size_pos
            simp only
            omega
          · exact ih 0 _

/-- A match ends before the next one starts. The size of what is found is that of the characters it takes. -/
theorem occurrencesFrom_disjoint (size : α → Nat)
    (takes : ∀ t found length, read? t = some (found, length) → size found = byteLength (t.take length))
    (skip position : Nat) (t : Text) :
    (occurrencesFrom read? skip position t).Pairwise fun a b => a.1 + size a.2 ≤ b.1 := by
  induction t generalizing skip position with
  | nil => simp [occurrencesFrom]
  | cons c cs ih =>
      cases skip with
      | succ skip => exact ih skip _
      | zero =>
          rw [occurrencesFrom]
          split
          · rename_i found length hread
            refine List.pairwise_cons.mpr ⟨fun next hnext => ?_, ih _ _⟩
            have hle := le_of_mem_occurrencesFrom hnext
            have hsize := takes _ _ _ hread
            cases length with
            | zero =>
                simp only [List.take_zero, byteLength_nil] at hsize
                simp only
                omega
            | succ length =>
                simp only [List.take_succ_cons, byteLength_cons, Nat.add_sub_cancel] at hsize hle
                simp only
                omega
          · exact ih 0 _

/-- A text that is cut before one of its matches. The matches before the cut are those of any other text that
    goes on in such a way that the pattern answers as before at all places before the cut. -/
structure CutAt (read? : Text → Option (α × Nat)) (skip position : Nat) (earlier : List (Nat × α)) (p : Nat)
    (found : α) (later : List (Nat × α)) (t before u : Text) (length : Nat) : Prop where
  text : t = before ++ u
  place : p = position + byteLength before
  read : read? u = some (found, length)
  later : occurrencesFrom read? 0 p u = (p, found) :: later
  earlier : ∀ v, (∀ w, w ≠ [] → w <:+ before → read? (w ++ v) = read? (w ++ u)) →
    occurrencesFrom read? skip position (before ++ v) = earlier ++ occurrencesFrom read? 0 p v

/-- The cut with one character more in front, which is passed over or starts a match. -/
theorem CutAt.cons {skip skip' position p length : Nat} {found : α} {c : Char} {cs before u : Text}
    {earlier later : List (Nat × α)} (first : List (Nat × α))
    (h : CutAt read? skip' (position + c.utf8Size) earlier p found later cs before u length)
    (step : ∀ rest, read? (c :: rest) = read? (c :: cs) → occurrencesFrom read? skip position (c :: rest) =
      first ++ occurrencesFrom read? skip' (position + c.utf8Size) rest) :
    CutAt read? skip position (first ++ earlier) p found later (c :: cs) (c :: before) u length := by
  refine ⟨by rw [h.text, List.cons_append], by rw [h.place, byteLength_cons, Nat.add_assoc], h.read, h.later,
    fun v hv => ?_⟩
  have hfirst : read? (c :: (before ++ v)) = read? (c :: cs) := by
    rw [h.text]
    exact hv (c :: before) (by simp) (List.suffix_refl _)
  rw [List.cons_append, step _ hfirst, List.append_assoc]
  exact congrArg _ (h.earlier v fun w hw hsuffix => hv w hw (hsuffix.trans (List.suffix_cons c before)))

/-- A text is cut at any of its matches. -/
theorem occurrencesFrom_eq_append_cons {skip position p : Nat} {t : Text} {found : α}
    {earlier later : List (Nat × α)}
    (h : occurrencesFrom read? skip position t = earlier ++ (p, found) :: later) :
    ∃ before u length, CutAt read? skip position earlier p found later t before u length := by
  induction t generalizing skip position earlier with
  | nil => simp [occurrencesFrom] at h
  | cons c cs ih =>
      cases skip with
      | succ skip =>
          rw [occurrencesFrom] at h
          obtain ⟨before, u, length, hcut⟩ := ih h
          exact ⟨c :: before, u, length, CutAt.cons [] hcut fun rest _ => rfl⟩
      | zero =>
          cases hread : read? (c :: cs) with
          | none =>
              rw [occurrencesFrom, hread] at h
              obtain ⟨before, u, length, hcut⟩ := ih h
              refine ⟨c :: before, u, length, CutAt.cons [] hcut fun rest hrest => ?_⟩
              rw [occurrencesFrom, hrest, hread]
              rfl
          | some found' =>
              rw [occurrencesFrom, hread] at h
              cases earlier with
              | nil =>
                  -- The match at the front is the one that is asked for.
                  simp only [List.nil_append, List.cons.injEq, Prod.mk.injEq] at h
                  obtain ⟨⟨rfl, rfl⟩, hlater⟩ := h
                  refine ⟨[], c :: cs, found'.2, rfl, by simp, hread, ?_, fun v _ => by simp⟩
                  rw [occurrencesFrom, hread]
                  exact congrArg _ hlater
              | cons e earlier =>
                  simp only [List.cons_append, List.cons.injEq] at h
                  obtain ⟨rfl, h⟩ := h
                  obtain ⟨before, u, length, hcut⟩ := ih h
                  refine ⟨c :: before, u, length,
                    CutAt.cons [(position, found'.1)] hcut fun rest hrest => ?_⟩
                  rw [occurrencesFrom, hrest, hread]
                  rfl

/-- Every place where the pattern matches is the start of a match that is found or lies inside of one. -/
theorem exists_mem_occurrencesFrom (nil : read? [] = none) {before u : Text}
    (hread : (read? u).isSome = true) {skip : Nat} (hskip : skip ≤ before.length) (position : Nat) :
    ∃ before' inside found length, before = before' ++ inside ∧
      (position + byteLength before', found) ∈ occurrencesFrom read? skip position (before ++ u) ∧
      read? (inside ++ u) = some (found, length) ∧ (inside = [] ∨ inside.length < length) := by
  induction before generalizing skip position with
  | nil =>
      obtain rfl : skip = 0 := Nat.le_zero.mp hskip
      cases u with
      | nil =>
          rw [nil] at hread
          cases hread
      | cons c u =>
          obtain ⟨⟨found, length⟩, hfirst⟩ := Option.isSome_iff_exists.mp hread
          refine ⟨[], [], found, length, rfl, ?_, hfirst, .inl rfl⟩
          rw [List.nil_append, occurrencesFrom, hfirst]
          exact List.mem_cons_self
  | cons c before ih =>
      -- What is found behind the first character is found in the whole text.
      have behind : ∀ skip', skip' ≤ before.length →
          (∀ entry ∈ occurrencesFrom read? skip' (position + c.utf8Size) (before ++ u),
            entry ∈ occurrencesFrom read? skip position (c :: (before ++ u))) →
          ∃ before' inside found length, c :: before = before' ++ inside ∧
            (position + byteLength before', found) ∈
              occurrencesFrom read? skip position (c :: (before ++ u)) ∧
            read? (inside ++ u) = some (found, length) ∧ (inside = [] ∨ inside.length < length) := by
        intro skip' hskip' hsub
        obtain ⟨before', inside, found, length, rfl, hmem, hfirst, hinside⟩ :=
          ih hskip' (position + c.utf8Size)
        rw [Nat.add_assoc] at hmem
        exact ⟨c :: before', inside, found, length, rfl, hsub _ hmem, hfirst, hinside⟩
      rw [List.cons_append]
      cases skip with
      | succ skip =>
          rw [occurrencesFrom] at behind ⊢
          exact behind skip (Nat.le_of_succ_le_succ hskip) fun entry hentry => hentry
      | zero =>
          cases hfirst : read? (c :: (before ++ u)) with
          | none =>
              rw [occurrencesFrom, hfirst] at behind ⊢
              exact behind 0 (Nat.zero_le _) fun entry hentry => hentry
          | some first =>
              obtain ⟨first, length⟩ := first
              rw [occurrencesFrom, hfirst] at behind ⊢
              by_cases hlength : length ≤ before.length + 1
              · exact behind (length - 1) (Nat.sub_le_of_le_add hlength) fun entry hentry =>
                  List.mem_cons_of_mem _ hentry
              · exact ⟨[], c :: before, first, length, rfl, List.mem_cons_self, hfirst,
                  .inr (Nat.lt_of_not_le hlength)⟩

/-- No match of the pattern starts inside another one, and there is none at the end of a text. -/
structure Apart {α : Type} (read? : Text → Option (α × Nat)) : Prop where
  nil : read? [] = none
  le_length : ∀ {s u : Text} {found : α × Nat}, s ≠ [] → read? (s ++ u) = some found →
    (read? u).isSome = true → found.2 ≤ s.length

/-- If no match starts inside another one, the matches that are found are all places where the pattern matches. -/
theorem mem_occurrences_iff (apart : Apart read?) {t : Text} {p : Nat} {found : α} :
    (p, found) ∈ occurrences read? t ↔
      ∃ before u length, t = before ++ u ∧ p = byteLength before ∧ read? u = some (found, length) := by
  constructor
  · intro h
    obtain ⟨earlier, later, hsplit⟩ := List.append_of_mem h
    obtain ⟨before, u, length, ht, hp, hread, -⟩ := occurrencesFrom_eq_append_cons hsplit
    exact ⟨before, u, length, ht, hp.trans (Nat.zero_add _), hread⟩
  · intro h
    obtain ⟨before, u, length, rfl, rfl, hread⟩ := h
    have hsome : (read? u).isSome = true := by rw [hread]; rfl
    obtain ⟨before', inside, first, length', rfl, hmem, hfirst, hinside⟩ :=
      exists_mem_occurrencesFrom apart.nil hsome (Nat.zero_le before.length) 0
    cases inside with
    | nil =>
        rw [List.nil_append, hread] at hfirst
        cases hfirst
        rw [occurrences]
        simpa only [Nat.zero_add, List.append_nil] using hmem
    | cons c inside =>
        -- A match around the place would end before it.
        have hlt := hinside.resolve_left (List.cons_ne_nil c inside)
        exact absurd hlt (Nat.not_lt_of_le (apart.le_length (List.cons_ne_nil c inside) hfirst hsome))

end Text

end ReqTrace
