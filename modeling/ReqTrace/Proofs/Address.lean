/-
Module: ReqTrace.Proofs.Address
Purpose: The characters of web addresses. All parts of a URL that is read are written in printable ASCII, and
  so the address of a file holds no blanks, and a closing parenthesis only outside of its path.
Main exports: IsPrintable, Url.Printable, Url.printable_of_parse?, Location.printable_of_ofRemote,
  Location.isUrlChar_fileUrl_iff
-/
import ReqTrace.Proofs.Document.Footnote
import ReqTrace.Proofs.FileTree
import ReqTrace.Proofs.Url.Percent

namespace ReqTrace

open Text

/-! ### Printable characters -/

/-- The characters of ASCII that are neither control characters nor the space. -/
def IsPrintable (c : Char) : Prop :=
  0x20 < c.toNat ∧ c.toNat < 0x7f

instance (c : Char) : Decidable (IsPrintable c) :=
  inferInstanceAs (Decidable (_ ∧ _))

theorem IsPrintable.notBlank {c : Char} (h : IsPrintable c) : isBlankChar c = false := by
  obtain ⟨hlow, hhigh⟩ := h
  simp only [isBlankChar, inRanges, blankRanges, List.any_cons, List.any_nil, Bool.or_false,
    Bool.or_eq_false_iff, Bool.and_eq_false_iff, decide_eq_false_iff_not]
  omega

theorem IsPrintable.isUrlChar_iff {c : Char} (h : IsPrintable c) : Coverer.isUrlChar c = true ↔ c ≠ ')' := by
  simp [Coverer.isUrlChar, h.notBlank]

theorem digitChar_mem (n : Nat) : Nat.digitChar n ∈ "0123456789abcdef*".toList := by
  by_cases h : n < 16
  · have hall : ∀ k < 16, Nat.digitChar k ∈ "0123456789abcdef*".toList := by decide
    exact hall n h
  · have hnone : Nat.digitChar n = '*' := by
      unfold Nat.digitChar
      repeat rw [if_neg (by omega)]
    rw [hnone]
    decide

theorem isPrintable_digitChar (n : Nat) : IsPrintable (Nat.digitChar n) := by
  have hall : ∀ c ∈ "0123456789abcdef*".toList, IsPrintable c := by decide
  exact hall _ (digitChar_mem n)

theorem exists_digitChar_of_mem_toDigits {base n : Nat} {c : Char} (h : c ∈ Nat.toDigits base n) :
    ∃ k, c = Nat.digitChar k := by
  have hcore : ∀ (fuel n : Nat) (done : List Char), (∀ c ∈ done, ∃ k, c = Nat.digitChar k) →
      ∀ c ∈ Nat.toDigitsCore base fuel n done, ∃ k, c = Nat.digitChar k := by
    intro fuel
    induction fuel with
    | zero => exact fun _ _ hdone => hdone
    | succ fuel ih =>
        intro n done hdone
        have hnext : ∀ c ∈ Nat.digitChar (n % base) :: done, ∃ k, c = Nat.digitChar k :=
          List.forall_mem_cons.mpr ⟨⟨_, rfl⟩, hdone⟩
        unfold Nat.toDigitsCore
        simp only
        split
        · exact hnext
        · exact ih _ _ hnext
  exact hcore _ _ _ (by simp) c h

theorem isPrintable_of_mem_toDigits {base n : Nat} {c : Char} (h : c ∈ Nat.toDigits base n) :
    IsPrintable c := by
  obtain ⟨k, rfl⟩ := exists_digitChar_of_mem_toDigits h
  exact isPrintable_digitChar k

theorem mem_of_mem_join {sep : Text} {parts : List Text} {c : Char} (h : c ∈ Text.join sep parts) :
    c ∈ sep ∨ ∃ part ∈ parts, c ∈ part := by
  induction parts with
  | nil => simp [Text.join] at h
  | cons first parts ih =>
      cases parts with
      | nil => exact .inr ⟨first, by simp, by simpa [Text.join] using h⟩
      | cons second parts =>
          rw [Text.join, List.intercalate_cons_cons, List.mem_append, List.mem_append] at h
          rcases h with (h | h) | h
          · exact .inr ⟨first, List.mem_cons_self, h⟩
          · exact .inl h
          · rcases ih h with hsep | ⟨part, hpart, hc⟩
            · exact .inl hsep
            · exact .inr ⟨part, List.mem_cons_of_mem _ hpart, hc⟩

/-! ### Percent-encoding -/

namespace Percent

/-- What is left after encoding is printable if all other characters are encoded. -/
theorem isPrintable_of_mem_encode {p : Char → Bool} {t : Text}
    (hp : ∀ c ∈ t, p c = false → IsPrintable c) {c : Char} (h : c ∈ encode p t) : IsPrintable c := by
  have hcodes : ∀ c ∈ codeChars, IsPrintable c := by decide
  exact (mem_encode h).elim (fun hkept => hp c hkept.1 hkept.2) (hcodes c)

theorem isPrintable_of_isControlOrWide {c : Char} (h : isControlOrWide c = false) (hspace : c ≠ ' ') :
    IsPrintable c := by
  simp only [isControlOrWide, Bool.or_eq_false_iff, decide_eq_false_iff_not, Char.not_lt] at h
  have hlow : 0x20 ≤ c.toNat := h.1
  have hhigh : c.toNat ≤ 0x7e := h.2
  have hne : c.toNat ≠ 0x20 := fun heq => hspace (Char.toNat_inj.mp heq)
  exact ⟨by omega, by omega⟩

theorem isControlOrWide_of_isPrintable {c : Char} (h : IsPrintable c) : isControlOrWide c = false := by
  have hlow : ' ' ≤ c := Nat.le_of_lt h.1
  have hhigh : c ≤ '~' := Nat.le_of_lt_succ h.2
  simp only [isControlOrWide, Bool.or_eq_false_iff, decide_eq_false_iff_not, Char.not_lt]
  exact ⟨hlow, hhigh⟩

theorem isPrintable_of_inFragment {c : Char} (h : inFragment c = false) : IsPrintable c := by
  simp only [inFragment, Bool.or_eq_false_iff, beq_eq_false_iff_ne] at h
  exact isPrintable_of_isControlOrWide h.1.1.1.1.1 h.1.1.1.1.2

theorem isPrintable_of_inQuery {c : Char} (h : inQuery c = false) : IsPrintable c := by
  simp only [inQuery, Bool.or_eq_false_iff, beq_eq_false_iff_ne] at h
  exact isPrintable_of_isControlOrWide h.1.1.1.1.1.1 h.1.1.1.1.1.2

theorem isPrintable_of_inPath {c : Char} (h : inPath c = false) : IsPrintable c := by
  simp only [inPath, Bool.or_eq_false_iff] at h
  exact isPrintable_of_inFragment h.1.1.1.1

theorem isPrintable_of_inSegment {c : Char} (h : inSegment c = false) : IsPrintable c := by
  simp only [inSegment, Bool.or_eq_false_iff] at h
  exact isPrintable_of_inPath h.1.1.1

end Percent

/-! ### Hosts -/

namespace Punycode

theorem toNat_digit_lt {n : Nat} (h : n < 36) : (digit n).toNat < 128 := by
  have hall : ∀ k < 36, (digit k).toNat < 128 := by decide
  exact hall n h

theorem threshold_le (k bias : Nat) : threshold k bias ≤ 26 :=
  Nat.min_le_left _ _

theorem toNat_lt_of_mem_writeNumber {fuel k bias n : Nat} {c : Char} (h : c ∈ writeNumber fuel k bias n) :
    c.toNat < 128 := by
  induction fuel generalizing k n with
  | zero => cases h
  | succ fuel ih =>
      have hle := threshold_le k bias
      rw [writeNumber] at h
      split at h
      · rename_i hlt
        rw [List.mem_singleton.mp h]
        exact toNat_digit_lt (by omega)
      · rcases List.mem_cons.mp h with rfl | h
        · have hmod := Nat.mod_lt (n - threshold k bias) (show 0 < 36 - threshold k bias by omega)
          exact toNat_digit_lt (by omega)
        · exact ih h

theorem toNat_lt_of_step {basic n c : Nat} {s : State} (h : ∀ x ∈ s.written, x.toNat < 128) :
    ∀ x ∈ (step basic n s c).written, x.toNat < 128 := by
  unfold step
  split
  · exact h
  · split
    · intro x hx
      rcases List.mem_append.mp hx with hx | hx
      · exact h x hx
      · exact toNat_lt_of_mem_writeNumber hx
    · exact h

theorem toNat_lt_of_rounds {basic before : Nat} {codes ns : List Nat} {s : State}
    (h : ∀ x ∈ s.written, x.toNat < 128) : ∀ x ∈ (rounds basic codes before ns s).written, x.toNat < 128 := by
  have hround : ∀ (n : Nat) (codes : List Nat) (s : State), (∀ x ∈ s.written, x.toNat < 128) →
      ∀ x ∈ (codes.foldl (step basic n) s).written, x.toNat < 128 := by
    intro n codes
    induction codes with
    | nil => exact fun _ h => h
    | cons c codes ih => exact fun s h => ih _ (toNat_lt_of_step h)
  induction ns generalizing before s with
  | nil => exact h
  | cons n ns ih =>
      apply ih
      exact hround n codes _ h

theorem toNat_lt_of_mem_encode {label : Text} {c : Char} (h : c ∈ encode label) : c.toNat < 128 := by
  refine toNat_lt_of_rounds ?_ c h
  intro x hx
  have hbasic : ∀ y ∈ label.filter (·.toNat < 128), y.toNat < 128 := by
    intro y hy
    simpa using (List.mem_filter.mp hy).2
  simp only at hx
  split at hx
  · cases hx
  · rcases List.mem_append.mp hx with hx | hx
    · exact hbasic x hx
    · rw [List.mem_singleton.mp hx]
      decide

end Punycode

namespace Domain

theorem toNat_lt_of_readLabel? {t : Text} {label : Label} (h : readLabel? t = some label) :
    ∀ c ∈ label.written, c.toNat < 128 := by
  have hascii : ∀ {t : Text}, isAscii t = true → ∀ c ∈ t, c.toNat < 128 := by
    intro t ht c hc
    simpa using List.all_eq_true.mp ht c hc
  unfold readLabel? at h
  split at h
  · simp only [Option.bind_eq_bind, Option.bind_eq_some_iff] at h
    obtain ⟨_, hguard, shown, _, _, _, heq⟩ := h
    cases heq
    exact hascii ((Option.guard_eq_some' _).mp hguard).1
  · split at h
    · rename_i hlabel
      cases h
      exact hascii hlabel
    · obtain ⟨-, -, heq⟩ := Option.bind_eq_some_iff.mp h
      cases heq
      intro c hc
      rcases List.mem_append.mp hc with hc | hc
      · exact hascii (by decide) c hc
      · exact Punycode.toNat_lt_of_mem_encode hc

theorem isForbidden_of_mem_write? {t name : Text} (h : write? t = some name) :
    ∀ c ∈ name, isForbidden c = false := by
  simp only [write?, Option.bind_eq_bind, Option.bind_eq_some_iff] at h
  obtain ⟨_, _, _, _, _, _, _, hguard, heq⟩ := h
  cases heq
  have hallowed := (Option.guard_eq_some' _).mp hguard
  simp only [Bool.not_eq_true', List.any_eq_false] at hallowed
  exact fun c hc => by simpa using hallowed c hc

theorem isPrintable_of_mem_write? {t name : Text} (h : write? t = some name) :
    ∀ c ∈ name, IsPrintable c := by
  have hallowed := isForbidden_of_mem_write? h
  simp only [write?, Option.bind_eq_bind, Option.bind_eq_some_iff] at h
  obtain ⟨folded, _, labels, hlabels, _, _, _, _, heq⟩ := h
  cases heq
  have hwritten : ∀ {names : List Text} {labels : List Label}, names.mapM readLabel? = some labels →
      ∀ label ∈ labels, ∀ c ∈ label.written, c.toNat < 128 := by
    intro names
    induction names with
    | nil =>
        intro labels h
        cases h
        simp
    | cons first names ih =>
        intro labels h
        rw [List.mapM_cons] at h
        obtain ⟨label, hfirst, hmore⟩ := Option.bind_eq_some_iff.mp h
        obtain ⟨others, hothers, heq⟩ := Option.bind_eq_some_iff.mp hmore
        cases heq
        exact List.forall_mem_cons.mpr ⟨toNat_lt_of_readLabel? hfirst, ih hothers⟩
  intro c hc
  have hforbidden := hallowed c hc
  have hascii : c.toNat < 128 := by
    rcases mem_of_mem_join hc with hdot | ⟨part, hpart, hmem⟩
    · rw [List.mem_singleton.mp hdot]
      decide
    · obtain ⟨label, hlabel, rfl⟩ := List.mem_map.mp hpart
      exact hwritten hlabels label hlabel c hmem
  simp only [isForbidden, Bool.or_eq_false_iff, decide_eq_false_iff_not, beq_eq_false_iff_ne] at hforbidden
  have hlow : ¬ c.toNat ≤ 0x20 := hforbidden.1.1
  have hdelete : c.toNat ≠ 0x7f := fun heq => hforbidden.1.2 (Char.toNat_inj.mp heq)
  exact ⟨by omega, by omega⟩

end Domain

namespace Host

theorem mem_writeAddress4 {n : Nat} {c : Char} (h : c ∈ writeAddress4 n) :
    c = '.' ∨ ∃ k, c = Nat.digitChar k := by
  rcases mem_of_mem_join h with hdot | ⟨part, hpart, hc⟩
  · exact .inl (List.mem_singleton.mp hdot)
  · obtain ⟨byte, -, rfl⟩ := List.mem_map.mp hpart
    exact .inr (exists_digitChar_of_mem_toDigits hc)

theorem mem_writeAddress6 {pieces : List Nat} {c : Char} (h : c ∈ writeAddress6 pieces) :
    c = ':' ∨ ∃ k, c = Nat.digitChar k := by
  have hpieces : ∀ {pieces : List Nat}, c ∈ writePieces pieces → c = ':' ∨ ∃ k, c = Nat.digitChar k := by
    intro pieces h
    rcases mem_of_mem_join h with hcolon | ⟨part, hpart, hc⟩
    · exact .inl (List.mem_singleton.mp hcolon)
    · obtain ⟨piece, -, rfl⟩ := List.mem_map.mp hpart
      exact .inr (exists_digitChar_of_mem_toDigits hc)
  unfold writeAddress6 at h
  simp only at h
  split at h
  · exact hpieces h
  · rcases List.mem_append.mp h with h | h
    · rcases List.mem_append.mp h with h | h
      · exact hpieces h
      · exact .inl (by simpa using h)
    · exact hpieces h

theorem mem_bracketed? {t host : Text} (h : bracketed? t = some host) {c : Char} (hc : c ∈ host) :
    c ∈ "[:]".toList ∨ ∃ k, c = Nat.digitChar k := by
  obtain ⟨inner, -, hmore⟩ := Option.bind_eq_some_iff.mp h
  obtain ⟨pieces, -, heq⟩ := Option.bind_eq_some_iff.mp hmore
  cases heq
  rcases List.mem_append.mp hc with hc | hc
  · rcases List.mem_cons.mp hc with rfl | hc
    · exact .inl (by decide)
    · rcases mem_writeAddress6 hc with rfl | hdigit
      · exact .inl (by decide)
      · exact .inr hdigit
  · rw [List.mem_singleton.mp hc]
    exact .inl (by decide)

theorem isPrintable_of_mem_bracketed? {t host : Text} (h : bracketed? t = some host) :
    ∀ c ∈ host, IsPrintable c := by
  have hmarks : ∀ c ∈ "[:]".toList, IsPrintable c := by
    simp only [String.reduceToList, List.forall_mem_cons, List.not_mem_nil, false_imp_iff, implies_true, and_true]
    decide
  intro c hc
  rcases mem_bracketed? h hc with hmark | ⟨k, rfl⟩
  · exact hmarks c hmark
  · exact isPrintable_digitChar k

/-- The host of a web URL is an address in brackets, an address of four numbers or a name. -/
theorem ofWeb?_cases {t host : Text} (h : ofWeb? t = some host) :
    bracketed? t = some host ∨ (∃ n, host = writeAddress4 n) ∨ ∃ name, Domain.write? name = some host := by
  unfold ofWeb? at h
  split at h
  · exact .inl h
  · simp only [Option.bind_eq_bind, Option.bind_eq_some_iff] at h
    obtain ⟨decoded, _, name, hname, _, _, hwritten⟩ := h
    split at hwritten
    · obtain ⟨n, -, rfl⟩ := Option.map_eq_some_iff.mp hwritten
      exact .inr (.inl ⟨n, rfl⟩)
    · cases hwritten
      exact .inr (.inr ⟨decoded, hname⟩)

/-- The host of another URL is an address in brackets, or a text without certain characters is encoded. -/
theorem ofOpaque?_cases {t host : Text} (h : ofOpaque? t = some host) :
    bracketed? t = some host ∨
      (∀ c ∈ t, isForbiddenOpaque c = false) ∧ host = Percent.encode Percent.inOpaqueHost t := by
  unfold ofOpaque? at h
  split at h
  · exact .inl h
  · split at h
    · cases h
    · rename_i hproper
      cases h
      exact .inr ⟨by simpa using (not_or.mp hproper).2, rfl⟩

theorem isPrintable_of_mem_ofWeb? {t host : Text} (h : ofWeb? t = some host) :
    ∀ c ∈ host, IsPrintable c := by
  rcases ofWeb?_cases h with hbracketed | ⟨n, rfl⟩ | ⟨name, hname⟩
  · exact isPrintable_of_mem_bracketed? hbracketed
  · intro c hc
    rcases mem_writeAddress4 hc with rfl | ⟨k, rfl⟩
    · decide
    · exact isPrintable_digitChar k
  · exact Domain.isPrintable_of_mem_write? hname

theorem isPrintable_of_mem_ofOpaque? {t host : Text} (h : ofOpaque? t = some host) :
    ∀ c ∈ host, IsPrintable c := by
  rcases ofOpaque?_cases h with hbracketed | ⟨hallowed, rfl⟩
  · exact isPrintable_of_mem_bracketed? hbracketed
  · refine fun c hc => Percent.isPrintable_of_mem_encode (fun c hc hkept => ?_) hc
    refine Percent.isPrintable_of_isControlOrWide hkept ?_
    rintro rfl
    exact absurd (hallowed _ hc) (by decide)

end Host

/-! ### URLs -/

namespace Url

/-- A URL in printable ASCII. -/
structure Printable (u : Url) : Prop where
  host : ∀ c ∈ u.host, IsPrintable c
  segments : ∀ segment ∈ u.segments, ∀ c ∈ segment, IsPrintable c
  query : ∀ c ∈ u.query.getD [], IsPrintable c
  fragment : ∀ c ∈ u.fragment.getD [], IsPrintable c

theorem mem_above {directories : List Text} {segment : Text} (h : segment ∈ above directories) :
    segment ∈ directories := by
  unfold above at h
  split at h
  · exact h
  · split at h
    · exact h
    · exact List.mem_cons_of_mem _ h

theorem mem_enter {directories : List Text} {segment other : Text} (h : other ∈ enter directories segment) :
    other = segment ∨ other ∈ directories := by
  unfold enter at h
  split at h
  · exact .inr (mem_above h)
  · split at h
    · exact .inr h
    · exact List.mem_cons.mp h

theorem mem_finish {directories : List Text} {segment other : Text} (h : other ∈ finish directories segment) :
    other = [] ∨ other = segment ∨ other ∈ directories := by
  unfold finish at h
  split at h
  · exact (List.mem_cons.mp h).imp_right fun h => .inr (mem_above h)
  · split at h
    · exact (List.mem_cons.mp h).imp_right .inr
    · exact .inr (List.mem_cons.mp h)

/-- A path is made of its parts. -/
theorem mem_resolve {parts : List Text} {segment : Text} (h : segment ∈ resolve parts) :
    segment = [] ∨ segment ∈ parts := by
  have hfold : ∀ (parts directories : List Text), segment ∈ parts.foldl enter directories →
      segment ∈ parts ∨ segment ∈ directories := by
    intro parts
    induction parts with
    | nil => exact fun _ h => .inr h
    | cons first parts ih =>
        intro directories h
        rcases ih _ h with h | h
        · exact .inl (List.mem_cons_of_mem _ h)
        · rcases mem_enter h with rfl | h
          · exact .inl List.mem_cons_self
          · exact .inr h
  rcases mem_finish h with h | rfl | h
  · exact .inl h
  · cases hlast : parts.getLast? with
    | none => exact .inl rfl
    | some last => exact .inr (List.mem_of_getLast? hlast)
  · rcases hfold _ _ h with h | h
    · exact .inr (List.dropLast_subset _ h)
    · cases h

theorem printable_of_parse? {t : Text} {u : Url} (h : parse? t = some u) : u.Printable := by
  simp only [parse?, Option.bind_eq_bind, Option.bind_eq_some_iff] at h
  obtain ⟨⟨scheme, _⟩, _, _, _, host, hhost, ⟨port, _⟩, _, heq⟩ := h
  cases heq
  refine ⟨?_, ?_, ?_, ?_⟩
  · intro c hc
    unfold readHost? at hhost
    split at hhost
    · exact Host.isPrintable_of_mem_ofWeb? hhost c hc
    · exact Host.isPrintable_of_mem_ofOpaque? hhost c hc
  · intro segment hsegment c hc
    rcases mem_resolve hsegment with rfl | hpart
    · cases hc
    · obtain ⟨part, -, rfl⟩ := List.mem_map.mp hpart
      exact Percent.isPrintable_of_mem_encode (fun _ _ => Percent.isPrintable_of_inPath) hc
  · intro c hc
    simp only at hc
    split at hc
    · cases hc
    · exact Percent.isPrintable_of_mem_encode (fun _ _ => Percent.isPrintable_of_inQuery) hc
  · intro c hc
    simp only at hc
    split at hc
    · cases hc
    · exact Percent.isPrintable_of_mem_encode (fun _ _ => Percent.isPrintable_of_inFragment) hc

/-- More segments change nothing but the path. -/
theorem addSegments_eq (u : Url) (segments : List Text) :
    u.addSegments segments = { u with segments := (u.addSegments segments).segments } := by
  unfold addSegments
  induction segments generalizing u with
  | nil => rfl
  | cons segment segments ih =>
      have hfirst : u.addSegment segment = { u with segments := (u.addSegment segment).segments } := by
        unfold addSegment
        split <;> rfl
      rw [List.foldl_cons, ih, hfirst]

/-- What holds of the segments of a path, of the empty one and of all encoded ones holds of the segments of
    a longer path. -/
theorem forall_mem_addSegments {P : Text → Prop} (nil : P [])
    (encode : ∀ s, P (Percent.encode Percent.inSegment s)) {u : Url} (h : ∀ s ∈ u.segments, P s)
    (segments : List Text) : ∀ s ∈ (u.addSegments segments).segments, P s := by
  unfold addSegments
  induction segments generalizing u with
  | nil => exact h
  | cons segment segments ih =>
      refine ih fun s hs => ?_
      unfold addSegment at hs
      split at hs
      · exact h s hs
      · rcases mem_finish hs with rfl | rfl | hold
        · exact nil
        · exact encode _
        · unfold directories at hold
          split at hold
          · cases hold
          · exact h s hold

/-- Without an empty segment at the end only the path is another one. -/
theorem dropEmptyEnd_eq (u : Url) : u.dropEmptyEnd = { u with segments := u.dropEmptyEnd.segments } := by
  unfold dropEmptyEnd
  split <;> rfl

theorem mem_of_mem_dropEmptyEnd {u : Url} {s : Text} (h : s ∈ u.dropEmptyEnd.segments) : s ∈ u.segments := by
  unfold dropEmptyEnd at h
  split at h
  · rename_i segment outer hsegments
    rw [hsegments]
    exact List.mem_cons_of_mem _ h
  · exact h

namespace Printable

variable {u : Url}

theorem addSegments (h : u.Printable) (segments : List Text) : (u.addSegments segments).Printable := by
  have hsegments := forall_mem_addSegments (P := fun s => ∀ c ∈ s, IsPrintable c) (by simp)
    (fun _ _ => Percent.isPrintable_of_mem_encode fun _ _ => Percent.isPrintable_of_inSegment) h.segments segments
  rw [addSegments_eq]
  exact ⟨h.host, hsegments, h.query, h.fragment⟩

theorem dropEmptyEnd (h : u.Printable) : u.dropEmptyEnd.Printable := by
  rw [dropEmptyEnd_eq]
  exact ⟨h.host, fun s hs => h.segments s (mem_of_mem_dropEmptyEnd hs), h.query, h.fragment⟩

theorem isPrintable_of_mem_authority (h : u.Printable) {c : Char} (hc : c ∈ u.authority) :
    IsPrintable c := by
  rcases List.mem_append.mp hc with hc | hc
  · exact h.host c hc
  · cases hport : u.port with
    | none =>
        rw [hport] at hc
        cases hc
    | some port =>
        rw [hport] at hc
        rcases List.mem_cons.mp hc with rfl | hc
        · decide
        · exact isPrintable_of_mem_toDigits hc

theorem isPrintable_of_mem_tail (h : u.Printable) {c : Char} (hc : c ∈ u.tail) : IsPrintable c := by
  have hmark : ∀ (mark : Char) (part : Option Text), IsPrintable mark → (∀ x ∈ part.getD [], IsPrintable x) →
      c ∈ part.elim [] (mark :: ·) → IsPrintable c := by
    intro mark part hprintable hpart hc
    cases part with
    | none => cases hc
    | some text =>
        rcases List.mem_cons.mp hc with rfl | hc
        · exact hprintable
        · exact hpart c hc
  have htail : u.tail = u.query.elim [] ('?' :: ·) ++ u.fragment.elim [] ('#' :: ·) := by
    unfold tail
    cases u.query <;> cases u.fragment <;> rfl
  rw [htail] at hc
  rcases List.mem_append.mp hc with hc | hc
  · exact hmark '?' u.query (by decide) h.query hc
  · exact hmark '#' u.fragment (by decide) h.fragment hc

end Printable

end Url

/-! ### Addresses of files -/

namespace Location

theorem repositoryUrl_eq_ok_iff {remote : Text} {u : Url} :
    repositoryUrl remote = .ok u ↔ ∃ r base, Remote.parse? remote = some r ∧ r.repository ≠ [] ∧
      Url.parse? ("https://".toList ++ r.host) = some base ∧
      u = { base with
            port := if r.port = Scheme.https.defaultPort? then none else r.port
            segments := [[]] }.addSegments (nonemptySegments r.repository) := by
  constructor
  · intro h
    unfold repositoryUrl at h
    cases hremote : Remote.parse? remote with
    | none =>
        rw [hremote] at h
        cases h
    | some r =>
        cases hbase : Url.parse? ("https://".toList ++ r.host) with
        | none =>
            simp only [hremote, hbase] at h
            split at h <;> cases h
        | some base =>
            simp only [hremote, hbase] at h
            split at h
            · cases h
            · rename_i hpath
              cases h
              exact ⟨r, base, rfl, hpath, hbase, rfl⟩
  · rintro ⟨r, base, hremote, hpath, hbase, rfl⟩
    simp only [repositoryUrl, hremote, hbase, if_neg hpath]
    rfl

theorem ofRemote_eq_ok_iff {remote revision : Text} {l : Location} :
    ofRemote remote revision = .ok l ↔ ∃ u, repositoryUrl remote = .ok u ∧ trim revision ≠ [] ∧
      l = { family := HostFamily.ofHost u.host
            root := (u.dropEmptyEnd.addSegments (HostFamily.ofHost u.host).infixSegments).addSegments
              ((trim revision).splitOn '/') } := by
  rw [ofRemote, bind_eq_ok_iff]
  refine exists_congr fun u => and_congr_right fun _ => ?_
  constructor
  · intro h
    simp only at h
    split at h
    · cases h
    · rename_i hblank
      cases h
      exact ⟨hblank, rfl⟩
  · rintro ⟨hblank, rfl⟩
    simp only [if_neg hblank]
    rfl

theorem printable_of_repositoryUrl {remote : Text} {u : Url} (h : repositoryUrl remote = .ok u) :
    u.Printable := by
  obtain ⟨r, base, -, -, hbase, rfl⟩ := repositoryUrl_eq_ok_iff.mp h
  have hprintable := Url.printable_of_parse? hbase
  refine Url.Printable.addSegments ?_ _
  exact ⟨hprintable.host, by simp, hprintable.query, hprintable.fragment⟩

/-- The address of a hosted repository is in printable ASCII. -/
theorem printable_of_ofRemote {remote revision : Text} {l : Location}
    (h : ofRemote remote revision = .ok l) : l.root.Printable := by
  obtain ⟨repository, hrepository, -, rfl⟩ := ofRemote_eq_ok_iff.mp h
  exact ((printable_of_repositoryUrl hrepository).dropEmptyEnd.addSegments _).addSegments _

theorem isPrintable_of_mem_encodeParentheses {t : Text} (h : ∀ c ∈ t, IsPrintable c) :
    ∀ c ∈ encodeParentheses t, IsPrintable c ∧ c ≠ ')' := by
  intro c hc
  obtain ⟨c', hc', hmem⟩ := List.mem_flatMap.mp hc
  have hcodes : ∀ x ∈ "%28%29".toList, IsPrintable x ∧ x ≠ ')' := by
    simp only [String.reduceToList, List.forall_mem_cons, List.not_mem_nil, false_imp_iff, implies_true, and_true]
    decide
  split at hmem
  · exact hcodes c (List.mem_append_left "%29".toList hmem)
  · split at hmem
    · exact hcodes c (List.mem_append_right "%28".toList hmem)
    · rename_i hclose
      rw [List.mem_singleton.mp hmem]
      exact ⟨h c' hc', hclose⟩

variable {l : Location}

/-- An address can be the target of a link exactly if no parenthesis closes in it outside of its path. -/
theorem isUrlChar_fileUrl_iff (h : l.root.Printable) (relative : Text) :
    (∀ c ∈ l.fileUrl relative, Coverer.isUrlChar c = true) ↔ ')' ∉ l.root.authority ++ l.root.tail := by
  have hurl := Url.addSegments_eq l.root (nonemptySegments relative)
  have hsegments := (h.addSegments (nonemptySegments relative)).segments
  generalize hlong : l.root.addSegments (nonemptySegments relative) = long at hurl hsegments
  have htext : l.fileUrl relative = l.root.scheme.text ++ "://".toList ++ l.root.authority ++
      '/' :: Text.join ['/'] (long.segments.map encodeParentheses).reverse ++ l.root.tail := by
    rw [fileUrl, hlong, hurl]
    rfl
  have hscheme : ∀ c ∈ l.root.scheme.text ++ "://".toList, Coverer.isUrlChar c = true :=
    List.all_eq_true.mp (by cases l.root.scheme <;> decide)
  have hpath : ∀ c ∈ '/' :: Text.join ['/'] (long.segments.map encodeParentheses).reverse,
      Coverer.isUrlChar c = true := by
    refine List.forall_mem_cons.mpr ⟨by decide, fun c hc => ?_⟩
    rcases mem_of_mem_join hc with hslash | ⟨part, hpart, hmem⟩
    · rw [List.mem_singleton.mp hslash]
      decide
    · obtain ⟨segment, hsegment, rfl⟩ := List.mem_map.mp (List.mem_reverse.mp hpart)
      obtain ⟨hprintable, hclose⟩ := isPrintable_of_mem_encodeParentheses (hsegments segment hsegment) c hmem
      exact hprintable.isUrlChar_iff.mpr hclose
  have hrest : ∀ c ∈ l.root.authority ++ l.root.tail, IsPrintable c := by
    intro c hc
    rcases List.mem_append.mp hc with hc | hc
    · exact h.isPrintable_of_mem_authority hc
    · exact h.isPrintable_of_mem_tail hc
  constructor
  · intro hall hclose
    have hmem : ')' ∈ l.fileUrl relative := by
      rw [htext]
      simp only [List.mem_append] at hclose ⊢
      tauto
    exact absurd (hall ')' hmem) (by decide)
  · intro hclose c hc
    rw [htext, List.mem_append, List.mem_append, List.mem_append] at hc
    rcases hc with ((hc | hc) | hc) | hc
    · exact hscheme c hc
    · have hmem := List.mem_append_left l.root.tail hc
      exact (hrest c hmem).isUrlChar_iff.mpr fun heq => hclose (heq ▸ hmem)
    · exact hpath c hc
    · have hmem := List.mem_append_right l.root.authority hc
      exact (hrest c hmem).isUrlChar_iff.mpr fun heq => hclose (heq ▸ hmem)

end Location

end ReqTrace
