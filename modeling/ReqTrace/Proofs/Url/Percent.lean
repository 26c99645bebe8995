/-
Module: ReqTrace.Proofs.Url.Percent
Purpose: Percent-encoding loses nothing as long as percent signs are encoded too. An encoded text holds
  percent signs, digits and characters that need no encoding, and it differs from the text if anything in it
  needs encoding.
Main exports: Percent.mem_encode, Percent.encode_eq_self_iff, Percent.decode?_encode,
  Percent.encode_injective, Percent.encodeParentheses_encode
-/
import ReqTrace.Location
import ReqTrace.Proofs.Text.Utf8

namespace ReqTrace

namespace Percent

/-! ### What an encoded text holds -/

/-- The characters that encoded bytes are written with. -/
def codeChars : Text := "%0123456789ABCDEF".toList

theorem mem_codeChars_of_mem_byte {b : Byte} {c : Char} (h : c ∈ byte b) : c ∈ codeChars := by
  have hdigit : ∀ k < 16, (Nat.digitChar k).toUpper ∈ codeChars := by decide
  have hsize := b.toNat_lt
  simp only [byte, List.mem_cons, List.not_mem_nil, or_false] at h
  rcases h with rfl | rfl | rfl
  · decide
  · exact hdigit _ (by omega)
  · exact hdigit _ (by omega)

variable {p : Char → Bool}

@[simp] theorem encode_nil : encode p [] = [] := rfl

theorem encode_cons (c : Char) (t : Text) : encode p (c :: t) = encodeChar p c ++ encode p t :=
  List.flatMap_cons

/-- The characters of an encoded text: those of the text that are not encoded, and those of the codes. -/
theorem mem_encode {t : Text} {c : Char} (h : c ∈ encode p t) : c ∈ t ∧ p c = false ∨ c ∈ codeChars := by
  obtain ⟨c', hc', hmem⟩ := List.mem_flatMap.mp h
  unfold encodeChar at hmem
  split at hmem
  · obtain ⟨b, -, hb⟩ := List.mem_flatMap.mp hmem
    exact .inr (mem_codeChars_of_mem_byte hb)
  · rename_i hkept
    rw [List.mem_singleton.mp hmem]
    exact .inl ⟨hc', by simpa using hkept⟩

theorem not_mem_encode {t : Text} {c : Char} (hc : p c = true) (hcode : c ∉ codeChars) : c ∉ encode p t :=
  fun h => (mem_encode h).elim (fun h => absurd (hc.symm.trans h.2) (by decide)) hcode

/-- A text is left as it is exactly if nothing in it is encoded. -/
theorem encode_eq_self_iff {t : Text} : encode p t = t ↔ ∀ c ∈ t, p c = false := by
  have hlength : ∀ c, 1 ≤ (encodeChar p c).length ∧ (p c = true → 2 ≤ (encodeChar p c).length) := by
    intro c
    obtain ⟨b, tails, hbytes, -⟩ := Utf8.readFirst_encodeChar c []
    unfold encodeChar
    split
    · rw [hbytes]
      simp [byte]
    · simp_all
  have hlonger : ∀ t : Text, t.length ≤ (encode p t).length := by
    intro t
    induction t with
    | nil => exact Nat.le_refl 0
    | cons c t ih =>
        have hc := (hlength c).1
        rw [encode_cons, List.length_append, List.length_cons]
        omega
  induction t with
  | nil => simp
  | cons c t ih =>
      rw [encode_cons, List.forall_mem_cons]
      constructor
      · intro h
        have hplain : p c = false := by
          by_contra hc
          have hchar := (hlength c).2 (by simpa using hc)
          have hsum := congrArg List.length h
          have hrest := hlonger t
          rw [List.length_append, List.length_cons] at hsum
          omega
        refine ⟨hplain, ih.mp ?_⟩
        simpa [encodeChar, hplain] using h
      · rintro ⟨hplain, ht⟩
        simp [encodeChar, hplain, ih.mpr ht]

/-! ### Decoding -/

theorem decodeBytes_byte_append (b : Byte) (rest : Text) :
    decodeBytes (byte b ++ rest) = b :: decodeBytes rest := by
  have hdigit : ∀ k < 16, Digit.hex? (Nat.digitChar k).toUpper = some k := by decide
  have hsize := b.toNat_lt
  have hhigh := hdigit (b.toNat / 16) (by omega)
  have hlow := hdigit (b.toNat % 16) (by omega)
  have hvalue : b.toNat / 16 * 16 + b.toNat % 16 = b.toNat := by omega
  simp only [byte, List.cons_append, List.nil_append, decodeBytes, hhigh, hlow, hvalue]
  rw [Nat.toUInt8, UInt8.ofNat_toNat]

theorem decodeBytes_bytes_append (bytes : List Byte) (rest : Text) :
    decodeBytes (bytes.flatMap byte ++ rest) = bytes ++ decodeBytes rest := by
  induction bytes with
  | nil => rfl
  | cons b bytes ih => rw [List.flatMap_cons, List.append_assoc, decodeBytes_byte_append, ih, List.cons_append]

theorem decodeBytes_cons_of_ne {c : Char} (h : c ≠ '%') (rest : Text) :
    decodeBytes (c :: rest) = String.utf8EncodeChar c ++ decodeBytes rest := by
  rw [decodeBytes.eq_def]
  split
  · simp_all
  · simp_all
  · rename_i heq
    cases heq
    rfl

/-- Decoding undoes the encoding of a text, whatever follows it. -/
theorem decodeBytes_encode_append (hp : p '%' = true) (t rest : Text) :
    decodeBytes (encode p t ++ rest) = Text.utf8 t ++ decodeBytes rest := by
  induction t with
  | nil => rfl
  | cons c t ih =>
      rw [encode_cons, List.append_assoc, Text.utf8, List.flatMap_cons, List.append_assoc]
      unfold encodeChar
      split
      · rw [decodeBytes_bytes_append, ih]
        rfl
      · rename_i hkept
        have hc : c ≠ '%' := by
          rintro rfl
          exact hkept hp
        rw [List.singleton_append, decodeBytes_cons_of_ne hc, ih]
        rfl

/-- A text is read back from its encoded form if percent signs are encoded. -/
theorem decode?_encode (hp : p '%' = true) (t : Text) : decode? (encode p t) = some t := by
  have hbytes := decodeBytes_encode_append hp t []
  rw [List.append_nil, decodeBytes, List.append_nil] at hbytes
  rw [decode?, hbytes, Utf8.decode?_utf8]

theorem encode_injective (hp : p '%' = true) {t t' : Text} (h : encode p t = encode p t') : t = t' := by
  have hsame := decode?_encode hp t'
  rw [← h, decode?_encode hp t] at hsame
  exact Option.some.inj hsame

theorem encode_ne_nil (hp : p '%' = true) {t : Text} (h : t ≠ []) : encode p t ≠ [] := fun hempty =>
  h (encode_injective hp (hempty.trans encode_nil.symm))

/-! ### Parentheses -/

/-- The characters that are encoded in a segment of the address of a file. -/
def inLink (c : Char) : Bool :=
  inSegment c || c == '(' || c == ')'

theorem encodeParentheses_of_plain {t : Text} (hopen : '(' ∉ t) (hclose : ')' ∉ t) :
    Location.encodeParentheses t = t := by
  unfold Location.encodeParentheses
  induction t with
  | nil => rfl
  | cons c t ih =>
      simp only [List.mem_cons, not_or] at hopen hclose
      rw [List.flatMap_cons, ih hopen.2 hclose.2, if_neg (Ne.symm hopen.1), if_neg (Ne.symm hclose.1),
        List.singleton_append]

/-- Parentheses are encoded as all other characters are. -/
theorem encodeParentheses_encode (t : Text) :
    Location.encodeParentheses (encode inSegment t) = encode inLink t := by
  have hchar : ∀ c, Location.encodeParentheses (encodeChar inSegment c) = encodeChar inLink c := by
    intro c
    by_cases hc : inSegment c = true
    · have hcodes : ∀ x ∈ encodeChar inSegment c, x ∈ codeChars := by
        intro x hx
        rw [encodeChar, if_pos hc] at hx
        obtain ⟨b, -, hb⟩ := List.mem_flatMap.mp hx
        exact mem_codeChars_of_mem_byte hb
      rw [encodeParentheses_of_plain (fun h => absurd (hcodes _ h) (by decide))
        (fun h => absurd (hcodes _ h) (by decide))]
      simp [encodeChar, inLink, hc]
    · by_cases hopen : c = '('
      · rw [hopen]
        decide
      · by_cases hclose : c = ')'
        · rw [hclose]
          decide
        · simp [encodeChar, inLink, hc, hopen, hclose, Location.encodeParentheses]
  rw [encode, Location.encodeParentheses, List.flatMap_assoc, encode]
  exact congrArg (List.flatMap · t) (funext hchar)

end Percent

end ReqTrace
