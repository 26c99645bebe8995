/-
Module: ReqTrace.Proofs.Text.Utf8
Purpose: The bytes of a text are read back as this text: the first byte of a character says how many bytes
  follow and allows the second one, whatever the character is. Texts are ordered as their bytes are.
Main exports: Utf8.readFirst_encodeChar, Utf8.scan_utf8, Utf8.decode?_utf8, Utf8.compare_utf8
-/
import Mathlib.Data.List.TakeWhile
import ReqTrace.Text.Utf8

namespace ReqTrace

namespace Utf8

/-! ### Characters -/

/-- The shape of a character, with its first byte as a number. -/
theorem shape?_of_toNat {b : Byte} :
    shape? b =
      if b.toNat < 0x80 then some (0, 0, 0)
      else if 0xC2 ≤ b.toNat ∧ b.toNat ≤ 0xDF then some (1, 0x80, 0xBF)
      else if b.toNat = 0xE0 then some (2, 0xA0, 0xBF)
      else if b.toNat = 0xED then some (2, 0x80, 0x9F)
      else if 0xE1 ≤ b.toNat ∧ b.toNat ≤ 0xEF then some (2, 0x80, 0xBF)
      else if b.toNat = 0xF0 then some (3, 0x90, 0xBF)
      else if b.toNat = 0xF4 then some (3, 0x80, 0x8F)
      else if 0xF1 ≤ b.toNat ∧ b.toNat ≤ 0xF3 then some (3, 0x80, 0xBF)
      else none := by
  simp only [shape?, UInt8.lt_iff_toNat_lt, UInt8.le_iff_toNat_le, ← UInt8.toNat_inj, UInt8.reduceToNat]

/-- A first byte is followed by tails, of which it restricts the first one. -/
theorem readFirst_eq {b second : Byte} {more rest : List Byte} {low high : Byte}
    (hshape : shape? b = some (more.length + 1, low, high)) (hlow : low ≤ second) (hhigh : second ≤ high)
    (htails : ∀ t ∈ second :: more, isTail t = true) :
    readFirst b (second :: more ++ rest) =
      (some (Char.ofNat ((second :: more).foldl (fun code t => code * 64 + t.toNat % 64)
        (leadBits (more.length + 1) b))), more.length + 1) := by
  have hrange : ¬ (second < low ∨ high < second) := by
    rw [not_or, UInt8.not_lt, UInt8.not_lt]
    exact ⟨hlow, hhigh⟩
  have htake : ((second :: more ++ rest).take (more.length + 1)).takeWhile isTail = second :: more := by
    rw [← List.length_cons (a := second), List.take_left]
    exact List.takeWhile_eq_self_iff.mpr htails
  simp only [readFirst, hshape]
  rw [List.cons_append] at htake ⊢
  simp only [hrange, if_false, htake, List.length_cons, lt_self_iff_false]

theorem toNat_ofNat {n : Nat} (h : n < 256) : (UInt8.ofNat n).toNat = n := by
  rw [UInt8.toNat_ofNat', Nat.mod_eq_of_lt h]

theorem isTail_ofNat (n : Nat) : isTail (UInt8.ofNat (n % 64 + 128)) = true := by
  simp only [isTail, Bool.and_eq_true, decide_eq_true_eq, UInt8.le_iff_toNat_le, UInt8.reduceToNat,
    toNat_ofNat (show n % 64 + 128 < 256 by omega)]
  omega

/-- The first byte of a character of three bytes allows the second one. -/
theorem exists_shape?_three {v : Nat} (hlow : 0x7FF < v) (hhigh : v ≤ 0xFFFF)
    (hvalid : v < 0xD800 ∨ 0xDFFF < v) :
    ∃ low high, shape? (UInt8.ofNat (v / 4096 % 16 + 224)) = some (2, low, high) ∧
      low ≤ UInt8.ofNat (v / 64 % 64 + 128) ∧ UInt8.ofNat (v / 64 % 64 + 128) ≤ high := by
  simp only [UInt8.le_iff_toNat_le, toNat_ofNat (show v / 64 % 64 + 128 < 256 by omega), shape?_of_toNat,
    toNat_ofNat (show v / 4096 % 16 + 224 < 256 by omega)]
  rw [if_neg (by omega), if_neg (by omega)]
  by_cases hfirst : v / 4096 % 16 + 224 = 0xE0
  · rw [if_pos hfirst]
    refine ⟨0xA0, 0xBF, rfl, ?_, ?_⟩ <;> simp only [UInt8.reduceToNat] <;> omega
  · rw [if_neg hfirst]
    by_cases hsurrogate : v / 4096 % 16 + 224 = 0xED
    · rw [if_pos hsurrogate]
      refine ⟨0x80, 0x9F, rfl, ?_, ?_⟩ <;> simp only [UInt8.reduceToNat] <;> omega
    · rw [if_neg hsurrogate, if_pos (by omega)]
      refine ⟨0x80, 0xBF, rfl, ?_, ?_⟩ <;> simp only [UInt8.reduceToNat] <;> omega

/-- The first byte of a character of four bytes allows the second one. -/
theorem exists_shape?_four {v : Nat} (hlow : 0xFFFF < v) (hhigh : v < 0x110000) :
    ∃ low high, shape? (UInt8.ofNat (v / 262144 % 8 + 240)) = some (3, low, high) ∧
      low ≤ UInt8.ofNat (v / 4096 % 64 + 128) ∧ UInt8.ofNat (v / 4096 % 64 + 128) ≤ high := by
  simp only [UInt8.le_iff_toNat_le, toNat_ofNat (show v / 4096 % 64 + 128 < 256 by omega), shape?_of_toNat,
    toNat_ofNat (show v / 262144 % 8 + 240 < 256 by omega)]
  rw [if_neg (by omega), if_neg (by omega), if_neg (by omega), if_neg (by omega), if_neg (by omega)]
  by_cases hfirst : v / 262144 % 8 + 240 = 0xF0
  · rw [if_pos hfirst]
    refine ⟨0x90, 0xBF, rfl, ?_, ?_⟩ <;> simp only [UInt8.reduceToNat] <;> omega
  · rw [if_neg hfirst]
    by_cases hlast : v / 262144 % 8 + 240 = 0xF4
    · rw [if_pos hlast]
      refine ⟨0x80, 0x8F, rfl, ?_, ?_⟩ <;> simp only [UInt8.reduceToNat] <;> omega
    · rw [if_neg hlast, if_pos (by omega)]
      refine ⟨0x80, 0xBF, rfl, ?_, ?_⟩ <;> simp only [UInt8.reduceToNat] <;> omega

/-- The bytes of a character are read as this character, whatever follows them. -/
theorem readFirst_encodeChar (c : Char) (rest : List Byte) :
    ∃ b tails, String.utf8EncodeChar c = b :: tails ∧ readFirst b (tails ++ rest) = (some c, tails.length) := by
  have hvalid : c.val.toNat < 0xD800 ∨ 0xDFFF < c.val.toNat ∧ c.val.toNat < 0x110000 := c.valid
  have hchar : Char.ofNat c.val.toNat = c := Char.ofNat_toNat c
  simp only [String.utf8EncodeChar]
  generalize c.val.toNat = v at hvalid hchar ⊢
  -- One case for each number of bytes; the code is put together from what each byte keeps of it.
  split
  · refine ⟨_, _, rfl, ?_⟩
    rw [readFirst, shape?_of_toNat, toNat_ofNat (by omega), if_pos (by omega)]
    simp only [hchar, List.length_nil]
  · split
    · refine ⟨_, _, rfl, ?_⟩
      have hshape : shape? (UInt8.ofNat (v / 64 % 32 + 192)) = some (1, 0x80, 0xBF) := by
        rw [shape?_of_toNat, toNat_ofNat (by omega), if_neg (by omega), if_pos (by omega)]
      have htail := isTail_ofNat v
      have hbounds := htail
      simp only [isTail, Bool.and_eq_true, decide_eq_true_eq] at hbounds
      rw [readFirst_eq hshape hbounds.1 hbounds.2 (by simpa using htail)]
      simp only [leadBits, List.foldl_cons, List.foldl_nil, List.length_nil, List.length_cons]
      rw [toNat_ofNat (by omega), toNat_ofNat (by omega), if_neg (by omega)]
      have hcode : (v / 64 % 32 + 192) % Nat.pow 2 (6 - (0 + 1)) * 64 + (v % 64 + 128) % 64 = v := by
        simp only [Nat.pow_eq, Nat.reduceAdd, Nat.reduceSub, Nat.reducePow]
        omega
      rw [hcode, hchar]
    · split
      · refine ⟨_, _, rfl, ?_⟩
        obtain ⟨low, high, hshape, hbounds⟩ := exists_shape?_three (v := v) (by omega) (by omega) (by omega)
        rw [readFirst_eq hshape hbounds.1 hbounds.2
          (by simp only [List.forall_mem_cons, isTail_ofNat, true_and, List.not_mem_nil, false_imp_iff, implies_true])]
        simp only [leadBits, List.foldl_cons, List.foldl_nil, List.length_nil, List.length_cons]
        rw [toNat_ofNat (by omega), toNat_ofNat (by omega), toNat_ofNat (by omega), if_neg (by omega)]
        have hcode : ((v / 4096 % 16 + 224) % Nat.pow 2 (6 - (0 + 1 + 1)) * 64 + (v / 64 % 64 + 128) % 64) * 64 +
            (v % 64 + 128) % 64 = v := by
          simp only [Nat.pow_eq, Nat.reduceAdd, Nat.reduceSub, Nat.reducePow]
          omega
        rw [hcode, hchar]
      · refine ⟨_, _, rfl, ?_⟩
        obtain ⟨low, high, hshape, hbounds⟩ := exists_shape?_four (v := v) (by omega) (by omega)
        rw [readFirst_eq hshape hbounds.1 hbounds.2
          (by simp only [List.forall_mem_cons, isTail_ofNat, true_and, List.not_mem_nil, false_imp_iff, implies_true])]
        simp only [leadBits, List.foldl_cons, List.foldl_nil, List.length_nil, List.length_cons]
        rw [toNat_ofNat (by omega), toNat_ofNat (by omega), toNat_ofNat (by omega), toNat_ofNat (by omega),
          if_neg (by omega)]
        have hcode : (((v / 262144 % 8 + 240) % Nat.pow 2 (6 - (0 + 1 + 1 + 1)) * 64 +
            (v / 4096 % 64 + 128) % 64) * 64 + (v / 64 % 64 + 128) % 64) * 64 + (v % 64 + 128) % 64 = v := by
          simp only [Nat.pow_eq, Nat.reduceAdd, Nat.reduceSub, Nat.reducePow]
          omega
        rw [hcode, hchar]

/-! ### Texts -/

theorem utf8_cons (c : Char) (t : Text) : Text.utf8 (c :: t) = String.utf8EncodeChar c ++ Text.utf8 t :=
  List.flatMap_cons

theorem scan_append (bytes rest : List Byte) : scan bytes.length (bytes ++ rest) = scan 0 rest := by
  induction bytes with
  | nil => rfl
  | cons b bytes ih => rw [List.length_cons, List.cons_append, scan, ih]

/-- The bytes of a text are read as its characters. -/
theorem scan_utf8 (t : Text) : scan 0 (Text.utf8 t) = t.map some := by
  induction t with
  | nil => rfl
  | cons c t ih =>
      obtain ⟨b, tails, hencode, hread⟩ := readFirst_encodeChar c (Text.utf8 t)
      have hsplit : Text.utf8 (c :: t) = b :: (tails ++ Text.utf8 t) := by
        rw [utf8_cons, hencode]
        rfl
      rw [hsplit, scan, hread]
      simp only [scan_append, ih, List.map_cons]

/-- A text is read back from its bytes. -/
theorem decode?_utf8 (t : Text) : decode? (Text.utf8 t) = some t := by
  rw [decode?, scan_utf8]
  induction t with
  | nil => rfl
  | cons c t ih =>
      rw [List.map_cons, List.mapM_cons, ih]
      rfl

/-! ### Order -/

/-- Bytes given by numbers are compared as these numbers, and where they agree what follows decides. -/
theorem compare_ofNat_cons_eq_lt_iff {m n : Nat} (hm : m < 256) (hn : n < 256) {x y : List Byte} :
    compare (UInt8.ofNat m :: x) (UInt8.ofNat n :: y) = .lt ↔ m < n ∨ m = n ∧ compare x y = .lt := by
  rw [List.compare_cons_cons, Ordering.then_eq_lt, Std.LawfulEqCmp.compare_eq_iff_eq, ← UInt8.toNat_inj,
    Std.compare_eq_lt, UInt8.lt_iff_toNat_lt, toNat_ofNat hm, toNat_ofNat hn]

/-- Numbers are compared by their first digits that differ. -/
theorem digits_lt {v w : Nat} (h : v < w) (hw : w < 0x110000) :
    v / 262144 % 8 < w / 262144 % 8 ∨ v / 262144 % 8 = w / 262144 % 8 ∧
      (v / 4096 % 64 < w / 4096 % 64 ∨ v / 4096 % 64 = w / 4096 % 64 ∧
        (v / 64 % 64 < w / 64 % 64 ∨ v / 64 % 64 = w / 64 % 64 ∧ v % 64 < w % 64)) := by
  -- The digits are named as quotients of quotients, which relates them to each other.
  have hdigits : ∀ n < 0x110000, ∃ n₁ n₂ n₃, n / 64 = n₁ ∧ n / 4096 = n₂ ∧ n / 262144 = n₃ ∧ n₁ / 64 = n₂ ∧
      n₂ / 64 = n₃ ∧ n₃ < 8 := fun n hn => ⟨_, _, _, rfl, rfl, rfl, by omega, by omega, by omega⟩
  obtain ⟨v₁, v₂, v₃, hv⟩ := hdigits v (h.trans hw)
  obtain ⟨w₁, w₂, w₃, hw⟩ := hdigits w hw
  have hfirst : v₃ < w₃ ∨ v₃ = w₃ := by omega
  rcases hfirst with hless | hsame <;> omega

/-- Of two characters the smaller one has the smaller bytes, whatever follows them. -/
theorem compare_encodeChar_append_eq_lt {c d : Char} (h : c < d) (x y : List Byte) :
    compare (String.utf8EncodeChar c ++ x) (String.utf8EncodeChar d ++ y) = .lt := by
  have hlt : c.val.toNat < d.val.toNat := h
  have hvalid : d.val.toNat < 0xD800 ∨ 0xDFFF < d.val.toNat ∧ d.val.toNat < 0x110000 := d.valid
  simp only [String.utf8EncodeChar]
  generalize c.val.toNat = v at hlt ⊢
  generalize d.val.toNat = w at hlt hvalid ⊢
  have hdigits := digits_lt hlt (by omega)
  -- A longer encoding has a larger first byte, and encodings of the same length differ first where the
  -- numbers do.
  split_ifs <;>
    simp (disch := omega) only [List.cons_append, List.nil_append, compare_ofNat_cons_eq_lt_iff] <;> omega

theorem compare_append_left (bytes x y : List Byte) : compare (bytes ++ x) (bytes ++ y) = compare x y := by
  induction bytes with
  | nil => rfl
  | cons b bytes ih =>
      rw [List.cons_append, List.cons_append, List.compare_cons_cons, Std.ReflOrd.compare_self, ih]
      rfl

/-- Texts are ordered as their bytes are. -/
theorem compare_utf8 (s t : Text) : compare (Text.utf8 s) (Text.utf8 t) = compare s t := by
  induction s generalizing t with
  | nil =>
      cases t with
      | nil => rfl
      | cons d t =>
          obtain ⟨b, tails, hencode, -⟩ := readFirst_encodeChar d []
          rw [utf8_cons, hencode]
          rfl
  | cons c s ih =>
      cases t with
      | nil =>
          obtain ⟨b, tails, hencode, -⟩ := readFirst_encodeChar c []
          rw [utf8_cons, hencode]
          rfl
      | cons d t =>
          rw [utf8_cons, utf8_cons, List.compare_cons_cons]
          cases hcompare : compare c d with
          | lt =>
              rw [compare_encodeChar_append_eq_lt (compareOfLessAndEq_eq_lt.mp hcompare)]
              rfl
          | eq =>
              obtain rfl := Std.LawfulEqCmp.eq_of_compare hcompare
              rw [compare_append_left, ih]
              rfl
          | gt =>
              have hlt : compare d c = .lt := Std.OrientedCmp.gt_iff_lt.mp hcompare
              replace hlt := compareOfLessAndEq_eq_lt.mp hlt
              rw [Std.OrientedCmp.gt_iff_lt.mpr (compare_encodeChar_append_eq_lt hlt _ _)]
              rfl

end Utf8

end ReqTrace
