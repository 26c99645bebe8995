/-
Module: ReqTrace.Text.Basic
Purpose: Texts as lists of characters: decimal numbers, cuts, joins, lines, and positions counted in
  the bytes of the UTF-8 encoding.
Main exports: Text, Text.decimal, Text.cut?, Text.byteLength, Text.splitAtByte?, Text.lines,
  Text.occurrences
-/

namespace ReqTrace

/-- A text is its sequence of Unicode scalar values. The order of texts is that of their code points,
    which is also the byte order of their UTF-8 encodings. -/
abbrev Text := List Char

namespace Text

/-- What holds of all characters of a text is decided by looking at these, not at all characters there are. -/
instance (priority := high) (p : Char → Prop) [DecidablePred p] (t : Text) : Decidable (∀ c ∈ t, p c) :=
  List.decidableBAll p t

instance (priority := high) (p : Char → Prop) [DecidablePred p] (t : Text) : Decidable (∃ c ∈ t, p c) :=
  List.decidableBEx p t

/-- Whether the code point of a character lies in one of some closed ranges. -/
def inRanges (ranges : List (Nat × Nat)) (c : Char) : Bool :=
  ranges.any fun range => range.1 ≤ c.toNat && c.toNat ≤ range.2

/-- The decimal digits of a number. -/
def decimal (n : Nat) : Text :=
  Nat.toDigits 10 n

/-! ### Cuts and joins -/

/-- The rest of `t` after the leading text `lead`, if `t` starts with it. -/
def dropLead? (lead t : Text) : Option Text :=
  lead.isPrefixOf? t

/-- `t` without one copy of `tail` at its end, if it ends with it. -/
def dropTail? (tail t : Text) : Option Text :=
  (tail.reverse.isPrefixOf? t.reverse).map List.reverse

/-- The two parts of `t` around the first `sep`. -/
def cut? (sep : Char) (t : Text) : Option (Text × Text) :=
  match t.dropWhile (· != sep) with
  | [] => none
  | _ :: after => some (t.takeWhile (· != sep), after)

/-- `t` without the characters of class `p` at its end. -/
def dropWhileEnd (p : Char → Bool) (t : Text) : Text :=
  (t.reverse.dropWhile p).reverse

/-- The texts one after the other with `sep` between neighbours. -/
def join (sep : Text) (parts : List Text) : Text :=
  sep.intercalate parts

/-- Whether `part` occurs somewhere in `t`. -/
def contains (part : Text) : Text → Bool
  | [] => part.isEmpty
  | c :: cs => part.isPrefixOf (c :: cs) || contains part cs

/-! ### Bytes

Positions within a line are counted in bytes of the UTF-8 encoding, so a cut at such a position exists
only on the boundary of a character. -/

/-- The number of bytes of the UTF-8 encoding. -/
def byteLength : Text → Nat
  | [] => 0
  | c :: cs => c.utf8Size + byteLength cs

/-- The first `n` bytes of `t` and the rest; `none` if `t` is shorter or the cut falls inside a
    character. -/
def splitAtByte? : Nat → Text → Option (Text × Text)
  | 0, t => some ([], t)
  | _ + 1, [] => none
  | n + 1, c :: cs =>
      if c.utf8Size ≤ n + 1 then
        (splitAtByte? (n + 1 - c.utf8Size) cs).map fun (before, after) => (c :: before, after)
      else none

@[simp] theorem byteLength_nil : byteLength [] = 0 := rfl

@[simp] theorem byteLength_cons (c : Char) (t : Text) :
    byteLength (c :: t) = c.utf8Size + byteLength t := rfl

@[simp] theorem byteLength_append (s t : Text) :
    byteLength (s ++ t) = byteLength s + byteLength t := by
  induction s with
  | nil => simp
  | cons c s ih => simp [ih, Nat.add_assoc]

/-- A text can be cut after the bytes of any of its leading parts. -/
theorem splitAtByte?_append (s t : Text) : splitAtByte? (byteLength s) (s ++ t) = some (s, t) := by
  induction s with
  | nil => simp [splitAtByte?]
  | cons c s ih =>
      have hpos : 0 < c.utf8Size := Char.utf8Size_pos c
      obtain ⟨n, hn⟩ : ∃ n, byteLength (c :: s) = n + 1 :=
        ⟨byteLength (c :: s) - 1, by simp only [byteLength_cons]; omega⟩
      rw [hn, List.cons_append, splitAtByte?, if_pos (by simp only [byteLength_cons] at hn; omega)]
      have hrest : n + 1 - c.utf8Size = byteLength s := by
        simp only [byteLength_cons] at hn; omega
      simp [hrest, ih]

/-! ### Lines -/

/-- A line without the carriage return that belongs to its line break. -/
def dropReturn (line : Text) : Text :=
  (dropTail? ['\r'] line).getD line

/-- The lines of a text. A line feed, with a carriage return right before it, ends a line; what follows
    the last line feed is a line only if it is not empty, and then keeps all its characters. -/
def lines (t : Text) : List Text :=
  let pieces := t.splitOn '\n'
  pieces.dropLast.map dropReturn ++ pieces.getLast?.toList.filter (! ·.isEmpty)

/-! ### Occurrences

A pattern is given by a reader that says how many characters a match at the start of a text takes.
Matches are searched from left to right, and a match ends before the next one starts. -/

/-- Looks for matches in a text that starts at byte `position`, after passing over `skip` characters
    that belong to the match before. -/
def occurrencesFrom {α : Type} (read? : Text → Option (α × Nat)) :
    (skip position : Nat) → Text → List (Nat × α)
  | _, _, [] => []
  | skip + 1, position, c :: cs => occurrencesFrom read? skip (position + c.utf8Size) cs
  | 0, position, c :: cs =>
      match read? (c :: cs) with
      | some (found, length) =>
          (position, found) :: occurrencesFrom read? (length - 1) (position + c.utf8Size) cs
      | none => occurrencesFrom read? 0 (position + c.utf8Size) cs

/-- The leftmost matches of a pattern that do not overlap, each with the byte at which it starts. -/
def occurrences {α : Type} (read? : Text → Option (α × Nat)) (t : Text) : List (Nat × α) :=
  occurrencesFrom read? 0 0 t

/-- Passing over the whole of a text leaves what follows it. -/
theorem occurrencesFrom_append {α : Type} (read? : Text → Option (α × Nat)) (s t : Text)
    (position : Nat) :
    occurrencesFrom read? s.length position (s ++ t) =
      occurrencesFrom read? 0 (position + byteLength s) t := by
  induction s generalizing position with
  | nil => simp
  | cons c s ih => simp [occurrencesFrom, ih, Nat.add_assoc]

example : lines "a\r\nb\n\nc\r".toList = ["a", "b", "", "c\r"].map String.toList := by decide
example : splitAtByte? 1 "é".toList = none := by decide

end Text

end ReqTrace
