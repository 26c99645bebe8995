/-
Module: ReqTrace.Decimal.Shortest
Purpose: The shortest decimal that reads back as a given binary floating-point number.
Main exports: Decimal, Binary, Binary.ofFloat, Binary.shortest
-/

namespace ReqTrace

/-- The number `digits · 10 ^ exponent`. -/
structure Decimal where
  digits : Nat
  exponent : Int
  deriving DecidableEq, Repr

/-- The positive number `mantissa · 2 ^ exponent`. -/
structure Binary where
  mantissa : Nat
  exponent : Int
  /-- The number below is half as far away as the number above. -/
  closeBelow : Bool
  deriving DecidableEq, Repr

namespace Binary

/-- The magnitude of a finite number of double precision; the sign is dropped. -/
def ofFloat (x : Float) : Binary :=
  let bits : Nat := x.toBits.toNat
  let fraction : Nat := bits % Nat.pow 2 52
  let biased : Nat := bits / Nat.pow 2 52 % Nat.pow 2 11
  if biased = 0 then { mantissa := fraction, exponent := -1074, closeBelow := false }
  else
    { mantissa := fraction + Nat.pow 2 52
      exponent := Int.ofNat biased - 1075
      closeBelow := fraction == 0 && 1 < biased }

/-! ### The interval of a number

Every real number between the two midpoints to the neighbours reads back as the number, and so do the
midpoints themselves if the mantissa is even. In units of a quarter of the last binary place the number
is `4 · mantissa`. A quotient `units · scale / grid` measures these units in steps of `10 ^ e`. -/

/-- How many quarters of the last place lie between the number and the midpoint below. -/
def below (b : Binary) : Nat :=
  if b.closeBelow then 1 else 2

/-- The factor by which quarters of the last place are multiplied when they are measured in steps of
    `10 ^ e`. -/
def scale (b : Binary) (e : Int) : Nat :=
  Nat.pow 2 (b.exponent - 2).toNat * Nat.pow 10 (-e).toNat

/-- The number by which quarters of the last place are divided when they are measured in steps of
    `10 ^ e`. -/
def grid (b : Binary) (e : Int) : Nat :=
  Nat.pow 2 (2 - b.exponent).toNat * Nat.pow 10 e.toNat

/-- Whether `d · 10 ^ e` reads back as the number. -/
def readsBack (b : Binary) (e : Int) (d : Nat) : Bool :=
  let low := (4 * b.mantissa - b.below) * b.scale e
  let high := (4 * b.mantissa + 2) * b.scale e
  let point := d * b.grid e
  if b.mantissa % 2 = 0 then low ≤ point && point ≤ high else low < point && point < high

/-- The multiple of `10 ^ e` next to the number that reads back as it, if there is one. Of two, the
    nearer one is taken, and the even one if both are as near. -/
def nearest? (b : Binary) (e : Int) : Option Decimal :=
  let units := 4 * b.mantissa * b.scale e
  let down := units / b.grid e
  let rest := units % b.grid e
  match b.readsBack e down, b.readsBack e (down + 1) with
  | false, false => none
  | true, false => some ⟨down, e⟩
  | false, true => some ⟨down + 1, e⟩
  | true, true =>
      if 2 * rest < b.grid e ∨ (2 * rest = b.grid e ∧ down % 2 = 0) then some ⟨down, e⟩
      else some ⟨down + 1, e⟩

/-- The decimal with the fewest digits that reads back as the number. The coarsest grid with a hit has
    it; no number of double precision needs one outside `10 ^ 310` to `10 ^ -324`. -/
def shortest (b : Binary) : Decimal :=
  ((List.range 635).findSome? fun (i : Nat) => b.nearest? (310 - i)).getD ⟨0, 0⟩

end Binary

end ReqTrace
