/-
  Binary64 — the numbers of Lox, in exact arithmetic.

  A Lox number is an IEEE double.  Nothing here computes with machine floats: the non-negative
  doubles are an INTERVAL OF NATURALS, counted upwards from zero, and every value is a whole multiple
  of the least positive one.

  1. **Magnitudes** — `Magnitude` is a rank in the increasing order `0, 2⁻¹⁰⁷⁴, 2·2⁻¹⁰⁷⁴, …, ∞`.  The
     rank is also the low 63 bits of the encoding: the order of doubles is the order of their bits.
  2. **Values** — `Magnitude.units` is the value counted in the least positive double.  Up to
     `2⁵³` units the doubles are evenly spaced; each further doubling doubles the spacing.
  3. **Numbers** — `Binary64` is a sign and a magnitude, or "not a number", which keeps no payload.
  4. **Rounding** — `Magnitude.nearest num den` is the double nearest to `num / den` units, a half
     going to the even neighbour.
-/

namespace Lox

/-! ## Magnitudes: the non-negative doubles, counted from zero -/

/-- How many doubles share an exponent field: `2⁵²`. -/
def fieldSize : Nat := Nat.pow 2 52

/-- The rank of infinity; every smaller rank is a finite double. -/
def infinityRank : Nat := 2047 * fieldSize

/-- How many times the least positive double goes into the number one: `2¹⁰⁷⁴`. -/
def unitsInOne : Nat := Nat.pow 2 1074

/-- What the sign counts for in an encoding: `2⁶³`. -/
def signWeight : Nat := Nat.pow 2 63

/-- A non-negative double, given by its place in the increasing order of them. -/
structure Magnitude where
  rank : Nat
  rank_le : rank ≤ infinityRank
  deriving DecidableEq

namespace Magnitude

/-- The greatest magnitude. -/
def infinity : Magnitude := ⟨infinityRank, Nat.le_refl _⟩

/-- The exponent field of the encoding; the values in one field are evenly spaced. -/
def exponent (m : Magnitude) : Nat := m.rank / fieldSize

/-- The whole significand: below `2⁵²` units there is no hidden leading bit. -/
def significand (m : Magnitude) : Nat :=
  if m.exponent = 0 then m.rank % fieldSize else fieldSize + m.rank % fieldSize

/-- The value in units of the least positive double, `2⁻¹⁰⁷⁴`. -/
def units (m : Magnitude) : Nat := m.significand * Nat.pow 2 (m.exponent - 1)

end Magnitude

/-! ## Numbers: a sign and a magnitude -/

/-- A double.  All encodings of "not a number" are one value. -/
inductive Binary64 where
  | nan
  | signed (negative : Bool) (magnitude : Magnitude)
  deriving DecidableEq

namespace Binary64

/-- The number with the given encoding: the top bit is the sign, the other 63 are the rank. -/
def ofBits (bits : UInt64) : Binary64 :=
  let rank := bits.toNat % signWeight
  if h : rank ≤ infinityRank then .signed (decide (signWeight ≤ bits.toNat)) ⟨rank, h⟩ else .nan

/-- The encoding of a number; "not a number" has the quiet encoding without payload. -/
def toBits : Binary64 → UInt64
  | .nan => 0x7ff8000000000000
  | .signed negative m => UInt64.ofNat ((if negative then signWeight else 0) + m.rank)

/-- Numeric equality: "not a number" differs from itself, and the two zeros are equal. -/
def equal : Binary64 → Binary64 → Bool
  | .signed s a, .signed t b => a.rank == b.rank && (s == t || a.rank == 0)
  | _, _ => false

end Binary64

/-! ## Rounding to the nearest double -/

/-- `num / den` rounded to a natural; an exact half goes to the even neighbour. -/
def roundHalfEven (num den : Nat) : Nat :=
  let q := num / den
  let r := num % den
  if 2 * r < den then q
  else if den < 2 * r then q + 1
  else q + q % 2

/-- The magnitude nearest to `num / den` units.  Above `2⁵³` units the spacing is `2 ^ shift`, so
    that the rounded count of spacings has 53 bits; a count that overflows to `2⁵³` is the first
    double of the next spacing, whose rank follows.  All beyond the greatest finite double, half a
    spacing included, is infinite. -/
def Magnitude.nearest (num den : Nat) : Magnitude :=
  let shift := Nat.log2 (num / den) - 52
  ⟨min (shift * fieldSize + roundHalfEven num (den * Nat.pow 2 shift)) infinityRank,
   Nat.min_le_right _ _⟩

/-! ## Some doubles -/

example : (Magnitude.nearest unitsInOne 1).rank = 0x3ff0000000000000 := by decide +kernel
example : (Magnitude.nearest unitsInOne 10).rank = 0x3fb999999999999a := by decide +kernel
example : (Magnitude.nearest 1 2).rank = 0 := by decide +kernel
example : (Magnitude.nearest 3 2).rank = 2 := by decide +kernel
example : Magnitude.nearest (Nat.pow 2 2098) 1 = Magnitude.infinity := by decide +kernel
example : (Magnitude.nearest unitsInOne 1).units = unitsInOne := by decide +kernel

end Lox
