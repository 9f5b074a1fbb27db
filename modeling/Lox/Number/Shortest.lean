/-
  Shortest decimals — how a number is printed.

  A double is printed with the FEWEST digits that read back as the same double, and positionally
  however large or small it is.

  1. **Grids** — the multiples of a power of ten.  The value lies between two neighbours on each grid,
     the one at or below it and the next.
  2. **Search** — grids are tried from coarse to fine, starting above the value's own first digit.  The
     first grid on which a neighbour reads back gives the answer, for a grid of fewer places has fewer
     digits.  When both neighbours read back, the nearer is taken, and of two equally near the upper.
  3. **Bottom** — the value is itself a point of the grid of `10⁻¹⁰⁷⁴`, so the search cannot fail.
  4. **Text** — `Binary64.text` adds the sign and the texts of the values that have no digits.

  "Reads back" is `Decimal.magnitude`, the very reader of number literals.
-/
import Lox.Number.Decimal

namespace Lox

namespace Magnitude

/-! ## The neighbours on one grid -/

/-- The multiples of `10 ^ coarse / 10 ^ places`, of which one exponent is zero. -/
structure Grid where
  coarse : Nat
  places : Nat

/-- The `k`-th point of a grid. -/
def Grid.point (g : Grid) (k : Nat) : Decimal := ⟨k * Nat.pow 10 g.coarse, g.places⟩

/-- The number of the last grid point at or below a value. -/
def Grid.below (g : Grid) (m : Magnitude) : Nat :=
  m.units * Nat.pow 10 g.places / (unitsInOne * Nat.pow 10 g.coarse)

/-- The value is strictly nearer to point `k` of the grid than to point `k + 1`. -/
def Grid.nearerBelow (g : Grid) (m : Magnitude) (k : Nat) : Bool :=
  decide (2 * (m.units * Nat.pow 10 g.places) < (2 * k + 1) * (unitsInOne * Nat.pow 10 g.coarse))

/-- The neighbour of `m` on the grid that reads back as `m`: the nearer one if both do, and the upper
    one of two equally near. -/
def onGrid (m : Magnitude) (g : Grid) : Option Decimal :=
  let k := g.below m
  let low := g.point k
  let high := g.point (k + 1)
  if low.magnitude = m then
    if high.magnitude = m && !g.nearerBelow m k then some high else some low
  else if high.magnitude = m then some high
  else none

/-! ## From coarse to fine -/

/-- The grids tried: the first is wider than the value's first digit, each further one is ten times
    finer, and the last has 1073 places. -/
def grids (m : Magnitude) : List Grid :=
  let width := (Nat.toDigits 10 (m.units / unitsInOne)).length
  (List.range (width + 1074)).map fun i => ⟨width - i, i - width⟩

/-- The value itself: `2⁻¹⁰⁷⁴` is `5¹⁰⁷⁴ / 10¹⁰⁷⁴`. -/
def exact (m : Magnitude) : Decimal := ⟨m.units * Nat.pow 5 1074, 1074⟩

/-- The shortest decimal that reads back as a finite magnitude, and of those the nearest. -/
def shortest (m : Magnitude) : Decimal := (m.grids.findSome? m.onGrid).getD m.exact

/-- Digits of a finite magnitude, or the word for the infinite one. -/
def text (m : Magnitude) : String :=
  if m = infinity then "inf" else String.ofList m.shortest.chars

end Magnitude

/-- The printed form of a number. -/
def Binary64.text : Binary64 → String
  | .nan => "NaN"
  | .signed negative m => (if negative then "-" else "") ++ m.text

/-! ## Some printed numbers -/

example : (Binary64.ofBits 0x3fb999999999999a).text = "0.1" := by decide +kernel
example : (Binary64.ofBits 0x8000000000000000).text = "-0" := by decide +kernel
example : (Binary64.ofBits 0x44b52d02c7e14af6).text = "100000000000000000000000" := by decide +kernel
example : (Binary64.ofBits 0x3e60000000000000).text = "0.000000029802322387695313" := by decide +kernel

end Lox
