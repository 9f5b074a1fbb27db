/-
  Decimals — the digits in which a number literal is written, and the double they stand for.

  1. **Data** — `Decimal` is `digits / 10 ^ places`; `7`, `7.0` and `7.00` are three decimals.
  2. **Written form** — `Decimal.chars` writes at least one digit before the point, exactly `places`
     after it, and no point when there are none.
  3. **Reading** — `Decimal.ofChars?` accepts a run of digits, or two runs with a point between, and
     keeps the count of places: it inverts `Decimal.chars` exactly.
  4. **Value** — `Decimal.magnitude` is the double nearest to the decimal, a half going to even.
-/
import Lox.Number.Binary64

namespace Lox

/-- The decimal fraction `digits / 10 ^ places`. -/
structure Decimal where
  digits : Nat
  places : Nat
  deriving DecidableEq

namespace Decimal

/-! ## Writing -/

/-- `n` in decimal digits, with zeros in front up to the given width. -/
def paddedDigits (width n : Nat) : List Char := List.leftpad width '0' (Nat.toDigits 10 n)

/-- The written form: positional, with no exponent and no digit beyond the last place. -/
def chars (d : Decimal) : List Char :=
  if d.places = 0 then Nat.toDigits 10 d.digits
  else
    Nat.toDigits 10 (d.digits / Nat.pow 10 d.places)
      ++ '.' :: paddedDigits d.places (d.digits % Nat.pow 10 d.places)

/-! ## Reading -/

/-- Reads a written decimal; `none` unless the digits before the point, and after it if there is one,
    are a non-empty run. -/
def ofChars? (cs : List Char) : Option Decimal :=
  let whole := cs.takeWhile Char.isDigit
  let rest := cs.dropWhile Char.isDigit
  if whole.isEmpty then none
  else
    match rest with
    | [] => some ⟨Nat.ofDigitChars 10 whole 0, 0⟩
    | '.' :: fraction =>
      if fraction.isEmpty || !fraction.all Char.isDigit then none
      else some ⟨Nat.ofDigitChars 10 (whole ++ fraction) 0, fraction.length⟩
    | _ => none

/-! ## The double a decimal stands for -/

/-- The nearest double: the decimal in units of the least positive one, rounded. -/
def magnitude (d : Decimal) : Magnitude := .nearest (d.digits * unitsInOne) (Nat.pow 10 d.places)

/-- The nearest double as a number; written decimals carry no sign. -/
def toBinary64 (d : Decimal) : Binary64 := .signed false d.magnitude

/-! ## Writing, then reading -/

example : (⟨4567, 2⟩ : Decimal).chars = "45.67".toList := by decide +kernel
example : (⟨7, 3⟩ : Decimal).chars = "0.007".toList := by decide +kernel
example : (⟨70, 0⟩ : Decimal).chars = "70".toList := by decide +kernel
example : ofChars? "45.67".toList = some ⟨4567, 2⟩ := by decide +kernel
example : ofChars? "2.50".toList = some ⟨250, 2⟩ := by decide +kernel
example : ofChars? "7.".toList = none := by decide +kernel
example : ofChars? ".5".toList = none := by decide +kernel

end Decimal

end Lox
