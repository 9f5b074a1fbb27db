/-
  Sets of characters given by ranges of code points — the form in which a character property is
  tabulated.
-/

namespace Lox

/-- Ranges of code points, each with its first and its last. -/
abbrev Ranges := List (Nat × Nat)

/-- The character lies in one of the ranges. -/
def Ranges.covers (rs : Ranges) (c : Char) : Bool :=
  rs.any fun (first, last) => decide (first ≤ c.toNat ∧ c.toNat ≤ last)

/-- Each range is proper, and there is a gap before the next one. -/
def Ranges.increasing : Ranges → Bool
  | [] => true
  | [(first, last)] => decide (first ≤ last)
  | (first, last) :: (next, last') :: rest =>
    decide (first ≤ last ∧ last + 1 < next) && increasing ((next, last') :: rest)

end Lox
