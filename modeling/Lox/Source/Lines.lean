/-
  Lines — a source is divided by its line feeds, and its first line has the number 1.
-/

namespace Lox

/-- The number of line breaks in a text. -/
def newlines (cs : List Char) : Nat := cs.count '\n'

/-- The line on which a text ends. -/
def lastLine (cs : List Char) : Nat := 1 + newlines cs

/-- Line breaks of consecutive texts add up. -/
theorem newlines_append (a b : List Char) : newlines (a ++ b) = newlines a + newlines b :=
  List.count_append

end Lox
