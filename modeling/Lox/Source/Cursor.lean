/-
  Cursors — a place in a text, from which one can only go forward.

  1. **Cursor** — the whole text, the part still to come, and the line of the next character.
  2. **Motion** — everything that moves is a `skip` of some number of characters; a skip past the end
     stops there.  A run of characters is passed at once, and this is the same as one by one
     (`advanceWhile_step`).  Looking ahead does not move.
  3. **Slices** — the text between two cursors over the same source, when the first is not past the
     second.
  4. **Display** — a short form with the line and the offset, and a long one that also shows the text
     still to come.
-/
import Lox.Source.Lines
import Lox.Text.Quoted

namespace Lox

/-- A place in a text. -/
structure Cursor where
  source : String
  rest : List Char
  line : Nat
  deriving DecidableEq

namespace Cursor

/-- The start of a text. -/
def ofString (source : String) : Cursor := ⟨source, source.toList, 1⟩

/-! ## Looking -/

/-- The number of bytes before the next character. -/
def offset (c : Cursor) : Nat := c.source.utf8ByteSize - (String.ofList c.rest).utf8ByteSize

/-- Nothing is left. -/
def atEnd (c : Cursor) : Bool := c.rest.isEmpty

/-- The next character. -/
def peek (c : Cursor) : Option Char := c.rest.head?

/-- The character after the next one. -/
def peekNext (c : Cursor) : Option Char := c.rest[1]?

/-! ## Moving -/

/-- Goes on by `n` characters, or to the end if fewer are left. -/
def skip (c : Cursor) (n : Nat) : Cursor :=
  ⟨c.source, c.rest.drop n, c.line + newlines (c.rest.take n)⟩

/-- The next character, and the cursor after it. -/
def next (c : Cursor) : Option Char × Cursor := (c.peek, c.skip 1)

/-- The next `n` characters, or as many as there are, and the cursor after them. -/
def take (c : Cursor) (n : Nat) : String × Cursor := (String.ofList (c.rest.take n), c.skip n)

/-- Goes past the next character if it is the expected one, and says whether it was. -/
def advanceIf (c : Cursor) (expected : Char) : Bool × Cursor :=
  if c.peek = some expected then (true, c.skip 1) else (false, c)

/-- Goes past the longest run of characters that satisfy `p`. -/
def advanceWhile (c : Cursor) (p : Char → Bool) : Cursor := c.skip (c.rest.takeWhile p).length

/-- Two motions one after the other are one. -/
theorem skip_skip (c : Cursor) (m n : Nat) : (c.skip m).skip n = c.skip (m + n) := by
  have hline : c.line + newlines (c.rest.take m) + newlines ((c.rest.drop m).take n)
      = c.line + newlines (c.rest.take (m + n)) := by
    rw [List.take_add, newlines_append, Nat.add_assoc]
  rw [skip, skip, skip, List.drop_drop, hline]

/-- A run is passed character by character: while the next one satisfies `p` it is passed, and then
    the cursor stays. -/
theorem advanceWhile_step (c : Cursor) (p : Char → Bool) :
    c.advanceWhile p = if c.peek.any p then (c.skip 1).advanceWhile p else c := by
  cases hrest : c.rest with
  | nil =>
    have hpeek : c.peek.any p = false := by rw [peek, hrest]; rfl
    rw [advanceWhile, hrest, hpeek]
    rfl
  | cons x xs =>
    have hpeek : c.peek.any p = p x := by rw [peek, hrest]; rfl
    have hbehind : (c.skip 1).rest = xs := by rw [skip, hrest]; rfl
    rw [hpeek]
    cases hx : p x with
    | false =>
      rw [advanceWhile, hrest, List.takeWhile_cons_of_neg (by rw [hx]; exact Bool.false_ne_true)]
      rfl
    | true =>
      rw [if_pos rfl, advanceWhile, advanceWhile, hbehind, skip_skip, hrest,
        List.takeWhile_cons_of_pos hx, List.length_cons, Nat.add_comm]

/-! ## Two cursors -/

/-- The text from one cursor to a later one over the same source; `none` if the sources differ or the
    second cursor is not later. -/
def slice? (start stop : Cursor) : Option String :=
  if start.source = stop.source ∧ start.offset ≤ stop.offset then
    some (String.ofList (start.rest.take (start.rest.length - stop.rest.length)))
  else none

/-- The same source with the same text still to come. -/
def same (a b : Cursor) : Bool := a.source == b.source && a.rest == b.rest

/-! ## Display -/

/-- Line and offset, on one line. -/
def summary (c : Cursor) : String :=
  "Cursor \x7b line: Line(" ++ toString c.line ++ "), offset: " ++ toString c.offset ++ " \x7d"

/-- Line, offset and the text still to come, one field a line. -/
def details (c : Cursor) : String :=
  "Cursor \x7b\n    line: Line(\n        " ++ toString c.line ++ ",\n    ),\n    offset: "
    ++ toString c.offset ++ ",\n    rest: " ++ quoted c.rest ++ ",\n\x7d"

end Cursor

example : ((Cursor.ofString "ab\ncd").skip 3).summary = "Cursor \x7b line: Line(2), offset: 3 \x7d" := by
  decide +kernel
example : (Cursor.ofString "é\"ü\"").slice? ((Cursor.ofString "é\"ü\"").skip 1) = some "é" := by
  decide +kernel
example : ((Cursor.ofString "123.5x").advanceWhile Char.isDigit).peek = some '.' := by decide +kernel

end Lox
