/-
  Pieces — a source cut up without loss.

  The scanner first CUTS the source into consecutive pieces and only then decides which pieces are
  tokens and which are errors.  Every character of the source lies in exactly one piece, blanks and
  comments included.

  1. **Forms** — what a piece is: a blank, a comment, a string, a number, a word, a symbol, or one of
     the three faults (a string or a block comment that is never closed, a character that begins
     nothing).
  2. **Recognition** — `recognise c rest` looks at the first character of a piece and at ALL that
     follows it, and says what the piece is and how many further characters belong to it.  Every
     form takes as much as it can.
  3. **Cutting** — `pieces` takes that many characters and goes on with the others.
-/
import Lox.Token.Kind

namespace Lox

/-! ## Forms -/

/-- What a piece of source is. -/
inductive Form where
  | blank
  | lineComment
  | blockComment
  | string
  | number
  | word
  | symbol (symbol : Symbol)
  | openString
  | openComment
  | stray (character : Char)
  deriving DecidableEq

/-! ## Character classes -/

/-- White space between tokens: space, tab, carriage return and line feed. -/
def isBlank (c : Char) : Bool := c == ' ' || c == '\t' || c == '\r' || c == '\n'

/-- A word begins with an ASCII letter or an underscore. -/
def startsWord (c : Char) : Bool := c.isAlpha || c == '_'

/-- A word goes on with ASCII letters, digits and underscores. -/
def inWord (c : Char) : Bool := startsWord c || c.isDigit

/-! ## How far each form reaches -/

/-- The characters of `rest` up to and with the first closing `*/`, if there is one.  Comments do not
    nest. -/
def commentEnd? : List Char → Option Nat
  | '*' :: '/' :: _ => some 2
  | _ :: rest => (commentEnd? rest).map (· + 1)
  | [] => none

/-- The characters of `rest` that belong to a number after its digits: a point and digits, if a
    digit follows the point, and otherwise nothing. -/
def fractionLength : List Char → Nat
  | '.' :: d :: rest => if d.isDigit then 2 + (rest.takeWhile Char.isDigit).length else 0
  | _ => 0

/-- The symbol that begins with `c`, taking a following `=` with it where that makes a symbol. -/
def symbolAt? (c : Char) (rest : List Char) : Option Symbol :=
  let joined := rest.head? == some '='
  match c with
  | '(' => some .leftParen
  | ')' => some .rightParen
  | '\x7b' => some .leftBrace
  | '\x7d' => some .rightBrace
  | ',' => some .comma
  | '.' => some .dot
  | '-' => some .minus
  | '+' => some .plus
  | ';' => some .semicolon
  | '/' => some .slash
  | '*' => some .star
  | ':' => some .colon
  | '?' => some .questionMark
  | '!' => some (if joined then .bangEqual else .bang)
  | '=' => some (if joined then .equalEqual else .equal)
  | '>' => some (if joined then .greaterEqual else .greater)
  | '<' => some (if joined then .lessEqual else .less)
  | _ => none

/-! ## Recognition -/

/-- A string that `rest` goes on with, after the opening quote: it ends at the next quote, and lines
    do not matter. -/
def recogniseString (rest : List Char) : Form × Nat :=
  let body := (rest.takeWhile (· != '"')).length
  if body < rest.length then (.string, body + 1) else (.openString, body)

/-- A block comment that `rest` goes on with, after the opening `/*`. -/
def recogniseComment (rest : List Char) : Form × Nat :=
  match commentEnd? rest with
  | some n => (.blockComment, n)
  | none => (.openComment, rest.length)

/-- What the piece beginning with `c` is, and how many characters of `rest` belong to it. -/
def recognise (c : Char) (rest : List Char) : Form × Nat :=
  if isBlank c then (.blank, 0)
  else if c = '"' then recogniseString rest
  else if c.isDigit then
    let digits := (rest.takeWhile Char.isDigit).length
    (.number, digits + fractionLength (rest.drop digits))
  else if startsWord c then (.word, (rest.takeWhile inWord).length)
  else
    match c, rest with
    | '/', '/' :: more => (.lineComment, 1 + (more.takeWhile (· != '\n')).length)
    | '/', '*' :: more =>
      let (form, n) := recogniseComment more
      (form, 1 + n)
    | _, _ =>
      match symbolAt? c rest with
      | some s => (.symbol s, s.spelling.length - 1)
      | none => (.stray c, 0)

/-! ## Cutting -/

/-- A stretch of source and what it is. -/
structure Piece where
  form : Form
  text : List Char
  deriving DecidableEq

/-- The consecutive pieces of a source. -/
def pieces : List Char → List Piece
  | [] => []
  | c :: rest =>
    let (form, n) := recognise c rest
    ⟨form, c :: rest.take n⟩ :: pieces (rest.drop n)
  termination_by cs => cs.length
  decreasing_by simp only [List.length_cons, List.length_drop]; omega

/-- **Nothing is lost**: the texts of the pieces, in order, are the source. -/
theorem flatMap_text_pieces (cs : List Char) : (pieces cs).flatMap Piece.text = cs := by
  fun_induction pieces cs with
  | case1 => rfl
  | case2 c rest form n _ ih => simp [ih]

example : (pieces "7.a /**/ !=\"".toList).map Piece.form
    = [.number, .symbol .dot, .word, .blank, .blockComment, .blank, .symbol .bangEqual, .openString] :=
  by decide +kernel

end Lox
