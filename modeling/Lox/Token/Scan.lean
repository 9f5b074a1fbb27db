/-
  Scanning — from pieces to tokens and lexical errors.

  1. **Lines** — a piece is on the line on which it begins: one more than the line feeds before it.
  2. **Tokens** — strings, numbers, words and symbols, each with its whole text as lexeme; blanks and
     comments give nothing.  The list always ends with one end-of-input token, on the last line.
  3. **Errors** — the three faults, on the line on which the piece begins: an unclosed string is
     reported where it opens and not where the source ends.  Scanning goes on after an error, so one
     pass reports every one.
-/
import Lox.Source.Piece
import Lox.Source.Lines
import Lox.Token.Basic

namespace Lox

/-! ## Lines -/

/-- The pieces with the line each begins on, when the first begins on the given line. -/
def located : Nat → List Piece → List (Nat × Piece)
  | _, [] => []
  | line, p :: ps => (line, p) :: located (line + newlines p.text) ps

/-! ## Lexical errors -/

/-- What can be wrong with a piece of source. -/
inductive ScanFault where
  | strayCharacter (character : Char)
  | openString
  | openComment
  deriving DecidableEq

/-- The message for a fault. -/
def ScanFault.message : ScanFault → String
  | strayCharacter c => "Unexpected character: " ++ c.toString ++ "."
  | openString => "Unterminated string."
  | openComment => "Unterminated block comment."

/-- A fault and the line on which its piece begins. -/
structure ScanError where
  fault : ScanFault
  line : Nat
  deriving DecidableEq

/-! ## From pieces to tokens and errors -/

namespace Piece

/-- The token a piece is, if it is one.  A string's value is its text without the quotes; a number's
    value is the double nearest to its digits. -/
def token? (line : Nat) (p : Piece) : Option Token :=
  let lexeme := String.ofList p.text
  match p.form with
  | .symbol s => some ⟨.symbol s, lexeme, none, line⟩
  | .string => some ⟨.string, lexeme, some (.string (String.ofList p.text.tail.dropLast)), line⟩
  | .number =>
    some ⟨.number, lexeme, (Decimal.ofChars? p.text).map fun d => .number d.toBinary64, line⟩
  | .word => some ⟨.ofWord lexeme, lexeme, none, line⟩
  | _ => none

/-- The error a piece is, if it is one. -/
def error? (line : Nat) (p : Piece) : Option ScanError :=
  match p.form with
  | .stray c => some ⟨.strayCharacter c, line⟩
  | .openString => some ⟨.openString, line⟩
  | .openComment => some ⟨.openComment, line⟩
  | _ => none

end Piece

/-! ## The scan of a source -/

/-- What scanning a source gives: its tokens, ended by the end of input, and its lexical errors. -/
structure Scan where
  tokens : List Token
  errors : List ScanError
  deriving DecidableEq

/-- The scan of a list of characters. -/
def scanChars (cs : List Char) : Scan :=
  let ps := located 1 (pieces cs)
  ⟨ps.filterMap (fun (line, p) => p.token? line) ++ [.endOn (lastLine cs)],
   ps.filterMap fun (line, p) => p.error? line⟩

/-- The scan of a source. -/
def scan (source : String) : Scan := scanChars source.toList

example : (scan "1 +\n\"two\" @").tokens.map Token.text
    = ["[NUMBER 1 1]", "[PLUS + null]", "[STRING \"two\" two]", "[EOF  null]"] := by decide +kernel
example : (scan "1 +\n\"two\" @").errors = [⟨.strayCharacter '@', 2⟩] := by decide +kernel

end Lox
