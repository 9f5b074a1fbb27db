/-
  Diagnostics — what the user is told about a source that is not accepted.

  1. **Places** — an error is somewhere on a line, at its end of input, or at a lexeme.
  2. **Text** — `[line N] Error<place>: <message>`, one diagnostic a line.
  3. **Collections** — diagnostics are collected in the order in which they are found, and a source is
     accepted if there are none.
  4. **Sources** — a lexical error has no place on its line; a syntax error is at its token.
-/
import Lox.Expr.OfTokens
import Lox.Token.Scan

namespace Lox

/-! ## Places -/

/-- Where on its line an error is. -/
inductive Place where
  | nowhere
  | atEnd
  | atLexeme (lexeme : String)
  deriving DecidableEq

namespace Place

/-- What is written between `Error` and the colon. -/
def text : Place → String
  | nowhere => ""
  | atEnd => " at end"
  | atLexeme l => " at '" ++ l ++ "'"

/-- The place of a token. -/
def ofToken (t : Token) : Place := if t.isEof then atEnd else atLexeme t.lexeme

end Place

/-! ## Diagnostics -/

/-- One message about a source. -/
structure Diagnostic where
  line : Nat
  place : Place
  message : String
  deriving DecidableEq

namespace Diagnostic

/-- The line that is shown to the user. -/
def text (d : Diagnostic) : String :=
  "[line " ++ toString d.line ++ "] Error" ++ d.place.text ++ ": " ++ d.message

/-- Diagnostics in the order in which they were found, one a line. -/
def report (ds : List Diagnostic) : String := "\n".intercalate (ds.map text)

end Diagnostic

/-! ## Collections -/

/-- All that is reported for one source, in the order in which it is found.  Each source begins with
    nothing. -/
abbrev Diagnostics := List Diagnostic

namespace Diagnostics

/-- Nothing has been reported. -/
def empty : Diagnostics := []

/-- Adds a diagnostic behind the others. -/
def push (ds : Diagnostics) (d : Diagnostic) : Diagnostics := ds ++ [d]

/-- Reports a message. -/
def report (ds : Diagnostics) (line : Nat) (place : Place) (message : String) : Diagnostics :=
  ds.push ⟨line, place, message⟩

/-- Adds diagnostics one after the other. -/
def extend (ds : Diagnostics) (new : List Diagnostic) : Diagnostics := new.foldl push ds

/-- Something has been reported. -/
def hadError (ds : Diagnostics) : Bool := !ds.isEmpty

/-- One after the other they are all behind what there was. -/
theorem extend_eq (ds : Diagnostics) (new : List Diagnostic) : ds.extend new = ds ++ new := by
  induction new generalizing ds with
  | nil => exact (List.append_nil ds).symm
  | cons d new ih =>
    show (ds.push d).extend new = ds ++ d :: new
    rw [ih, push, List.append_assoc]
    rfl

end Diagnostics

/-- Two are reported, one after the other. -/
example :
    let ds := (Diagnostics.empty.report 1 .nowhere "Unterminated string.").extend
      [⟨2, .atEnd, "Expected expression."⟩]
    ds.hadError ∧ ds.length = 2 ∧ Diagnostic.report ds
      = "[line 1] Error: Unterminated string.\n[line 2] Error at end: Expected expression." := by
  decide +kernel

/-! ## Where diagnostics come from -/

/-- The diagnostic for a lexical error. -/
def ScanError.diagnostic (e : ScanError) : Diagnostic := ⟨e.line, .nowhere, e.fault.message⟩

/-- The diagnostic for a syntax error. -/
def SyntaxError.diagnostic (e : SyntaxError) : Diagnostic :=
  ⟨e.token.line, .ofToken e.token, e.cause.message⟩

example : Diagnostic.text ⟨3, .nowhere, "Unexpected character: @."⟩
    = "[line 3] Error: Unexpected character: @." := by decide +kernel
example : (SyntaxError.mk .expectedExpression (.endOn 1)).diagnostic.text
    = "[line 1] Error at end: Expected expression." := by decide +kernel

end Lox
