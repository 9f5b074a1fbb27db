/-
  Running a source — from text to what is printed.

  1. **Output** — what to print: the bracketed form, the reverse Polish form, or the tokens.
  2. **Token dump** — one line of output for each line that has tokens, headed by its number.
  3. **Run** — diagnostics come in two groups, lexical errors and then the syntax error, and any of
     them means that nothing is printed.  The source is parsed even after lexical errors, so that one
     run reports both; printing tokens needs no parse.
-/
import Lox.Diagnostic
import Lox.Expr.Bracketed
import Lox.Expr.ReversePolish

namespace Lox

/-! ## Outputs -/

/-- What to print for an accepted source. -/
inductive Output where
  | bracketed
  | reversePolish
  | tokens
  deriving DecidableEq

namespace Output

/-- All outputs. -/
def all : List Output := [bracketed, reversePolish, tokens]

/-- The output chosen when none is named. -/
def standard : Output := bracketed

/-- What an output is called. -/
def name : Output → String
  | bracketed => "ast"
  | reversePolish => "rpn"
  | tokens => "tokens"

/-- The output with exactly the given name, if there is one. -/
def ofName? (text : String) : Option Output := all.find? fun o => o.name == text

end Output

/-! ## The token dump -/

/-- The tokens of one line, headed by its number. -/
def dumpLine (ts : List Token) : String :=
  toString ((ts.head?).elim 0 Token.line) ++ ": " ++ " ".intercalate (ts.map Token.text)

/-- Tokens line by line: adjacent tokens on one line are put together. -/
def dumpTokens (ts : List Token) : String :=
  "\n".intercalate ((ts.splitBy fun a b => a.line == b.line).map dumpLine)

/-! ## One run -/

/-- What the parser says about a source, lexical errors apart. -/
def parse (source : String) : Except SyntaxError Expr := parseTokens (scan source).tokens

/-- The text to print for a scanned source, lexical errors apart. -/
def render (output : Output) (ts : List Token) : Except SyntaxError String :=
  match output with
  | .bracketed => (parseTokens ts).map Expr.bracketed
  | .reversePolish => (parseTokens ts).map Expr.reversePolish
  | .tokens => .ok (dumpTokens ts)

/-- Runs a source: the text to print, or the diagnostics. -/
def runSource (source : String) (output : Output) : Except Diagnostics String :=
  let s := scan source
  let lexical := Diagnostics.empty.extend (s.errors.map ScanError.diagnostic)
  match render output s.tokens with
  | .ok text => if lexical.hadError then .error lexical else .ok text
  | .error e => .error (lexical.push e.diagnostic)

/-- What a run gives, in terms of the list of lexical diagnostics. -/
theorem runSource_eq (source : String) (output : Output) :
    runSource source output =
      let lexical := (scan source).errors.map ScanError.diagnostic
      match render output (scan source).tokens with
      | .ok text => if lexical.isEmpty then .ok text else .error lexical
      | .error e => .error (lexical ++ [e.diagnostic]) := by
  have hlexical : ∀ ds : List Diagnostic, Diagnostics.empty.extend ds = ds :=
    fun ds => (Diagnostics.extend_eq .empty ds).trans (List.nil_append ds)
  simp only [runSource, hlexical, Diagnostics.hadError]
  cases render output (scan source).tokens with
  | ok text => cases (scan source).errors.map ScanError.diagnostic <;> rfl
  | error e => rfl

example : (runSource "1 + 2 * 3" .bracketed).toOption = some "(+ 1 (* 2 3))" := by decide +kernel
example : (runSource "1 + 2 * 3" .reversePolish).toOption = some "1 2 3 * + " := by decide +kernel
example : (runSource "(\n\n-1)" .tokens).toOption
    = some ("1: [LEFT_PAREN ( null]\n"
        ++ "3: [MINUS - null] [NUMBER 1 1] [RIGHT_PAREN ) null] [EOF  null]") := by decide +kernel

end Lox
