/-
  Tokens — the words of a source, as the scanner hands them to the parser.

  1. **Literals** — the value a number or string token carries beside its spelling.
  2. **Tokens** — kind, spelling, literal, and the line the token starts on.
  3. **Display form** — `[KIND spelling literal]`, with `null` where there is no literal.
  4. **Equality** — of all four fields; numbers compare as numbers do, so a token that carries "not a
     number" differs from itself.
-/
import Lox.Number.Shortest
import Lox.Token.Kind

namespace Lox

/-! ## Literals -/

/-- The value of a literal token. -/
inductive Literal where
  | number (value : Binary64)
  | string (value : String)
  deriving DecidableEq

namespace Literal

/-- The printed form of the value; a string has no quotes around it. -/
def text : Literal → String
  | number x => x.text
  | string s => s

/-- Equality of values. -/
def equal : Literal → Literal → Bool
  | number x, number y => x.equal y
  | string s, string t => s == t
  | _, _ => false

end Literal

/-! ## Tokens -/

/-- One token of a source. -/
structure Token where
  kind : Kind
  lexeme : String
  literal : Option Literal
  line : Nat
  deriving DecidableEq

namespace Token

/-- The token that ends the input: it has no spelling. -/
def endOn (line : Nat) : Token := ⟨.eof, "", none, line⟩

/-- The token ends the input. -/
def isEof (t : Token) : Bool := t.kind == .eof

/-- The display form. -/
def text (t : Token) : String :=
  "[" ++ t.kind.name ++ " " ++ t.lexeme ++ " " ++ (t.literal.elim "null" Literal.text) ++ "]"

/-- Equality of tokens, field by field. -/
def equal (a b : Token) : Bool :=
  a.kind == b.kind && a.lexeme == b.lexeme && a.line == b.line &&
    match a.literal, b.literal with
    | none, none => true
    | some x, some y => x.equal y
    | _, _ => false

end Token

example : (Token.endOn 3).text = "[EOF  null]" := by decide +kernel
example : (⟨.symbol .leftParen, "(", none, 2⟩ : Token).text = "[LEFT_PAREN ( null]" := by
  decide +kernel

end Lox
