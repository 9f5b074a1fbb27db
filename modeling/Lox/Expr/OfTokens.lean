/-
  Expressions of a token stream — reading one expression from where the stream stands.

  1. **Success** — the tree, and the stream moved past it.
  2. **Failure** — the cause and the token at which it was found.  The stream then stands at that token,
     or just past it where an expression was expected: there the token was taken before it was looked
     at.
  3. **Whole lists** — `parseTokens` reads at the front of a list and ignores what follows.
-/
import Lox.Expr.Descent
import Lox.Token.Stream

namespace Lox

/-- Why no expression could be read, and the token at which this was found. -/
structure SyntaxError where
  cause : Cause
  token : Token
  deriving DecidableEq

namespace TokenStream

/-- Where a failed reading leaves off, given the tokens from the offending one on. -/
def afterFailure : Cause → List Token → List Token
  | .expectedExpression, rest => rest.tail
  | _, rest => rest

/-- Reads one expression and moves past it. -/
def expression (s : TokenStream) : Except SyntaxError Expr × TokenStream :=
  match Parse.expression s.pending with
  | .done e rest _ => (.ok e, s.moveTo rest)
  | .stuck cause rest => (.error ⟨cause, s.front rest⟩, s.moveTo (afterFailure cause rest))

end TokenStream

/-- The expression at the front of a token list; what follows it is ignored. -/
def parseTokens (ts : List Token) : Except SyntaxError Expr := (TokenStream.ofTokens ts).expression.1

end Lox
