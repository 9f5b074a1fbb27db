/-
  The bracketed form of an expression: each operation in parentheses with its operator first, as in
  `(* (- 123) (group 45.67))`.
-/
import Lox.Expr.Basic

namespace Lox

/-- A head and what follows it, in parentheses, with single spaces between. -/
def inBrackets (head : String) (parts : List String) : String :=
  "(" ++ " ".intercalate (head :: parts) ++ ")"

/-- The bracketed form.  A grouping is written out, a conditional has the head `?:`, and a literal
    stands alone. -/
def Expr.bracketed : Expr → String
  | literal v => v.text
  | grouping e => inBrackets "group" [e.bracketed]
  | unary op e => inBrackets op.lexeme [e.bracketed]
  | binary l op r => inBrackets op.lexeme [l.bracketed, r.bracketed]
  | conditional c t e => inBrackets "?:" [c.bracketed, t.bracketed, e.bracketed]

end Lox
