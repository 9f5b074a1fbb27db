/-
  Expressions — the trees that the parser builds.

  1. **Values** — what a literal stands for: a number, a string, a truth value, or nil.
  2. **Trees** — a literal, a grouping in parentheses, a unary or binary operation that keeps the very
     operator token, or a conditional.
  3. **Equality** — of trees, operator tokens with all their fields included.  A tree that holds "not a
     number" differs from itself.
-/
import Lox.Token.Basic

namespace Lox

/-! ## Values -/

/-- What a literal stands for. -/
inductive Value where
  | number (value : Binary64)
  | string (value : String)
  | boolean (value : Bool)
  | nil
  deriving DecidableEq

namespace Value

/-- The printed form; a string has no quotes around it. -/
def text : Value → String
  | number x => x.text
  | string s => s
  | boolean true => "true"
  | boolean false => "false"
  | nil => "nil"

/-- Equality of values. -/
def equal : Value → Value → Bool
  | number x, number y => x.equal y
  | string s, string t => s == t
  | boolean a, boolean b => a == b
  | nil, nil => true
  | _, _ => false

end Value

/-! ## Trees -/

/-- An expression. -/
inductive Expr where
  | literal (value : Value)
  | grouping (inner : Expr)
  | unary (operator : Token) (right : Expr)
  | binary (left : Expr) (operator : Token) (right : Expr)
  | conditional (condition thenBranch elseBranch : Expr)
  deriving DecidableEq

namespace Expr

/-- Equality of trees, node by node. -/
def equal : Expr → Expr → Bool
  | literal v, literal w => v.equal w
  | grouping e, grouping f => e.equal f
  | unary p e, unary q f => p.equal q && e.equal f
  | binary a p b, binary c q d => p.equal q && a.equal c && b.equal d
  | conditional a b c, conditional d e f => a.equal d && b.equal e && c.equal f
  | _, _ => false

end Expr

end Lox
