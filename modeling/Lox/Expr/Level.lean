/-
  Precedence levels — the operators of Lox from loosest to tightest.

      comma        conditional ( "," conditional )*
      conditional  equality ( "?" equality ":" equality )*
      equality     comparison ( ( "!=" | "==" ) comparison )*
      comparison   term ( ( ">" | ">=" | "<" | "<=" ) term )*
      term         factor ( ( "-" | "+" ) factor )*
      factor       unary ( ( "/" | "*" ) unary )*
      unary        ( "!" | "-" ) unary | primary
      primary      NUMBER | STRING | "true" | "false" | "nil" | "(" comma ")"

  The six levels that repeat share one shape: an operand of the next tighter level, then any number of
  operators of the level, each followed by what it takes.  Only the conditional takes two operands,
  and both are equalities: a conditional within a branch needs parentheses.
-/
import Lox.Token.Basic

namespace Lox

/-- The levels at which operators chain to the left, from loosest to tightest. -/
inductive Level where
  | comma | conditional | equality | comparison | term | factor
  deriving DecidableEq

namespace Level

/-- The level of the operands; those of `factor` are unary expressions. -/
def tighter : Level → Option Level
  | comma => some conditional
  | conditional => some equality
  | equality => some comparison
  | comparison => some term
  | term => some factor
  | factor => none

/-- How many levels are tighter. -/
def height : Level → Nat
  | comma => 5
  | conditional => 4
  | equality => 3
  | comparison => 2
  | term => 1
  | factor => 0

/-- The operators of a level. -/
def operators : Level → List Symbol
  | comma => [.comma]
  | conditional => [.questionMark]
  | equality => [.bangEqual, .equalEqual]
  | comparison => [.greater, .greaterEqual, .less, .lessEqual]
  | term => [.minus, .plus]
  | factor => [.slash, .star]

/-- The token is an operator of the level. -/
def continues (l : Level) (t : Token) : Bool :=
  match t.kind with
  | .symbol s => l.operators.contains s
  | _ => false

/-- Each level is one step above its operands. -/
theorem height_tighter {l m : Level} (h : l.tighter = some m) : l.height = m.height + 1 := by
  cases l <;> simp only [tighter, Option.some.injEq, reduceCtorEq] at h <;> subst h <;> rfl

/-- There are six levels. -/
theorem height_le (l : Level) : l.height ≤ 5 := by cases l <;> decide

end Level

/-- The operators that stand before their one operand. -/
def isUnaryOperator (t : Token) : Bool := t.kind == .symbol .bang || t.kind == .symbol .minus

end Lox
