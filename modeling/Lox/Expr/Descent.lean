/-
  Parsing — one expression from the front of a token list.

  1. **Outcome** — a tree and the tokens after it, with the fact that they are FEWER; or the cause of
     the failure and the tokens from the offending one on.
  2. **Descent** — `level` reads one operand of the next tighter level and hands it to `chain`, which
     folds further operands of the level onto it, always leaning left.  Below the levels stand `unary`
     and `primary`.
  3. **Ending** — every recursive call has fewer tokens before it, or as many and a tighter level.
     Each token counts for more than all levels together, so one natural number goes down and the
     recursion ends on every token list.

  The list holds the tokens BEFORE the end of input: an empty list means that the end is reached.
  Nothing is read past the first token that cannot go on, so what follows an expression is left over.
-/
import Lox.Expr.Basic
import Lox.Expr.Level

namespace Lox

/-! ## Outcomes -/

/-- Why no expression could be read. -/
inductive Cause where
  | expectedExpression
  | missingRightParen
  | missingColon
  deriving DecidableEq

/-- The message for a cause. -/
def Cause.message : Cause → String
  | expectedExpression => "Expected expression."
  | missingRightParen => "Expected ')' after expression."
  | missingColon => "Expected ':' token in ternary operation."

/-- What reading an expression gives: a tree and the tokens left, which are fewer than `bound`; or a
    cause and the tokens from the offending one on. -/
inductive Outcome (bound : Nat) where
  | done (tree : Expr) (rest : List Token) (shorter : rest.length < bound)
  | stuck (cause : Cause) (rest : List Token)

/-! ## Literals -/

/-- The value of a token that is an expression by itself.  A number or string token counts only when
    it carries a value of its own kind. -/
def Token.value? (t : Token) : Option Value :=
  match t.kind, t.literal with
  | .keyword .falseWord, _ => some (.boolean false)
  | .keyword .trueWord, _ => some (.boolean true)
  | .keyword .nilWord, _ => some .nil
  | .number, some (.number x) => some (.number x)
  | .string, some (.string s) => some (.string s)
  | _, _ => none

/-! ## The descent -/

namespace Parse

mutual

/-- An expression of the given level. -/
def level (l : Level) (ts : List Token) : Outcome ts.length :=
  match operand l ts with
  | .done e rest h => chain ts.length l e rest h
  | .stuck cause rest => .stuck cause rest
  termination_by 16 * ts.length + 2 * l.height + 3
  decreasing_by all_goals have := l.height_le; omega

/-- An operand of the given level: an expression of the next tighter one. -/
def operand (l : Level) (ts : List Token) : Outcome ts.length :=
  match _h : l.tighter with
  | some m => level m ts
  | none => unary ts
  termination_by 16 * ts.length + 2 * l.height + 2
  decreasing_by
  · have := Level.height_tighter _h; omega
  · omega

/-- Folds onto `left` whatever operators of the level follow, each with its operands. -/
def chain (bound : Nat) (l : Level) (left : Expr) (ts : List Token) (fewer : ts.length < bound) :
    Outcome bound :=
  match ts with
  | [] => .done left [] fewer
  | t :: rest =>
    if l.continues t then
      match operand l rest with
      | .stuck cause rest' => .stuck cause rest'
      | .done right rest' h =>
        if l = .conditional then
          match rest' with
          | [] => .stuck .missingColon []
          | c :: rest'' =>
            if c.kind = .symbol .colon then
              match operand l rest'' with
              | .stuck cause rest3 => .stuck cause rest3
              | .done other rest3 h3 =>
                chain bound l (.conditional left right other) rest3
                  (by simp only [List.length_cons] at *; omega)
            else .stuck .missingColon (c :: rest'')
        else
          chain bound l (.binary left t right) rest' (by simp only [List.length_cons] at *; omega)
    else .done left (t :: rest) fewer
  termination_by 16 * ts.length
  decreasing_by all_goals have := l.height_le; simp only [List.length_cons] at *; omega

/-- A unary expression: operators before a primary expression. -/
def unary (ts : List Token) : Outcome ts.length :=
  match ts with
  | [] => primary []
  | t :: rest =>
    if isUnaryOperator t then
      match unary rest with
      | .done e rest' h => .done (.unary t e) rest' (by simp only [List.length_cons]; omega)
      | .stuck cause rest' => .stuck cause rest'
    else primary (t :: rest)
  termination_by 16 * ts.length + 1
  decreasing_by
  · omega
  · simp only [List.length_cons]; omega
  · omega

/-- A primary expression: a literal, or an expression in parentheses. -/
def primary (ts : List Token) : Outcome ts.length :=
  match ts with
  | [] => .stuck .expectedExpression []
  | t :: rest =>
    match t.value? with
    | some v => .done (.literal v) rest (by simp only [List.length_cons]; omega)
    | none =>
      if t.kind = .symbol .leftParen then
        match level .comma rest with
        | .stuck cause rest' => .stuck cause rest'
        | .done e rest' h =>
          match rest' with
          | [] => .stuck .missingRightParen []
          | c :: rest'' =>
            if c.kind = .symbol .rightParen then
              .done (.grouping e) rest'' (by simp only [List.length_cons] at *; omega)
            else .stuck .missingRightParen (c :: rest'')
      else .stuck .expectedExpression (t :: rest)
  termination_by 16 * ts.length
  decreasing_by have := Level.comma.height_le; simp only [List.length_cons] at *; omega

end

/-- An expression of any level. -/
def expression (ts : List Token) : Outcome ts.length := level .comma ts

end Parse

end Lox
