/-
  The reverse Polish form of an expression — operands first, then the operator, as in `1 2 3 * + `.

  1. **Writer** — the text written so far, and whether an operand was written last: an operand or
     operator that follows an operand is set off by a space, and every operator is followed by one.
  2. **Trees** — groupings leave no trace.  The order of the words fixes the structure together with
     how many operands each operator takes, and the words do not tell that of a minus.  A conditional
     has no such form and writes nothing.
  3. **Printing** — `PolishWriter.print` starts from a cleared writer and takes the text away;
     `PolishWriter.add` goes on writing after what is there.
-/
import Lox.Expr.Basic

namespace Lox

/-! ## The writer -/

/-- What has been written, and whether an operand was written last. -/
structure PolishWriter where
  written : String
  afterOperand : Bool
  deriving DecidableEq

namespace PolishWriter

/-- A writer that has written nothing. -/
def empty : PolishWriter := ⟨"", false⟩

/-- The text so far, set off for what comes next. -/
def spaced (w : PolishWriter) : String := if w.afterOperand then w.written ++ " " else w.written

/-- Writes an operand. -/
def operand (w : PolishWriter) (text : String) : PolishWriter := ⟨w.spaced ++ text, true⟩

/-- Writes an operator and the space after it. -/
def operator (w : PolishWriter) (text : String) : PolishWriter := ⟨w.spaced ++ text ++ " ", false⟩

/-! ## Writing a tree -/

/-- Writes an expression after what is already written. -/
def add (w : PolishWriter) : Expr → PolishWriter
  | .literal v => w.operand v.text
  | .grouping e => w.add e
  | .unary op e => (w.add e).operator op.lexeme
  | .binary l op r => ((w.add l).add r).operator op.lexeme
  | .conditional _ _ _ => w

/-- Prints an expression: its own text alone, whatever was written before, and the writer emptied. -/
def print (_ : PolishWriter) (e : Expr) : String × PolishWriter :=
  let w := empty.add e
  (w.written, ⟨"", w.afterOperand⟩)

end PolishWriter

/-- The reverse Polish form. -/
def Expr.reversePolish (e : Expr) : String := (PolishWriter.empty.print e).1

end Lox
