/-
  Well-shaped trees — the trees that can be written without adding parentheses.

  1. **Ranks** — 0 for a comma, 1 for a conditional, 2 to 5 for the other binary operators, 6 for a
     unary operator, 7 for a literal or a grouping.
  2. **Well-shapedness** — a binary node takes its own rank on the left and only tighter ones on the
     right; a conditional takes a conditional as its condition but not as a branch.
  3. **Writing** — the lexemes of a tree in order.  A number may be written by any numeral that stands
     for it.
-/
import Lox.Expr.Basic
import Lox.Proofs.Layout.Spaced

namespace Lox

/-! ## Ranks -/

/-- The rank of a binary operator. -/
def Symbol.rank? : Symbol → Option Nat
  | comma => some 0
  | bangEqual | equalEqual => some 2
  | greater | greaterEqual | less | lessEqual => some 3
  | minus | plus => some 4
  | slash | star => some 5
  | _ => none

/-- How tightly a tree holds together. -/
def Expr.rank : Expr → Nat
  | .binary _ op _ =>
    match op.kind with
    | .symbol s => s.rank?.getD 0
    | _ => 0
  | .conditional .. => 1
  | .unary .. => 6
  | .literal _ | .grouping _ => 7

/-! ## Well-shapedness -/

namespace Expr

/-- The tree respects precedence, and its tokens and values can be written. -/
inductive WellShaped : Expr → Prop where
  | number {text d} : Numeral text d → WellShaped (.literal (.number d.toBinary64))
  | string {s} : '"' ∉ s.toList → WellShaped (.literal (.string s))
  | boolean {b} : WellShaped (.literal (.boolean b))
  | nil : WellShaped (.literal .nil)
  | grouping {e} : e.WellShaped → WellShaped (.grouping e)
  | unary {op s e} : op.Marks s → s = .bang ∨ s = .minus → e.WellShaped → 6 ≤ e.rank →
      WellShaped (.unary op e)
  | binary {a op s r b} : op.Marks s → s.rank? = some r → a.WellShaped → b.WellShaped →
      r ≤ a.rank → r < b.rank → WellShaped (.binary a op b)
  | conditional {a b c} : a.WellShaped → b.WellShaped → c.WellShaped →
      1 ≤ a.rank → 2 ≤ b.rank → 2 ≤ c.rank → WellShaped (.conditional a b c)

/-! ## Writing -/

/-- The lexemes of the tree, in order. -/
inductive Writes : Expr → List String → Prop where
  | number {text d} : Numeral text d →
      Writes (.literal (.number d.toBinary64)) [String.ofList text]
  | string {s} : Writes (.literal (.string s)) ["\"" ++ s ++ "\""]
  | boolean {b} : Writes (.literal (.boolean b)) [if b then "true" else "false"]
  | nil : Writes (.literal .nil) ["nil"]
  | grouping {e ws} : e.Writes ws → Writes (.grouping e) ("(" :: (ws ++ [")"]))
  | unary {op e ws} : e.Writes ws → Writes (.unary op e) (op.lexeme :: ws)
  | binary {a op b us vs} : a.Writes us → b.Writes vs →
      Writes (.binary a op b) (us ++ op.lexeme :: vs)
  | conditional {a b c us vs ws} : a.Writes us → b.Writes vs → c.Writes ws →
      Writes (.conditional a b c) (us ++ "?" :: (vs ++ ":" :: ws))

/-- Every well-shaped tree can be written. -/
theorem WellShaped.exists_writes {e : Expr} (h : e.WellShaped) : ∃ ws, e.Writes ws := by
  induction h with
  | number hd => exact ⟨_, .number hd⟩
  | string => exact ⟨_, .string⟩
  | boolean => exact ⟨_, .boolean⟩
  | nil => exact ⟨_, .nil⟩
  | grouping _ ih =>
    obtain ⟨ws, hws⟩ := ih
    exact ⟨_, .grouping hws⟩
  | unary _ _ _ _ ih =>
    obtain ⟨ws, hws⟩ := ih
    exact ⟨_, .unary hws⟩
  | binary _ _ _ _ _ _ iha ihb =>
    obtain ⟨us, hus⟩ := iha
    obtain ⟨vs, hvs⟩ := ihb
    exact ⟨_, .binary hus hvs⟩
  | conditional _ _ _ _ _ _ iha ihb ihc =>
    obtain ⟨us, hus⟩ := iha
    obtain ⟨vs, hvs⟩ := ihb
    obtain ⟨ws, hws⟩ := ihc
    exact ⟨_, .conditional hus hvs hws⟩

end Expr

end Lox
