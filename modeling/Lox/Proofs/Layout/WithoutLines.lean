/-
  Without lines — tokens and trees up to the lines on which their tokens stand.

  1. **Leaving out lines** — `Token.withoutLine` and `Expr.withoutLines`.
  2. **Derivations** — the grammar does not look at lines: tokens that differ in lines only derive trees
     that differ in lines only.
-/
import Lox.Proofs.Grammar.Derives

namespace Lox

/-! ## Leaving out lines -/

/-- The token with its line left out. -/
def Token.withoutLine (t : Token) : Token := { t with line := 0 }

/-- The tree with the lines of its operator tokens left out. -/
def Expr.withoutLines : Expr → Expr
  | .literal v => .literal v
  | .grouping e => .grouping e.withoutLines
  | .unary op e => .unary op.withoutLine e.withoutLines
  | .binary a op b => .binary a.withoutLines op.withoutLine b.withoutLines
  | .conditional a b c => .conditional a.withoutLines b.withoutLines c.withoutLines

theorem Token.withoutLine_eq_iff {t u : Token} :
    t.withoutLine = u.withoutLine ↔
      t.kind = u.kind ∧ t.lexeme = u.lexeme ∧ t.literal = u.literal := by
  simp [withoutLine]

theorem Denotes.withoutLine {t u : Token} {v : Value} (h : Denotes t v)
    (htu : t.withoutLine = u.withoutLine) : Denotes u v := by
  obtain ⟨hkind, -, hliteral⟩ := Token.withoutLine_eq_iff.mp htu
  cases h with
  | falseWord hk => exact .falseWord (hkind ▸ hk)
  | trueWord hk => exact .trueWord (hkind ▸ hk)
  | nilWord hk => exact .nilWord (hkind ▸ hk)
  | number hk hl => exact .number (hkind ▸ hk) (hliteral ▸ hl)
  | string hk hl => exact .string (hkind ▸ hk) (hliteral ▸ hl)

/-! ## Derivations -/

/-- **The grammar does not look at lines.** -/
theorem Derives.withoutLines {n : Nonterminal} {ts : List Token} {e : Expr} (h : Derives n ts e) :
    ∀ us : List Token, ts.map Token.withoutLine = us.map Token.withoutLine →
      ∃ e', Derives n us e' ∧ e'.withoutLines = e.withoutLines := by
  induction h with
  | operand hn _ ih =>
    intro us hus
    obtain ⟨e', hd, he⟩ := ih us hus
    exact ⟨e', .operand hn hd, he⟩
  | @binary n m operators ts left op s vs right hn _ hk hs _ ihl ihr =>
    intro us hus
    rw [List.map_append, List.map_cons, eq_comm, List.map_eq_append_iff] at hus
    obtain ⟨us₁, us₂, rfl, hus₁, hus₂⟩ := hus
    obtain ⟨op', us₃, rfl, hop, hus₃⟩ := List.map_eq_cons_iff.mp hus₂
    obtain ⟨left', hleft, heleft⟩ := ihl us₁ hus₁.symm
    obtain ⟨right', hright, heright⟩ := ihr us₃ hus₃.symm
    refine ⟨.binary left' op' right', .binary hn hleft ?_ hs hright, ?_⟩
    · rw [(Token.withoutLine_eq_iff.mp hop).1, hk]
    · rw [Expr.withoutLines, Expr.withoutLines, heleft, hop, heright]
  | condition _ ih =>
    intro us hus
    obtain ⟨e', hd, he⟩ := ih us hus
    exact ⟨e', .condition hd, he⟩
  | @conditional ts condition q ys yes c ns no _ hq _ hc _ ihc ihy ihn =>
    intro us hus
    rw [List.map_append, List.map_cons, List.map_append, List.map_cons, eq_comm,
      List.map_eq_append_iff] at hus
    obtain ⟨us₁, us₂, rfl, hus₁, hus₂⟩ := hus
    obtain ⟨q', us₃, rfl, hq', hus₃⟩ := List.map_eq_cons_iff.mp hus₂
    obtain ⟨us₄, us₅, rfl, hus₄, hus₅⟩ := List.map_eq_append_iff.mp hus₃
    obtain ⟨c', us₆, rfl, hc', hus₆⟩ := List.map_eq_cons_iff.mp hus₅
    obtain ⟨condition', hcondition, hecondition⟩ := ihc us₁ hus₁.symm
    obtain ⟨yes', hyes, heyes⟩ := ihy us₄ hus₄.symm
    obtain ⟨no', hno, heno⟩ := ihn us₆ hus₆.symm
    refine ⟨.conditional condition' yes' no', .conditional hcondition ?_ hyes ?_ hno, ?_⟩
    · rw [(Token.withoutLine_eq_iff.mp hq').1, hq]
    · rw [(Token.withoutLine_eq_iff.mp hc').1, hc]
    · rw [Expr.withoutLines, Expr.withoutLines, hecondition, heyes, heno]
  | @unary op ts e hop _ ih =>
    intro us hus
    rw [List.map_cons, eq_comm] at hus
    obtain ⟨op', us', rfl, hop', hus'⟩ := List.map_eq_cons_iff.mp hus
    obtain ⟨e', hd, he⟩ := ih us' hus'.symm
    refine ⟨.unary op' e', .unary ?_ hd, ?_⟩
    · rwa [(Token.withoutLine_eq_iff.mp hop').1]
    · rw [Expr.withoutLines, Expr.withoutLines, hop', he]
  | primary _ ih =>
    intro us hus
    obtain ⟨e', hd, he⟩ := ih us hus
    exact ⟨e', .primary hd, he⟩
  | @literal t v hv =>
    intro us hus
    rw [List.map_singleton, eq_comm] at hus
    obtain ⟨t', rfl, ht'⟩ := List.map_eq_singleton_iff.mp hus
    exact ⟨.literal v, .literal (hv.withoutLine ht'.symm), rfl⟩
  | @grouping l ts e r hl _ hr ih =>
    intro us hus
    rw [List.map_cons, List.map_append, List.map_singleton, eq_comm] at hus
    obtain ⟨l', us₁, rfl, hl', hus₁⟩ := List.map_eq_cons_iff.mp hus
    obtain ⟨us₂, us₃, rfl, hus₂, hus₃⟩ := List.map_eq_append_iff.mp hus₁
    obtain ⟨r', rfl, hr'⟩ := List.map_eq_singleton_iff.mp hus₃
    obtain ⟨e', hd, he⟩ := ih us₂ hus₂.symm
    refine ⟨.grouping e', .grouping ?_ hd ?_, ?_⟩
    · rw [(Token.withoutLine_eq_iff.mp hl').1, hl]
    · rw [(Token.withoutLine_eq_iff.mp hr').1, hr]
    · rw [Expr.withoutLines, Expr.withoutLines, he]

end Lox
