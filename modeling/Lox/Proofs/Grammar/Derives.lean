/-
  Derivations — the grammar of expressions, on its own.

      comma        ternary ( "," ternary )*
      ternary      equality ( "?" equality ":" equality )*
      equality     comparison ( ( "!=" | "==" ) comparison )*
      comparison   term ( ( ">" | ">=" | "<" | "<=" ) term )*
      term         factor ( ( "-" | "+" ) factor )*
      factor       unary ( ( "/" | "*" ) unary )*
      unary        ( "!" | "-" ) unary | primary
      primary      NUMBER | STRING | "true" | "false" | "nil" | "(" comma ")"

  Nothing here knows of a parser.  A repetition is read as LEFT recursion, so that a derivation carries
  the tree that leans left; an operator node keeps the very token of the input.

  1. **Terminals** — token kinds, except that a number or string token stands for a literal only if it
     carries a value of its own kind (`Denotes`).
  2. **Derivations** — `Derives n ts e`: the tokens `ts` derive from `n`, and `e` is the tree.
  3. **Ranks** — the nonterminals from loosest to tightest; each derives what the tighter ones do.
  4. **Sentences** — what derives from `comma`; a list of tokens is VIABLE if some sentence begins with
     it.
-/
import Lox.Expr.Basic

namespace Lox

/-! ## Terminals -/

/-- The token is a literal with the given value. -/
inductive Denotes : Token → Value → Prop where
  | falseWord {t} : t.kind = .keyword .falseWord → Denotes t (.boolean false)
  | trueWord {t} : t.kind = .keyword .trueWord → Denotes t (.boolean true)
  | nilWord {t} : t.kind = .keyword .nilWord → Denotes t .nil
  | number {t x} : t.kind = .number → t.literal = some (.number x) → Denotes t (.number x)
  | string {t s} : t.kind = .string → t.literal = some (.string s) → Denotes t (.string s)

/-- A token of a symbol. -/
def Token.ofSymbol (s : Symbol) : Token := ⟨.symbol s, s.spelling, none, 1⟩

/-- The nonterminals. -/
inductive Nonterminal where
  | comma | ternary | equality | comparison | term | factor | unary | primary
  deriving DecidableEq

/-- The nonterminals that repeat binary operators: their operand, and the operators. -/
def Nonterminal.repeats : Nonterminal → Option (Nonterminal × List Symbol)
  | comma => some (ternary, [.comma])
  | equality => some (comparison, [.bangEqual, .equalEqual])
  | comparison => some (term, [.greater, .greaterEqual, .less, .lessEqual])
  | term => some (factor, [.minus, .plus])
  | factor => some (unary, [.slash, .star])
  | ternary | unary | primary => none

/-- The operators after which an expression goes on. -/
def continuationOperators : List Symbol :=
  [.comma, .questionMark, .bangEqual, .equalEqual, .greater, .greaterEqual, .less, .lessEqual,
   .minus, .plus, .slash, .star]

/-- The token is such an operator. -/
def Continues (t : Token) : Prop := ∃ s ∈ continuationOperators, t.kind = .symbol s

/-! ## Derivations -/

/-- The tokens derive from the nonterminal, with the given tree. -/
inductive Derives : Nonterminal → List Token → Expr → Prop where
  | operand {n m operators ts e} : n.repeats = some (m, operators) → Derives m ts e →
      Derives n ts e
  | binary {n m operators ts left op s us right} : n.repeats = some (m, operators) →
      Derives n ts left → op.kind = .symbol s → s ∈ operators → Derives m us right →
      Derives n (ts ++ op :: us) (.binary left op right)
  | condition {ts e} : Derives .equality ts e → Derives .ternary ts e
  | conditional {ts condition q us yes c vs no} : Derives .ternary ts condition →
      q.kind = .symbol .questionMark → Derives .equality us yes →
      c.kind = .symbol .colon → Derives .equality vs no →
      Derives .ternary (ts ++ q :: (us ++ c :: vs)) (.conditional condition yes no)
  | unary {op ts e} : op.kind = .symbol .bang ∨ op.kind = .symbol .minus → Derives .unary ts e →
      Derives .unary (op :: ts) (.unary op e)
  | primary {ts e} : Derives .primary ts e → Derives .unary ts e
  | literal {t v} : Denotes t v → Derives .primary [t] (.literal v)
  | grouping {l ts e r} : l.kind = .symbol .leftParen → Derives .comma ts e →
      r.kind = .symbol .rightParen → Derives .primary (l :: (ts ++ [r])) (.grouping e)

/-! ## Ranks -/

/-- How many nonterminals are looser. -/
def Nonterminal.rank : Nonterminal → Nat
  | comma => 0
  | ternary => 1
  | equality => 2
  | comparison => 3
  | term => 4
  | factor => 5
  | unary => 6
  | primary => 7

theorem Nonterminal.rank_injective {n m : Nonterminal} (h : n.rank = m.rank) : n = m := by
  revert h
  cases n <;> cases m <;> decide

/-- Every nonterminal but the tightest has a next tighter one, and derives what that derives. -/
theorem Nonterminal.exists_tighter {n : Nonterminal} (h : n.rank < 7) :
    ∃ m : Nonterminal, m.rank = n.rank + 1 ∧ ∀ ts e, Derives m ts e → Derives n ts e := by
  cases n with
  | comma => exact ⟨.ternary, rfl, fun _ _ => .operand rfl⟩
  | ternary => exact ⟨.equality, rfl, fun _ _ => .condition⟩
  | equality => exact ⟨.comparison, rfl, fun _ _ => .operand rfl⟩
  | comparison => exact ⟨.term, rfl, fun _ _ => .operand rfl⟩
  | term => exact ⟨.factor, rfl, fun _ _ => .operand rfl⟩
  | factor => exact ⟨.unary, rfl, fun _ _ => .operand rfl⟩
  | unary => exact ⟨.primary, rfl, fun _ _ => .primary⟩
  | primary => exact absurd h (by decide)

theorem Nonterminal.rank_le (n : Nonterminal) : n.rank ≤ 7 := by
  cases n <;> decide

/-- What derives from a nonterminal derives from every looser one. -/
theorem Derives.loosen {n m : Nonterminal} {ts : List Token} {e : Expr} (h : Derives m ts e)
    (hle : n.rank ≤ m.rank) : Derives n ts e := by
  obtain ⟨k, hk⟩ := Nat.exists_eq_add_of_le hle
  induction k generalizing n with
  | zero =>
    obtain rfl : n = m := Nonterminal.rank_injective (by omega)
    exact h
  | succ k ih =>
    have hm := m.rank_le
    obtain ⟨l, hl, hloosen⟩ := Nonterminal.exists_tighter (n := n) (by omega)
    exact hloosen ts e (ih (by omega) (by omega))

/-! ## Sentences -/

/-- The tokens are an expression. -/
def Sentence (ts : List Token) : Prop := ∃ e, Derives .comma ts e

/-- Some sentence begins with the tokens. -/
def Viable (ts : List Token) : Prop := ∃ us, Sentence (ts ++ us)

/-- What a viable list begins with is viable. -/
theorem Viable.of_append {ts us : List Token} (h : Viable (ts ++ us)) : Viable ts := by
  obtain ⟨vs, hs⟩ := h
  exact ⟨us ++ vs, by rwa [← List.append_assoc]⟩

theorem Denotes.not_eof {t : Token} {v : Value} (h : Denotes t v) : t.isEof = false := by
  cases h <;> simp_all [Token.isEof]

theorem Token.not_eof_of_symbol {t : Token} {s : Symbol} (h : t.kind = .symbol s) :
    t.isEof = false := by
  simp [Token.isEof, h]

/-- The end of input is no terminal. -/
theorem Derives.not_eof {n : Nonterminal} {ts : List Token} {e : Expr} (h : Derives n ts e) :
    ∀ t ∈ ts, t.isEof = false := by
  induction h with
  | operand _ _ ih => exact ih
  | binary _ _ hop _ _ ihl ihr =>
    intro t ht
    rcases List.mem_append.mp ht with ht | ht
    · exact ihl t ht
    · rcases List.mem_cons.mp ht with rfl | ht
      · exact Token.not_eof_of_symbol hop
      · exact ihr t ht
  | condition _ ih => exact ih
  | conditional _ hq _ hc _ ihc ihy ihn =>
    intro t ht
    simp only [List.mem_append, List.mem_cons] at ht
    rcases ht with ht | rfl | ht | rfl | ht
    · exact ihc t ht
    · exact Token.not_eof_of_symbol hq
    · exact ihy t ht
    · exact Token.not_eof_of_symbol hc
    · exact ihn t ht
  | unary hop _ ih =>
    intro t ht
    rcases List.mem_cons.mp ht with rfl | ht
    · exact hop.elim Token.not_eof_of_symbol Token.not_eof_of_symbol
    · exact ih t ht
  | primary _ ih => exact ih
  | literal hv =>
    intro t ht
    rw [List.mem_singleton.mp ht]
    exact hv.not_eof
  | grouping hl _ hr ih =>
    intro t ht
    simp only [List.mem_cons, List.mem_append, List.not_mem_nil, or_false] at ht
    rcases ht with rfl | ht | rfl
    · exact Token.not_eof_of_symbol hl
    · exact ih t ht
    · exact Token.not_eof_of_symbol hr

end Lox
