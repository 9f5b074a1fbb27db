/-
  Recognition — the descent reads exactly the grammar, and greedily.

  1. **Levels and nonterminals** — the tables of the descent and of the grammar say the same.
  2. **Soundness** — what a run reads is a derivation (`Runs.derives`).  The invariant of a chain is
     that its left operand is already derived; besides, a level leaves off only where none of its own
     and of the tighter operators follows.
  3. **Completeness** — a derivation is read back (`Derives.runs`).  The induction is generalised over
     what FOLLOWS: reading at a level comes to stand in the chain with the derived tree on the left,
     whatever the chain then does.
  4. **Whole lists** — `expression_iff_greedy`: the tree and the stopping place of a reading are those
     of the grammar, and there is at most one such pair.
-/
import Lox.Expr.OfTokens
import Lox.Proofs.Grammar.Runs
import Lox.Proofs.Grammar.Derives
import Lox.Proofs.Stream.Ended

namespace Lox

open Parse

/-! ## Levels and nonterminals -/

/-- The nonterminal of a level. -/
def Level.nonterminal : Level → Nonterminal
  | comma => .comma
  | conditional => .ternary
  | equality => .equality
  | comparison => .comparison
  | term => .term
  | factor => .factor

/-- The nonterminal of the operands of a level. -/
def Level.operandNonterminal (l : Level) : Nonterminal := l.tighter.elim .unary Level.nonterminal

theorem Level.repeats_nonterminal {l : Level} (h : l ≠ .conditional) :
    l.nonterminal.repeats = some (l.operandNonterminal, l.operators) := by
  cases l <;> first | rfl | exact absurd rfl h

theorem Level.of_repeats {n m : Nonterminal} {operators : List Symbol}
    (h : n.repeats = some (m, operators)) :
    ∃ l : Level, l ≠ .conditional ∧ n = l.nonterminal ∧ m = l.operandNonterminal ∧
      operators = l.operators := by
  cases n with
  | comma => cases h; exact ⟨.comma, by decide, rfl, rfl, rfl⟩
  | equality => cases h; exact ⟨.equality, by decide, rfl, rfl, rfl⟩
  | comparison => cases h; exact ⟨.comparison, by decide, rfl, rfl, rfl⟩
  | term => cases h; exact ⟨.term, by decide, rfl, rfl, rfl⟩
  | factor => cases h; exact ⟨.factor, by decide, rfl, rfl, rfl⟩
  | ternary | unary | primary => cases h

theorem Level.continues_iff {l : Level} {t : Token} :
    l.continues t ↔ ∃ s ∈ l.operators, t.kind = .symbol s := by
  rw [Level.continues]
  split
  · rename_i s hs
    simp [hs]
  · rename_i hs
    simp only [Bool.false_eq_true, false_iff]
    rintro ⟨s, -, h⟩
    exact hs s h

theorem Level.operators_disjoint : ∀ (l m : Level) (s : Symbol), s ∈ l.operators →
    s ∈ m.operators → l = m := by
  intro l m
  cases l <;> cases m <;> decide

/-- An operator belongs to one level. -/
theorem Level.continues_unique {l m : Level} {t : Token} (hl : l.continues t)
    (hm : m.continues t) : l = m := by
  obtain ⟨s, hs, hk⟩ := Level.continues_iff.mp hl
  obtain ⟨s', hs', hk'⟩ := Level.continues_iff.mp hm
  obtain rfl : s = s' := Kind.symbol.inj (hk.symm.trans hk')
  exact Level.operators_disjoint l m s hs hs'

theorem isUnaryOperator_iff {t : Token} :
    isUnaryOperator t ↔ t.kind = .symbol .bang ∨ t.kind = .symbol .minus := by
  simp [isUnaryOperator]

/-- The values of the descent are those of the grammar. -/
theorem denotes_iff {t : Token} {v : Value} : Denotes t v ↔ t.value? = some v := by
  constructor
  · intro h
    cases h <;> simp_all [Token.value?]
  · intro h
    rw [Token.value?] at h
    split at h
    · exact Option.some.inj h ▸ .falseWord ‹_›
    · exact Option.some.inj h ▸ .trueWord ‹_›
    · exact Option.some.inj h ▸ .nilWord ‹_›
    · exact Option.some.inj h ▸ .number ‹_› ‹_›
    · exact Option.some.inj h ▸ .string ‹_› ‹_›
    · cases h

/-- An operand of a level is an expression of the level. -/
theorem Derives.of_operand {l : Level} {ts : List Token} {e : Expr}
    (h : Derives l.operandNonterminal ts e) : Derives l.nonterminal ts e := by
  by_cases hl : l = .conditional
  · subst hl
    exact .condition h
  · exact .operand (Level.repeats_nonterminal hl) h

/-- An expression of a level goes on with an operator of the level and an operand. -/
theorem Derives.of_continues {l : Level} {ts us : List Token} {left right : Expr} {op : Token}
    (hl : l ≠ .conditional) (hop : l.continues op) (hleft : Derives l.nonterminal ts left)
    (hright : Derives l.operandNonterminal us right) :
    Derives l.nonterminal (ts ++ op :: us) (.binary left op right) := by
  obtain ⟨s, hs, hk⟩ := Level.continues_iff.mp hop
  exact .binary (Level.repeats_nonterminal hl) hleft hk hs hright

theorem questionMark_of_continues {t : Token} (h : Level.conditional.continues t) :
    t.kind = .symbol .questionMark := by
  obtain ⟨s, hs, hk⟩ := Level.continues_iff.mp h
  obtain rfl : s = .questionMark := List.mem_singleton.mp hs
  exact hk

/-! ## Soundness -/

/-- No operator of a level below the height comes next. -/
def Stops (height : Nat) (ts : List Token) : Prop :=
  ∀ t ∈ ts.head?, ∀ l : Level, l.height < height → ¬ l.continues t

theorem stops_nil (height : Nat) : Stops height [] := by
  intro t ht
  cases ht

/-- The operators of all levels together. -/
theorem continues_iff_level {t : Token} : Continues t ↔ ∃ l : Level, l.continues t := by
  constructor
  · rintro ⟨s, hs, hk⟩
    obtain ⟨l, hl⟩ : ∃ l : Level, s ∈ l.operators := by
      simp only [continuationOperators, List.mem_cons, List.not_mem_nil, or_false] at hs
      rcases hs with rfl | rfl | rfl | rfl | rfl | rfl | rfl | rfl | rfl | rfl | rfl | rfl
      · exact ⟨.comma, by decide⟩
      · exact ⟨.conditional, by decide⟩
      · exact ⟨.equality, by decide⟩
      · exact ⟨.equality, by decide⟩
      · exact ⟨.comparison, by decide⟩
      · exact ⟨.comparison, by decide⟩
      · exact ⟨.comparison, by decide⟩
      · exact ⟨.comparison, by decide⟩
      · exact ⟨.term, by decide⟩
      · exact ⟨.term, by decide⟩
      · exact ⟨.factor, by decide⟩
      · exact ⟨.factor, by decide⟩
    exact ⟨l, Level.continues_iff.mpr ⟨s, hl, hk⟩⟩
  · rintro ⟨l, hl⟩
    obtain ⟨s, hs, hk⟩ := Level.continues_iff.mp hl
    have hsub : ∀ s ∈ l.operators, s ∈ continuationOperators := by cases l <;> decide
    exact ⟨s, hsub s hs, hk⟩

/-- Reading a whole expression stops where none of these operators follows. -/
theorem stops_comma_iff {ts : List Token} :
    Stops (Level.comma.height + 1) ts ↔ ∀ t ∈ ts.head?, ¬ Continues t := by
  constructor
  · intro h t ht hc
    obtain ⟨l, hl⟩ := continues_iff_level.mp hc
    exact h t ht l (Nat.lt_succ_of_le l.height_le) hl
  · intro h t ht l _ hl
    exact h t ht (continues_iff_level.mpr ⟨l, hl⟩)

/-- Before any other symbol every level leaves off. -/
theorem stops_of_symbol {height : Nat} {t : Token} {ts : List Token} {s : Symbol}
    (h : t.kind = .symbol s) (hs : s ∉ continuationOperators) : Stops height (t :: ts) := by
  intro t' ht l _ hl
  obtain rfl : t = t' := Option.some.inj ht
  obtain ⟨s', hs', hk⟩ := continues_iff_level.mpr ⟨l, hl⟩
  obtain rfl : s = s' := Kind.symbol.inj (h.symm.trans hk)
  exact hs hs'

/-- Below the next height stand the operators of one more level. -/
theorem Stops.succ {l : Level} {ts : List Token} (h : Stops l.height ts)
    (hl : ∀ t ∈ ts.head?, ¬ l.continues t) : Stops (l.height + 1) ts := by
  intro t ht m hm
  rcases Nat.lt_or_ge m.height l.height with hlt | hge
  · exact h t ht m hlt
  · have heq : m.height = l.height := by omega
    obtain rfl : m = l := by
      revert heq
      cases m <;> cases l <;> decide
    exact hl t ht

namespace Parse

/-- What a task reads. -/
def Task.nonterminal : Task → Nonterminal
  | level l | chain l _ => l.nonterminal
  | operand l => l.operandNonterminal
  | unary => .unary
  | primary => .primary

/-- The height up to which no operator follows what a task reads. -/
def Task.height : Task → Nat
  | level l | chain l _ => l.height + 1
  | operand l => l.height
  | unary | primary => 0

/-- What must have been read when the task is put: for a chain its left operand, up to where the
    tighter levels leave off, and else nothing. -/
def Task.Begun : Task → List Token → List Token → Prop
  | chain l left, read, ts => Derives l.nonterminal read left ∧ Stops l.height ts
  | _, read, _ => read = []

/-- **Soundness.**  What has been read and what a run reads are together a derivation. -/
theorem Runs.derives {task : Task} {ts : List Token} {a : Answer} (h : Runs task ts a) :
    ∀ read e rest, task.Begun read ts → a = .done e rest →
      ∃ us, ts = us ++ rest ∧ Derives task.nonterminal (read ++ us) e ∧
        Stops task.height rest := by
  induction h with
  | level _ _ ihop ihch =>
    rintro read e rest rfl ha
    obtain ⟨us, rfl, hus, hstops⟩ := ihop [] _ _ rfl rfl
    obtain ⟨vs, rfl, hvs, hend⟩ := ihch us e rest ⟨.of_operand hus, hstops⟩ ha
    exact ⟨us ++ vs, (List.append_assoc ..).symm, hvs, hend⟩
  | tighter hm _ ih =>
    rintro read e rest rfl ha
    obtain ⟨us, hts, hus, hstops⟩ := ih [] e rest rfl ha
    refine ⟨us, hts, ?_, ?_⟩
    · rwa [Task.nonterminal, Level.operandNonterminal, hm]
    · rwa [Task.height, Level.height_tighter hm]
  | @tightest l ts a hm _ ih =>
    rintro read e rest rfl ha
    obtain ⟨us, hts, hus, hstops⟩ := ih [] e rest rfl ha
    refine ⟨us, hts, ?_, ?_⟩
    · rwa [Task.nonterminal, Level.operandNonterminal, hm]
    · obtain rfl : l = .factor := by cases l <;> first | rfl | cases hm
      exact hstops
  | chainEnd hend =>
    rintro read e rest ⟨hleft, hstops⟩ ha
    obtain ⟨rfl, rfl⟩ := Answer.done.inj ha
    exact ⟨[], rfl, by rwa [List.append_nil], hstops.succ hend⟩
  | @binary l left t ts right rest' a hl hc _ _ ihop ihch =>
    rintro read e rest ⟨hleft, -⟩ ha
    obtain ⟨us, rfl, hus, hstops⟩ := ihop [] _ _ rfl rfl
    obtain ⟨vs, rfl, hvs, hend⟩ := ihch _ e rest ⟨.of_continues hl hc hleft hus, hstops⟩ ha
    exact ⟨t :: (us ++ vs), by simp, by simpa [Task.nonterminal] using hvs, hend⟩
  | @conditional left t ts yes c us' no rest' a hc _ hcolon _ _ ihyes ihno ihch =>
    rintro read e rest ⟨hleft, -⟩ ha
    obtain ⟨us, rfl, hus, -⟩ := ihyes [] _ _ rfl rfl
    obtain ⟨vs, rfl, hvs, hstops⟩ := ihno [] _ _ rfl rfl
    obtain ⟨ws, rfl, hws, hend⟩ := ihch _ e rest
      ⟨.conditional hleft (questionMark_of_continues hc) hus hcolon hvs, hstops⟩ ha
    exact ⟨t :: (us ++ c :: (vs ++ ws)), by simp, by simpa [Task.nonterminal] using hws, hend⟩
  | unary ht _ ih =>
    rintro read e rest rfl ha
    obtain ⟨us, rfl, hus, -⟩ := ih [] _ _ rfl rfl
    obtain ⟨rfl, rfl⟩ := Answer.done.inj ha
    exact ⟨_ :: us, rfl, .unary (isUnaryOperator_iff.mp ht) hus, by intro _ _ _ hl; cases hl⟩
  | unaryPrimary _ _ ih =>
    rintro read e rest rfl ha
    obtain ⟨us, hts, hus, hstops⟩ := ih [] e rest rfl ha
    exact ⟨us, hts, .primary hus, hstops⟩
  | literal hv =>
    rintro read e rest rfl ha
    obtain ⟨rfl, rfl⟩ := Answer.done.inj ha
    exact ⟨[_], rfl, .literal (denotes_iff.mpr hv), by intro _ _ _ hl; cases hl⟩
  | grouping hp _ hc ih =>
    rintro read e rest rfl ha
    obtain ⟨us, rfl, hus, -⟩ := ih [] _ _ rfl rfl
    obtain ⟨rfl, rfl⟩ := Answer.done.inj ha
    exact ⟨_ :: (us ++ [_]), by simp, .grouping hp hus hc, by intro _ _ _ hl; cases hl⟩
  | levelStuck | chainStuck | elseStuck | colonMissing | unaryStuck | groupingStuck
  | parenMissing | noExpression =>
    intro read e rest _ ha
    cases ha

end Parse

/-! ## Completeness -/

/-- Reading at the level goes through the tokens and stands in the chain with the tree on its left;
    what the chain does with the rest is the answer. -/
def ReadsAt (l : Level) (ts : List Token) (e : Expr) : Prop :=
  ∀ rest a, Stops l.height rest → Runs (.chain l e) rest a → Runs (.level l) (ts ++ rest) a

/-- What a derivation from a nonterminal means for the descent. -/
def ReadsBack : Nonterminal → List Token → Expr → Prop
  | .comma => ReadsAt .comma
  | .ternary => ReadsAt .conditional
  | .equality => ReadsAt .equality
  | .comparison => ReadsAt .comparison
  | .term => ReadsAt .term
  | .factor => ReadsAt .factor
  | .unary => fun ts e => ∀ rest, Runs .unary (ts ++ rest) (.done e rest)
  | .primary => fun ts e => ∀ rest, Runs .primary (ts ++ rest) (.done e rest)

theorem readsBack_nonterminal (l : Level) : ReadsBack l.nonterminal = ReadsAt l := by
  cases l <;> rfl

/-- Reading stops after the tokens, unless an operator of the level or of a tighter one follows. -/
theorem ReadsAt.done {l : Level} {ts : List Token} {e : Expr} (h : ReadsAt l ts e)
    {rest : List Token} (hs : Stops (l.height + 1) rest) :
    Runs (.level l) (ts ++ rest) (.done e rest) := by
  refine h rest _ (fun t ht m hm => hs t ht m (Nat.lt_succ_of_lt hm)) (.chainEnd ?_)
  exact fun t ht => hs t ht l (Nat.lt_succ_self _)

theorem ReadsBack.operand {l : Level} {ts : List Token} {e : Expr}
    (h : ReadsBack l.operandNonterminal ts e) {rest : List Token} (hs : Stops l.height rest) :
    Runs (.operand l) (ts ++ rest) (.done e rest) := by
  rw [Level.operandNonterminal] at h
  cases hm : l.tighter with
  | none =>
    rw [hm] at h
    exact .tightest hm (h rest)
  | some m =>
    rw [hm, Option.elim_some, readsBack_nonterminal] at h
    rw [Level.height_tighter hm] at hs
    exact .tighter hm (h.done hs)

/-- An operator of a level is none of the tighter ones. -/
theorem stops_of_continues {l : Level} {t : Token} {ts : List Token} (h : l.continues t) :
    Stops l.height (t :: ts) := by
  intro t' ht m hm hc
  obtain rfl : t = t' := Option.some.inj ht
  rw [Level.continues_unique hc h] at hm
  exact Nat.lt_irrefl _ hm

/-- A primary expression begins with no unary operator. -/
theorem Derives.not_isUnaryOperator {ts rest : List Token} {e : Expr}
    (h : Derives .primary ts e) : ∀ t ∈ (ts ++ rest).head?, ¬ isUnaryOperator t := by
  have hsymbol : ∀ t : Token, isUnaryOperator t →
      t.value? = none ∧ t.kind ≠ .symbol .leftParen := by
    intro t ht
    rcases isUnaryOperator_iff.mp ht with hk | hk
    · exact ⟨Token.value?_of_symbol hk, by simp [hk]⟩
    · exact ⟨Token.value?_of_symbol hk, by simp [hk]⟩
  cases h with
  | operand hn => cases hn
  | binary hn => cases hn
  | literal hv =>
    intro t ht hop
    obtain rfl := Option.some.inj ht
    cases (denotes_iff.mp hv).symm.trans (hsymbol _ hop).1
  | grouping hl =>
    intro t ht hop
    obtain rfl := Option.some.inj ht
    exact (hsymbol _ hop).2 hl

/-- **Completeness.**  A derivation is read back. -/
theorem Derives.readsBack {n : Nonterminal} {ts : List Token} {e : Expr} (h : Derives n ts e) :
    ReadsBack n ts e := by
  induction h with
  | operand hn _ ih =>
    obtain ⟨l, hl, rfl, rfl, rfl⟩ := Level.of_repeats hn
    rw [readsBack_nonterminal]
    intro rest a hs hch
    exact .level (ih.operand hs) hch
  | @binary n m operators ts left op s us right hn _ hk hs' _ ihl ihr =>
    obtain ⟨l, hl, rfl, rfl, rfl⟩ := Level.of_repeats hn
    rw [readsBack_nonterminal] at ihl ⊢
    intro rest a hs hch
    have hop : l.continues op := Level.continues_iff.mpr ⟨s, hs', hk⟩
    rw [List.append_assoc, List.cons_append]
    exact ihl _ a (stops_of_continues hop) (.binary hl hop (ihr.operand hs) hch)
  | condition _ ih =>
    intro rest a hs hch
    exact .level (ReadsBack.operand (l := .conditional) ih hs) hch
  | @conditional ts condition q us yes c vs no _ hq _ hc _ ihc ihy ihn =>
    intro rest a hs hch
    have hop : Level.conditional.continues q :=
      Level.continues_iff.mpr ⟨.questionMark, by decide, hq⟩
    have hyes : Runs (.operand .conditional) (us ++ c :: (vs ++ rest))
        (.done yes (c :: (vs ++ rest))) :=
      ReadsBack.operand (l := .conditional) ihy (stops_of_symbol hc (by decide))
    have hno : Runs (.operand .conditional) (vs ++ rest) (.done no rest) :=
      ReadsBack.operand (l := .conditional) ihn hs
    rw [List.append_assoc, List.cons_append, List.append_assoc, List.cons_append]
    exact ihc _ a (stops_of_continues hop) (.conditional hop hyes hc hno hch)
  | unary hop _ ih =>
    intro rest
    exact .unary (isUnaryOperator_iff.mpr hop) (ih rest)
  | primary h ih =>
    intro rest
    exact .unaryPrimary h.not_isUnaryOperator (ih rest)
  | literal hv =>
    intro rest
    exact .literal (denotes_iff.mp hv)
  | grouping hl _ hr ih =>
    intro rest
    rw [List.cons_append, List.append_assoc]
    exact .grouping hl (ReadsAt.done ih (stops_of_symbol hr (by decide))) hr

/-- A comma expression is read back wherever it cannot go on. -/
theorem Derives.runs {ts rest : List Token} {e : Expr} (h : Derives .comma ts e)
    (hs : Stops (Level.comma.height + 1) rest) :
    Runs (.level .comma) (ts ++ rest) (.done e rest) :=
  ReadsAt.done h.readsBack hs

/-! ## Whole lists -/

/-- The first `k` tokens are an expression with the tree `e`, and what comes next does not continue
    it. -/
def Greedy (ts : List Token) (e : Expr) (k : Nat) : Prop :=
  Derives .comma ((ended ts).take k) e ∧ ∃ t, (ended ts)[k]? = some t ∧ ¬ Continues t

namespace TokenStream

theorem expression_of_done {s : TokenStream} {e : Expr} {rest : List Token}
    (h : Runs (.level .comma) s.pending (.done e rest)) : s.expression = (.ok e, s.moveTo rest) := by
  obtain ⟨shorter, hlevel⟩ := Outcome.eq_done h.answers
  rw [expression, Parse.expression, hlevel]

theorem expression_of_stuck {s : TokenStream} {cause : Cause} {rest : List Token}
    (h : Runs (.level .comma) s.pending (.stuck cause rest)) :
    s.expression = (.error ⟨cause, s.front rest⟩, s.moveTo (afterFailure cause rest)) := by
  rw [expression, Parse.expression, Outcome.eq_stuck h.answers]

/-- Tokens that derive, and an end of input behind them, are parsed as their tree. -/
theorem parseTokens_endOn {ts : List Token} {e : Expr} (h : Derives .comma ts e) (line : Nat) :
    parseTokens (ts ++ [.endOn line]) = .ok e := by
  have hrun := h.runs (stops_nil _)
  rw [List.append_nil, ← pending_endOn h.not_eof line] at hrun
  rw [parseTokens, expression_of_done hrun]

/-- Reading from the start of a list ends in one of two ways. -/
theorem expression_cases (ts : List Token) :
    (∃ us rest e, (ofTokens ts).pending = us ++ rest ∧ Derives .comma us e ∧
      Stops (Level.comma.height + 1) rest ∧
      (ofTokens ts).expression = (.ok e, (ofTokens ts).moveTo rest)) ∨
    (∃ cause rest, Runs (.level .comma) (ofTokens ts).pending (.stuck cause rest) ∧
      (ofTokens ts).expression =
        (.error ⟨cause, (ofTokens ts).front rest⟩,
          (ofTokens ts).moveTo (afterFailure cause rest))) := by
  have hrun := runs_level .comma (ofTokens ts).pending
  cases ha : (level .comma (ofTokens ts).pending).answer with
  | done e rest =>
    rw [ha] at hrun
    obtain ⟨us, hpending, hus, hs⟩ := hrun.derives [] e rest rfl rfl
    exact .inl ⟨us, rest, e, hpending, hus, hs, expression_of_done hrun⟩
  | stuck cause rest =>
    rw [ha] at hrun
    exact .inr ⟨cause, rest, hrun, expression_of_stuck hrun⟩

/-- What is read is greedy. -/
theorem greedy_of_expression {ts : List Token} {e : Expr} {s : TokenStream}
    (h : (ofTokens ts).expression = (.ok e, s)) : Greedy ts e s.position := by
  rcases expression_cases ts with ⟨us, rest, e', hpending, hus, hs, hx⟩ | ⟨cause, rest, -, hx⟩
  · obtain ⟨he, rfl⟩ := Prod.mk.inj (h.symm.trans hx)
    obtain rfl : e = e' := Except.ok.inj he
    rw [position_moveTo hpending, show (ofTokens ts).position = 0 from rfl, Nat.zero_add]
    refine ⟨by rwa [take_ended hpending], _, getElem?_ended hpending, ?_⟩
    cases rest with
    | nil =>
      -- at the end of input
      rintro ⟨s, -, hk⟩
      cases (Token.not_eof_of_symbol hk).symm.trans (isEof_eofOf ts)
    | cons t rest => exact stops_comma_iff.mp hs t rfl
  · cases (Prod.mk.inj (h.symm.trans hx)).1

/-- What is greedy is read. -/
theorem expression_of_greedy {ts : List Token} {e : Expr} {k : Nat} (h : Greedy ts e k) :
    ∃ s, (ofTokens ts).expression = (.ok e, s) ∧ s.position = k := by
  obtain ⟨hd, t, ht, hc⟩ := h
  have hk : k < (ended ts).length := (List.getElem?_eq_some_iff.mp ht).1
  obtain ⟨rest, hpending⟩ := exists_pending_eq hd.not_eof (Nat.le_of_lt hk)
  have hlength : ((ended ts).take k).length = k := List.length_take_of_le (Nat.le_of_lt hk)
  have hfront := getElem?_ended hpending
  rw [hlength, ht] at hfront
  have hs : Stops (Level.comma.height + 1) rest := by
    refine stops_comma_iff.mpr fun t' ht' => ?_
    obtain rfl : t = t' := by
      rw [Option.some.inj hfront, front, ht', Option.getD_some]
    exact hc
  have hrun := hd.runs hs
  rw [← hpending] at hrun
  refine ⟨_, expression_of_done hrun, ?_⟩
  rw [position_moveTo hpending, hlength]
  exact Nat.zero_add k

/-- **The parser accepts exactly the grammar, greedily.**  From the start of any token list, a tree is
    returned and `k` tokens are consumed just when those `k` derive that tree and what follows does
    not continue them; there is at most one such pair, and reading fails just when there is none. -/
theorem expression_iff_greedy (ts : List Token) :
    (∀ e k, (∃ s, (ofTokens ts).expression = (.ok e, s) ∧ s.position = k) ↔ Greedy ts e k) ∧
    (∀ e k e' k', Greedy ts e k → Greedy ts e' k' → e = e' ∧ k = k') ∧
    ((∃ error, parseTokens ts = .error error) ↔ ¬ ∃ e k, Greedy ts e k) := by
  refine ⟨fun e k => ⟨?_, expression_of_greedy⟩, ?_, ?_, ?_⟩
  · rintro ⟨s, hs, rfl⟩
    exact greedy_of_expression hs
  · intro e k e' k' h h'
    obtain ⟨s, hs, rfl⟩ := expression_of_greedy h
    obtain ⟨s', hs', rfl⟩ := expression_of_greedy h'
    obtain ⟨he, rfl⟩ := Prod.mk.inj (hs.symm.trans hs')
    exact ⟨Except.ok.inj he, rfl⟩
  · rintro ⟨error, herror⟩ ⟨e, k, h⟩
    obtain ⟨s, hs, -⟩ := expression_of_greedy h
    rw [parseTokens, hs] at herror
    cases herror
  · intro hnone
    rcases expression_cases ts with ⟨us, rest, e, -, -, -, hx⟩ | ⟨cause, rest, -, hx⟩
    · exact absurd ⟨e, _, greedy_of_expression hx⟩ hnone
    · exact ⟨_, by rw [parseTokens, hx]⟩

end TokenStream

end Lox
