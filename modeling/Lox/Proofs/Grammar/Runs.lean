/-
  Runs — the steps of the descent as a relation.

  The reading functions call each other and return outcomes whose types carry bounds.  Here their
  runs are written down ONCE, rule by rule; whatever holds of every run is then an induction over the
  rules, and no later proof opens the functions again.

  1. **Tasks and answers** — what a reading function is asked to do, and an outcome without its bound.
  2. **Runs** — `Runs task ts a`: the task, put to the tokens `ts`, is answered by `a`.  A rule that
     looks at the next token says so of `ts.head?`: the end of input is then no case of its own.
  3. **Agreement** — every function runs (`runs_level`), and a run fixes what the function returns
     (`Runs.answers`); so a task has one answer (`Runs.unique`).
-/
import Lox.Expr.Descent

namespace Lox

/-! ## Tasks and answers -/

/-- An outcome without its bound. -/
inductive Answer where
  | done (tree : Expr) (rest : List Token)
  | stuck (cause : Cause) (rest : List Token)
  deriving DecidableEq

/-- Forgets the bound. -/
def Outcome.answer {bound : Nat} : Outcome bound → Answer
  | .done e rest _ => .done e rest
  | .stuck cause rest => .stuck cause rest

theorem Outcome.eq_done {bound : Nat} {o : Outcome bound} {e : Expr} {rest : List Token}
    (h : o.answer = .done e rest) : ∃ shorter, o = .done e rest shorter := by
  cases o with
  | done e' rest' shorter =>
    obtain ⟨rfl, rfl⟩ : e' = e ∧ rest' = rest := by simpa [Outcome.answer] using h
    exact ⟨shorter, rfl⟩
  | stuck cause rest' => cases h

theorem Outcome.eq_stuck {bound : Nat} {o : Outcome bound} {cause : Cause} {rest : List Token}
    (h : o.answer = .stuck cause rest) : o = .stuck cause rest := by
  cases o with
  | done e rest' shorter => cases h
  | stuck cause' rest' =>
    obtain ⟨rfl, rfl⟩ : cause' = cause ∧ rest' = rest := by simpa [Outcome.answer] using h
    rfl

/-- A symbol is no expression by itself. -/
theorem Token.value?_of_symbol {t : Token} {s : Symbol} (h : t.kind = .symbol s) :
    t.value? = none := by
  rw [Token.value?, h]

namespace Parse

/-- What a reading function is asked to do. -/
inductive Task where
  | level (l : Level)
  | operand (l : Level)
  | chain (l : Level) (left : Expr)
  | unary
  | primary

/-! ## Runs -/

/-- The task, put to the tokens, is answered so. -/
inductive Runs : Task → List Token → Answer → Prop where
  | level {l ts e rest a} : Runs (.operand l) ts (.done e rest) → Runs (.chain l e) rest a →
      Runs (.level l) ts a
  | levelStuck {l ts cause rest} : Runs (.operand l) ts (.stuck cause rest) →
      Runs (.level l) ts (.stuck cause rest)
  | tighter {l m ts a} : l.tighter = some m → Runs (.level m) ts a → Runs (.operand l) ts a
  | tightest {l ts a} : l.tighter = none → Runs .unary ts a → Runs (.operand l) ts a
  | chainEnd {l left ts} : (∀ t ∈ ts.head?, ¬ l.continues t) →
      Runs (.chain l left) ts (.done left ts)
  | chainStuck {l left t ts cause rest} : l.continues t →
      Runs (.operand l) ts (.stuck cause rest) → Runs (.chain l left) (t :: ts) (.stuck cause rest)
  | binary {l left t ts right rest a} : l ≠ .conditional → l.continues t →
      Runs (.operand l) ts (.done right rest) → Runs (.chain l (.binary left t right)) rest a →
      Runs (.chain l left) (t :: ts) a
  | conditional {left t ts yes c us no rest a} : Level.conditional.continues t →
      Runs (.operand .conditional) ts (.done yes (c :: us)) → c.kind = .symbol .colon →
      Runs (.operand .conditional) us (.done no rest) →
      Runs (.chain .conditional (.conditional left yes no)) rest a →
      Runs (.chain .conditional left) (t :: ts) a
  | elseStuck {left t ts yes c us cause rest} : Level.conditional.continues t →
      Runs (.operand .conditional) ts (.done yes (c :: us)) → c.kind = .symbol .colon →
      Runs (.operand .conditional) us (.stuck cause rest) →
      Runs (.chain .conditional left) (t :: ts) (.stuck cause rest)
  | colonMissing {left t ts yes rest} : Level.conditional.continues t →
      Runs (.operand .conditional) ts (.done yes rest) →
      (∀ c ∈ rest.head?, c.kind ≠ .symbol .colon) →
      Runs (.chain .conditional left) (t :: ts) (.stuck .missingColon rest)
  | unary {t ts e rest} : isUnaryOperator t → Runs .unary ts (.done e rest) →
      Runs .unary (t :: ts) (.done (.unary t e) rest)
  | unaryStuck {t ts cause rest} : isUnaryOperator t → Runs .unary ts (.stuck cause rest) →
      Runs .unary (t :: ts) (.stuck cause rest)
  | unaryPrimary {ts a} : (∀ t ∈ ts.head?, ¬ isUnaryOperator t) → Runs .primary ts a →
      Runs .unary ts a
  | literal {t ts v} : t.value? = some v → Runs .primary (t :: ts) (.done (.literal v) ts)
  | grouping {t ts e c rest} : t.kind = .symbol .leftParen →
      Runs (.level .comma) ts (.done e (c :: rest)) → c.kind = .symbol .rightParen →
      Runs .primary (t :: ts) (.done (.grouping e) rest)
  | groupingStuck {t ts cause rest} : t.kind = .symbol .leftParen →
      Runs (.level .comma) ts (.stuck cause rest) → Runs .primary (t :: ts) (.stuck cause rest)
  | parenMissing {t ts e rest} : t.kind = .symbol .leftParen →
      Runs (.level .comma) ts (.done e rest) → (∀ c ∈ rest.head?, c.kind ≠ .symbol .rightParen) →
      Runs .primary (t :: ts) (.stuck .missingRightParen rest)
  | noExpression {ts} : (∀ t ∈ ts.head?, t.value? = none ∧ t.kind ≠ .symbol .leftParen) →
      Runs .primary ts (.stuck .expectedExpression ts)

/-! ## The functions run -/

theorem operand_of_tighter {l m : Level} {ts : List Token} (h : l.tighter = some m) :
    operand l ts = level m ts := by
  rw [operand]
  split
  · rename_i m' hm'
    obtain rfl : m = m' := Option.some.inj (h.symm.trans hm')
    rfl
  · rename_i hm'
    cases h.symm.trans hm'

theorem operand_of_tightest {l : Level} {ts : List Token} (h : l.tighter = none) :
    operand l ts = unary ts := by
  rw [operand]
  split
  · rename_i m' hm'
    cases h.symm.trans hm'
  · rfl

/-- Every function runs.  The cases are those of the functions' own recursion. -/
theorem runs_all :
    (∀ l ts, Runs (.level l) ts (level l ts).answer) ∧
    (∀ bound l left ts fewer, Runs (.chain l left) ts (chain bound l left ts fewer).answer) ∧
    (∀ l ts, Runs (.operand l) ts (operand l ts).answer) ∧
    (∀ ts, Runs .unary ts (unary ts).answer) ∧
    (∀ ts, Runs .primary ts (primary ts).answer) := by
  refine level.mutual_induct
    (fun l ts => Runs (.level l) ts (level l ts).answer)
    (fun bound l left ts fewer => Runs (.chain l left) ts (chain bound l left ts fewer).answer)
    (fun l ts => Runs (.operand l) ts (operand l ts).answer)
    (fun ts => Runs .unary ts (unary ts).answer)
    (fun ts => Runs .primary ts (primary ts).answer)
    ?_ ?_ ?_ ?_ ?_ ?_ ?_ ?_ ?_ ?_ ?_ ?_ ?_ ?_ ?_ ?_ ?_ ?_ ?_ ?_ ?_ ?_ ?_
  -- `level`: the operand is read, or not
  · intro l ts e rest h hop ihop ihch
    rw [hop] at ihop
    rw [level, hop]
    exact .level ihop ihch
  · intro l ts cause rest hop ihop
    rw [hop] at ihop
    rw [level, hop]
    exact .levelStuck ihop
  -- `chain`: at the end of input
  · intro bound l left fewer _
    rw [chain]
    exact .chainEnd (by simp)
  -- `chain`: an operator, and then no operand
  · intro bound l left t rest fewer hc cause rest' hop _ ihop
    rw [hop] at ihop
    rw [chain, if_pos hc, hop]
    exact .chainStuck hc ihop
  -- `chain`, a conditional: its colon missing at the end of input
  · intro bound left t rest fewer yes _ hc _ h3 hop ihop
    rw [hop] at ihop
    rw [chain, if_pos hc, hop]
    exact .colonMissing hc ihop (by simp)
  · intro bound left t rest fewer yes c us _ hcolon cause rest' hc hno _ h3 hyes ihyes ihno
    rw [hyes] at ihyes
    rw [hno] at ihno
    simp only [chain, if_pos hc, hyes, if_pos hcolon, hno]
    exact .elseStuck hc ihyes hcolon ihno
  · intro bound left t rest fewer yes c us _ hcolon no rest' h3 hc hno _ h3' hyes ihyes ihno ihch
    rw [hyes] at ihyes
    rw [hno] at ihno
    rw [chain, if_pos hc, hyes]
    simp only [if_pos hcolon, hno]
    exact .conditional hc ihyes hcolon ihno ihch
  · intro bound left t rest fewer yes c us _ hcolon hc _ h3 hyes ihyes
    rw [hyes] at ihyes
    rw [chain, if_pos hc, hyes]
    simp only [if_neg hcolon]
    exact .colonMissing hc ihyes (by simpa using hcolon)
  -- `chain`: an operator of another level, and its operand
  · intro bound l left t rest fewer hc right rest' h3 hop hl _ ihop ihch
    rw [hop] at ihop
    rw [chain, if_pos hc, hop]
    simp only [if_neg hl]
    exact .binary hl hc ihop ihch
  · intro bound l left t rest fewer hc _
    rw [chain, if_neg hc]
    exact .chainEnd (by simpa using hc)
  -- `operand`
  · intro l ts m hm ih
    rw [operand_of_tighter hm]
    exact .tighter hm ih
  · intro l ts hm ih
    rw [operand_of_tightest hm]
    exact .tightest hm ih
  -- `unary`
  · intro ih
    rw [unary]
    exact .unaryPrimary (by simp) ih
  · intro t rest ht e rest' h he ih
    rw [he] at ih
    rw [unary, if_pos ht, he]
    exact .unary ht ih
  · intro t rest ht cause rest' he ih
    rw [he] at ih
    rw [unary, if_pos ht, he]
    exact .unaryStuck ht ih
  · intro t rest ht ih
    rw [unary, if_neg ht]
    exact .unaryPrimary (by simpa using ht) ih
  -- `primary`
  · rw [primary]
    exact .noExpression (by simp)
  · intro t rest v hv
    rw [primary, hv]
    exact .literal hv
  · intro t rest hv hp cause rest' he ih
    rw [he] at ih
    rw [primary, hv]
    simp only [if_pos hp, he]
    exact .groupingStuck hp ih
  · intro t rest hv hp e _ h3 he ih
    rw [he] at ih
    rw [primary, hv]
    simp only [if_pos hp, he]
    exact .parenMissing hp ih (by simp)
  · intro t rest hv hp e c us _ hc h3 he ih
    rw [he] at ih
    rw [primary, hv]
    simp only [if_pos hp, he, if_pos hc]
    exact .grouping hp ih hc
  · intro t rest hv hp e c us _ hc h3 he ih
    rw [he] at ih
    rw [primary, hv]
    simp only [if_pos hp, he, if_neg hc]
    exact .parenMissing hp ih (by simpa using hc)
  · intro t rest hv hp
    rw [primary, hv]
    simp only [if_neg hp]
    exact .noExpression (by simpa using ⟨hv, hp⟩)

/-- Reading at a level runs. -/
theorem runs_level (l : Level) (ts : List Token) : Runs (.level l) ts (level l ts).answer :=
  runs_all.1 l ts

/-! ## A run fixes the answer -/

/-- The function for the task returns this answer; for a chain, under every bound. -/
def Answers : Task → List Token → Answer → Prop
  | .level l, ts, a => (level l ts).answer = a
  | .operand l, ts, a => (operand l ts).answer = a
  | .chain l left, ts, a => ∀ bound fewer, (chain bound l left ts fewer).answer = a
  | .unary, ts, a => (unary ts).answer = a
  | .primary, ts, a => (primary ts).answer = a

/-- **A run is what the function does.** -/
theorem Runs.answers {task : Task} {ts : List Token} {a : Answer} (h : Runs task ts a) :
    Answers task ts a := by
  induction h with
  | @level l ts e rest a _ _ ihop ihch =>
    obtain ⟨shorter, hop⟩ := Outcome.eq_done ihop
    show (Parse.level l ts).answer = a
    rw [Parse.level, hop]
    exact ihch _ shorter
  | @levelStuck l ts cause rest _ ihop =>
    show (Parse.level l ts).answer = _
    rw [Parse.level, Outcome.eq_stuck ihop]
    rfl
  | tighter hm _ ih =>
    show (operand _ _).answer = _
    rw [operand_of_tighter hm]
    exact ih
  | tightest hm _ ih =>
    show (operand _ _).answer = _
    rw [operand_of_tightest hm]
    exact ih
  | @chainEnd l left ts hend =>
    intro bound fewer
    cases ts with
    | nil => rw [chain]; rfl
    | cons t ts => rw [chain, if_neg (hend t rfl)]; rfl
  | chainStuck hc _ ihop =>
    intro bound fewer
    rw [chain, if_pos hc, Outcome.eq_stuck ihop]
    rfl
  | binary hl hc _ _ ihop ihch =>
    intro bound fewer
    obtain ⟨shorter, hop⟩ := Outcome.eq_done ihop
    rw [chain, if_pos hc, hop]
    simp only [if_neg hl]
    exact ihch _ _
  | conditional hc _ hcolon _ _ ihyes ihno ihch =>
    intro bound fewer
    obtain ⟨_, hyes⟩ := Outcome.eq_done ihyes
    obtain ⟨_, hno⟩ := Outcome.eq_done ihno
    rw [chain, if_pos hc, hyes]
    simp only [if_pos hcolon, hno]
    exact ihch _ _
  | elseStuck hc _ hcolon _ ihyes ihno =>
    intro bound fewer
    obtain ⟨_, hyes⟩ := Outcome.eq_done ihyes
    rw [chain, if_pos hc, hyes]
    simp only [if_pos hcolon, Outcome.eq_stuck ihno]
    rfl
  | @colonMissing left t ts yes rest hc _ hcolon ihyes =>
    intro bound fewer
    obtain ⟨_, hyes⟩ := Outcome.eq_done ihyes
    rw [chain, if_pos hc, hyes]
    cases rest with
    | nil => rfl
    | cons c us => simp only [if_neg (hcolon c rfl)]; rfl
  | unary ht _ ih =>
    obtain ⟨_, he⟩ := Outcome.eq_done ih
    show (Parse.unary _).answer = _
    rw [Parse.unary, if_pos ht, he]
    rfl
  | unaryStuck ht _ ih =>
    show (Parse.unary _).answer = _
    rw [Parse.unary, if_pos ht, Outcome.eq_stuck ih]
    rfl
  | @unaryPrimary ts a hend _ ih =>
    show (Parse.unary _).answer = _
    cases ts with
    | nil => rw [Parse.unary]; exact ih
    | cons t ts => rw [Parse.unary, if_neg (hend t rfl)]; exact ih
  | literal hv =>
    show (primary _).answer = _
    rw [primary, hv]
    rfl
  | grouping hp _ hc ih =>
    obtain ⟨_, he⟩ := Outcome.eq_done ih
    show (primary _).answer = _
    rw [primary, Token.value?_of_symbol hp]
    simp only [if_pos hp, he, if_pos hc]
    rfl
  | groupingStuck hp _ ih =>
    show (primary _).answer = _
    rw [primary, Token.value?_of_symbol hp]
    simp only [if_pos hp, Outcome.eq_stuck ih]
    rfl
  | @parenMissing t ts e rest hp _ hc ih =>
    obtain ⟨_, he⟩ := Outcome.eq_done ih
    show (primary _).answer = _
    rw [primary, Token.value?_of_symbol hp]
    cases rest with
    | nil => simp only [if_pos hp, he]; rfl
    | cons c us => simp only [if_pos hp, he, if_neg (hc c rfl)]; rfl
  | @noExpression ts hend =>
    show (primary _).answer = _
    cases ts with
    | nil => rw [primary]; rfl
    | cons t ts =>
      obtain ⟨hv, hp⟩ := hend t rfl
      rw [primary, hv]
      simp only [if_neg hp]
      rfl

/-- A task has one answer. -/
theorem Runs.unique {task : Task} {ts : List Token} {a b : Answer} (ha : Runs task ts a)
    (hb : Runs task ts b) : a = b := by
  cases task with
  | chain l left =>
    exact (ha.answers (ts.length + 1) (Nat.lt_succ_self _)).symm.trans (hb.answers _ _)
  | _ => exact Eq.trans (Eq.symm ha.answers) hb.answers

end Parse

end Lox
