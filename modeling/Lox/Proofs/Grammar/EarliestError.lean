/-
  Earliest errors — a syntax error is reported at the first token that cannot go on.

  1. **Expectations** — each cause of failure names a terminal: a number, a right parenthesis, or a
     colon.
  2. **Going on** — where a run is stuck, its task could have gone on with the expected terminal
     (`Runs.expects`).  Every function on the way only has to COMPLETE what is open: an operator its
     operand, a question mark its colon and branch, a parenthesis its partner.
  3. **No further** — with the offending token no sentence begins.  A sentence would be read back to
     its end, but by the window property the run is stuck at that token whatever comes after it.
-/
import Lox.Proofs.Grammar.Recognition
import Lox.Proofs.Grammar.Window

namespace Lox

open Parse

/-! ## Expectations -/

/-- The token is what the cause says is missing. -/
def Expected : Cause → Token → Prop
  | .expectedExpression, t => ∃ x, t.kind = .number ∧ t.literal = some (.number x)
  | .missingRightParen, t => t.kind = .symbol .rightParen
  | .missingColon, t => t.kind = .symbol .colon

/-- A number token. -/
def Token.ofNumber (x : Binary64) : Token := ⟨.number, x.text, some (.number x), 1⟩

theorem exists_expected (cause : Cause) : ∃ t, Expected cause t := by
  cases cause with
  | expectedExpression => exact ⟨.ofNumber .nan, .nan, rfl, rfl⟩
  | missingRightParen => exact ⟨.ofSymbol .rightParen, rfl⟩
  | missingColon => exact ⟨.ofSymbol .colon, rfl⟩

/-- A literal derives from every nonterminal. -/
theorem Derives.of_denotes {t : Token} {v : Value} (h : Denotes t v) (n : Nonterminal) :
    Derives n [t] (.literal v) :=
  Derives.loosen (.literal h) n.rank_le

theorem Derives.ofNumber (x : Binary64) (n : Nonterminal) :
    Derives n [.ofNumber x] (.literal (.number x)) :=
  .of_denotes (.number rfl rfl) n

/-! ## Going on -/

/-- The tokens begin something that derives from the nonterminal. -/
def Begins (n : Nonterminal) (ts : List Token) : Prop := ∃ us e, Derives n (ts ++ us) e

/-- An operator of a level after an expression of it, and the beginning of an operand. -/
theorem Begins.of_continues {l : Level} {ts us : List Token} {left : Expr} {op : Token}
    (hop : l.continues op) (hleft : Derives l.nonterminal ts left)
    (hus : Begins l.operandNonterminal us) : Begins l.nonterminal (ts ++ op :: us) := by
  obtain ⟨vs, e, he⟩ := hus
  by_cases hl : l = .conditional
  · -- the branch begun is closed by a colon and another branch
    subst hl
    refine ⟨vs ++ [.ofSymbol .colon, .ofNumber .nan],
      .conditional left e (.literal (.number .nan)), ?_⟩
    rw [List.append_assoc, List.cons_append, ← List.append_assoc us]
    exact .conditional hleft (questionMark_of_continues hop) he rfl (.ofNumber .nan .equality)
  · refine ⟨vs, .binary left op e, ?_⟩
    rw [List.append_assoc, List.cons_append]
    exact .of_continues hl hop hleft he

/-- **A stuck run could have gone on** with what it misses. -/
theorem Parse.Runs.expects {task : Task} {ts : List Token} {a : Answer} (h : Runs task ts a) :
    ∀ read cause rest, task.Begun read ts → a = .stuck cause rest →
      ∃ us, ts = us ++ rest ∧ ∀ t, Expected cause t → Begins task.nonterminal (read ++ us ++ [t]) := by
  induction h with
  | level hop _ _ ihch =>
    rintro read cause rest rfl ha
    obtain ⟨us, rfl, hus, hstops⟩ := hop.derives [] _ _ rfl rfl
    obtain ⟨ws, rfl, hws⟩ := ihch us cause rest ⟨.of_operand hus, hstops⟩ ha
    exact ⟨us ++ ws, (List.append_assoc ..).symm, hws⟩
  | levelStuck _ ihop =>
    rintro read cause rest rfl ha
    obtain ⟨us, rfl, hus⟩ := ihop [] cause rest rfl ha
    refine ⟨us, rfl, fun t ht => ?_⟩
    obtain ⟨vs, e, he⟩ := hus t ht
    exact ⟨vs, e, .of_operand he⟩
  | tighter hm _ ih =>
    rintro read cause rest rfl ha
    obtain ⟨us, rfl, hus⟩ := ih [] cause rest rfl ha
    refine ⟨us, rfl, fun t ht => ?_⟩
    rw [Task.nonterminal, Level.operandNonterminal, hm]
    exact hus t ht
  | tightest hm _ ih =>
    rintro read cause rest rfl ha
    obtain ⟨us, rfl, hus⟩ := ih [] cause rest rfl ha
    refine ⟨us, rfl, fun t ht => ?_⟩
    rw [Task.nonterminal, Level.operandNonterminal, hm]
    exact hus t ht
  | @chainStuck l left op ts cause' rest' hc _ ihop =>
    rintro read cause rest ⟨hleft, -⟩ ha
    obtain ⟨us, rfl, hus⟩ := ihop [] cause rest rfl ha
    refine ⟨op :: us, rfl, fun t ht => ?_⟩
    rw [List.append_assoc, List.cons_append]
    exact .of_continues hc hleft (hus t ht)
  | @binary l left op ts right rest' a hl hc hop _ _ ihch =>
    rintro read cause rest ⟨hleft, -⟩ ha
    obtain ⟨us, rfl, hus, hstops⟩ := hop.derives [] _ _ rfl rfl
    obtain ⟨ws, rfl, hws⟩ := ihch _ cause rest ⟨.of_continues hl hc hleft hus, hstops⟩ ha
    refine ⟨op :: (us ++ ws), by simp, fun t ht => ?_⟩
    rw [← List.cons_append, ← List.append_assoc]
    exact hws t ht
  | @conditional left q ts yes c us' no rest' a hc hyes hcolon hno _ _ _ ihch =>
    rintro read cause rest ⟨hleft, -⟩ ha
    obtain ⟨us, rfl, hus, -⟩ := hyes.derives [] _ _ rfl rfl
    obtain ⟨vs, rfl, hvs, hstops⟩ := hno.derives [] _ _ rfl rfl
    obtain ⟨ws, rfl, hws⟩ := ihch _ cause rest
      ⟨.conditional hleft (questionMark_of_continues hc) hus hcolon hvs, hstops⟩ ha
    refine ⟨q :: (us ++ c :: vs) ++ ws, by simp, fun t ht => ?_⟩
    rw [← List.append_assoc]
    exact hws t ht
  | @elseStuck left q ts yes c us' cause' rest' hc hyes hcolon _ _ ihno =>
    rintro read cause rest ⟨hleft, -⟩ ha
    obtain ⟨us, rfl, hus, -⟩ := hyes.derives [] _ _ rfl rfl
    obtain ⟨vs, rfl, hvs⟩ := ihno [] cause rest rfl ha
    refine ⟨q :: (us ++ c :: vs), by simp, fun t ht => ?_⟩
    obtain ⟨ws, e, he⟩ := hvs t ht
    refine ⟨ws, .conditional left yes e, ?_⟩
    have := Derives.conditional hleft (questionMark_of_continues hc) hus hcolon he
    simpa [Task.nonterminal, Level.nonterminal] using this
  | @colonMissing left q ts yes rest' hc hyes _ _ =>
    rintro read cause rest ⟨hleft, -⟩ ha
    obtain ⟨rfl, rfl⟩ := Answer.stuck.inj ha
    obtain ⟨us, rfl, hus, -⟩ := hyes.derives [] _ _ rfl rfl
    refine ⟨q :: us, rfl, fun t ht => ?_⟩
    refine ⟨[.ofNumber .nan], .conditional left yes (.literal (.number .nan)), ?_⟩
    have := Derives.conditional hleft (questionMark_of_continues hc) hus ht
      (.ofNumber .nan .equality)
    simpa [Task.nonterminal, Level.nonterminal] using this
  | @unaryStuck op ts cause' rest' hop _ ih =>
    rintro read cause rest rfl ha
    obtain ⟨us, rfl, hus⟩ := ih [] cause rest rfl ha
    refine ⟨op :: us, rfl, fun t ht => ?_⟩
    obtain ⟨vs, e, he⟩ := hus t ht
    exact ⟨vs, .unary op e, .unary (isUnaryOperator_iff.mp hop) he⟩
  | unaryPrimary _ _ ih =>
    rintro read cause rest rfl ha
    obtain ⟨us, rfl, hus⟩ := ih [] cause rest rfl ha
    refine ⟨us, rfl, fun t ht => ?_⟩
    obtain ⟨vs, e, he⟩ := hus t ht
    exact ⟨vs, e, .primary he⟩
  | @groupingStuck l ts cause' rest' hp _ ih =>
    rintro read cause rest rfl ha
    obtain ⟨us, rfl, hus⟩ := ih [] cause rest rfl ha
    refine ⟨l :: us, rfl, fun t ht => ?_⟩
    obtain ⟨vs, e, he⟩ := hus t ht
    refine ⟨vs ++ [.ofSymbol .rightParen], .grouping e, ?_⟩
    have := Derives.grouping (r := .ofSymbol .rightParen) hp he rfl
    simpa [Task.nonterminal] using this
  | @parenMissing l ts e rest' hp he _ _ =>
    rintro read cause rest rfl ha
    obtain ⟨rfl, rfl⟩ := Answer.stuck.inj ha
    obtain ⟨us, rfl, hus, -⟩ := he.derives [] _ _ rfl rfl
    refine ⟨l :: us, rfl, fun t ht => ⟨[], .grouping e, ?_⟩⟩
    rw [List.append_nil]
    exact .grouping hp hus ht
  | noExpression _ =>
    rintro read cause rest rfl ha
    obtain ⟨rfl, rfl⟩ := Answer.stuck.inj ha
    refine ⟨[], rfl, ?_⟩
    rintro t ⟨x, hk, hx⟩
    refine ⟨[], .literal (.number x), ?_⟩
    exact .of_denotes (.number hk hx) .primary
  | chainEnd | unary | literal | grouping =>
    intro read cause rest _ ha
    cases ha

/-! ## No further -/

/-- Past the point where a run is stuck, no sentence begins. -/
theorem Parse.Runs.not_viable {ts us rest : List Token} {cause : Cause} {t : Token}
    (h : Runs (.level .comma) ts (.stuck cause (t :: rest))) (hts : ts = us ++ t :: rest) :
    ¬ Viable (us ++ [t]) := by
  rintro ⟨vs, e, he⟩
  obtain ⟨us', hus', hwindow⟩ := h.window
  obtain rfl : us = us' := List.append_cancel_right (hts.symm.trans hus')
  have hstuck : Runs (.level .comma) (us ++ t :: vs) (.stuck cause (t :: vs)) :=
    hwindow (t :: vs) rfl
  have hdone : Runs (.level .comma) (us ++ [t] ++ vs ++ []) (.done e []) :=
    he.runs (stops_nil _)
  rw [List.append_nil, List.append_assoc, List.singleton_append] at hdone
  cases hstuck.unique hdone

/-- **A syntax error is at the earliest token.**  The tokens before the reported one begin a sentence,
    no sentence begins with that token as well, and what the message asks for could have come there. -/
theorem parse_error_earliest (ts : List Token) (error : SyntaxError)
    (h : parseTokens ts = .error error) :
    ∃ i, (ended ts)[i]? = some error.token ∧
      Viable ((ended ts).take i) ∧ ¬ Viable ((ended ts).take (i + 1)) ∧
      ((error.cause.message = "Expected expression." ∧
          ∀ t x, t.kind = .number → t.literal = some (.number x) →
            Viable ((ended ts).take i ++ [t])) ∨
        (error.cause.message = "Expected ')' after expression." ∧
          ∀ t, t.kind = .symbol .rightParen → Viable ((ended ts).take i ++ [t])) ∨
        (error.cause.message = "Expected ':' token in ternary operation." ∧
          ∀ t, t.kind = .symbol .colon → Viable ((ended ts).take i ++ [t]))) := by
  rcases TokenStream.expression_cases ts with ⟨us, rest, e, -, -, -, hx⟩ | ⟨cause, rest, hrun, hx⟩
  · rw [parseTokens, hx] at h
    cases h
  rw [parseTokens, hx] at h
  obtain rfl := Except.error.inj h
  obtain ⟨us, hpending, hexpects⟩ := hrun.expects [] cause rest rfl rfl
  have hviable : ∀ t, Expected cause t → Viable (us ++ [t]) := hexpects
  have htake := TokenStream.take_ended hpending
  have hget := TokenStream.getElem?_ended hpending
  refine ⟨us.length, hget, ?_, ?_, ?_⟩
  · obtain ⟨t, ht⟩ := exists_expected cause
    rw [htake]
    exact (hviable t ht).of_append
  · rw [List.take_add_one, htake, hget, Option.toList_some]
    cases rest with
    | nil =>
      -- at the end of input, which is no terminal
      rintro ⟨vs, e, he⟩
      have hmem : TokenStream.eofOf ts ∈ us ++ [TokenStream.eofOf ts] ++ vs :=
        List.mem_append_left _ (List.mem_append_right _ List.mem_cons_self)
      cases (he.not_eof _ hmem).symm.trans (TokenStream.isEof_eofOf ts)
    | cons t rest => exact hrun.not_viable hpending
  · rw [htake]
    cases cause with
    | expectedExpression => exact .inl ⟨rfl, fun t x hk hx => hviable t ⟨x, hk, hx⟩⟩
    | missingRightParen => exact .inr (.inl ⟨rfl, hviable⟩)
    | missingColon => exact .inr (.inr ⟨rfl, hviable⟩)

/-- A conditional within a branch: the second question mark is where a colon was expected. -/
theorem parse_error_nested_conditional :
    let one := Token.ofNumber .nan
    let question := Token.ofSymbol .questionMark
    let ts := [one, question, one, question, one]
    parseTokens ts = .error ⟨.missingColon, question⟩ ∧
      ∃ i, (ended ts)[i]? = some question ∧
        Viable ((ended ts).take i) ∧ ¬ Viable ((ended ts).take (i + 1)) := by
  intro one question ts
  have herror : parseTokens ts = .error ⟨.missingColon, question⟩ := by decide +kernel
  obtain ⟨i, hi, hviable, hnot, -⟩ := parse_error_earliest ts _ herror
  exact ⟨herror, i, hi, hviable, hnot⟩

end Lox
