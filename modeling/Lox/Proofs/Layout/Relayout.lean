/-
  Relayout — a source written anew from its own lexemes.

  1. **Runs** — leaving out the lines of tokens and trees takes every run of the descent to a run: no
     rule looks at a line.
  2. **Results** — so token lists that differ in lines only give the same tree up to lines, or fail
     for the same cause at the same token up to its line.
  3. **Printing** — the printed forms do not show lines.
  4. **Sources** — the words of a scan, joined by single spaces, are scanned back without error, and
     parsing does not tell the two sources apart.
-/
import Lox.Run
import Lox.Proofs.Grammar.Runs
import Lox.Proofs.Layout.Spaced
import Lox.Proofs.Stream.Ended

namespace Lox

namespace Parse

/-! ## Runs -/

/-- The task with lines left out. -/
def Task.withoutLines : Task → Task
  | chain l left => chain l left.withoutLines
  | task => task

end Parse

/-- The answer with lines left out. -/
def Answer.withoutLines : Answer → Answer
  | done e rest => done e.withoutLines (rest.map Token.withoutLine)
  | stuck cause rest => stuck cause (rest.map Token.withoutLine)

/-- What holds of the next token, and does not depend on its line, still holds of it. -/
theorem head?_withoutLine {p : Token → Prop} {ts : List Token} (h : ∀ t ∈ ts.head?, p t)
    (hp : ∀ t, p t → p t.withoutLine) : ∀ t ∈ (ts.map Token.withoutLine).head?, p t := by
  intro t ht
  cases ts with
  | nil => cases ht
  | cons u ts =>
    obtain rfl := Option.some.inj ht
    exact hp u (h u rfl)

namespace Parse

/-- **No rule looks at a line.** -/
theorem Runs.withoutLines {task : Task} {ts : List Token} {a : Answer} (h : Runs task ts a) :
    Runs task.withoutLines (ts.map Token.withoutLine) a.withoutLines := by
  induction h with
  | level _ _ ihop ihch => exact .level ihop ihch
  | levelStuck _ ih => exact .levelStuck ih
  | tighter hm _ ih => exact .tighter hm ih
  | tightest hm _ ih => exact .tightest hm ih
  | chainEnd hend => exact .chainEnd (head?_withoutLine hend fun _ ht => ht)
  | chainStuck hc _ ih => exact .chainStuck hc ih
  | binary hl hc _ _ ihop ihch => exact .binary hl hc ihop ihch
  | conditional hc _ hcolon _ _ ihyes ihno ihch => exact .conditional hc ihyes hcolon ihno ihch
  | elseStuck hc _ hcolon _ ihyes ihno => exact .elseStuck hc ihyes hcolon ihno
  | colonMissing hc _ hcolon ih =>
    exact .colonMissing hc ih (head?_withoutLine hcolon fun _ ht => ht)
  | unary ht _ ih => exact .unary ht ih
  | unaryStuck ht _ ih => exact .unaryStuck ht ih
  | unaryPrimary hend _ ih => exact .unaryPrimary (head?_withoutLine hend fun _ ht => ht) ih
  | literal hv => exact .literal hv
  | grouping hp _ hc ih => exact .grouping hp ih hc
  | groupingStuck hp _ ih => exact .groupingStuck hp ih
  | parenMissing hp _ hc ih => exact .parenMissing hp ih (head?_withoutLine hc fun _ ht => ht)
  | noExpression hend => exact .noExpression (head?_withoutLine hend fun _ ht => ht)

end Parse

/-! ## Results -/

/-- The results are the same up to lines. -/
inductive SameUpToLines : Except SyntaxError Expr → Except SyntaxError Expr → Prop where
  | ok {e e'} : e.withoutLines = e'.withoutLines → SameUpToLines (.ok e) (.ok e')
  | error {x x'} : x.cause = x'.cause → x.token.withoutLine = x'.token.withoutLine →
      SameUpToLines (.error x) (.error x')

open Parse in
/-- What is read from two lists that differ in lines only differs in lines only. -/
theorem Parse.answer_withoutLines {ts us : List Token}
    (h : ts.map Token.withoutLine = us.map Token.withoutLine) (l : Level) :
    (level l ts).answer.withoutLines = (level l us).answer.withoutLines := by
  have ht := (runs_level l ts).withoutLines
  have hu := (runs_level l us).withoutLines
  rw [h] at ht
  exact ht.unique hu

namespace TokenStream

theorem front_withoutLine {s s' : TokenStream} {ts us : List Token}
    (heof : s.eof.withoutLine = s'.eof.withoutLine)
    (h : ts.map Token.withoutLine = us.map Token.withoutLine) :
    (s.front ts).withoutLine = (s'.front us).withoutLine := by
  cases ts with
  | nil =>
    obtain rfl := List.map_eq_nil_iff.mp h.symm
    exact heof
  | cons t ts =>
    obtain ⟨u, us, rfl, hu, -⟩ := List.map_eq_cons_iff.mp h.symm
    exact hu.symm

/-- Streams that differ in lines only give results that differ in lines only. -/
theorem expression_sameUpToLines {s s' : TokenStream}
    (hpending : s.pending.map Token.withoutLine = s'.pending.map Token.withoutLine)
    (heof : s.eof.withoutLine = s'.eof.withoutLine) :
    SameUpToLines s.expression.1 s'.expression.1 := by
  have hsame := Parse.answer_withoutLines hpending .comma
  rw [expression, expression, Parse.expression, Parse.expression]
  generalize Parse.level .comma s.pending = out at hsame
  generalize Parse.level .comma s'.pending = out' at hsame
  cases out with
  | done e rest shorter =>
    cases out' with
    | done e' rest' shorter' => exact .ok (Answer.done.inj hsame).1
    | stuck cause' rest' => cases hsame
  | stuck cause rest =>
    cases out' with
    | done e' rest' shorter' => cases hsame
    | stuck cause' rest' =>
      obtain ⟨hcause, hrest⟩ := Answer.stuck.inj hsame
      exact .error hcause (front_withoutLine heof hrest)

end TokenStream

theorem not_eof_of_withoutLine {ts us : List Token}
    (h : ts.map Token.withoutLine = us.map Token.withoutLine) (hts : ∀ t ∈ ts, t.isEof = false) :
    ∀ u ∈ us, u.isEof = false := by
  intro u hu
  have hmem : u.withoutLine ∈ ts.map Token.withoutLine := by
    rw [h]
    exact List.mem_map_of_mem hu
  obtain ⟨t, ht, htu⟩ := List.mem_map.mp hmem
  show u.withoutLine.isEof = false
  rw [← htu]
  exact hts t ht

/-- Words that differ in lines only, each list with an end of input, parse alike. -/
theorem parseTokens_sameUpToLines {ts us : List Token} (hts : ∀ t ∈ ts, t.isEof = false)
    (hus : ∀ t ∈ us, t.isEof = false)
    (h : ts.map Token.withoutLine = us.map Token.withoutLine) (last last' : Nat) :
    SameUpToLines (parseTokens (ts ++ [.endOn last])) (parseTokens (us ++ [.endOn last'])) := by
  refine TokenStream.expression_sameUpToLines ?_ ?_
  · rw [TokenStream.pending_endOn hts, TokenStream.pending_endOn hus, h]
  · rw [TokenStream.eof_endOn hts, TokenStream.eof_endOn hus]
    rfl

/-! ## Printing -/

theorem Expr.bracketed_withoutLines (e : Expr) : e.withoutLines.bracketed = e.bracketed := by
  induction e with
  | literal v => rfl
  | grouping e ih => rw [withoutLines, bracketed, bracketed, ih]
  | unary op e ih =>
    rw [withoutLines, bracketed, bracketed, ih]
    rfl
  | binary a op b iha ihb =>
    rw [withoutLines, bracketed, bracketed, iha, ihb]
    rfl
  | conditional a b c iha ihb ihc => rw [withoutLines, bracketed, bracketed, iha, ihb, ihc]

theorem PolishWriter.add_withoutLines (e : Expr) (w : PolishWriter) :
    w.add e.withoutLines = w.add e := by
  induction e generalizing w with
  | literal v => rfl
  | grouping e ih => rw [Expr.withoutLines, add, add, ih]
  | unary op e ih =>
    rw [Expr.withoutLines, add, add, ih]
    rfl
  | binary a op b iha ihb =>
    rw [Expr.withoutLines, add, add, iha, ihb]
    rfl
  | conditional a b c => rfl

/-- Trees that differ in lines only are printed alike, by a writer in any state. -/
theorem print_eq_of_withoutLines {e e' : Expr} (h : e.withoutLines = e'.withoutLines) :
    e.bracketed = e'.bracketed ∧ ∀ w : PolishWriter, w.print e = w.print e' := by
  constructor
  · rw [← e.bracketed_withoutLines, h, e'.bracketed_withoutLines]
  · intro w
    rw [PolishWriter.print, PolishWriter.print, ← PolishWriter.add_withoutLines e, h,
      PolishWriter.add_withoutLines]

/-- Where an error is on its line does not depend on the line. -/
theorem Place.ofToken_eq_of_withoutLine {t u : Token} (h : t.withoutLine = u.withoutLine) :
    ofToken t = ofToken u := by
  show ofToken t.withoutLine = ofToken u.withoutLine
  rw [h]

/-! ## Sources -/

/-- The words of a source, with single spaces between them. -/
def respaced (source : String) : String := " ".intercalate ((scan source).words.map Token.lexeme)

/-- **Layout never changes meaning.**  The words of a source, written with single spaces between them,
    are scanned back without error, and parsing both sources gives the same tree up to lines, printed
    alike, or an error with the same message and the same place. -/
theorem parse_respaced (source : String) :
    (scan (respaced source)).errors = [] ∧
      (scan (respaced source)).tokens.map Token.withoutLine
        = (scan source).tokens.map Token.withoutLine ∧
      ((∃ e e', parse source = .ok e ∧ parse (respaced source) = .ok e' ∧
          e.withoutLines = e'.withoutLines ∧ e.bracketed = e'.bracketed ∧
          ∀ w : PolishWriter, w.print e = w.print e') ∨
        ∃ x x', parse source = .error x ∧ parse (respaced source) = .error x' ∧
          x.diagnostic.message = x'.diagnostic.message ∧
          x.diagnostic.place = x'.diagnostic.place) := by
  obtain ⟨us, last, htokens, hspelled⟩ := spelled_scan source
  have hus : ∀ t ∈ us, t.isEof = false := fun t ht => (hspelled t ht).not_eof
  obtain ⟨vs, last', hscan, hsame⟩ := scan_spaced hspelled
  have hvs : ∀ t ∈ vs, t.isEof = false := not_eof_of_withoutLine hsame.symm hus
  rw [respaced, Scan.words_eq htokens hus, parse, parse, hscan, htokens]
  refine ⟨rfl, ?_, ?_⟩
  · rw [List.map_append, List.map_append, hsame]
    rfl
  · have hresult := parseTokens_sameUpToLines hus hvs hsame.symm last last'
    generalize parseTokens (us ++ [.endOn last]) = r at hresult
    generalize parseTokens (vs ++ [.endOn last']) = r' at hresult
    cases hresult with
    | ok he => exact .inl ⟨_, _, rfl, rfl, he, print_eq_of_withoutLines he⟩
    | error hcause htoken =>
      refine .inr ⟨_, _, rfl, rfl, congrArg Cause.message hcause, ?_⟩
      exact Place.ofToken_eq_of_withoutLine htoken

example : respaced "7.\n//one\n!=\"a\n b\"@" = "7 . != \"a\n b\"" := by decide +kernel

end Lox
