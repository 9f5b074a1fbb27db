/-
  Reports — what a run reports, and that every report points into the source.

  1. **Offending tokens** — where an expression was expected, the token is one with which no
     expression begins.  The invariant is carried by the runs: only below the unary operators does the
     descent give up, and what stands there is no operator.
  2. **Places of tokens** — every word of a scan occurs in the source on its line, and every error is on
     a line of the source.
  3. **Syntax errors** — the token of a syntax error is a word of the scan, or its end of input.
  4. **Runs** — lexical errors come first, then the syntax error if there is one; any of them means
     that nothing is printed.  All outputs that parse agree on what they report.
-/
import Lox.Proofs.Grammar.Recognition
import Lox.Proofs.Grammar.Window
import Lox.Proofs.Layout.Spaced
import Lox.Proofs.Lexis.Sites
import Lox.Run

namespace Lox

open Parse

/-! ## Offending tokens -/

/-- The kinds of token that are expressions by themselves. -/
def literalKinds : List Kind :=
  [.number, .string, .keyword .trueWord, .keyword .falseWord, .keyword .nilWord]

/-- The kinds of token with which an expression begins. -/
def expressionStarts : List Kind :=
  literalKinds ++ [.symbol .leftParen, .symbol .bang, .symbol .minus]

/-- Nothing that an expression begins with stands here. -/
def NoExpression (ts : List Token) : Prop :=
  ∀ t ∈ ts.head?, t.value? = none ∧ t.kind ≠ .symbol .leftParen ∧ ¬ isUnaryOperator t

/-- **Where an expression is missing, none begins.**  A primary expression is only ever asked for
    where no unary operator stands. -/
theorem Parse.Runs.noExpression_of_stuck {task : Task} {ts : List Token} {a : Answer}
    (h : Runs task ts a) :
    ∀ rest, a = .stuck .expectedExpression rest →
      (task = .primary → ∀ t ∈ ts.head?, ¬ isUnaryOperator t) → NoExpression rest := by
  induction h with
  | level _ _ _ ihch =>
    intro rest ha _
    exact ihch rest ha nofun
  | levelStuck _ ih | tighter _ _ ih | chainStuck _ _ ih | elseStuck _ _ _ _ _ ih
  | unaryStuck _ _ ih | groupingStuck _ _ ih =>
    intro rest ha _
    exact ih rest ha nofun
  | tightest _ _ ih =>
    intro rest ha _
    exact ih rest ha nofun
  | binary _ _ _ _ _ ihch =>
    intro rest ha _
    exact ihch rest ha nofun
  | conditional _ _ _ _ _ _ _ ihch =>
    intro rest ha _
    exact ihch rest ha nofun
  | unaryPrimary hno _ ih =>
    intro rest ha _
    exact ih rest ha fun _ => hno
  | noExpression hend =>
    intro rest ha hunary
    obtain ⟨-, rfl⟩ := Answer.stuck.inj ha
    intro t ht
    obtain ⟨hvalue, hparen⟩ := hend t ht
    exact ⟨hvalue, hparen, hunary rfl t ht⟩
  | chainEnd | unary | literal | grouping =>
    intro rest ha _
    cases ha
  | colonMissing | parenMissing =>
    intro rest ha _
    cases (Answer.stuck.inj ha).1

/-- A spelled token of a literal kind has a value. -/
theorem Token.Spelled.value?_ne_none {t : Token} (h : t.Spelled) (hk : t.kind ∈ literalKinds) :
    t.value? ≠ none := by
  obtain ⟨form, -, hreads⟩ := h
  rw [Token.value?]
  generalize t.lexeme.toList = text, t.kind = kind, t.literal = literal at hreads hk
  cases hreads with
  | symbol => simp [literalKinds] at hk
  | string | number => exact Option.some_ne_none _
  | identifier => simp [literalKinds] at hk
  | @keyword k =>
    have hliteral : k = .trueWord ∨ k = .falseWord ∨ k = .nilWord := by
      simpa [literalKinds] using hk
    rcases hliteral with rfl | rfl | rfl <;> exact Option.some_ne_none _

/-- A spelled token that stands where an expression is missing begins none. -/
theorem Token.Spelled.not_mem_expressionStarts {t : Token} {rest : List Token} (h : t.Spelled)
    (hno : NoExpression (t :: rest)) : t.kind ∉ expressionStarts := by
  obtain ⟨hvalue, hparen, hunary⟩ := hno t rfl
  intro hmem
  rcases List.mem_append.mp hmem with hliteral | hother
  · exact h.value?_ne_none hliteral hvalue
  · have hsymbol : t.kind = .symbol .leftParen ∨ t.kind = .symbol .bang ∨
        t.kind = .symbol .minus := by simpa using hother
    rcases hsymbol with hk | hk
    · exact hparen hk
    · exact hunary (isUnaryOperator_iff.mpr hk)

/-! ## Places of tokens -/

/-- What is related to a list one for one has a partner in it. -/
theorem exists_mem_of_forall₂ {α β : Type} {r : α → β → Prop} {xs : List α} {ys : List β}
    (h : List.Forall₂ r xs ys) {y : β} (hy : y ∈ ys) : ∃ x ∈ xs, r x y := by
  induction h with
  | nil => cases hy
  | cons hxy _ ih =>
    rcases List.mem_cons.mp hy with rfl | hy
    · exact ⟨_, List.mem_cons_self, hxy⟩
    · obtain ⟨x, hx, hr⟩ := ih hy
      exact ⟨x, List.mem_cons_of_mem _ hx, hr⟩

/-- The text occurs in the source, beginning on the line. -/
def OccursOn (source : String) (line : Nat) (text : List Char) : Prop :=
  ∃ before after, source.toList = before ++ text ++ after ∧ line = lastLine before

/-- What occurs in a source is on one of its lines. -/
theorem OccursOn.le_lastLine {source : String} {line : Nat} {text : List Char}
    (h : OccursOn source line text) : 1 ≤ line ∧ line ≤ lastLine source.toList := by
  obtain ⟨before, after, hsource, rfl⟩ := h
  rw [hsource, lastLine, lastLine, newlines_append, newlines_append]
  omega

/-- Every site of a source is in it, and its piece is not empty. -/
theorem occursOn_of_mem_sites {source : String} {s : Site}
    (h : s ∈ sites [] (pieces source.toList)) :
    OccursOn source s.line s.piece.text ∧ s.piece.text ≠ [] := by
  obtain ⟨after, hafter⟩ := exists_after_of_mem_sites h
  rw [List.nil_append, flatMap_text_pieces] at hafter
  refine ⟨⟨s.before, after, hafter, rfl⟩, ?_⟩
  have hpiece : ∀ (ps : List Piece) (before : List Char), s ∈ sites before ps → s.piece ∈ ps := by
    intro ps
    induction ps with
    | nil => exact fun _ hs => absurd hs List.not_mem_nil
    | cons p ps ih =>
      intro before hs
      rcases List.mem_cons.mp hs with rfl | hs
      · exact List.mem_cons_self
      · exact List.mem_cons_of_mem p (ih _ hs)
  exact (splits_pieces source.toList).ne_nil _ (hpiece _ _ h)

/-- Every word of a scan occurs in the source on its line. -/
theorem occursOn_of_mem_words {source : String} {t : Token} (h : t ∈ (scan source).words) :
    OccursOn source t.line t.lexeme.toList ∧ t.lexeme.toList ≠ [] := by
  obtain ⟨us, htokens, hus, -⟩ := (tokenizes_scan source).isAt (splits_pieces source.toList) [] rfl
  have hsame : (scan source).words = us :=
    (List.append_inj' ((tokens_scan source).1.symm.trans htokens) rfl).1
  rw [hsame] at h
  obtain ⟨s, hs, hat⟩ := exists_mem_of_forall₂ hus h
  rw [hat.lexeme, hat.line]
  exact occursOn_of_mem_sites (List.mem_filter.mp hs).1

/-- Every error of a scan is on a line of the source. -/
theorem line_le_of_mem_errors {source : String} {e : ScanError} (h : e ∈ (scan source).errors) :
    1 ≤ e.line ∧ e.line ≤ lastLine source.toList := by
  obtain ⟨us, -, -, hes⟩ := (tokenizes_scan source).isAt (splits_pieces source.toList) [] rfl
  obtain ⟨s, hs, hat⟩ := exists_mem_of_forall₂ hes h
  rw [hat.line]
  exact (occursOn_of_mem_sites (List.mem_filter.mp hs).1).1.le_lastLine

/-! ## Syntax errors -/

theorem spelled_of_mem_words {source : String} {t : Token} (h : t ∈ (scan source).words) :
    t.Spelled := by
  obtain ⟨us, last, htokens, hspelled⟩ := spelled_scan source
  rw [Scan.words_eq htokens fun t ht => (hspelled t ht).not_eof] at h
  exact hspelled t h

/-- The token of a syntax error is a word of the scan or its end of input; where an expression was
    expected, it begins none. -/
theorem token_of_parse_error {source : String} {error : SyntaxError}
    (h : parse source = .error error) :
    (error.token ∈ (scan source).words ∨ error.token = .endOn (lastLine source.toList)) ∧
      (error.cause = .expectedExpression → error.token.kind ∉ expressionStarts) := by
  obtain ⟨htokens, hwords⟩ := tokens_scan source
  have hpending := TokenStream.pending_endOn hwords (lastLine source.toList)
  have heof := TokenStream.eof_endOn hwords (lastLine source.toList)
  rw [← htokens] at hpending heof
  rcases TokenStream.expression_cases (scan source).tokens with
    ⟨us, rest, e, -, -, -, hx⟩ | ⟨cause, rest, hrun, hx⟩
  · rw [parse, parseTokens, hx] at h
    cases h
  rw [parse, parseTokens, hx] at h
  obtain rfl := Except.error.inj h
  obtain ⟨us, hus, -⟩ := hrun.window
  rw [hpending] at hus
  cases rest with
  | nil =>
    -- stuck at the end of input
    have htoken : (TokenStream.ofTokens (scan source).tokens).front [] = .endOn _ := heof
    refine ⟨.inr htoken, fun _ => ?_⟩
    rw [htoken]
    show Kind.eof ∉ expressionStarts
    decide
  | cons t rest =>
    have hmem : t ∈ (scan source).words := by
      rw [hus]
      exact List.mem_append_right us List.mem_cons_self
    refine ⟨.inl hmem, ?_⟩
    rintro rfl
    have hno := hrun.noExpression_of_stuck _ rfl fun hprimary => by cases hprimary
    exact (spelled_of_mem_words hmem).not_mem_expressionStarts hno

/-! ## Runs -/

/-- What the scanner reports. -/
def lexicalDiagnostics (source : String) : List Diagnostic :=
  (scan source).errors.map ScanError.diagnostic

/-- What the parser reports: at most one syntax error. -/
def syntaxDiagnostics (source : String) : List Diagnostic :=
  match parse source with
  | .ok _ => []
  | .error error => [error.diagnostic]

/-- The diagnostic points into the source. -/
structure Diagnostic.PointsInto (d : Diagnostic) (source : String) : Prop where
  first_le : 1 ≤ d.line
  le_last : d.line ≤ lastLine source.toList
  atEnd : d.place = .atEnd → d.line = lastLine source.toList
  atLexeme : ∀ l, d.place = .atLexeme l → l ≠ "" ∧ OccursOn source d.line l.toList

theorem Diagnostic.pointsInto_of_lexical {source : String} {d : Diagnostic}
    (h : d ∈ lexicalDiagnostics source) : d.place = .nowhere ∧ d.PointsInto source := by
  obtain ⟨e, he, rfl⟩ := List.mem_map.mp h
  obtain ⟨hfirst, hlast⟩ := line_le_of_mem_errors he
  exact ⟨rfl, hfirst, hlast, nofun, nofun⟩

/-- The one syntax error points into the source, at a token that was scanned. -/
theorem Diagnostic.pointsInto_of_syntax {source : String} {d : Diagnostic}
    (h : d ∈ syntaxDiagnostics source) :
    d.PointsInto source ∧ ∃ error, parse source = .error error ∧ d = error.diagnostic ∧
      error.token ∈ (scan source).tokens := by
  rw [syntaxDiagnostics] at h
  split at h
  · cases h
  rename_i error herror
  obtain rfl := List.mem_singleton.mp h
  obtain ⟨htokens, hwords⟩ := tokens_scan source
  have hline : error.diagnostic.line = error.token.line := rfl
  have hplace : error.diagnostic.place = .ofToken error.token := rfl
  rcases (token_of_parse_error herror).1 with hmem | htoken
  · obtain ⟨hoccurs, hne⟩ := occursOn_of_mem_words hmem
    obtain ⟨hfirst, hlast⟩ := hoccurs.le_lastLine
    rw [Place.ofToken, hwords _ hmem, if_neg Bool.false_ne_true] at hplace
    refine ⟨⟨hfirst, hlast, ?_, ?_⟩, error, herror, rfl, ?_⟩
    · intro hend
      cases hplace.symm.trans hend
    · intro l hl
      obtain rfl := Place.atLexeme.inj (hplace.symm.trans hl)
      refine ⟨?_, hoccurs⟩
      intro hempty
      exact hne (by rw [hempty]; rfl)
    · rw [htokens]
      exact List.mem_append_left _ hmem
  · have hlast : error.diagnostic.line = lastLine source.toList := by rw [hline, htoken]; rfl
    rw [htoken] at hplace
    refine ⟨⟨?_, Nat.le_of_eq hlast, fun _ => hlast, ?_⟩, error, herror, rfl, ?_⟩
    · rw [hlast]
      exact Nat.le_add_right 1 _
    · intro l hl
      cases hplace.symm.trans hl
    · rw [htokens, htoken]
      exact List.mem_append_right _ List.mem_cons_self

/-- All that is reported comes from the scanner, and then from the parser; only the last entry can
    have a place on its line. -/
theorem place_of_mem_dropLast {source : String} {d : Diagnostic}
    (h : d ∈ (lexicalDiagnostics source ++ syntaxDiagnostics source).dropLast) :
    d.place = .nowhere := by
  have hlexical : d ∈ lexicalDiagnostics source := by
    rw [syntaxDiagnostics] at h
    split at h
    · rw [List.append_nil] at h
      exact List.mem_of_mem_dropLast h
    · rwa [List.dropLast_concat] at h
  exact (Diagnostic.pointsInto_of_lexical hlexical).1

/-- What the scanner says is told apart by its first letter from what the parser says. -/
theorem ScanFault.head?_message (fault : ScanFault) : fault.message.toList.head? = some 'U' := by
  cases fault with
  | strayCharacter c =>
    show ("Unexpected character: " ++ c.toString ++ ".").toList.head? = some 'U'
    rw [String.toList_append, String.toList_append, List.append_assoc]
    rfl
  | openString => decide +kernel
  | openComment => decide +kernel

/-- Only the syntax error can say that an expression was expected, and then it is at a token that
    begins none. -/
theorem exists_token_of_expected {source : String} {d : Diagnostic}
    (h : d ∈ lexicalDiagnostics source ++ syntaxDiagnostics source)
    (hmessage : d.message = "Expected expression.") :
    ∃ t ∈ (scan source).tokens, parse source = .error ⟨.expectedExpression, t⟩ ∧
      d = (SyntaxError.mk .expectedExpression t).diagnostic ∧ t.kind ∉ expressionStarts := by
  rcases List.mem_append.mp h with hlexical | hsyntax
  · obtain ⟨e, -, rfl⟩ := List.mem_map.mp hlexical
    have hfirst := e.fault.head?_message
    rw [show e.fault.message = "Expected expression." from hmessage] at hfirst
    exact absurd hfirst (by decide +kernel)
  · obtain ⟨-, ⟨cause, t⟩, herror, rfl, hmem⟩ := Diagnostic.pointsInto_of_syntax hsyntax
    have hcause : cause = .expectedExpression := by
      have hsame : cause.message = Cause.expectedExpression.message := hmessage
      revert hsame
      cases cause <;> decide +kernel
    subst hcause
    exact ⟨t, hmem, herror, rfl, (token_of_parse_error herror).2 rfl⟩

/-- Printing the tokens does not ask the parser. -/
theorem runSource_tokens (source : String) :
    runSource source .tokens =
      if lexicalDiagnostics source = [] then .ok (dumpTokens (scan source).tokens)
      else .error (lexicalDiagnostics source) := by
  rw [runSource_eq]
  show (if (lexicalDiagnostics source).isEmpty then _ else _) = _
  exact if_congr List.isEmpty_iff rfl rfl

/-- An output that prints the tree. -/
theorem runSource_of_render {source : String} {output : Output} {print : Expr → String}
    (h : render output (scan source).tokens = (parse source).map print) :
    (∀ e, lexicalDiagnostics source = [] → parse source = .ok e →
        runSource source output = .ok (print e)) ∧
      ((lexicalDiagnostics source ≠ [] ∨ ∃ error, parse source = .error error) →
        runSource source output
          = .error (lexicalDiagnostics source ++ syntaxDiagnostics source)) := by
  rw [runSource_eq, h, syntaxDiagnostics]
  cases parse source with
  | ok e =>
    constructor
    · rintro e' hnone heq
      obtain rfl := Except.ok.inj heq
      exact if_pos (List.isEmpty_iff.mpr hnone)
    · rintro (hsome | ⟨error, herror⟩)
      · rw [List.append_nil]
        exact if_neg (mt List.isEmpty_iff.mp hsome)
      · cases herror
  | error error =>
    constructor
    · intro e' _ heq
      cases heq
    · exact fun _ => rfl

/-- A run that fails reports something, and all that the scanner and the parser have to report. -/
theorem diagnostics_of_error {source : String} {output : Output} {ds : List Diagnostic}
    (h : runSource source output = .error ds) :
    ds ≠ [] ∧ (ds = lexicalDiagnostics source ∨
      ds = lexicalDiagnostics source ++ syntaxDiagnostics source) := by
  have hparsing : ∀ print : Expr → String,
      render output (scan source).tokens = (parse source).map print →
        ds ≠ [] ∧ ds = lexicalDiagnostics source ++ syntaxDiagnostics source := by
    intro print hrender
    obtain ⟨haccepts, hreports⟩ := runSource_of_render hrender
    by_cases hfault : lexicalDiagnostics source ≠ [] ∨ ∃ error, parse source = .error error
    · obtain rfl := Except.error.inj (h.symm.trans (hreports hfault))
      refine ⟨?_, rfl⟩
      rcases hfault with hsome | ⟨error, herror⟩
      · exact List.append_ne_nil_of_left_ne_nil hsome _
      · rw [syntaxDiagnostics, herror]
        exact List.append_ne_nil_of_right_ne_nil _ (List.cons_ne_nil _ _)
    · rw [not_or, not_not] at hfault
      cases hparse : parse source with
      | ok e => cases h.symm.trans (haccepts e hfault.1 hparse)
      | error error => exact absurd ⟨error, hparse⟩ hfault.2
  cases output with
  | bracketed => exact (hparsing Expr.bracketed rfl).imp_right .inr
  | reversePolish => exact (hparsing Expr.reversePolish rfl).imp_right .inr
  | tokens =>
    rw [runSource_tokens] at h
    split at h
    · cases h
    · rename_i hsome
      obtain rfl := Except.error.inj h
      exact ⟨hsome, .inl rfl⟩

/-- **What a run reports.**  Printing the tokens reports the lexical errors.  The other outputs agree:
    they accept the same sources, those without lexical errors that parse, and report the lexical
    errors and then the syntax error.  A report is not empty; only its last entry has a place on its
    line, every entry points into the source, and where an expression is expected the token scanned
    there begins none. -/
theorem runSource_reports (source : String) :
    (runSource source .tokens =
        if lexicalDiagnostics source = [] then .ok (dumpTokens (scan source).tokens)
        else .error (lexicalDiagnostics source)) ∧
      (∀ e, lexicalDiagnostics source = [] → parse source = .ok e →
        runSource source .bracketed = .ok e.bracketed ∧
          runSource source .reversePolish = .ok e.reversePolish) ∧
      ((lexicalDiagnostics source ≠ [] ∨ ∃ error, parse source = .error error) →
        runSource source .bracketed
            = .error (lexicalDiagnostics source ++ syntaxDiagnostics source) ∧
          runSource source .reversePolish
            = .error (lexicalDiagnostics source ++ syntaxDiagnostics source)) ∧
      ∀ output ds, runSource source output = .error ds →
        ds ≠ [] ∧ (∀ d ∈ ds.dropLast, d.place = .nowhere) ∧ (∀ d ∈ ds, d.PointsInto source) ∧
          ∀ d ∈ ds, d.message = "Expected expression." →
            ∃ t ∈ (scan source).tokens, parse source = .error ⟨.expectedExpression, t⟩ ∧
              d = (SyntaxError.mk .expectedExpression t).diagnostic ∧
              t.kind ∉ expressionStarts := by
  have hrender : render .bracketed (scan source).tokens = (parse source).map Expr.bracketed := rfl
  have hrender' : render .reversePolish (scan source).tokens
      = (parse source).map Expr.reversePolish := rfl
  have hbracketed := runSource_of_render hrender
  have hpolish := runSource_of_render hrender'
  refine ⟨runSource_tokens source, ?_, ?_, ?_⟩
  · intro e hnone hparse
    exact ⟨hbracketed.1 e hnone hparse, hpolish.1 e hnone hparse⟩
  · intro hfault
    exact ⟨hbracketed.2 hfault, hpolish.2 hfault⟩
  · intro output ds h
    obtain ⟨hne, hds⟩ := diagnostics_of_error h
    have hall : ∀ d ∈ ds, d ∈ lexicalDiagnostics source ++ syntaxDiagnostics source := by
      intro d hd
      rcases hds with rfl | rfl
      · exact List.mem_append_left _ hd
      · exact hd
    refine ⟨hne, ?_, ?_, fun d hd => exists_token_of_expected (hall d hd)⟩
    · intro d hd
      rcases hds with rfl | rfl
      · exact (Diagnostic.pointsInto_of_lexical (List.mem_of_mem_dropLast hd)).1
      · exact place_of_mem_dropLast hd
    · intro d hd
      rcases List.mem_append.mp (hall d hd) with hlexical | hsyntax
      · exact (Diagnostic.pointsInto_of_lexical hlexical).2
      · exact (Diagnostic.pointsInto_of_syntax hsyntax).1

/-- A stray character, and a star where an expression is expected: two diagnostics, the second at its
    token. -/
theorem runSource_reports_both_errors :
    let source := "@ (1 +\n* 2"
    let ds := [Diagnostic.mk 1 .nowhere "Unexpected character: @.",
      ⟨2, .atLexeme "*", "Expected expression."⟩]
    lexicalDiagnostics source ≠ [] ∧ runSource source .bracketed = .error ds ∧
      runSource source .bracketed = .error (lexicalDiagnostics source ++ syntaxDiagnostics source) ∧
      ∃ t ∈ (scan source).tokens, parse source = .error ⟨.expectedExpression, t⟩ ∧
        t.kind ∉ expressionStarts := by
  intro source ds
  have hsome : lexicalDiagnostics source ≠ [] := by decide +kernel
  have hrun : runSource source .bracketed = .error ds := by decide +kernel
  obtain ⟨-, -, hreports, hreport⟩ := runSource_reports source
  obtain ⟨-, -, -, hexpected⟩ := hreport .bracketed ds hrun
  obtain ⟨t, ht, hparse, -, hkind⟩ :=
    hexpected ⟨2, .atLexeme "*", "Expected expression."⟩ (by simp [ds]) rfl
  exact ⟨hsome, hrun, (hreports (.inl hsome)).1, t, ht, hparse, hkind⟩

end Lox
