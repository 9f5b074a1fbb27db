/-
  Line ends — carriage returns and line feeds BEHIND a source move its end of input, and nothing else.

  1. **Pieces** — one more such character is a piece of its own, or belongs to a last piece that goes on
     to the end of the source: a comment or a string that is not closed.
  2. **Scan** — either way the tokens and errors are the same, but for the line of the end of input.
     The induction on the pieces adds one character, the one on the tail adds them all.
  3. **Parse** — the descent never sees the end of input; it is the token of an error just if no token
     is left.
  4. **Runs** — so of the diagnostics only one at the end of input is moved.
-/
import Lox.Proofs.Lexis.Seam
import Lox.Proofs.Report.Located

namespace Lox

/-! ## Pieces -/

/-- A piece of the form may be ended by the end of the source alone. -/
inductive Form.Endless : Form → Prop where
  | lineComment : Endless .lineComment
  | openString : Endless .openString
  | openComment : Endless .openComment

/-- Such a piece is no token. -/
theorem Form.Endless.not_reads {form : Form} {text : List Char} {kind : Kind}
    {literal : Option Literal} (h : form.Endless) : ¬ Piece.Reads ⟨form, text⟩ kind literal := by
  intro hreads
  cases h <;> cases hreads

/-- A text without a `*/` has none when a character other than a slash comes behind it. -/
theorem not_commentEnd_concat {body : List Char} {c : Char} (h : ¬ ['*', '/'] <:+: body)
    (hc : c ≠ '/') : ¬ ['*', '/'] <:+: body ++ [c] := by
  rw [List.infix_concat_iff, not_or]
  refine ⟨?_, h⟩
  rintro ⟨before, heq⟩
  rw [← List.singleton_append, ← List.append_assoc] at heq
  obtain ⟨-, hlast⟩ := List.append_inj' heq rfl
  exact hc (List.cons.inj hlast).1.symm

variable {form : Form} {text rest : List Char} {c : Char}

/-- **One more line end** leaves a piece as it is, or becomes a part of it at the end of the source. -/
theorem Shape.append_lineEnd (h : Shape form text rest) (hc : c = '\n' ∨ c = '\r') :
    Shape form text (rest ++ [c]) ∨
      rest = [] ∧ form.Endless ∧ Shape form (text ++ [c]) [] := by
  have hblank : isBlank c := isBlank_iff.mpr (.inr (.inr hc.symm))
  have hquote : '"' ≠ c := by rcases hc with rfl | rfl <;> decide
  have hslash : c ≠ '/' := by rcases hc with rfl | rfl <;> decide
  cases form with
  | openString =>
    cases h with
    | lexeme hlex =>
      cases hlex with
      | openString hbody =>
        have hbody' : '"' ∉ _ ++ [c] := List.not_mem_append hbody (by simpa using hquote)
        exact .inr ⟨rfl, .openString, .lexeme (.openString hbody')⟩
  | openComment =>
    cases h with
    | lexeme hlex =>
      cases hlex with
      | openComment hbody =>
        have hbody' := not_commentEnd_concat hbody hslash
        exact .inr ⟨rfl, .openComment, .lexeme (.openComment hbody')⟩
  | lineComment =>
    cases h with
    | lexeme hlex =>
      cases hlex with
      | lineComment hbody hrest =>
        rcases hc with rfl | rfl
        · exact .inl (.lexeme (.lineComment hbody (head?_append_cons hrest rfl)))
        · cases rest with
          | nil =>
            -- the comment goes on with a carriage return
            have hbody' : '\n' ∉ _ ++ ['\r'] := List.not_mem_append hbody (by decide)
            exact .inr ⟨rfl, .lineComment, .lexeme (.lineComment hbody' nofun)⟩
          | cons d rest => exact .inl (.lexeme (.lineComment hbody hrest))
  | _ =>
    apply Or.inl
    apply h.append_blank _ hblank nofun
    exact ⟨nofun, nofun⟩

/-! ## Scan -/

/-- The token, moved down by some lines if it ends the input. -/
def Token.lowerEof (n : Nat) (t : Token) : Token := if t.isEof then t.lower n else t

theorem Token.lowerEof_of_not_eof {t : Token} (h : t.isEof = false) (n : Nat) :
    t.lowerEof n = t := by
  unfold lowerEof
  rw [h, if_neg Bool.false_ne_true]

theorem Token.lowerEof_zero (t : Token) : t.lowerEof 0 = t := by
  unfold lowerEof
  split <;> rfl

theorem Token.lowerEof_lowerEof (n m : Nat) (t : Token) :
    (t.lowerEof n).lowerEof m = t.lowerEof (n + m) := by
  cases ht : t.isEof with
  | true =>
    unfold lowerEof
    rw [ht, if_pos rfl, if_pos rfl, show (t.lower n).isEof = true from ht, if_pos rfl]
    unfold lower
    rw [Nat.add_assoc]
  | false => rw [lowerEof_of_not_eof ht, lowerEof_of_not_eof ht, lowerEof_of_not_eof ht]

variable {line : Nat} {cs tail : List Char} {ps : List Piece} {ts : List Token} {es : List ScanError}

/-- Without a source there is no piece, only the end of input. -/
theorem Tokenizes.of_splits_nil (h : Tokenizes line ps ts es) (hsplits : Splits [] ps) :
    ps = [] ∧ ts = [.endOn line] ∧ es = [] := by
  obtain rfl : ps = [] := by rw [hsplits.eq_pieces, pieces]
  cases h
  exact ⟨rfl, rfl, rfl⟩

/-- A piece that goes on to the end of the source takes a line end in, and stands for the same. -/
theorem Tokenizes.extend_last (h : Tokenizes line [⟨form, text⟩] ts es) (hform : form.Endless) :
    Tokenizes line [⟨form, text ++ [c]⟩] (ts.map (Token.lowerEof (newlines [c]))) es := by
  have hend : ∀ last, Tokenizes (last + newlines (text ++ [c])) []
      ([.endOn (last + newlines text)].map (Token.lowerEof (newlines [c]))) [] := by
    intro last
    rw [newlines_append, ← Nat.add_assoc]
    exact .eof
  cases h with
  | token hreads => exact absurd hreads hform.not_reads
  | fault hfault htail =>
    cases htail
    exact .fault hfault (hend line)
  | silent hsilent htail =>
    cases htail
    exact .silent hsilent (hend line)

/-- **With one more line end** the pieces stand for the same, but for the line of the end of input. -/
theorem Tokenizes.append_lineEnd (h : Tokenizes line ps ts es) (hsplits : Splits cs ps)
    (hc : c = '\n' ∨ c = '\r') :
    ∃ ps', Splits (cs ++ [c]) ps' ∧
      Tokenizes line ps' (ts.map (Token.lowerEof (newlines [c]))) es := by
  induction hsplits generalizing line ts es with
  | nil =>
    obtain ⟨-, rfl, rfl⟩ := h.of_splits_nil .nil
    have hblank : Shape .blank [c] [] := .lexeme (.blank (.inr (.inr hc.symm)))
    exact ⟨[⟨.blank, [c]⟩], .cons hblank .nil, .silent .blank .eof⟩
  | @cons form text rest ps hshape hrest ih =>
    rcases hshape.append_lineEnd hc with hkept | ⟨rfl, hform, hshape'⟩
    · -- the piece is as it was, and the line end comes behind a later one
      rw [List.append_assoc]
      cases h with
      | token hreads htail =>
        obtain ⟨ps', hsplits', htokens⟩ := ih htail
        refine ⟨_ :: ps', .cons hkept hsplits', ?_⟩
        rw [List.map_cons, Token.lowerEof_of_not_eof hreads.not_eof]
        exact .token hreads htokens
      | fault hfault htail =>
        obtain ⟨ps', hsplits', htokens⟩ := ih htail
        exact ⟨_ :: ps', .cons hkept hsplits', .fault hfault htokens⟩
      | silent hsilent htail =>
        obtain ⟨ps', hsplits', htokens⟩ := ih htail
        exact ⟨_ :: ps', .cons hkept hsplits', .silent hsilent htokens⟩
    · -- the piece is the last one, and takes the line end in
      obtain rfl : ps = [] := by rw [hrest.eq_pieces, pieces]
      have hsplits' := Splits.cons hshape' .nil
      rw [List.append_nil] at hsplits' ⊢
      exact ⟨_, hsplits', h.extend_last hform⟩

/-- So with any number of them. -/
theorem Tokenizes.append_lineEnds (h : Tokenizes line ps ts es) (hsplits : Splits cs ps)
    (htail : ∀ c ∈ tail, c = '\n' ∨ c = '\r') :
    ∃ ps', Splits (cs ++ tail) ps' ∧
      Tokenizes line ps' (ts.map (Token.lowerEof (newlines tail))) es := by
  induction tail generalizing cs ps ts with
  | nil =>
    have hsame : ts.map (Token.lowerEof (newlines [])) = ts := List.map_id'' Token.lowerEof_zero ts
    rw [List.append_nil, hsame]
    exact ⟨ps, hsplits, h⟩
  | cons c tail ih =>
    obtain ⟨hc, htail⟩ := List.forall_mem_cons.mp htail
    obtain ⟨ps₁, hsplits₁, h₁⟩ := h.append_lineEnd hsplits hc
    obtain ⟨ps₂, hsplits₂, h₂⟩ := ih h₁ hsplits₁ htail
    rw [List.map_map] at h₂
    have hboth : Token.lowerEof (newlines tail) ∘ Token.lowerEof (newlines [c])
        = Token.lowerEof (newlines (c :: tail)) := by
      funext t
      rw [Function.comp_apply, Token.lowerEof_lowerEof, ← newlines_append]
      rfl
    rw [hboth] at h₂
    rw [List.append_cons]
    exact ⟨ps₂, hsplits₂, h₂⟩

/-- **The scan of a source with line ends behind it** is that of the source, with a lower end. -/
theorem scan_append_lineEnds (source : String) {tail : String}
    (htail : ∀ c ∈ tail.toList, c = '\n' ∨ c = '\r') :
    scan (source ++ tail) =
      ⟨(scan source).tokens.map (Token.lowerEof (newlines tail.toList)), (scan source).errors⟩ := by
  obtain ⟨ps, hsplits, htokens⟩ :=
    (tokenizes_scan source).append_lineEnds (splits_pieces source.toList) htail
  rw [← String.toList_append] at hsplits
  exact scan_eq hsplits htokens

/-! ## Parse -/

namespace TokenStream

variable {s : TokenStream} {n : Nat}

/-- The stream with its end of input moved down. -/
def lowerEof (n : Nat) (s : TokenStream) : TokenStream := { s with eof := s.eof.lowerEof n }

/-- The next token is moved just if it is the end of input. -/
theorem front_lowerEof (hs : ∀ t ∈ s.pending, t.isEof = false) {rest : List Token}
    (hrest : rest <:+ s.pending) : (s.lowerEof n).front rest = (s.front rest).lowerEof n := by
  cases rest with
  | nil => rfl
  | cons t rest =>
    have ht : t.isEof = false := hs t (hrest.subset List.mem_cons_self)
    exact (Token.lowerEof_of_not_eof ht n).symm

end TokenStream

/-- The error, moved down by some lines if it is at the end of input. -/
def SyntaxError.lowerEof (n : Nat) (x : SyntaxError) : SyntaxError :=
  { x with token := x.token.lowerEof n }

/-- What is read does not depend on the end of input, but an error may be at it. -/
theorem TokenStream.expression_lowerEof {s : TokenStream} (hs : ∀ t ∈ s.pending, t.isEof = false)
    (n : Nat) :
    (s.lowerEof n).expression.1 = s.expression.1.mapError (SyntaxError.lowerEof n) := by
  have hrun := Parse.runs_level .comma s.pending
  generalize (Parse.level .comma s.pending).answer = a at hrun
  cases a with
  | done e rest =>
    have hlower : (s.lowerEof n).expression = (.ok e, _) := expression_of_done hrun
    rw [hlower, expression_of_done hrun]
    rfl
  | stuck cause rest =>
    have hlower : (s.lowerEof n).expression = (.error ⟨cause, _⟩, _) := expression_of_stuck hrun
    have hsuffix : rest <:+ s.pending := hrun.suffix
    rw [hlower, expression_of_stuck hrun, front_lowerEof hs hsuffix]
    rfl

/-- Words and an end of input parse alike wherever the end is, but for an error at it. -/
theorem parseTokens_lowerEof {words : List Token} (hwords : ∀ t ∈ words, t.isEof = false)
    (last n : Nat) :
    parseTokens ((words ++ [Token.endOn last]).map (Token.lowerEof n))
      = (parseTokens (words ++ [.endOn last])).mapError (SyntaxError.lowerEof n) := by
  have hsame : words.map (Token.lowerEof n) = words :=
    (List.map_congr_left fun t ht => Token.lowerEof_of_not_eof (hwords t ht) n).trans
      (List.map_id words)
  have hpending := TokenStream.pending_endOn hwords
  have heof := TokenStream.eof_endOn hwords
  have hstream : TokenStream.ofTokens (words ++ [.endOn (last + n)])
      = (TokenStream.ofTokens (words ++ [.endOn last])).lowerEof n := by
    show TokenStream.mk 0 _ _ = TokenStream.mk 0 _ (Token.lowerEof n _)
    congr 1
    · exact (hpending (last + n)).trans (hpending last).symm
    · rw [heof]
      exact heof (last + n)
  have hend : [Token.endOn last].map (Token.lowerEof n) = [.endOn (last + n)] := rfl
  rw [List.map_append, hsame, hend, parseTokens, hstream]
  apply TokenStream.expression_lowerEof
  rw [hpending]
  exact hwords

/-! ## Runs -/

/-- The diagnostic, moved down by some lines if it is at the end of input. -/
def Diagnostic.lowerEnd (n : Nat) (d : Diagnostic) : Diagnostic :=
  if d.place = .atEnd then { d with line := d.line + n } else d

theorem SyntaxError.diagnostic_lowerEof (n : Nat) (x : SyntaxError) :
    (x.lowerEof n).diagnostic = x.diagnostic.lowerEnd n := by
  obtain ⟨cause, token⟩ := x
  unfold lowerEof diagnostic Diagnostic.lowerEnd Place.ofToken
  cases ht : token.isEof with
  | true =>
    unfold Token.lowerEof
    rw [ht, if_pos rfl, show (token.lower n).isEof = true from ht, if_pos rfl, if_pos rfl]
    rfl
  | false =>
    rw [Token.lowerEof_of_not_eof ht, ht, if_neg Bool.false_ne_true, if_neg nofun]

/-- What the scanner reports is not at the end of input. -/
theorem ScanError.map_lowerEnd (es : List ScanError) (n : Nat) :
    (es.map ScanError.diagnostic).map (Diagnostic.lowerEnd n) = es.map ScanError.diagnostic := by
  rw [List.map_map]
  rfl

/-- A tree is rendered alike, wherever the end of input is. -/
theorem render_lowerEof (source : String) {output : Output} (hparses : output ≠ .tokens) (n : Nat) :
    render output ((scan source).tokens.map (Token.lowerEof n))
      = (render output (scan source).tokens).mapError (SyntaxError.lowerEof n) := by
  obtain ⟨htokens, hwords⟩ := tokens_scan source
  have hparse := parseTokens_lowerEof hwords (lastLine source.toList) n
  rw [← htokens] at hparse
  cases output with
  | bracketed | reversePolish =>
    unfold render
    rw [hparse]
    cases parseTokens (scan source).tokens <;> rfl
  | tokens => exact absurd rfl hparses

/-- A run gives the same text, or the same diagnostics but for those at the end of input. -/
theorem runSource_append_lineEnds (source : String) {tail : String} {output : Output}
    (hparses : output ≠ .tokens) (htail : ∀ c ∈ tail.toList, c = '\n' ∨ c = '\r') :
    runSource (source ++ tail) output = (runSource source output).mapError
      (List.map (Diagnostic.lowerEnd (newlines tail.toList))) := by
  rw [runSource_eq, runSource_eq, scan_append_lineEnds source htail]
  simp only [render_lowerEof source hparses]
  cases render output (scan source).tokens with
  | ok text =>
    show (if _ then _ else _) = Except.mapError _ (if _ then _ else _)
    split
    · rfl
    · exact congrArg Except.error (ScanError.map_lowerEnd _ _).symm
  | error x =>
    show Except.error _ = Except.error _
    rw [List.map_append, ScanError.map_lowerEnd, SyntaxError.diagnostic_lowerEof]
    rfl

/-- **Line ends behind a source are invisible, but for the line of its end of input.**  The tokens are
    the same with the end of input lower by the number of line feeds, and the errors are the same.
    Where the tree is printed, the source with the line ends gives a text just if the source does, and
    the same; else it gives the same diagnostics, of which only those at the end of input are lower. -/
theorem lineEnds_invisible (source tail : String)
    (htail : ∀ c ∈ tail.toList, c = '\n' ∨ c = '\r') :
    (scan (source ++ tail)).tokens
        = (scan source).tokens.map (Token.lowerEof (newlines tail.toList)) ∧
      (scan (source ++ tail)).errors = (scan source).errors ∧
      ∀ output, output ≠ .tokens →
        (∀ text, runSource (source ++ tail) output = .ok text ↔ runSource source output = .ok text) ∧
          ∀ ds, runSource source output = .error ds → runSource (source ++ tail) output
            = .error (ds.map (Diagnostic.lowerEnd (newlines tail.toList))) := by
  have hscan := scan_append_lineEnds source htail
  refine ⟨by rw [hscan], by rw [hscan], ?_⟩
  intro output hparses
  have hrun := runSource_append_lineEnds source hparses htail
  constructor
  · intro text
    rw [hrun]
    cases runSource source output with
    | ok text' => exact Iff.rfl
    | error ds => exact iff_of_false nofun nofun
  · intro ds hds
    rw [hrun, hds]
    rfl

/-- A stray character, a comment that is not closed and seems about to be, and an operand that is
    missing at the end of input. -/
theorem lineEnds_invisible_openComment :
    let source := "@ (1 +\n/* *"
    let tail := "\r\n\n"
    let ds (last : Nat) := [Diagnostic.mk 1 .nowhere "Unexpected character: @.",
      ⟨2, .nowhere, "Unterminated block comment."⟩, ⟨last, .atEnd, "Expected expression."⟩]
    (∀ c ∈ tail.toList, c = '\n' ∨ c = '\r') ∧ newlines tail.toList = 2 ∧
      runSource source .bracketed = .error (ds 2) ∧
      runSource (source ++ tail) .bracketed = .error (ds 4) ∧
      (scan (source ++ tail)).tokens = (scan source).words ++ [.endOn 4] := by
  intro source tail ds
  have hchars : tail.toList = ['\r', '\n', '\n'] := by decide +kernel
  have htail : ∀ c ∈ tail.toList, c = '\n' ∨ c = '\r' := by
    rw [hchars]
    simp
  have hds : runSource source .bracketed = .error (ds 2) := by decide +kernel
  obtain ⟨htokens, -, hrun⟩ := lineEnds_invisible source tail htail
  have hds' := (hrun .bracketed nofun).2 (ds 2) hds
  refine ⟨htail, by decide +kernel, hds, ?_, ?_⟩
  · rw [hds']
    decide +kernel
  · rw [htokens]
    decide +kernel

end Lox
