/-
  Tokens — what each piece of a source stands for, and that the scan gives just that.

  1. **Numerals** — the decimal that is written in a number's text.
  2. **Meaning** — a piece reads as a token, is a fault, or is silent (`Piece.Reads`, `Form.Faulty`,
     `Form.Silent`); for the pieces of a split exactly one of the three.
  3. **The token list** — `Tokenizes line ps ts es`: the pieces `ps`, the first of which begins on the
     line, stand for the tokens `ts` and the errors `es`.
  4. **The scan** — every source has one split, and what is scanned is what its pieces stand for.
  5. **Words** — the tokens of a scan but the end of input, which comes once and last.
-/
import Lox.Proofs.Lexis.Cutting
import Lox.Token.Scan

namespace Lox

/-! ## Numerals -/

/-- The text is a numeral: digits, or digits with a point between.  It stands for the number that all
    its digits spell, divided by ten for each place. -/
inductive Numeral : List Char → Decimal → Prop where
  | whole {digits} : digits ≠ [] → (∀ c ∈ digits, c.isDigit) →
      Numeral digits ⟨Nat.ofDigitChars 10 digits 0, 0⟩
  | fraction {digits places} : digits ≠ [] → (∀ c ∈ digits, c.isDigit) → places ≠ [] →
      (∀ c ∈ places, c.isDigit) →
      Numeral (digits ++ '.' :: places) ⟨Nat.ofDigitChars 10 (digits ++ places) 0, places.length⟩

theorem dropWhile_append_stop {p : Char → Bool} {body rest : List Char} (hbody : ∀ c ∈ body, p c)
    (hrest : ∀ c ∈ rest.head?, ¬ p c) : (body ++ rest).dropWhile p = rest := by
  have htake := takeWhile_append_stop hbody hrest
  have hboth : (body ++ rest).takeWhile p ++ (body ++ rest).dropWhile p = body ++ rest :=
    List.takeWhile_append_dropWhile
  rw [htake] at hboth
  exact List.append_cancel_left hboth

/-- A numeral is read as what it stands for. -/
theorem Numeral.ofChars?_eq {text : List Char} {d : Decimal} (h : Numeral text d) :
    Decimal.ofChars? text = some d := by
  cases h with
  | whole hne hdigits =>
    have hend : ∀ c ∈ ([] : List Char).head?, ¬ c.isDigit := by simp
    have htake := takeWhile_append_stop hdigits hend
    have hdrop := dropWhile_append_stop hdigits hend
    rw [List.append_nil] at htake hdrop
    simp only [Decimal.ofChars?, htake, hdrop, List.isEmpty_iff, if_neg hne]
  | @fraction digits places hne hdigits hplaces hall =>
    have hpoint : ∀ c ∈ ('.' :: places).head?, ¬ c.isDigit := by
      intro c hc
      obtain rfl := Option.some.inj hc
      decide
    have hrun : ¬ (places.isEmpty || !places.all Char.isDigit) := by
      simpa [hplaces] using hall
    simp only [Decimal.ofChars?, takeWhile_append_stop hdigits hpoint,
      dropWhile_append_stop hdigits hpoint, List.isEmpty_iff, if_neg hne]
    rw [if_neg (by simpa only [List.isEmpty_iff] using hrun)]

/-- A number piece is a numeral. -/
theorem Lexeme.exists_numeral {text rest : List Char} (h : Lexeme .number text rest) :
    ∃ d, Numeral text d := by
  cases h with
  | whole hne hdigits => exact ⟨_, .whole hne hdigits⟩
  | fraction hne hdigits hplaces hall => exact ⟨_, .fraction hne hdigits hplaces hall⟩

/-! ## Keywords -/

namespace Keyword

/-- A keyword is found by its spelling. -/
theorem ofSpelling?_spelling (k : Keyword) : ofSpelling? k.spelling = some k := by
  cases k <;> rfl

/-- No keyword is found for what no keyword spells. -/
theorem ofSpelling?_eq_none {text : String} (h : ∀ k : Keyword, k.spelling ≠ text) :
    ofSpelling? text = none := by
  rw [ofSpelling?, List.find?_eq_none]
  intro k _
  simpa using h k

end Keyword

/-! ## Meaning -/

/-- The piece is a token of the kind, with the literal. -/
inductive Piece.Reads : Piece → Kind → Option Literal → Prop where
  | symbol {s text} : Reads ⟨.symbol s, text⟩ (.symbol s) none
  | string {body} :
      Reads ⟨.string, '"' :: (body ++ ['"'])⟩ .string (some (.string (String.ofList body)))
  | number {text d} : Numeral text d → Reads ⟨.number, text⟩ .number (some (.number d.toBinary64))
  | keyword {k : Keyword} : Reads ⟨.word, k.spelling.toList⟩ (.keyword k) none
  | identifier {text} : (∀ k : Keyword, k.spelling.toList ≠ text) →
      Reads ⟨.word, text⟩ .identifier none

/-- A piece of the form is an error. -/
inductive Form.Faulty : Form → ScanFault → Prop where
  | stray {c} : Faulty (.stray c) (.strayCharacter c)
  | openString : Faulty .openString .openString
  | openComment : Faulty .openComment .openComment

/-- A piece of the form is neither token nor error. -/
inductive Form.Silent : Form → Prop where
  | blank : Silent .blank
  | lineComment : Silent .lineComment
  | blockComment : Silent .blockComment

/-- The pieces, the first of which begins on the line, stand for the tokens and the errors.  A token's
    lexeme is the WHOLE text of its piece; a piece is on the line on which it begins. -/
inductive Tokenizes : Nat → List Piece → List Token → List ScanError → Prop where
  | eof {line} : Tokenizes line [] [.endOn line] []
  | token {line p kind literal ps ts es} : p.Reads kind literal →
      Tokenizes (line + newlines p.text) ps ts es →
      Tokenizes line (p :: ps) (⟨kind, String.ofList p.text, literal, line⟩ :: ts) es
  | fault {line p fault ps ts es} : p.form.Faulty fault →
      Tokenizes (line + newlines p.text) ps ts es →
      Tokenizes line (p :: ps) ts (⟨fault, line⟩ :: es)
  | silent {line p ps ts es} : p.form.Silent →
      Tokenizes (line + newlines p.text) ps ts es → Tokenizes line (p :: ps) ts es

/-! ## What is scanned for a piece -/

theorem Piece.Reads.token?_eq {p : Piece} {kind : Kind} {literal : Option Literal}
    (h : p.Reads kind literal) (line : Nat) :
    p.token? line = some ⟨kind, String.ofList p.text, literal, line⟩ := by
  cases h with
  | symbol => rfl
  | string =>
    simp only [token?, List.tail_cons, List.dropLast_concat]
  | number hd => simp only [token?, hd.ofChars?_eq, Option.map_some]
  | @keyword k =>
    simp only [token?, String.ofList_toList, Kind.ofWord, Keyword.ofSpelling?_spelling]
  | @identifier text hno =>
    have hnone : Keyword.ofSpelling? (String.ofList text) = none := by
      refine Keyword.ofSpelling?_eq_none fun k hk => hno k ?_
      rw [hk, String.toList_ofList]
    simp only [token?, Kind.ofWord, hnone]

theorem Piece.Reads.error?_eq {p : Piece} {kind : Kind} {literal : Option Literal}
    (h : p.Reads kind literal) (line : Nat) : p.error? line = none := by
  cases h <;> rfl

/-- A token that a piece reads as does not end the input. -/
theorem Piece.Reads.not_eof {p : Piece} {kind : Kind} {literal : Option Literal} {lexeme : String}
    {line : Nat} (h : p.Reads kind literal) :
    Token.isEof ⟨kind, lexeme, literal, line⟩ = false := by
  rw [Token.isEof]
  cases h <;> rfl

theorem Piece.error?_of_faulty {p : Piece} {fault : ScanFault} (h : p.form.Faulty fault)
    (line : Nat) : p.token? line = none ∧ p.error? line = some ⟨fault, line⟩ := by
  obtain ⟨form, text⟩ := p
  cases h <;> exact ⟨rfl, rfl⟩

theorem Piece.nothing_of_silent {p : Piece} (h : p.form.Silent) (line : Nat) :
    p.token? line = none ∧ p.error? line = none := by
  obtain ⟨form, text⟩ := p
  cases h <;> exact ⟨rfl, rfl⟩

/-- A piece stands for something, or is to be passed over. -/
theorem Shape.reads_or_faulty_or_silent {form : Form} {text rest : List Char}
    (h : Shape form text rest) :
    (∃ kind literal, Piece.Reads ⟨form, text⟩ kind literal) ∨ (∃ fault, form.Faulty fault) ∨
      form.Silent := by
  cases h with
  | stray => exact .inr (.inl ⟨_, .stray⟩)
  | lexeme hlex =>
    cases form with
    | blank => exact .inr (.inr .blank)
    | lineComment => exact .inr (.inr .lineComment)
    | blockComment => exact .inr (.inr .blockComment)
    | openString => exact .inr (.inl ⟨_, .openString⟩)
    | openComment => exact .inr (.inl ⟨_, .openComment⟩)
    | stray c => exact .inr (.inl ⟨_, .stray⟩)
    | symbol s => exact .inl ⟨_, _, .symbol⟩
    | number =>
      obtain ⟨d, hd⟩ := hlex.exists_numeral
      exact .inl ⟨_, _, .number hd⟩
    | string =>
      cases hlex with
      | string => exact .inl ⟨_, _, .string⟩
    | word =>
      by_cases hk : ∃ k : Keyword, k.spelling.toList = text
      · obtain ⟨k, rfl⟩ := hk
        exact .inl ⟨_, _, .keyword⟩
      · exact .inl ⟨_, _, .identifier fun k heq => hk ⟨k, heq⟩⟩

/-! ## The scan -/

/-- What pieces stand for is what is scanned for them, one by one. -/
theorem Tokenizes.eq_located {line : Nat} {ps : List Piece} {ts : List Token} {es : List ScanError}
    (h : Tokenizes line ps ts es) :
    ts = (located line ps).filterMap (fun (line, p) => p.token? line)
        ++ [.endOn (line + newlines (ps.flatMap Piece.text))] ∧
      es = (located line ps).filterMap (fun (line, p) => p.error? line) := by
  induction h with
  | eof => exact ⟨rfl, rfl⟩
  | @token line p kind literal ps ts es hreads _ ih =>
    simp only [located, List.filterMap_cons, List.flatMap_cons, newlines_append,
      hreads.token?_eq, hreads.error?_eq]
    rw [← Nat.add_assoc, List.cons_append, ← ih.1]
    exact ⟨rfl, ih.2⟩
  | @fault line p fault ps ts es hfault _ ih =>
    obtain ⟨htoken, herror⟩ := p.error?_of_faulty hfault line
    simp only [located, List.filterMap_cons, List.flatMap_cons, newlines_append, htoken, herror]
    rw [← Nat.add_assoc, ← ih.1, ← ih.2]
    exact ⟨rfl, rfl⟩
  | @silent line p ps ts es hsilent _ ih =>
    obtain ⟨htoken, herror⟩ := p.nothing_of_silent hsilent line
    simp only [located, List.filterMap_cons, List.flatMap_cons, newlines_append, htoken, herror]
    rw [← Nat.add_assoc]
    exact ih

/-- Every split stands for some tokens and errors. -/
theorem Splits.exists_tokenizes {cs : List Char} {ps : List Piece} (h : Splits cs ps) :
    ∀ line, ∃ ts es, Tokenizes line ps ts es := by
  induction h with
  | nil => exact fun line => ⟨_, _, .eof⟩
  | @cons form text rest ps hshape _ ih =>
    intro line
    obtain ⟨ts, es, htail⟩ := ih (line + newlines text)
    rcases hshape.reads_or_faulty_or_silent with ⟨kind, literal, hreads⟩ | ⟨fault, hfault⟩ | hsilent
    · exact ⟨_, _, .token hreads htail⟩
    · exact ⟨_, _, .fault hfault htail⟩
    · exact ⟨_, _, .silent hsilent htail⟩

/-- A source is scanned as what the pieces of its split stand for. -/
theorem scan_eq {source : String} {ps : List Piece} {ts : List Token} {es : List ScanError}
    (hsplits : Splits source.toList ps) (h : Tokenizes 1 ps ts es) : scan source = ⟨ts, es⟩ := by
  obtain ⟨rfl, rfl⟩ := h.eq_located
  rw [hsplits.flatMap_text, hsplits.eq_pieces]
  rfl

/-- The pieces of a source stand for its scan. -/
theorem tokenizes_scan (source : String) :
    Tokenizes 1 (pieces source.toList) (scan source).tokens (scan source).errors := by
  have hsplits := splits_pieces source.toList
  obtain ⟨ts, es, h⟩ := hsplits.exists_tokenizes 1
  rw [scan_eq hsplits h]
  exact h

/-- **The scan is the lexical grammar.**  A source is split into pieces in exactly one way; none is
    empty and together they are the source.  Its scan is what these pieces stand for, and they stand
    for nothing else. -/
theorem scan_iff_tokenizes (source : String) :
    ∃ ps, (∀ qs, Splits source.toList qs ↔ qs = ps) ∧ (∀ p ∈ ps, p.text ≠ []) ∧
      ps.flatMap Piece.text = source.toList ∧
      ∀ ts es, scan source = ⟨ts, es⟩ ↔ Tokenizes 1 ps ts es := by
  have hsplits := splits_pieces source.toList
  refine ⟨pieces source.toList, fun qs => ⟨Splits.eq_pieces, ?_⟩, hsplits.ne_nil,
    hsplits.flatMap_text, fun ts es => ⟨?_, scan_eq hsplits⟩⟩
  · rintro rfl
    exact hsplits
  · intro heq
    have hscan := tokenizes_scan source
    rw [heq] at hscan
    exact hscan

/-! ## Words -/

/-- The tokens of a scan but its end of input. -/
def Scan.words (s : Scan) : List Token := s.tokens.filter fun t => !t.isEof

theorem Scan.words_eq {s : Scan} {us : List Token} {last : Nat} (h : s.tokens = us ++ [.endOn last])
    (hus : ∀ t ∈ us, t.isEof = false) : s.words = us := by
  have hkeep : us.filter (fun t => !t.isEof) = us := by
    rw [List.filter_eq_self]
    intro t ht
    rw [hus t ht]
    rfl
  rw [words, h, List.filter_append, hkeep]
  exact List.append_nil us

/-- Pieces stand for tokens that do not end the input, and for an end on the line on which the last
    piece ends. -/
theorem Tokenizes.exists_words {line : Nat} {ps : List Piece} {ts : List Token}
    {es : List ScanError} (h : Tokenizes line ps ts es) :
    ∃ us, ts = us ++ [.endOn (line + newlines (ps.flatMap Piece.text))] ∧
      ∀ t ∈ us, t.isEof = false := by
  induction h with
  | eof => exact ⟨[], rfl, fun t ht => absurd ht List.not_mem_nil⟩
  | @token line p kind literal ps ts es hreads _ ih =>
    obtain ⟨us, rfl, hus⟩ := ih
    have hnot : Token.isEof ⟨kind, String.ofList p.text, literal, line⟩ = false := hreads.not_eof
    refine ⟨_, ?_, List.forall_mem_cons.mpr ⟨hnot, hus⟩⟩
    rw [List.flatMap_cons, newlines_append, Nat.add_assoc, List.cons_append]
  | fault _ _ ih | silent _ _ ih =>
    obtain ⟨us, rfl, hus⟩ := ih
    refine ⟨us, ?_, hus⟩
    rw [List.flatMap_cons, newlines_append, Nat.add_assoc]

/-- A scan is its words and one end of input, on the last line. -/
theorem tokens_scan (source : String) :
    (scan source).tokens = (scan source).words ++ [.endOn (lastLine source.toList)] ∧
      ∀ t ∈ (scan source).words, t.isEof = false := by
  obtain ⟨us, htokens, hus⟩ := (tokenizes_scan source).exists_words
  rw [Scan.words_eq htokens hus]
  rw [flatMap_text_pieces] at htokens
  exact ⟨htokens, hus⟩

end Lox
