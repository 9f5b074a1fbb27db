/-
  Spaced lexemes — tokens written with a space between any two.

  1. **Spelled tokens** — the token is what its lexeme reads as, wherever a space or the end of the
     source comes next.  The tokens of every scan are spelled (`spelled_scan`), symbols, words
     and literals are.
  2. **Spacing** — spelled tokens joined by single spaces are scanned back, up to their lines.
-/
import Mathlib.Data.List.Infix
import Lox.Proofs.Layout.WithoutLines
import Lox.Proofs.Lexis.Tokens

namespace Lox

/-! ## Spelled tokens -/

/-- Nothing follows, or a space. -/
def SpaceNext (rest : List Char) : Prop := ∀ c ∈ rest.head?, c = ' '

/-- The token is what its lexeme reads as, wherever a space or the end of the source comes next. -/
def Token.Spelled (t : Token) : Prop :=
  ∃ form, (∀ rest, SpaceNext rest → Lexeme form t.lexeme.toList rest) ∧
    Piece.Reads ⟨form, t.lexeme.toList⟩ t.kind t.literal

theorem spaceNext_nil : SpaceNext [] := by
  intro c hc
  cases hc

theorem SpaceNext.not {p : Char → Prop} {rest : List Char} (h : SpaceNext rest) (hp : ¬ p ' ') :
    ∀ c ∈ rest.head?, ¬ p c := by
  intro c hc
  rw [h c hc]
  exact hp

theorem Symbol.space_not_mem (s : Symbol) : ' ' ∉ s.spelling.toList := by
  cases s <;> decide

/-- No longer symbol begins where a symbol is followed by a space. -/
theorem Lexeme.symbol_spaced (s : Symbol) {rest : List Char} (h : SpaceNext rest) :
    Lexeme (.symbol s) s.spelling.toList rest := by
  refine .symbol (fun t ht => ?_) fun _ c hc => ?_
  · rcases Nat.lt_or_ge s.spelling.length t.spelling.length with hlt | hge
    · have hp : s.spelling.toList <+: t.spelling.toList := by
        refine List.prefix_of_prefix_length_le (List.prefix_append _ _) ht ?_
        rw [String.length_toList, String.length_toList]
        omega
      obtain ⟨more, hmore⟩ := hp
      rw [← hmore, List.prefix_append_right_inj] at ht
      -- what the longer symbol has besides begins with the space
      cases more with
      | nil =>
        have hlength := congrArg List.length hmore
        rw [List.append_nil, String.length_toList, String.length_toList] at hlength
        omega
      | cons c more =>
        obtain ⟨after, rfl⟩ := ht
        obtain rfl : c = ' ' := h c rfl
        have hmem : ' ' ∈ t.spelling.toList := by
          rw [← hmore]
          exact List.mem_append_right _ List.mem_cons_self
        exact absurd hmem t.space_not_mem
    · exact hge
  · rw [h c hc]
    decide

/-- A numeral is a number wherever a space or the end follows. -/
theorem Numeral.lexeme {text rest : List Char} {d : Decimal} (h : Numeral text d)
    (hrest : SpaceNext rest) : Lexeme .number text rest := by
  cases h with
  | whole hne hdigits =>
    refine .whole hne hdigits (hrest.not (by decide)) ?_
    rintro d after rfl
    exact absurd (hrest '.' rfl) (by decide)
  | fraction hne hdigits hplaces hall =>
    exact .fraction hne hdigits hplaces hall (hrest.not (by decide))

/-- A piece that is a token stays one where a space or the end follows. -/
theorem Lexeme.spaced {form : Form} {text rest more : List Char} {kind : Kind}
    {literal : Option Literal} (h : Lexeme form text rest)
    (hreads : Piece.Reads ⟨form, text⟩ kind literal) (hmore : SpaceNext more) :
    Lexeme form text more := by
  cases h with
  | blank | lineComment | blockComment | openString | openComment => cases hreads
  | string hbody => exact .string hbody
  | whole hne hdigits => exact (Numeral.whole hne hdigits).lexeme hmore
  | fraction hne hdigits hplaces hall =>
    exact (Numeral.fraction hne hdigits hplaces hall).lexeme hmore
  | word hc hbody => exact .word hc hbody (hmore.not (by decide))
  | symbol => exact .symbol_spaced _ hmore

/-! ## Tokens that are spelled -/

/-- The token is written as the symbol. -/
structure Token.Marks (t : Token) (s : Symbol) : Prop where
  kind : t.kind = .symbol s
  lexeme : t.lexeme = s.spelling
  literal : t.literal = none

theorem Token.Marks.spelled {t : Token} {s : Symbol} (h : t.Marks s) : t.Spelled := by
  refine ⟨.symbol s, fun rest hrest => ?_, ?_⟩
  · rw [h.lexeme]
    exact .symbol_spaced s hrest
  · rw [h.kind, h.literal]
    exact .symbol

/-- A spelled symbol is written as the symbol. -/
theorem Token.Spelled.marks {t : Token} (h : t.Spelled) {s : Symbol} (hs : t.kind = .symbol s) :
    t.Marks s := by
  obtain ⟨kind, lexeme, literal, line⟩ := t
  obtain ⟨form, hlexeme, hreads⟩ := h
  obtain rfl : kind = .symbol s := hs
  have hlex := hlexeme [] spaceNext_nil
  simp only at hlex hreads
  generalize htext : lexeme.toList = text at hlex hreads
  cases hreads
  generalize hs' : Form.symbol s = form at hlex
  cases hlex <;> cases hs'
  exact ⟨rfl, String.toList_inj.mp htext, rfl⟩

/-- Every keyword is a word. -/
theorem Keyword.exists_word (k : Keyword) :
    ∃ c body, k.spelling.toList = c :: body ∧ startsWord c ∧ body.all inWord := by
  cases k <;> exact ⟨_, _, rfl, rfl, rfl⟩

theorem Keyword.lexeme (k : Keyword) {rest : List Char} (hrest : SpaceNext rest) :
    Lexeme .word k.spelling.toList rest := by
  obtain ⟨c, body, hk, hc, hbody⟩ := k.exists_word
  rw [hk]
  refine .word (startsWord_iff.mp hc) (fun d hd => ?_) (hrest.not (by decide))
  exact inWord_iff.mp (List.all_eq_true.mp hbody d hd)

theorem Numeral.spelled {text : List Char} {d : Decimal} (h : Numeral text d) (line : Nat) :
    Token.Spelled ⟨.number, String.ofList text, some (.number d.toBinary64), line⟩ := by
  rw [Token.Spelled, String.toList_ofList]
  exact ⟨.number, fun rest hrest => h.lexeme hrest, .number h⟩

theorem Keyword.spelled (k : Keyword) (line : Nat) :
    Token.Spelled ⟨.keyword k, k.spelling, none, line⟩ :=
  ⟨.word, fun _ hrest => k.lexeme hrest, .keyword⟩

theorem Token.spelled_string {s : String} (h : '"' ∉ s.toList) (line : Nat) :
    Token.Spelled ⟨.string, "\"" ++ s ++ "\"", some (.string s), line⟩ := by
  have htext : ("\"" ++ s ++ "\"").toList = '"' :: (s.toList ++ ['"']) := by
    rw [String.toList_append, String.toList_append]
    rfl
  rw [Token.Spelled, htext]
  refine ⟨.string, fun rest _ => .string h, ?_⟩
  have hreads : Piece.Reads ⟨.string, '"' :: (s.toList ++ ['"'])⟩ .string _ := .string
  rwa [String.ofList_toList] at hreads

theorem Token.Spelled.not_eof {t : Token} (h : t.Spelled) : t.isEof = false := by
  obtain ⟨form, -, hreads⟩ := h
  exact hreads.not_eof

/-- The literal of a spelled number is the decoding of a numeral. -/
theorem Token.Spelled.numeral {t : Token} (h : t.Spelled) {x : Binary64} (hk : t.kind = .number)
    (hl : t.literal = some (.number x)) : ∃ text d, Numeral text d ∧ x = d.toBinary64 := by
  obtain ⟨form, -, hreads⟩ := h
  rw [hk, hl] at hreads
  generalize t.lexeme.toList = text at hreads
  cases hreads with
  | number hd => exact ⟨_, _, hd, rfl⟩

/-- A spelled string holds no quote. -/
theorem Token.Spelled.no_quote {t : Token} (h : t.Spelled) {s : String} (hk : t.kind = .string)
    (hl : t.literal = some (.string s)) : '"' ∉ s.toList := by
  obtain ⟨form, hlexeme, hreads⟩ := h
  have hlex := hlexeme [] spaceNext_nil
  rw [hk, hl] at hreads
  generalize t.lexeme.toList = text at hlex hreads
  cases hreads with
  | @string body =>
    generalize htext : '"' :: (body ++ ['"']) = text at hlex
    cases hlex with
    | string hbody =>
      obtain rfl := List.append_cancel_right (List.cons.inj htext).2
      rwa [String.toList_ofList]

/-- Every token of a scan but its end is spelled. -/
theorem Tokenizes.spelled {line : Nat} {cs : List Char} {ps : List Piece} {ts : List Token}
    {es : List ScanError} (hsplits : Splits cs ps) (h : Tokenizes line ps ts es) :
    ∃ us last, ts = us ++ [.endOn last] ∧ ∀ t ∈ us, t.Spelled := by
  induction h generalizing cs with
  | @eof line => exact ⟨[], line, rfl, fun t ht => absurd ht List.not_mem_nil⟩
  | @token line p kind literal ps ts es hreads _ ih =>
    cases hsplits with
    | @cons form text rest _ hshape htail =>
      obtain ⟨us, last, rfl, hspelled⟩ := ih htail
      refine ⟨_ :: us, last, rfl, List.forall_mem_cons.mpr ⟨?_, hspelled⟩⟩
      refine ⟨form, fun more hmore => ?_, ?_⟩
      · cases hshape with
        | stray => cases hreads
        | lexeme hlex =>
          rw [String.toList_ofList]
          exact hlex.spaced hreads hmore
      · rw [String.toList_ofList]
        exact hreads
  | fault _ _ ih =>
    cases hsplits with
    | cons _ htail => exact ih htail
  | silent _ _ ih =>
    cases hsplits with
    | cons _ htail => exact ih htail

/-- A scan is spelled tokens and one end of input. -/
theorem spelled_scan (source : String) :
    ∃ us last, (scan source).tokens = us ++ [.endOn last] ∧ ∀ t ∈ us, t.Spelled :=
  (tokenizes_scan source).spelled (splits_pieces source.toList)

/-! ## Spacing -/

/-- Spelled tokens with spaces between them split into their lexemes and the spaces. -/
theorem exists_spaced {ts : List Token} (h : ∀ t ∈ ts, t.Spelled) :
    ∀ line, ∃ ps us last, Splits (" ".intercalate (ts.map Token.lexeme)).toList ps ∧
      Tokenizes line ps (us ++ [.endOn last]) [] ∧
      us.map Token.withoutLine = ts.map Token.withoutLine := by
  induction ts with
  | nil => exact fun line => ⟨[], [], line, .nil, .eof, rfl⟩
  | cons t ts ih =>
    intro line
    obtain ⟨⟨form, hlexeme, hreads⟩, hts⟩ := List.forall_mem_cons.mp h
    cases ts with
    | nil =>
      have hshape : Shape form t.lexeme.toList [] := .lexeme (hlexeme [] spaceNext_nil)
      have hsplits := Splits.cons hshape .nil
      rw [List.append_nil] at hsplits
      rw [List.map_singleton, String.intercalate_singleton]
      refine ⟨_, [_], _, hsplits, .token hreads .eof, ?_⟩
      rw [String.ofList_toList]
      rfl
    | cons u ts =>
      obtain ⟨ps, us, last, hsplits, htokens, hsame⟩ := ih hts (line + newlines t.lexeme.toList)
      generalize hrest : (" ".intercalate ((u :: ts).map Token.lexeme)).toList = rest at hsplits
      have hspace : Shape .blank [' '] rest := .lexeme (.blank (.inl rfl))
      have hshape : Shape form t.lexeme.toList ([' '] ++ rest) :=
        .lexeme (hlexeme _ fun c hc => (Option.some.inj hc).symm)
      have hpassed : Tokenizes (line + newlines t.lexeme.toList) (⟨.blank, [' ']⟩ :: ps)
          (us ++ [.endOn last]) [] := .silent .blank htokens
      refine ⟨_, _ :: us, last, ?_, .token hreads hpassed, ?_⟩
      · rw [List.map_cons, List.map_cons, String.intercalate_cons_cons, String.toList_append,
          String.toList_append, List.append_assoc, ← List.map_cons, hrest]
        exact .cons hshape (.cons hspace hsplits)
      · rw [List.map_cons, hsame, String.ofList_toList]
        rfl

/-- **Spaced lexemes are scanned back**: the same tokens, up to their lines, and no error. -/
theorem scan_spaced {ts : List Token} (h : ∀ t ∈ ts, t.Spelled) :
    ∃ us last, scan (" ".intercalate (ts.map Token.lexeme)) = ⟨us ++ [.endOn last], []⟩ ∧
      us.map Token.withoutLine = ts.map Token.withoutLine := by
  obtain ⟨ps, us, last, hsplits, htokens, hsame⟩ := exists_spaced h 1
  exact ⟨us, last, scan_eq hsplits htokens, hsame⟩

end Lox
