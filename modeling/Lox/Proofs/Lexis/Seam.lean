/-
  Seams — a source that goes on after a line break.

  Every piece is recognised with ALL that follows it in view, so putting text behind a source could
  change any piece of it.  A line break at the seam prevents this.

  1. **Before a blank** — a lexeme keeps its form and its text when a blank and any more text are put
     behind what follows it.  Excepted are the forms that only the end of the source closes; a line
     comment needs the blank to be a line feed.
  2. **Splits** — so splits of two texts are joined at a line feed.
  3. **Tokens** — what stands for the pieces of the joined split: the words and errors of the first
     text, then the tokens and errors of the second, moved down by the lines of the first.
-/
import Lox.Proofs.Lexis.Tokens

namespace Lox

/-! ## Before a blank -/

theorem not_digit_of_blank {c : Char} (hc : isBlank c) : ¬ c.isDigit :=
  fun hd => not_blank_of_digit hd hc

/-- What holds of the next character holds once the text goes on, if it holds of the character at the
    seam. -/
theorem head?_append_cons {p : Char → Prop} {rest more : List Char} {c : Char}
    (hrest : ∀ d ∈ rest.head?, p d) (hc : p c) : ∀ d ∈ (rest ++ c :: more).head?, p d := by
  intro d hd
  cases rest with
  | nil =>
    obtain rfl := Option.some.inj hd
    exact hc
  | cons e rest => exact hrest d hd

theorem Symbol.blank_not_mem (s : Symbol) {c : Char} (hc : isBlank c) : c ∉ s.spelling.toList := by
  rcases isBlank_iff.mp hc with rfl | rfl | rfl | rfl <;> cases s <;> decide

/-- A text that begins another, and does not hold the character at its seam, ends before the seam. -/
theorem prefix_of_prefix_append_cons {text cs more : List Char} {c : Char} (hc : c ∉ text)
    (h : text <+: cs ++ c :: more) : text <+: cs := by
  rcases Nat.lt_or_ge cs.length text.length with hlt | hge
  · have hseam : cs ++ [c] <+: text := by
      refine List.prefix_of_prefix_length_le ?_ h ?_
      · exact ⟨more, by rw [List.append_assoc, List.singleton_append]⟩
      · rw [List.length_append]
        exact hlt
    exact absurd (hseam.subset (List.mem_append_right _ List.mem_cons_self)) hc
  · exact List.prefix_of_prefix_length_le h (List.prefix_append cs _) hge

/-- Whether a lexeme begins with a character does not depend on what follows. -/
theorem Starts.congr {c : Char} {cs : List Char} (h : Starts c cs) (ds : List Char) :
    Starts c ds := by
  obtain ⟨form, body, rest, rfl, hlex⟩ := h
  generalize htext : c :: body = text at hlex
  cases hlex with
  | blank hc =>
    obtain ⟨rfl, -⟩ := List.cons.inj htext
    exact ⟨_, [], ds, rfl, .blank hc⟩
  | lineComment | blockComment | openComment =>
    obtain ⟨rfl, -⟩ := List.cons.inj htext
    exact starts_symbol (s := .slash) rfl ds
  | string | openString =>
    obtain ⟨rfl, -⟩ := List.cons.inj htext
    exact starts_string ds
  | whole _ hdigits =>
    subst htext
    exact starts_number (hdigits c List.mem_cons_self) ds
  | @fraction digits places _ hne hdigits =>
    cases digits with
    | nil => exact absurd rfl hne
    | cons d digits =>
      obtain ⟨rfl, -⟩ := List.cons.inj htext
      exact starts_number (hdigits c List.mem_cons_self) ds
  | word hc =>
    obtain ⟨rfl, -⟩ := List.cons.inj htext
    exact starts_word (startsWord_iff.mpr hc) ds
  | symbol =>
    obtain ⟨s, hs⟩ := Symbol.exists_single htext.symm
    exact starts_symbol hs ds

/-- Something closes a piece of the form before the source ends. -/
def Form.Closed (form : Form) : Prop := form ≠ .openString ∧ form ≠ .openComment

/-- **A lexeme ends where it ended** when a blank and more text are put behind what follows it. -/
theorem Lexeme.append_blank {form : Form} {text rest more : List Char} {c : Char}
    (h : Lexeme form text rest) (hclosed : form.Closed) (hc : isBlank c)
    (hline : form = .lineComment → c = '\n') : Lexeme form text (rest ++ c :: more) := by
  cases h with
  | blank hd => exact .blank hd
  | lineComment hbody hrest => exact .lineComment hbody (head?_append_cons hrest (hline rfl))
  | blockComment hbody => exact .blockComment hbody
  | string hbody => exact .string hbody
  | whole hne hdigits hrest hpoint =>
    refine .whole hne hdigits (head?_append_cons hrest (not_digit_of_blank hc)) ?_
    intro d after heq
    -- a point that was the last character is now followed by the blank
    rcases rest with _ | ⟨e, _ | ⟨e', rest⟩⟩
    · obtain ⟨rfl, -⟩ := List.cons.inj heq
      exact absurd hc (by decide)
    · obtain rfl : c = d := (List.cons.inj (List.cons.inj heq).2).1
      exact not_digit_of_blank hc
    · obtain ⟨rfl, rfl, -⟩ : e = '.' ∧ e' = d ∧ rest ++ c :: more = after := by simpa using heq
      exact hpoint e' rest rfl
  | fraction hne hdigits hplaces hall hrest =>
    exact .fraction hne hdigits hplaces hall (head?_append_cons hrest (not_digit_of_blank hc))
  | word hd hbody hrest =>
    refine .word hd hbody (head?_append_cons hrest ?_)
    rcases isBlank_iff.mp hc with rfl | rfl | rfl | rfl <;> decide
  | @symbol s _ hlongest hslash =>
    refine .symbol (fun t ht => hlongest t ?_) fun hs => head?_append_cons (hslash hs) ?_
    · rw [← List.append_assoc] at ht
      exact prefix_of_prefix_append_cons (t.blank_not_mem hc) ht
    · rcases isBlank_iff.mp hc with rfl | rfl | rfl | rfl <;> decide
  | openString => exact absurd rfl hclosed.1
  | openComment => exact absurd rfl hclosed.2

/-- So does every piece. -/
theorem Shape.append_blank {form : Form} {text rest more : List Char} {c : Char}
    (h : Shape form text rest) (hclosed : form.Closed) (hc : isBlank c)
    (hline : form = .lineComment → c = '\n') : Shape form text (rest ++ c :: more) := by
  cases h with
  | lexeme hlex => exact .lexeme (hlex.append_blank hclosed hc hline)
  | stray hnot => exact .stray fun hstarts => hnot (hstarts.congr _)

/-! ## Splits -/

/-- **Splits are joined at a line feed**, if nothing in the first is left open. -/
theorem Splits.append_lineFeed {cs ds : List Char} {ps qs : List Piece} (h : Splits cs ps)
    (hclosed : ∀ p ∈ ps, p.form.Closed) (hq : Splits ds qs) :
    Splits (cs ++ '\n' :: ds) (ps ++ ⟨.blank, ['\n']⟩ :: qs) := by
  induction h with
  | nil => exact .cons (.lexeme (.blank (by decide))) hq
  | cons hshape _ ih =>
    obtain ⟨hp, hps⟩ := List.forall_mem_cons.mp hclosed
    rw [List.append_assoc, List.cons_append]
    exact .cons (hshape.append_blank hp (by decide) fun _ => rfl) (ih hps)

/-! ## Tokens -/

/-- The token, moved down by some lines. -/
def Token.lower (n : Nat) (t : Token) : Token := { t with line := t.line + n }

/-- The error, moved down by some lines. -/
def ScanError.lower (n : Nat) (e : ScanError) : ScanError := { e with line := e.line + n }

/-- Pieces that begin further down stand for the same, further down. -/
theorem Tokenizes.lower {line : Nat} {ps : List Piece} {ts : List Token} {es : List ScanError}
    (h : Tokenizes line ps ts es) (n : Nat) :
    Tokenizes (line + n) ps (ts.map (Token.lower n)) (es.map (ScanError.lower n)) := by
  induction h with
  | eof => exact .eof
  | token hreads _ ih =>
    rw [Nat.add_right_comm] at ih
    exact .token hreads ih
  | fault hfault _ ih =>
    rw [Nat.add_right_comm] at ih
    exact .fault hfault ih
  | silent hsilent _ ih =>
    rw [Nat.add_right_comm] at ih
    exact .silent hsilent ih

/-- What comes behind the pieces takes the place of their end of input. -/
theorem Tokenizes.append {line : Nat} {ps qs : List Piece} {ts vs : List Token}
    {es fs : List ScanError} (h : Tokenizes line ps ts es) :
    ∀ us last, ts = us ++ [.endOn last] → Tokenizes last qs vs fs →
      Tokenizes line (ps ++ qs) (us ++ vs) (es ++ fs) := by
  induction h with
  | @eof line =>
    intro us last hts hq
    cases us with
    | nil =>
      obtain ⟨hline, -⟩ := List.cons.inj hts
      obtain rfl : line = last := congrArg Token.line hline
      exact hq
    | cons u us => simp at hts
  | @token line p kind literal ps ts es hreads htail ih =>
    intro us last hts hq
    cases us with
    | nil =>
      -- an end of input stands behind the token
      obtain ⟨ws, rfl, -⟩ := htail.exists_words
      simp at hts
    | cons u us =>
      obtain ⟨rfl, rfl⟩ := List.cons.inj hts
      exact .token hreads (ih us last rfl hq)
  | fault hfault _ ih =>
    intro us last hts hq
    exact .fault hfault (ih us last hts hq)
  | silent hsilent _ ih =>
    intro us last hts hq
    exact .silent hsilent (ih us last hts hq)

/-- Pieces behind a line feed stand for the same, further down. -/
theorem Tokenizes.behind_lineFeed {ps : List Piece} {ts : List Token} {es : List ScanError}
    (h : Tokenizes 1 ps ts es) (n : Nat) :
    Tokenizes n (⟨.blank, ['\n']⟩ :: ps) (ts.map (Token.lower n)) (es.map (ScanError.lower n)) := by
  have hlower := h.lower n
  rw [Nat.add_comm] at hlower
  exact .silent .blank hlower

/-- A piece that is an error is reported. -/
theorem Tokenizes.exists_error {line : Nat} {ps : List Piece} {ts : List Token}
    {es : List ScanError} (h : Tokenizes line ps ts es) {p : Piece} (hp : p ∈ ps)
    {fault : ScanFault} (hfault : p.form.Faulty fault) : ∃ e ∈ es, e.fault = fault := by
  have herror := fun line => (p.error?_of_faulty hfault line).2
  induction h with
  | eof => cases hp
  | @token line q _ _ _ _ _ hreads _ ih =>
    rcases List.mem_cons.mp hp with rfl | hp
    · cases (herror line).symm.trans (hreads.error?_eq line)
    · exact ih hp
  | @fault line q fault' _ _ _ hfault' _ ih =>
    rcases List.mem_cons.mp hp with rfl | hp
    · have hsame := (herror line).symm.trans (p.error?_of_faulty hfault' line).2
      exact ⟨_, List.mem_cons_self, (congrArg ScanError.fault (Option.some.inj hsame)).symm⟩
    · obtain ⟨e, he, hsame⟩ := ih hp
      exact ⟨e, List.mem_cons_of_mem _ he, hsame⟩
  | @silent line q _ _ _ hsilent _ ih =>
    rcases List.mem_cons.mp hp with rfl | hp
    · cases (herror line).symm.trans (p.nothing_of_silent hsilent line).2
    · exact ih hp

/-- **Scanning goes line by line.**  If nothing is left open in a source, then behind a line break any
    other source is scanned as it is alone, with all its lines moved down. -/
theorem scan_append_lineBreak (a b : String)
    (hstring : ∀ e ∈ (scan a).errors, e.fault ≠ .openString)
    (hcomment : ∀ e ∈ (scan a).errors, e.fault ≠ .openComment) :
    (scan (a ++ "\n" ++ b)).tokens = (scan a).words
        ++ (scan b).tokens.map (Token.lower (1 + newlines a.toList)) ∧
      (scan (a ++ "\n" ++ b)).errors = (scan a).errors
        ++ (scan b).errors.map (ScanError.lower (1 + newlines a.toList)) := by
  have ha := tokenizes_scan a
  have hclosed : ∀ p ∈ pieces a.toList, p.form.Closed := by
    intro p hp
    constructor
    · intro hform
      have hfaulty : p.form.Faulty .openString := hform.symm ▸ .openString
      obtain ⟨e, he, hfault⟩ := ha.exists_error hp hfaulty
      exact hstring e he hfault
    · intro hform
      have hfaulty : p.form.Faulty .openComment := hform.symm ▸ .openComment
      obtain ⟨e, he, hfault⟩ := ha.exists_error hp hfaulty
      exact hcomment e he hfault
  have hsplits := (splits_pieces a.toList).append_lineFeed hclosed (splits_pieces b.toList)
  have hbehind := (tokenizes_scan b).behind_lineFeed (lastLine a.toList)
  have hscan := ha.append _ _ (tokens_scan a).1 hbehind
  have hjoined : (a ++ "\n" ++ b).toList = a.toList ++ '\n' :: b.toList := by
    rw [String.toList_append, String.toList_append, List.append_assoc]
    rfl
  rw [← hjoined] at hsplits
  rw [scan_eq hsplits hscan]
  exact ⟨rfl, rfl⟩

/-- The number does not take the digit behind the line break, nor the `!` its equals sign. -/
theorem scan_append_lineBreak_split_lexemes :
    let a := "\"two\nlines\" 7.\n!"
    let b := "=5 @\n\"open"
    (∀ e ∈ (scan a).errors, e.fault ≠ .openString) ∧
      (∀ e ∈ (scan a).errors, e.fault ≠ .openComment) ∧
      (scan (a ++ "\n" ++ b)).tokens.map (fun t => (t.lexeme, t.line))
        = [("\"two\nlines\"", 1), ("7", 2), (".", 2), ("!", 3), ("=", 4), ("5", 4), ("", 5)] ∧
      (scan (a ++ "\n" ++ b)).errors = [⟨.strayCharacter '@', 4⟩, ⟨.openString, 5⟩] := by
  intro a b
  have hstring : ∀ e ∈ (scan a).errors, e.fault ≠ .openString := by decide +kernel
  have hcomment : ∀ e ∈ (scan a).errors, e.fault ≠ .openComment := by decide +kernel
  obtain ⟨htokens, herrors⟩ := scan_append_lineBreak a b hstring hcomment
  refine ⟨hstring, hcomment, ?_, ?_⟩
  · rw [htokens]
    decide +kernel
  · rw [herrors]
    decide +kernel

end Lox
