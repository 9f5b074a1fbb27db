/-
  Scanning with checks — the scanner one motion of its cursor at a time.

  The scan is defined piece by piece, from lists of characters.  Here it is run as a machine: a cursor
  goes forward character by character, and when it has gone past a lexeme, the text from its start is
  SLICED out of the source by byte offsets.

  1. **Lexemes** — one function for each kind of motion.  A string is sliced a second time, without its
     quotes, and a number must be a numeral.
  2. **One piece** — each motion passes just the characters that `recognise` counts, its slices succeed,
     and it gives the token and the error of that piece (`step_eq`).
  3. **The whole source** — so the machine never fails, and it gives the scan (`scanFrom_eq`).
-/
import Lox.Proofs.Guarded.Slice
import Lox.Proofs.Lexis.Tokens

namespace Lox

namespace Guarded

/-! ## Lexemes -/

/-- What a motion gives: a token or an error or neither, and the cursor behind it. -/
structure Step where
  token : Option Token
  error : Option ScanError
  cursor : Cursor

/-- The token without a value that lies between two cursors. -/
def lexeme (start stop : Cursor) (kind : String → Kind) : Except Breach Step := do
  let text ← start.textUntil stop
  return ⟨some ⟨kind text, text, none, start.line⟩, none, stop⟩

/-- The text of a string token without its first and last byte. -/
def unquoted (text : String) : Except Breach String :=
  if text.utf8ByteSize = 0 then .error .slice else sliceBytes text 1 (text.utf8ByteSize - 1)

/-- A string, from behind its opening quote. -/
def string (start cursor : Cursor) : Except Breach Step := do
  let (closed, stop) := (cursor.advanceWhile (· != '"')).advanceIf '"'
  if closed then
    let text ← start.textUntil stop
    let value ← unquoted text
    return ⟨some ⟨.string, text, some (.string value), start.line⟩, none, stop⟩
  else
    return ⟨none, some ⟨.openString, start.line⟩, stop⟩

/-- Behind the digits of a number, and behind a point and more digits if a digit follows the point. -/
def behindDigits (cursor : Cursor) : Cursor :=
  let whole := cursor.advanceWhile Char.isDigit
  if whole.peek = some '.' ∧ whole.peekNext.any Char.isDigit then
    (whole.skip 1).advanceWhile Char.isDigit
  else whole

/-- A number, from behind its first digit. -/
def number (start cursor : Cursor) : Except Breach Step := do
  let stop := behindDigits cursor
  let text ← start.textUntil stop
  match Decimal.ofChars? text.toList with
  | some d => return ⟨some ⟨.number, text, some (.number d.toBinary64), start.line⟩, none, stop⟩
  | none => throw .numeral

/-- Behind the next `*/`, or at the end; and whether there was one. -/
def behindComment (cursor : Cursor) : Bool × Cursor :=
  if cursor.peek = some '*' ∧ cursor.peekNext = some '/' then (true, (cursor.skip 1).skip 1)
  else if _h : cursor.rest = [] then (false, cursor)
  else behindComment (cursor.skip 1)
  termination_by cursor.rest.length
  decreasing_by
    have hlt := List.length_pos_iff.mpr _h
    rw [Cursor.skip, List.length_drop]
    omega

/-- A comment or a slash, from behind the first slash. -/
def slash (start cursor : Cursor) : Except Breach Step := do
  let (lineComment, body) := cursor.advanceIf '/'
  if lineComment then return ⟨none, none, body.advanceWhile (· != '\n')⟩
  let (blockComment, body) := cursor.advanceIf '*'
  if blockComment then
    let (closed, stop) := behindComment body
    return ⟨none, if closed then none else some ⟨.openComment, start.line⟩, stop⟩
  lexeme start cursor fun _ => .symbol .slash

/-- The piece that begins with `c`. -/
def step (start : Cursor) (c : Char) : Except Breach Step :=
  let cursor := start.skip 1
  if isBlank c then .ok ⟨none, none, cursor⟩
  else if c = '"' then string start cursor
  else if c.isDigit then number start cursor
  else if startsWord c then lexeme start (cursor.advanceWhile inWord) Kind.ofWord
  else if c = '/' then slash start cursor
  else
    match symbolAt? c cursor.rest with
    | some s => lexeme start (cursor.skip (s.spelling.length - 1)) fun _ => .symbol s
    | none => .ok ⟨none, some ⟨.strayCharacter c, cursor.line⟩, cursor⟩

/-- All pieces up to the end of the source, which is a token of its own. -/
def scanFrom : Nat → Cursor → Except Breach Scan
  | 0, _ => .error .fuel
  | fuel + 1, start =>
    match start.peek with
    | none => .ok ⟨[.endOn start.line], []⟩
    | some c => do
      let piece ← step start c
      let more ← scanFrom fuel piece.cursor
      return ⟨piece.token.toList ++ more.tokens, piece.error.toList ++ more.errors⟩

/-! ## One piece -/

/-- What a piece of a form gives that has `n` characters behind its first. -/
def Step.ofForm (start : Cursor) (reach : Form × Nat) : Step :=
  let piece : Piece := ⟨reach.1, start.rest.take (1 + reach.2)⟩
  ⟨piece.token? start.line, piece.error? start.line, start.skip (1 + reach.2)⟩

variable {before : List Char} {start : Cursor}

/-- What is to come behind the first character and `n` more. -/
theorem rest_skip {cursor : Cursor} {c : Char} {rest : List Char} (h : cursor.rest = c :: rest)
    (n : Nat) : (cursor.skip (1 + n)).rest = rest.drop n := by
  show cursor.rest.drop (1 + n) = rest.drop n
  rw [h, Nat.add_comm, List.drop_succ_cons]

/-- The first character and `n` more. -/
theorem take_rest {cursor : Cursor} {c : Char} {rest : List Char} (h : cursor.rest = c :: rest)
    (n : Nat) : cursor.rest.take (1 + n) = c :: rest.take n := by
  rw [h, Nat.add_comm, List.take_succ_cons]

/-- The text between two cursors is what is skipped between them. -/
theorem lexeme_skip (h : start.After before) (n : Nat) (kind : String → Kind) :
    lexeme start (start.skip n) kind =
      let text := String.ofList (start.rest.take n)
      .ok ⟨some ⟨kind text, text, none, start.line⟩, none, start.skip n⟩ := by
  rw [lexeme, h.textUntil_skip]
  rfl

/-- A quoted text loses its quotes. -/
theorem unquoted_eq (body : List Char) :
    unquoted (String.ofList ('"' :: (body ++ ['"']))) = .ok (String.ofList body) := by
  have hsize : (String.ofList ('"' :: (body ++ ['"']))).utf8ByteSize
      = 1 + String.utf8Len body + 1 := by
    rw [String.utf8ByteSize_ofList, String.utf8Len_cons, String.utf8Len_append]
    show String.utf8Len body + 1 + 1 = _
    omega
  have hslice := sliceBytes_append ['"'] body ['"']
  rw [unquoted, hsize, if_neg (by omega)]
  exact hslice

theorem string_eq {rest : List Char} (h : start.After before) (hrest : start.rest = '"' :: rest) :
    string start (start.skip 1) = .ok (Step.ofForm start (recogniseString rest)) := by
  obtain ⟨body, after, rfl, hbody, hafter⟩ := exists_run (· != '"') rest
  have hskipped : (start.skip 1).rest = body ++ after := rest_skip hrest 0
  have hstop : (start.skip 1).advanceWhile (· != '"') = start.skip (1 + body.length) := by
    rw [Cursor.advanceWhile, hskipped, takeWhile_append_stop hbody hafter, Cursor.skip_skip]
  have hpeek : (start.skip (1 + body.length)).peek = after.head? := by
    rw [Cursor.peek, rest_skip hrest, List.drop_left]
  have hquote : '"' ∉ body := fun hmem => absurd (hbody _ hmem) (by decide)
  cases after with
  | nil =>
    rw [string, hstop, Cursor.advanceIf, hpeek, List.append_nil, recogniseString_open hquote]
    rfl
  | cons c more =>
    obtain rfl : c = '"' := by simpa using hafter c rfl
    have htext : start.rest.take (1 + (body.length + 1)) = '"' :: (body ++ ['"']) := by
      rw [take_rest hrest, List.take_length_add_append]
      rfl
    rw [string, hstop, Cursor.advanceIf, hpeek, recogniseString_closed hquote]
    simp only [List.head?_cons, if_true]
    rw [Cursor.skip_skip, Nat.add_assoc, h.textUntil_skip, htext]
    show (unquoted _ >>= fun value => _) = _
    rw [unquoted_eq]
    simp only [Step.ofForm, Piece.token?, Piece.error?, htext, List.tail_cons, List.dropLast_concat]
    rfl

theorem advanceIf_of_peek {cursor : Cursor} {c : Char} (h : cursor.peek = some c) :
    cursor.advanceIf c = (true, cursor.skip 1) :=
  if_pos h

theorem advanceIf_of_not_peek {cursor : Cursor} {c : Char} (h : cursor.peek ≠ some c) :
    cursor.advanceIf c = (false, cursor) :=
  if_neg h

/-- What is seen ahead is what is still to come. -/
theorem exists_rest {cursor : Cursor} {c d : Char} (hc : cursor.peek = some c)
    (hd : cursor.peekNext = some d) : ∃ more, cursor.rest = c :: d :: more := by
  obtain ⟨tail, htail⟩ := List.head?_eq_some_iff.mp hc
  rw [Cursor.peekNext, htail, List.getElem?_cons_succ, ← List.head?_eq_getElem?] at hd
  obtain ⟨more, rfl⟩ := List.head?_eq_some_iff.mp hd
  exact ⟨more, htail⟩

/-- The digits of a number are passed, and its fraction if it has one. -/
theorem behindDigits_eq (cursor : Cursor) :
    behindDigits cursor =
      let digits := (cursor.rest.takeWhile Char.isDigit).length
      cursor.skip (digits + fractionLength (cursor.rest.drop digits)) := by
  obtain ⟨digits, after, hrest, hdigits, hafter⟩ := exists_run Char.isDigit cursor.rest
  have htake : cursor.rest.takeWhile Char.isDigit = digits := by
    rw [hrest, takeWhile_append_stop hdigits hafter]
  have hdrop : cursor.rest.drop digits.length = after := by
    rw [hrest, List.drop_left]
  have hwhole : (cursor.skip digits.length).rest = after := hdrop
  simp only [behindDigits, Cursor.advanceWhile, htake, hdrop]
  by_cases hfraction : ∃ d more, after = '.' :: d :: more ∧ d.isDigit
  · obtain ⟨d, more, rfl, hd⟩ := hfraction
    have hpoint : ((cursor.skip digits.length).skip 1).rest = d :: more := rest_skip hwhole 0
    have hseen : (cursor.skip digits.length).peek = some '.' ∧
        (cursor.skip digits.length).peekNext.any Char.isDigit := by
      rw [Cursor.peek, Cursor.peekNext, hwhole]
      exact ⟨rfl, hd⟩
    rw [if_pos hseen, hpoint, List.takeWhile_cons_of_pos hd, Cursor.skip_skip, Cursor.skip_skip,
      fractionLength, if_pos hd, List.length_cons]
    congr 1
    omega
  · have hnone : ∀ d more, after = '.' :: d :: more → ¬ d.isDigit :=
      fun d more heq hd => hfraction ⟨d, more, heq, hd⟩
    rw [fractionLength_eq_zero hnone, if_neg, Nat.add_zero]
    rintro ⟨hpoint, hnext⟩
    cases hd : (cursor.skip digits.length).peekNext with
    | none =>
      rw [hd] at hnext
      cases hnext
    | some d =>
      rw [hd] at hnext
      obtain ⟨more, hmore⟩ := exists_rest hpoint hd
      exact hnone d more (hwhole.symm.trans hmore) hnext

/-- What is passed from a digit on is a numeral. -/
theorem exists_decimal {c : Char} {rest : List Char} {n : Nat}
    (hn : recognise c rest = (.number, n)) :
    ∃ d, Decimal.ofChars? (c :: rest.take n) = some d := by
  obtain ⟨form, body, after, rfl, hshape⟩ := exists_shape c rest
  obtain ⟨rfl, rfl⟩ := Prod.mk.inj (hshape.recognise_eq.symm.trans hn)
  rw [List.take_left]
  cases hshape with
  | lexeme hlexeme =>
    obtain ⟨d, hd⟩ := hlexeme.exists_numeral
    exact ⟨d, hd.ofChars?_eq⟩

theorem number_eq {c : Char} {rest : List Char} (h : start.After before)
    (hrest : start.rest = c :: rest) {n : Nat} (hn : recognise c rest = (.number, n))
    (hreach : n = (rest.takeWhile Char.isDigit).length
      + fractionLength (rest.drop (rest.takeWhile Char.isDigit).length)) :
    number start (start.skip 1) = .ok (Step.ofForm start (.number, n)) := by
  have hskipped : (start.skip 1).rest = rest := rest_skip hrest 0
  have hstop : behindDigits (start.skip 1) = start.skip (1 + n) := by
    rw [behindDigits_eq, hskipped, Cursor.skip_skip, hreach]
  have htext := take_rest hrest n
  obtain ⟨d, hd⟩ := exists_decimal hn
  rw [number]
  simp only [hstop, h.textUntil_skip, htext]
  show (match Decimal.ofChars? (String.ofList (c :: rest.take n)).toList with
    | some d => _ | none => _) = _
  simp only [String.toList_ofList, hd, Step.ofForm, Piece.token?, Piece.error?, htext]
  rfl

theorem behindComment_eq (cursor : Cursor) :
    behindComment cursor =
      match commentEnd? cursor.rest with
      | some n => (true, cursor.skip n)
      | none => (false, cursor.skip cursor.rest.length) := by
  fun_induction behindComment cursor with
  | case1 cursor hclosed =>
    obtain ⟨more, hrest⟩ := exists_rest hclosed.1 hclosed.2
    rw [hrest, commentEnd?, Cursor.skip_skip]
  | case2 cursor hopen hend =>
    rw [hend]
    rfl
  | case3 cursor hopen hmore ih =>
    obtain ⟨c, rest, hrest⟩ := List.exists_cons_of_ne_nil hmore
    have hskipped : (cursor.skip 1).rest = rest := rest_skip hrest 0
    have hnext : ¬ ['*', '/'] <+: cursor.rest := by
      rintro ⟨more, hmore⟩
      refine hopen ⟨?_, ?_⟩
      · rw [Cursor.peek, ← hmore]
        rfl
      · rw [Cursor.peekNext, ← hmore]
        rfl
    rw [hrest] at hnext
    rw [ih, hskipped, hrest, commentEnd?_cons hnext]
    cases commentEnd? rest with
    | none =>
      show (false, (cursor.skip 1).skip rest.length) = (false, cursor.skip (rest.length + 1))
      rw [Cursor.skip_skip, Nat.add_comm]
    | some n =>
      show (true, (cursor.skip 1).skip n) = (true, cursor.skip (n + 1))
      rw [Cursor.skip_skip, Nat.add_comm]

theorem slash_eq {rest : List Char} (h : start.After before) (hrest : start.rest = '/' :: rest) :
    slash start (start.skip 1) = .ok (Step.ofForm start (recognise '/' rest)) := by
  have hskipped : (start.skip 1).rest = rest := rest_skip hrest 0
  have hpeek : (start.skip 1).peek = rest.head? := by rw [Cursor.peek, hskipped]
  cases rest with
  | nil =>
    have hends : ∀ c : Char, (start.skip 1).peek ≠ some c := by
      intro c hc
      cases hpeek.symm.trans hc
    rw [slash, advanceIf_of_not_peek (hends _), advanceIf_of_not_peek (hends _)]
    exact lexeme_skip h 1 _
  | cons c more =>
    have hbody : ((start.skip 1).skip 1).rest = more := rest_skip hskipped 0
    by_cases hline : c = '/'
    · subst hline
      rw [slash, advanceIf_of_peek hpeek]
      show Except.ok _ = Except.ok (Step.ofForm start (.lineComment, _))
      rw [Cursor.advanceWhile, hbody, Cursor.skip_skip, Cursor.skip_skip]
      rfl
    have hnoLine : (start.skip 1).peek ≠ some '/' :=
      fun heq => hline (Option.some.inj (hpeek.symm.trans heq))
    by_cases hblock : c = '*'
    · subst hblock
      have hr : recognise '/' ('*' :: more)
          = ((recogniseComment more).1, 1 + (recogniseComment more).2) := rfl
      rw [slash, advanceIf_of_not_peek hnoLine, advanceIf_of_peek hpeek, hr, recogniseComment]
      simp only [behindComment_eq, hbody]
      cases commentEnd? more with
      | none =>
        simp only [Cursor.skip_skip, Nat.add_assoc]
        rfl
      | some n =>
        simp only [Cursor.skip_skip, Nat.add_assoc]
        rfl
    have hnoBlock : (start.skip 1).peek ≠ some '*' :=
      fun heq => hblock (Option.some.inj (hpeek.symm.trans heq))
    have hr : recognise '/' (c :: more) = (.symbol .slash, 0) := by
      refine recognise_slash fun d hd => ?_
      obtain rfl := Option.some.inj hd
      exact ⟨hline, hblock⟩
    rw [slash, advanceIf_of_not_peek hnoLine, advanceIf_of_not_peek hnoBlock, hr]
    exact lexeme_skip h 1 _

/-- **One piece.**  The checks of a motion succeed, and it passes what `recognise` says. -/
theorem step_eq {c : Char} {rest : List Char} (h : start.After before)
    (hrest : start.rest = c :: rest) :
    step start c = .ok (Step.ofForm start (recognise c rest)) := by
  have hskipped : (start.skip 1).rest = rest := rest_skip hrest 0
  unfold step
  by_cases hblank : isBlank c
  · have hr : recognise c rest = (.blank, 0) := by unfold recognise; rw [if_pos hblank]
    rw [if_pos hblank, hr]
    rfl
  by_cases hquote : c = '"'
  · subst hquote
    rw [if_neg hblank, if_pos rfl, string_eq h hrest]
    rfl
  by_cases hdigit : c.isDigit
  · have hr : recognise c rest = (.number, (rest.takeWhile Char.isDigit).length
        + fractionLength (rest.drop (rest.takeWhile Char.isDigit).length)) := by
      unfold recognise
      rw [if_neg hblank, if_neg hquote, if_pos hdigit]
    rw [if_neg hblank, if_neg hquote, if_pos hdigit, number_eq h hrest hr rfl, hr]
  by_cases hword : startsWord c
  · have hr : recognise c rest = (.word, (rest.takeWhile inWord).length) := by
      unfold recognise
      rw [if_neg hblank, if_neg hquote, if_neg hdigit, if_pos hword]
    rw [if_neg hblank, if_neg hquote, if_neg hdigit, if_pos hword, hr, Cursor.advanceWhile, hskipped,
      Cursor.skip_skip, lexeme_skip h]
    rfl
  by_cases hslash : c = '/'
  · subst hslash
    rw [if_neg hblank, if_neg hquote, if_neg hdigit, if_neg hword, if_pos rfl, slash_eq h hrest]
  · have hr : recognise c rest = match symbolAt? c rest with
        | some s => (.symbol s, s.spelling.length - 1)
        | none => (.stray c, 0) := by
      unfold recognise
      rw [if_neg hblank, if_neg hquote, if_neg hdigit, if_neg hword]
      split
      -- no comment begins with another character
      · exact absurd rfl hslash
      · exact absurd rfl hslash
      · rfl
    rw [if_neg hblank, if_neg hquote, if_neg hdigit, if_neg hword, if_neg hslash, hr, hskipped]
    cases hs : symbolAt? c rest with
    | some s =>
      show lexeme start ((start.skip 1).skip _) _ = _
      rw [Cursor.skip_skip, lexeme_skip h]
      rfl
    | none =>
      -- a line feed is a blank, so the line is still that of the start
      have hfeed : newlines [c] = 0 := by
        refine List.count_eq_zero.mpr fun hmem => hblank ?_
        obtain rfl := List.mem_singleton.mp hmem
        rfl
      have hline : (start.skip 1).line = start.line := by
        show start.line + newlines (start.rest.take 1) = start.line
        rw [hrest, List.take_succ_cons, List.take_zero, hfeed, Nat.add_zero]
      show Except.ok _ = Except.ok _
      rw [hline]
      rfl

/-! ## The whole source -/

theorem filterMap_cons_toList {α β : Type} (f : α → Option β) (a : α) (as : List α) :
    (a :: as).filterMap f = (f a).toList ++ as.filterMap f := by
  rw [List.filterMap_cons]
  cases f a <;> rfl

/-- The machine gives the tokens and errors of the pieces still to come. -/
theorem scanFrom_of_after {fuel : Nat} (h : start.After before) (hfuel : start.rest.length < fuel) :
    scanFrom fuel start = .ok
      ⟨(located start.line (pieces start.rest)).filterMap (fun (line, p) => p.token? line)
          ++ [.endOn (start.line + newlines start.rest)],
        (located start.line (pieces start.rest)).filterMap fun (line, p) => p.error? line⟩ := by
  induction fuel generalizing before start with
  | zero => exact absurd hfuel (Nat.not_lt_zero _)
  | succ fuel ih =>
    cases hrest : start.rest with
    | nil =>
      rw [scanFrom, Cursor.peek, hrest, pieces]
      rfl
    | cons c rest =>
      have hlength : rest.length < fuel := by
        rw [hrest, List.length_cons] at hfuel
        omega
      have hpeek : start.peek = some c := by rw [Cursor.peek, hrest]; rfl
      obtain ⟨form, n, hreach⟩ : ∃ form n, recognise c rest = (form, n) := ⟨_, _, rfl⟩
      have hpieces : pieces (c :: rest) = ⟨form, c :: rest.take n⟩ :: pieces (rest.drop n) := by
        rw [pieces, hreach]
      have htext := take_rest hrest n
      have hbehind := rest_skip hrest n
      have hline : (start.skip (1 + n)).line = start.line + newlines (c :: rest.take n) := by
        rw [← htext]
        rfl
      have hshort : (start.skip (1 + n)).rest.length < fuel := by
        rw [hbehind, List.length_drop]
        omega
      have hmore := ih (h.skip (1 + n)) hshort
      have hlines : newlines (c :: rest) = newlines (c :: rest.take n) + newlines (rest.drop n) := by
        rw [← newlines_append, List.cons_append, List.take_append_drop]
      rw [hbehind, hline, Nat.add_assoc, ← hlines] at hmore
      have hstep := step_eq h hrest
      rw [hreach] at hstep
      simp only [scanFrom, hpeek, hstep]
      show (scanFrom fuel (start.skip (1 + n)) >>= fun more => _) = _
      rw [hmore, hpieces, located, filterMap_cons_toList, filterMap_cons_toList, ← htext,
        List.append_assoc]
      rfl

/-- **The checked scan is the scan.** -/
theorem scanFrom_eq (source : String) :
    scanFrom (source.length + 1) (.ofString source) = .ok (scan source) := by
  have hlength : (Cursor.ofString source).rest.length < source.length + 1 := by
    show source.toList.length < _
    rw [String.length_toList]
    exact Nat.lt_succ_self _
  rw [scanFrom_of_after (.start source) hlength]
  rfl

end Guarded

end Lox
