/-
  Cutting — the pieces of a source are its one split.

  1. **Classes** — the classes by which recognition decides do not overlap.
  2. **Reach** — how far a run of characters, the digits of a number, a string and a block comment go,
     each in terms of what precedes and what follows the point where they end.
  3. **Recognition** — a lexeme is recognised whole (`Lexeme.recognise_eq`).
  4. **Beginnings** — with which characters some lexeme begins, WHATEVER follows; the others are
     recognised as stray.
  5. **Splits** — `pieces` is a split, and the only one.
-/
import Mathlib.Data.List.TakeWhile
import Mathlib.Data.List.Infix
import Lox.Proofs.Lexis.Lexeme

namespace Lox

/-! ## Classes -/

theorem isBlank_iff {c : Char} : isBlank c ↔ c = ' ' ∨ c = '\t' ∨ c = '\r' ∨ c = '\n' := by
  simp [isBlank, or_assoc]

theorem startsWord_iff {c : Char} : startsWord c ↔ c.isAlpha ∨ c = '_' := by
  simp [startsWord]

theorem inWord_iff {c : Char} : inWord c ↔ c.isAlpha ∨ c = '_' ∨ c.isDigit := by
  simp [inWord, startsWord, or_assoc]

theorem not_blank_of_digit {c : Char} (h : c.isDigit) : ¬ isBlank c := by
  intro hb
  rcases isBlank_iff.mp hb with rfl | rfl | rfl | rfl <;> exact absurd h (by decide)

theorem not_blank_of_startsWord {c : Char} (h : startsWord c) : ¬ isBlank c := by
  intro hb
  rcases isBlank_iff.mp hb with rfl | rfl | rfl | rfl <;> exact absurd h (by decide)

theorem ne_quote_of_digit {c : Char} (h : c.isDigit) : c ≠ '"' := by
  rintro rfl
  exact absurd h (by decide)

theorem ne_quote_of_startsWord {c : Char} (h : startsWord c) : c ≠ '"' := by
  rintro rfl
  exact absurd h (by decide)

/-- Letters come after the digits. -/
theorem le_toNat_of_isAlpha {c : Char} (h : c.isAlpha) : 65 ≤ c.toNat := by
  have hA : 'A'.val ≤ c.val ∨ 'a'.val ≤ c.val := by
    rcases Bool.or_eq_true_iff.mp h with hupper | hlower
    · exact .inl (of_decide_eq_true hupper).1
    · exact .inr (of_decide_eq_true (Bool.and_eq_true_iff.mp hlower).1)
  have hA' : 'A'.val.toNat = 65 := rfl
  have ha' : 'a'.val.toNat = 97 := rfl
  rw [UInt32.le_iff_toNat_le, UInt32.le_iff_toNat_le] at hA
  show 65 ≤ c.val.toNat
  omega

theorem not_digit_of_startsWord {c : Char} (h : startsWord c) : ¬ c.isDigit := by
  intro hd
  rcases startsWord_iff.mp h with ha | rfl
  · have h9 : '9'.toNat = 57 := rfl
    have hupto := (Char.isDigit_iff_toNat.mp hd).2
    have hfrom := le_toNat_of_isAlpha ha
    omega
  · exact absurd hd (by decide)

/-! ## Reach -/

/-- A run of characters ends where it is told to. -/
theorem takeWhile_append_stop {p : Char → Bool} {body rest : List Char} (hbody : ∀ c ∈ body, p c)
    (hrest : ∀ c ∈ rest.head?, ¬ p c) : (body ++ rest).takeWhile p = body := by
  rw [List.takeWhile_append_of_pos hbody]
  cases rest with
  | nil => rw [List.takeWhile_nil, List.append_nil]
  | cons c rest => rw [List.takeWhile_cons_of_neg (hrest c rfl), List.append_nil]

/-- The source divides at the end of a run. -/
theorem exists_run (p : Char → Bool) (cs : List Char) :
    ∃ body rest, cs = body ++ rest ∧ (∀ c ∈ body, p c) ∧ (∀ c ∈ rest.head?, ¬ p c) := by
  refine ⟨cs.takeWhile p, cs.dropWhile p, List.takeWhile_append_dropWhile.symm, ?_, ?_⟩
  · exact fun c hc => List.mem_takeWhile_imp hc
  · intro c hc
    have := List.head?_dropWhile_not p cs
    rw [hc] at this
    simpa using this

/-- A point without a digit after it is no fraction. -/
theorem fractionLength_eq_zero {rest : List Char}
    (h : ∀ d more, rest = '.' :: d :: more → ¬ d.isDigit) : fractionLength rest = 0 := by
  unfold fractionLength
  split
  · rename_i d more
    exact if_neg (h d more rfl)
  · rfl

theorem fractionLength_places {places rest : List Char} (hne : places ≠ [])
    (hplaces : ∀ c ∈ places, c.isDigit) (hrest : ∀ c ∈ rest.head?, ¬ c.isDigit) :
    fractionLength ('.' :: (places ++ rest)) = 1 + places.length := by
  cases places with
  | nil => exact absurd rfl hne
  | cons d ds =>
    have hds : ∀ c ∈ ds, c.isDigit := fun c hc => hplaces c (List.mem_cons_of_mem d hc)
    rw [List.cons_append, fractionLength, if_pos (hplaces d List.mem_cons_self),
      takeWhile_append_stop hds hrest, List.length_cons]
    omega

theorem commentEnd?_cons {c : Char} {cs : List Char} (h : ¬ ['*', '/'] <+: c :: cs) :
    commentEnd? (c :: cs) = (commentEnd? cs).map (· + 1) := by
  rw [commentEnd?]
  rintro more rfl rfl
  exact h ⟨more, rfl⟩

theorem commentEnd?_closed {body rest : List Char} (h : ¬ ['*', '/'] <:+: body) :
    commentEnd? (body ++ '*' :: '/' :: rest) = some (body.length + 2) := by
  induction body with
  | nil => rfl
  | cons c body ih =>
    rw [List.infix_cons_iff, not_or] at h
    have hstart : ¬ ['*', '/'] <+: c :: (body ++ '*' :: '/' :: rest) := by
      intro hp
      cases body with
      | nil => simp at hp
      | cons d body => exact h.1 (by simpa using hp)
    rw [List.cons_append, commentEnd?_cons hstart, ih h.2, Option.map_some, List.length_cons]

theorem commentEnd?_open {cs : List Char} (h : ¬ ['*', '/'] <:+: cs) : commentEnd? cs = none := by
  induction cs with
  | nil => rfl
  | cons c cs ih =>
    rw [List.infix_cons_iff, not_or] at h
    rw [commentEnd?_cons h.1, ih h.2, Option.map_none]

/-- A text divides at its first `*/`, if it has one. -/
theorem exists_commentEnd {cs : List Char} (h : ['*', '/'] <:+: cs) :
    ∃ body rest, cs = body ++ '*' :: '/' :: rest ∧ ¬ ['*', '/'] <:+: body := by
  induction cs with
  | nil => simp at h
  | cons c cs ih =>
    by_cases hstart : ['*', '/'] <+: c :: cs
    · obtain ⟨rest, hrest⟩ := hstart
      exact ⟨[], rest, hrest.symm, by simp⟩
    · rw [List.infix_cons_iff] at h
      obtain ⟨body, rest, rfl, hbody⟩ := ih (h.resolve_left hstart)
      refine ⟨c :: body, rest, rfl, ?_⟩
      rw [List.infix_cons_iff, not_or]
      refine ⟨fun hp => hstart ?_, hbody⟩
      exact hp.trans (List.prefix_append (c :: body) _)

/-! ## Symbols -/

/-- A symbol is one character, or one and an equals sign. -/
theorem Symbol.spelling_cases (s : Symbol) :
    (∃ c, s.spelling.toList = [c]) ∨ ∃ c, s.spelling.toList = [c, '='] := by
  cases s <;> first | exact .inl ⟨_, rfl⟩ | exact .inr ⟨_, rfl⟩

/-- What a symbol begins with is a symbol. -/
theorem Symbol.exists_single {s : Symbol} {c : Char} {cs : List Char}
    (h : s.spelling.toList = c :: cs) : ∃ t : Symbol, t.spelling.toList = [c] := by
  have hc : s.spelling.toList.head? = some c := by rw [h]; rfl
  cases s with
  | bangEqual => exact ⟨.bang, Option.some.inj hc ▸ rfl⟩
  | equalEqual => exact ⟨.equal, Option.some.inj hc ▸ rfl⟩
  | greaterEqual => exact ⟨.greater, Option.some.inj hc ▸ rfl⟩
  | lessEqual => exact ⟨.less, Option.some.inj hc ▸ rfl⟩
  | _ => exact ⟨_, by rw [h, show cs = [] from (List.cons.inj h).2.symm]⟩

theorem symbolAt?_begins {c : Char} {rest : List Char} {s : Symbol}
    (h : symbolAt? c rest = some s) : s.spelling.toList.head? = some c := by
  unfold symbolAt? at h
  split at h
  all_goals
    try simp only [Option.some.injEq, reduceCtorEq] at h
    try subst h
    try split
    all_goals rfl

/-- A slash that begins no comment is a symbol. -/
theorem recognise_slash {rest : List Char} (h : ∀ c ∈ rest.head?, c ≠ '/' ∧ c ≠ '*') :
    recognise '/' rest = (.symbol .slash, 0) := by
  cases rest with
  | nil => rfl
  | cons d more =>
    obtain ⟨hslash, hstar⟩ := h d rfl
    unfold recognise
    rw [if_neg (by decide), if_neg (by decide), if_neg (by decide), if_neg (by decide)]
    split
    · rename_i hd
      exact absurd (List.cons.inj hd).1 hslash
    · rename_i hd
      exact absurd (List.cons.inj hd).1 hstar
    · rfl

/-- A symbol stands alone where no equals sign joins it. -/
theorem recognise_unjoined {c : Char} {rest : List Char} {s t : Symbol}
    (hc : recognise c rest =
      (fun u => (.symbol u, u.spelling.length - 1)) (if rest.head? == some '=' then t else s))
    (h : ¬ t.spelling.toList <+: c :: rest) (ht : t.spelling.toList = [c, '=']) :
    recognise c rest = (.symbol s, s.spelling.length - 1) := by
  rw [hc, if_neg]
  intro heq
  cases rest with
  | nil => cases heq
  | cons d more =>
    obtain rfl : d = '=' := by simpa using heq
    exact h ⟨more, by rw [ht]; rfl⟩

/-- The longest symbol is recognised. -/
theorem recognise_symbol {s : Symbol} {c : Char} {body rest : List Char}
    (hs : s.spelling.toList = c :: body)
    (hlongest : ∀ t : Symbol, t.spelling.toList <+: s.spelling.toList ++ rest →
      t.spelling.length ≤ s.spelling.length)
    (hslash : s = .slash → ∀ c ∈ rest.head?, c ≠ '/' ∧ c ≠ '*') :
    recognise c (body ++ rest) = (.symbol s, body.length) := by
  have hlength : body.length = s.spelling.length - 1 := by rw [← String.length_toList, hs]; rfl
  rw [hlength]
  have hlonger : ∀ t : Symbol, s.spelling.length < t.spelling.length →
      ¬ t.spelling.toList <+: s.spelling.toList ++ rest := by
    intro t hlt hp
    have := hlongest t hp
    omega
  cases s with
  | bang =>
    obtain ⟨rfl, rfl⟩ := List.cons.inj hs
    exact recognise_unjoined rfl (hlonger .bangEqual (by decide)) rfl
  | equal =>
    obtain ⟨rfl, rfl⟩ := List.cons.inj hs
    exact recognise_unjoined rfl (hlonger .equalEqual (by decide)) rfl
  | greater =>
    obtain ⟨rfl, rfl⟩ := List.cons.inj hs
    exact recognise_unjoined rfl (hlonger .greaterEqual (by decide)) rfl
  | less =>
    obtain ⟨rfl, rfl⟩ := List.cons.inj hs
    exact recognise_unjoined rfl (hlonger .lessEqual (by decide)) rfl
  | slash =>
    obtain ⟨rfl, rfl⟩ := List.cons.inj hs
    exact recognise_slash (hslash rfl)
  | bangEqual =>
    obtain ⟨rfl, rfl⟩ := List.cons.inj (show ['!', '='] = c :: body from hs)
    rfl
  | equalEqual =>
    obtain ⟨rfl, rfl⟩ := List.cons.inj (show ['=', '='] = c :: body from hs)
    rfl
  | greaterEqual =>
    obtain ⟨rfl, rfl⟩ := List.cons.inj (show ['>', '='] = c :: body from hs)
    rfl
  | lessEqual =>
    obtain ⟨rfl, rfl⟩ := List.cons.inj (show ['<', '='] = c :: body from hs)
    rfl
  | _ =>
    obtain ⟨rfl, rfl⟩ := List.cons.inj hs
    rfl

/-! ## Recognition -/

theorem bne_of_not_mem {c : Char} {cs : List Char} (h : c ∉ cs) : ∀ d ∈ cs, d != c := by
  intro d hd
  simpa using fun heq : d = c => h (heq ▸ hd)

theorem recogniseString_closed {body rest : List Char} (h : '"' ∉ body) :
    recogniseString (body ++ '"' :: rest) = (.string, body.length + 1) := by
  have hstop : ∀ c ∈ ('"' :: rest).head?, ¬ (c != '"') := by
    intro c hc
    obtain rfl := Option.some.inj hc
    decide
  rw [recogniseString, takeWhile_append_stop (bne_of_not_mem h) hstop]
  exact if_pos (by rw [List.length_append, List.length_cons]; omega)

theorem recogniseString_open {body : List Char} (h : '"' ∉ body) :
    recogniseString body = (.openString, body.length) := by
  rw [recogniseString, List.takeWhile_eq_self_iff.mpr (bne_of_not_mem h)]
  exact if_neg (Nat.lt_irrefl _)

theorem recognise_number {c : Char} {ds rest : List Char} (hc : c.isDigit)
    (hds : ∀ d ∈ ds, d.isDigit) (hrest : ∀ d ∈ rest.head?, ¬ d.isDigit) :
    recognise c (ds ++ rest) = (.number, ds.length + fractionLength rest) := by
  unfold recognise
  rw [if_neg (not_blank_of_digit hc), if_neg (ne_quote_of_digit hc), if_pos hc]
  simp only [takeWhile_append_stop hds hrest, List.drop_left]

/-- **A piece is recognised whole**, by its first character and all that follows. -/
theorem Lexeme.recognise_eq {form : Form} {c : Char} {body rest : List Char}
    (h : Lexeme form (c :: body) rest) : recognise c (body ++ rest) = (form, body.length) := by
  generalize htext : c :: body = text at h
  cases h with
  | blank hc =>
    obtain ⟨rfl, rfl⟩ := List.cons.inj htext
    unfold recognise
    rw [if_pos (isBlank_iff.mpr hc)]
    rfl
  | @lineComment body' _ hbody hrest =>
    obtain ⟨rfl, rfl⟩ := List.cons.inj htext
    show (Form.lineComment, 1 + ((body' ++ rest).takeWhile (· != '\n')).length) = _
    rw [takeWhile_append_stop (bne_of_not_mem hbody) (fun d hd => by simpa using hrest d hd),
      Nat.add_comm]
    rfl
  | @blockComment body' _ hbody =>
    obtain ⟨rfl, rfl⟩ := List.cons.inj htext
    show ((recogniseComment (body' ++ ['*', '/'] ++ rest)).1,
      1 + (recogniseComment (body' ++ ['*', '/'] ++ rest)).2) = _
    rw [recogniseComment, List.append_assoc, show ['*', '/'] ++ rest = '*' :: '/' :: rest from rfl,
      commentEnd?_closed hbody]
    simp [Nat.add_comm]
  | @string body' _ hbody =>
    obtain ⟨rfl, rfl⟩ := List.cons.inj htext
    show recogniseString (body' ++ ['"'] ++ rest) = _
    rw [List.append_assoc, List.singleton_append, recogniseString_closed hbody,
      List.length_append]
    rfl
  | @whole digits _ hne hdigits hrest hpoint =>
    subst htext
    rw [recognise_number (hdigits c List.mem_cons_self)
      (fun d hd => hdigits d (List.mem_cons_of_mem c hd)) hrest, fractionLength_eq_zero hpoint]
    rfl
  | @fraction digits places _ hne hdigits hplaces hall hrest =>
    cases digits with
    | nil => exact absurd rfl hne
    | cons c' ds =>
      rw [List.cons_append] at htext
      obtain ⟨rfl, rfl⟩ := List.cons.inj htext
      have hpoint : ∀ d ∈ ('.' :: (places ++ rest)).head?, ¬ d.isDigit := by
        intro d hd
        obtain rfl := Option.some.inj hd
        decide
      rw [List.append_assoc, List.cons_append, recognise_number (hdigits c List.mem_cons_self)
        (fun d hd => hdigits d (List.mem_cons_of_mem c hd)) hpoint,
        fractionLength_places hplaces hall hrest, List.length_append, List.length_cons,
        Nat.add_comm 1]
  | word hc hbody hrest =>
    obtain ⟨rfl, rfl⟩ := List.cons.inj htext
    have hw := startsWord_iff.mpr hc
    unfold recognise
    rw [if_neg (not_blank_of_startsWord hw), if_neg (ne_quote_of_startsWord hw),
      if_neg (not_digit_of_startsWord hw), if_pos hw, takeWhile_append_stop]
    · exact fun d hd => inWord_iff.mpr (hbody d hd)
    · exact fun d hd => mt inWord_iff.mp (hrest d hd)
  | symbol hlongest hslash => exact recognise_symbol htext.symm hlongest hslash
  | openString hbody =>
    obtain ⟨rfl, rfl⟩ := List.cons.inj htext
    show recogniseString (body ++ []) = _
    rw [List.append_nil, recogniseString_open hbody]
  | @openComment body' hbody =>
    obtain ⟨rfl, rfl⟩ := List.cons.inj htext
    show ((recogniseComment (body' ++ [])).1, 1 + (recogniseComment (body' ++ [])).2) = _
    rw [recogniseComment, List.append_nil, commentEnd?_open hbody]
    simp [Nat.add_comm]

/-! ## Where lexemes begin -/

/-- The longest symbol is a lexeme. -/
theorem Lexeme.of_symbol {s : Symbol} {c : Char} {body rest : List Char}
    (hs : s.spelling.toList = c :: body)
    (hlongest : ∀ t : Symbol, t.spelling.toList <+: c :: (body ++ rest) →
      t.spelling.length ≤ s.spelling.length)
    (hslash : s = .slash → ∀ d ∈ rest.head?, d ≠ '/' ∧ d ≠ '*') :
    Lexeme (.symbol s) (c :: body) rest := by
  rw [← hs]
  refine .symbol ?_ hslash
  rwa [hs]

theorem Symbol.length_le_two (s : Symbol) : s.spelling.length ≤ 2 := by
  cases s <;> decide

/-- With the one character of a symbol a lexeme begins. -/
theorem starts_of_symbol {s : Symbol} {c : Char} (hs : s.spelling.toList = [c])
    (rest : List Char) (hslash : s = .slash → ∀ d ∈ rest.head?, d ≠ '/' ∧ d ≠ '*') :
    Starts c rest := by
  by_cases h : ∃ (t : Symbol) (more : List Char), t.spelling.toList = [c, '='] ∧ rest = '=' :: more
  · obtain ⟨t, more, ht, rfl⟩ := h
    refine ⟨_, ['='], more, rfl, .of_symbol ht (fun u _ => ?_) ?_⟩
    · have : t.spelling.length = 2 := by rw [← String.length_toList, ht]; rfl
      have := u.length_le_two
      omega
    · rintro rfl
      cases ht
  · refine ⟨_, [], rest, rfl, .of_symbol hs (fun u hu => ?_) hslash⟩
    rw [← String.length_toList, ← String.length_toList, hs]
    rcases u.spelling_cases with ⟨d, hd⟩ | ⟨d, hd⟩
    · rw [hd]
      exact Nat.le_refl 1
    · -- a longer symbol would join an equals sign
      rw [hd] at hu
      obtain ⟨more, hmore⟩ := hu
      obtain ⟨rfl, hrest⟩ := List.cons.inj hmore
      exact absurd ⟨u, more, hd, hrest.symm⟩ h

theorem starts_string (cs : List Char) : Starts '"' cs := by
  obtain ⟨body, rest, rfl, hbody, hrest⟩ := exists_run (· != '"') cs
  have hnot : '"' ∉ body := fun hmem => absurd (hbody '"' hmem) (by decide)
  cases rest with
  | nil => exact ⟨_, body, [], rfl, .openString hnot⟩
  | cons d more =>
    obtain rfl : d = '"' := by simpa using hrest d rfl
    exact ⟨_, body ++ ['"'], more, by simp, .string hnot⟩

theorem starts_number {c : Char} (hc : c.isDigit) (cs : List Char) : Starts c cs := by
  obtain ⟨digits, rest, rfl, hdigits, hrest⟩ := exists_run Char.isDigit cs
  have hall : ∀ d ∈ c :: digits, d.isDigit := List.forall_mem_cons.mpr ⟨hc, hdigits⟩
  by_cases h : ∃ d more, rest = '.' :: d :: more ∧ d.isDigit
  · obtain ⟨d, more, rfl, hd⟩ := h
    obtain ⟨places, rest, rfl, hplaces, hstop⟩ := exists_run Char.isDigit more
    refine ⟨.number, digits ++ '.' :: d :: places, rest, by simp, ?_⟩
    exact .fraction (List.cons_ne_nil c digits) hall (List.cons_ne_nil d places)
      (List.forall_mem_cons.mpr ⟨hd, hplaces⟩) hstop
  · refine ⟨_, digits, rest, rfl, .whole (List.cons_ne_nil c digits) hall hrest ?_⟩
    exact fun d more hmore hd => h ⟨d, more, hmore, hd⟩

theorem starts_word {c : Char} (hc : startsWord c) (cs : List Char) : Starts c cs := by
  obtain ⟨body, rest, rfl, hbody, hrest⟩ := exists_run inWord cs
  refine ⟨_, body, rest, rfl, .word (startsWord_iff.mp hc) ?_ ?_⟩
  · exact fun d hd => inWord_iff.mp (hbody d hd)
  · exact fun d hd => mt inWord_iff.mpr (hrest d hd)

theorem starts_lineComment (cs : List Char) : Starts '/' ('/' :: cs) := by
  obtain ⟨body, rest, rfl, hbody, hrest⟩ := exists_run (· != '\n') cs
  have hnot : '\n' ∉ body := fun hmem => absurd (hbody '\n' hmem) (by decide)
  exact ⟨_, '/' :: body, rest, rfl, .lineComment hnot fun d hd => by simpa using hrest d hd⟩

theorem starts_blockComment (cs : List Char) : Starts '/' ('*' :: cs) := by
  by_cases h : ['*', '/'] <:+: cs
  · obtain ⟨body, rest, rfl, hbody⟩ := exists_commentEnd h
    exact ⟨_, '*' :: (body ++ ['*', '/']), rest, by simp, .blockComment hbody⟩
  · exact ⟨_, '*' :: cs, [], by simp, .openComment h⟩

theorem starts_symbol {s : Symbol} {c : Char} (hs : s.spelling.toList = [c]) (cs : List Char) :
    Starts c cs := by
  cases cs with
  | nil => exact starts_of_symbol hs [] (by simp)
  | cons d more =>
    by_cases hline : c = '/' ∧ d = '/'
    · obtain ⟨rfl, rfl⟩ := hline
      exact starts_lineComment more
    by_cases hblock : c = '/' ∧ d = '*'
    · obtain ⟨rfl, rfl⟩ := hblock
      exact starts_blockComment more
    refine starts_of_symbol hs (d :: more) ?_
    rintro rfl d' hd'
    obtain rfl := Option.some.inj hd'
    obtain rfl : '/' = c := (List.cons.inj hs).1
    exact ⟨fun heq => hline ⟨rfl, heq⟩, fun heq => hblock ⟨rfl, heq⟩⟩

/-! ## Where no lexeme begins -/

/-- A character with which no lexeme begins is recognised as stray. -/
theorem recognise_stray {c : Char} {rest : List Char} (h : ¬ Starts c rest) :
    recognise c rest = (.stray c, 0) := by
  have hblank : ¬ isBlank c := fun hb => h ⟨_, [], rest, rfl, .blank (isBlank_iff.mp hb)⟩
  have hquote : c ≠ '"' := by
    rintro rfl
    exact h (starts_string rest)
  have hdigit : ¬ c.isDigit := fun hd => h (starts_number hd rest)
  have hword : ¬ startsWord c := fun hw => h (starts_word hw rest)
  have hsymbol : ∀ s : Symbol, s.spelling.toList ≠ [c] := fun s hs => h (starts_symbol hs rest)
  have hat : symbolAt? c rest = none := by
    cases hs : symbolAt? c rest with
    | none => rfl
    | some s =>
      obtain ⟨cs, hcs⟩ := List.head?_eq_some_iff.mp (symbolAt?_begins hs)
      obtain ⟨t, ht⟩ := Symbol.exists_single hcs
      exact absurd ht (hsymbol t)
  unfold recognise
  rw [if_neg hblank, if_neg hquote, if_neg hdigit, if_neg hword]
  split
  · exact absurd rfl (hsymbol .slash)
  · exact absurd rfl (hsymbol .slash)
  · rw [hat]

/-- **A piece is recognised whole**, stray characters included. -/
theorem Shape.recognise_eq {form : Form} {c : Char} {body rest : List Char}
    (h : Shape form (c :: body) rest) : recognise c (body ++ rest) = (form, body.length) := by
  cases h with
  | lexeme h => exact h.recognise_eq
  | stray h => exact recognise_stray h

/-! ## Every source is split -/

/-- **Some piece begins at every character**, whatever follows it. -/
theorem exists_shape (c : Char) (cs : List Char) :
    ∃ form body rest, cs = body ++ rest ∧ Shape form (c :: body) rest := by
  by_cases h : Starts c cs
  · obtain ⟨form, body, rest, rfl, hlex⟩ := h
    exact ⟨form, body, rest, rfl, .lexeme hlex⟩
  · exact ⟨_, [], cs, rfl, .stray h⟩

theorem pieces_of_shape {form : Form} {text rest : List Char} (h : Shape form text rest) :
    pieces (text ++ rest) = ⟨form, text⟩ :: pieces rest := by
  cases text with
  | nil => exact absurd rfl h.ne_nil
  | cons c body =>
    rw [List.cons_append, pieces, h.recognise_eq]
    simp only [List.take_left, List.drop_left]

/-- A split is what `pieces` gives. -/
theorem Splits.eq_pieces {cs : List Char} {ps : List Piece} (h : Splits cs ps) :
    ps = pieces cs := by
  induction h with
  | nil => rw [pieces]
  | cons hshape _ ih => rw [pieces_of_shape hshape, ih]

theorem splits_of_length : ∀ (n : Nat) (cs : List Char), cs.length ≤ n → Splits cs (pieces cs) := by
  intro n
  induction n with
  | zero =>
    intro cs hcs
    obtain rfl : cs = [] := List.eq_nil_of_length_eq_zero (Nat.le_zero.mp hcs)
    rw [pieces]
    exact .nil
  | succ n ih =>
    intro cs hcs
    cases cs with
    | nil =>
      rw [pieces]
      exact .nil
    | cons c cs =>
      obtain ⟨form, body, rest, rfl, hshape⟩ := exists_shape c cs
      rw [← List.cons_append, pieces_of_shape hshape]
      refine .cons hshape (ih rest ?_)
      simp only [List.length_cons, List.length_append] at hcs
      omega

/-- **What `pieces` gives is a split.** -/
theorem splits_pieces (cs : List Char) : Splits cs (pieces cs) :=
  splits_of_length cs.length cs (Nat.le_refl _)

end Lox
