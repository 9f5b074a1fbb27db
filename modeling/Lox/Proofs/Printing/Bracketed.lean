/-
  The bracketed form is readable — it determines the tree, up to the lines of its operators.

  A grouping, a unary node, a binary node and a conditional are all written as a head and parts in
  parentheses, and a minus may head one part or two.

  1. **Words** — a literal and a head are runs of characters that are no space and no parenthesis.  So
     a word ends where it is followed by a space or a closing parenthesis, or by nothing.
  2. **Values** — a printed value that is no string is a word, and determines the value.
  3. **Heads and parts** — all trees in one shape; a tree is determined by its head and its parts.
  4. **Readability** — a tree is read off the front of ANY text that begins with its form, if the text
     goes on with what may follow a word.  How many parts a head has is seen after each part: another
     one begins with a space, and a closing parenthesis ends them.
-/
import Lox.Expr.Bracketed
import Lox.Proofs.Layout.Relayout
import Lox.Proofs.Number.ReadBack
import Lox.Proofs.Unparse.RoundTrip

namespace Lox

/-! ## Words -/

/-- The character may stand in a word. -/
def inBareWord (c : Char) : Bool := c != ' ' && c != '(' && c != ')'

/-- The text is a word of the bracketed form. -/
structure BareWord (text : String) : Prop where
  ne_nil : text.toList ≠ []
  all : text.toList.all inBareWord

instance (text : String) : Decidable (BareWord text) :=
  decidable_of_iff (text.toList ≠ [] ∧ text.toList.all inBareWord)
    ⟨fun h => ⟨h.1, h.2⟩, fun h => ⟨h.ne_nil, h.all⟩⟩

theorem BareWord.forall_mem {text : String} (h : BareWord text) :
    ∀ c ∈ text.toList, inBareWord c :=
  List.all_eq_true.mp h.all

/-- The text may follow a word. -/
def EndsWord (rest : List Char) : Prop := ∀ c ∈ rest.head?, c = ' ' ∨ c = ')'

theorem endsWord_nil : EndsWord [] := by
  intro c hc
  cases hc

theorem EndsWord.not_inBareWord {rest : List Char} (h : EndsWord rest) :
    ∀ c ∈ rest.head?, ¬ inBareWord c := by
  intro c hc
  rcases h c hc with rfl | rfl <;> decide

/-- A word is read off the front of a text. -/
theorem BareWord.append_inj {a b : String} (ha : BareWord a) (hb : BareWord b)
    {rest rest' : List Char} (hrest : EndsWord rest) (hrest' : EndsWord rest')
    (h : a.toList ++ rest = b.toList ++ rest') : a = b ∧ rest = rest' := by
  have htake := congrArg (List.takeWhile inBareWord) h
  rw [takeWhile_append_stop ha.forall_mem hrest.not_inBareWord,
    takeWhile_append_stop hb.forall_mem hrest'.not_inBareWord] at htake
  rw [htake] at h
  exact ⟨String.toList_inj.mp htake, List.append_cancel_left h⟩

/-- A word does not begin with a parenthesis. -/
theorem BareWord.append_ne_paren {a : String} (ha : BareWord a) {rest more : List Char} :
    a.toList ++ rest ≠ '(' :: more := by
  intro heq
  obtain ⟨c, cs, hcs⟩ := List.exists_cons_of_ne_nil ha.ne_nil
  rw [hcs, List.cons_append] at heq
  have hc : inBareWord '(' := (List.cons.inj heq).1 ▸ ha.forall_mem c (hcs ▸ List.mem_cons_self)
  cases hc

/-! ## Values -/

/-- The value is no string, and a number that a numeral can stand for. -/
inductive Value.Plain : Value → Prop where
  | number {m} : Plain (.number (.signed false m))
  | boolean {b} : Plain (.boolean b)
  | nil : Plain .nil

theorem Numeral.bareWord {text : String} {d : Decimal} (h : Numeral text.toList d) :
    BareWord text := by
  have hdigit : ∀ c : Char, c.isDigit → inBareWord c := by
    intro c hc
    have hne : ∀ e : Char, ¬ e.isDigit → (c != e) = true :=
      fun e he => bne_iff_ne.mpr fun heq => he (heq ▸ hc)
    rw [inBareWord, hne ' ' (by decide), hne '(' (by decide), hne ')' (by decide)]
    rfl
  constructor
  · generalize text.toList = cs at h
    cases h with
    | whole hne => exact hne
    | fraction => exact List.append_ne_nil_of_right_ne_nil _ (List.cons_ne_nil _ _)
  · refine List.all_eq_true.mpr ?_
    generalize text.toList = cs at h
    cases h with
    | whole hne hdigits => exact fun c hc => hdigit c (hdigits c hc)
    | fraction hne hdigits hplaces hall =>
      intro c hc
      rcases List.mem_append.mp hc with hc | hc
      · exact hdigit c (hdigits c hc)
      · rcases List.mem_cons.mp hc with rfl | hc
        · decide
        · exact hdigit c (hall c hc)

theorem Magnitude.bareWord_text (m : Magnitude) : BareWord m.text := by
  by_cases hm : m = infinity
  · subst hm
    rw [text_infinity]
    decide +kernel
  · obtain ⟨d, hd, -⟩ := exists_numeral hm
    exact hd.bareWord

namespace Value

theorem Plain.bareWord {v : Value} (h : v.Plain) : BareWord v.text := by
  cases h with
  | @number m =>
    show BareWord ("" ++ m.text)
    rw [String.empty_append]
    exact m.bareWord_text
  | @boolean b => cases b <;> decide +kernel
  | nil => decide +kernel

theorem text_number (m : Magnitude) : (number (.signed false m)).text = m.text :=
  String.empty_append

/-- A number is printed as no text that is no numeral, but for the infinite one. -/
theorem number_text_ne (m : Magnitude) {text : String} (hread : Decimal.ofChars? text.toList = none)
    (hinf : text ≠ "inf") : (number (.signed false m)).text ≠ text := by
  rw [text_number]
  rintro rfl
  by_cases hm : m = .infinity
  · subst hm
    exact hinf Magnitude.text_infinity
  · obtain ⟨d, hd, -⟩ := Magnitude.exists_numeral hm
    cases hread.symm.trans hd.ofChars?_eq

theorem number_text_ne_boolean (m : Magnitude) (b : Bool) :
    (number (.signed false m)).text ≠ (boolean b).text := by
  cases b <;> exact number_text_ne m rfl (by decide)

theorem number_text_ne_nil (m : Magnitude) : (number (.signed false m)).text ≠ nil.text :=
  number_text_ne m rfl (by decide)

/-- **Different values are printed differently**, strings apart. -/
theorem Plain.text_inj {v w : Value} (hv : v.Plain) (hw : w.Plain) (h : v.text = w.text) :
    v = w := by
  cases hv with
  | @number m =>
    cases hw with
    | @number n =>
      rw [text_number, text_number] at h
      rw [Magnitude.text_injective h]
    | boolean => exact absurd h (number_text_ne_boolean m _)
    | nil => exact absurd h (number_text_ne_nil m)
  | @boolean b =>
    cases hw with
    | @number n => exact absurd h.symm (number_text_ne_boolean n b)
    | @boolean c =>
      revert h
      cases b <;> cases c <;> decide
    | nil =>
      revert h
      cases b <;> decide
  | nil =>
    cases hw with
    | @number n => exact absurd h.symm (number_text_ne_nil n)
    | @boolean c =>
      revert h
      cases c <;> decide
    | nil => rfl

end Value

/-! ## Heads and parts -/

namespace Expr

/-- What is written first: a literal, or what stands behind the opening parenthesis. -/
def head : Expr → String
  | literal v => v.text
  | grouping _ => "group"
  | unary op _ => op.lexeme
  | binary _ op _ => op.lexeme
  | conditional .. => "?:"

/-- The trees below the root, from left to right. -/
def parts : Expr → List Expr
  | literal _ => []
  | grouping e => [e]
  | unary _ e => [e]
  | binary a _ b => [a, b]
  | conditional a b c => [a, b, c]

/-- Parts as they are written: a space before each. -/
def spacedParts (ps : List Expr) : List Char := ps.flatMap fun p => ' ' :: p.bracketed.toList

/-- What holds of a tree if it holds of its parts, holds of every tree. -/
theorem parts_induction {motive : Expr → Prop} (step : ∀ e, (∀ p ∈ e.parts, motive p) → motive e)
    (e : Expr) : motive e := by
  induction e with
  | literal v => exact step _ (by simp [parts])
  | grouping e ih => exact step _ (by simpa [parts] using ih)
  | unary op e ih => exact step _ (by simpa [parts] using ih)
  | binary a op b iha ihb => exact step _ (by simpa [parts] using ⟨iha, ihb⟩)
  | conditional a b c iha ihb ihc => exact step _ (by simpa [parts] using ⟨iha, ihb, ihc⟩)

theorem toList_inBrackets (head : String) (ps : List Expr) :
    (inBrackets head (ps.map bracketed)).toList = '(' :: (head.toList ++ spacedParts ps ++ [')']) := by
  have hspaced : (" ".intercalate (head :: ps.map bracketed)).toList
      = head.toList ++ spacedParts ps := by
    induction ps generalizing head with
    | nil =>
      rw [List.map_nil, String.intercalate_singleton]
      exact (List.append_nil _).symm
    | cons p ps ih =>
      rw [List.map_cons, String.intercalate_cons_cons, String.toList_append, String.toList_append,
        ih, spacedParts, spacedParts, List.flatMap_cons]
      simp
  rw [inBrackets, String.toList_append, String.toList_append, hspaced]
  rfl

/-- A tree with parts is written in parentheses. -/
theorem toList_bracketed {e : Expr} (h : e.parts ≠ []) :
    e.bracketed.toList = '(' :: (e.head.toList ++ spacedParts e.parts ++ [')']) := by
  cases e with
  | literal v => exact absurd rfl h
  | grouping e => exact toList_inBrackets _ [e]
  | unary op e => exact toList_inBrackets _ [e]
  | binary a op b => exact toList_inBrackets _ [a, b]
  | conditional a b c => exact toList_inBrackets _ [a, b, c]

/-- A tree without parts is written as its head. -/
theorem bracketed_of_parts_nil {e : Expr} (h : e.parts = []) : e.bracketed = e.head := by
  cases e with
  | literal v => rfl
  | _ => cases h

/-! ## Trees without strings -/

/-- No literal of the tree is a string. -/
def Stringless : Expr → Prop
  | literal v => ∀ s, v ≠ .string s
  | grouping e => e.Stringless
  | unary _ e => e.Stringless
  | binary a _ b => a.Stringless ∧ b.Stringless
  | conditional a b c => a.Stringless ∧ b.Stringless ∧ c.Stringless

/-- The tree is well shaped, and no literal of it is a string. -/
structure Regular (e : Expr) : Prop where
  shaped : e.WellShaped
  stringless : e.Stringless

theorem Regular.parts {e : Expr} (h : e.Regular) : ∀ p ∈ e.parts, p.Regular := by
  obtain ⟨hshaped, hstringless⟩ := h
  cases hshaped with
  | number | string | boolean | nil => exact fun p hp => absurd hp List.not_mem_nil
  | grouping he => exact List.forall_mem_singleton.mpr ⟨he, hstringless⟩
  | unary _ _ he => exact List.forall_mem_singleton.mpr ⟨he, hstringless⟩
  | binary _ _ ha hb =>
    obtain ⟨hsa, hsb⟩ := hstringless
    exact List.forall_mem_cons.mpr ⟨⟨ha, hsa⟩, List.forall_mem_singleton.mpr ⟨hb, hsb⟩⟩
  | conditional ha hb hc =>
    obtain ⟨hsa, hsb, hsc⟩ := hstringless
    exact List.forall_mem_cons.mpr ⟨⟨ha, hsa⟩, List.forall_mem_cons.mpr
      ⟨⟨hb, hsb⟩, List.forall_mem_singleton.mpr ⟨hc, hsc⟩⟩⟩

theorem Regular.plain {v : Value} (h : (literal v).Regular) : v.Plain := by
  obtain ⟨hshaped, hstringless⟩ := h
  cases hshaped with
  | number => exact .number
  | string => exact absurd rfl (hstringless _)
  | boolean => exact .boolean
  | nil => exact .nil

end Expr

/-- An operator is a word. -/
theorem Symbol.bareWord {s : Symbol} (h : s ≠ .leftParen ∧ s ≠ .rightParen) :
    BareWord s.spelling := by
  cases s with
  | leftParen => exact absurd rfl h.1
  | rightParen => exact absurd rfl h.2
  | _ => decide +kernel

theorem Token.Marks.bareWord_unary {op : Token} {s : Symbol} (h : op.Marks s)
    (hs : s = .bang ∨ s = .minus) : BareWord op.lexeme := by
  rw [h.lexeme]
  rcases hs with rfl | rfl <;> exact Symbol.bareWord (by decide)

theorem Token.Marks.bareWord_binary {op : Token} {s : Symbol} {r : Nat} (h : op.Marks s)
    (hs : s.rank? = some r) : BareWord op.lexeme := by
  rw [h.lexeme]
  refine Symbol.bareWord ⟨?_, ?_⟩
  · rintro rfl
    cases hs
  · rintro rfl
    cases hs

theorem Symbol.spelling_injective {s u : Symbol} (h : s.spelling = u.spelling) : s = u := by
  revert h
  cases s <;> cases u <;> decide

/-- Operators that are written alike are alike, up to their lines. -/
theorem Token.Marks.withoutLine_eq {op op' : Token} {s s' : Symbol} (h : op.Marks s)
    (h' : op'.Marks s') (hlexeme : op.lexeme = op'.lexeme) : op.withoutLine = op'.withoutLine := by
  have hs : s = s' := by
    refine Symbol.spelling_injective ?_
    rw [← h.lexeme, hlexeme, h'.lexeme]
  subst hs
  exact Token.withoutLine_eq_iff.mpr
    ⟨h.kind.trans h'.kind.symm, hlexeme, h.literal.trans h'.literal.symm⟩

/-- No operator is written like the head of a grouping. -/
theorem Token.Marks.ne_group {op : Token} {s : Symbol} (h : op.Marks s) : op.lexeme ≠ "group" := by
  rw [h.lexeme]
  cases s <;> decide

namespace Expr

theorem Regular.bareWord_head {e : Expr} (h : e.Regular) : BareWord e.head := by
  obtain ⟨hshaped, hstringless⟩ := h
  cases e with
  | literal v => exact (Regular.plain ⟨hshaped, hstringless⟩).bareWord
  | grouping e => exact (by decide +kernel : BareWord "group")
  | unary op e =>
    cases hshaped with
    | unary hop hs => exact hop.bareWord_unary hs
  | binary a op b =>
    cases hshaped with
    | binary hop hs => exact hop.bareWord_binary hs
  | conditional a b c => exact (by decide +kernel : BareWord "?:")

/-- **Head and parts determine the tree.** -/
theorem Regular.withoutLines_eq {e e' : Expr} (h : e.Regular) (h' : e'.Regular)
    (hhead : e.head = e'.head)
    (hparts : e.parts.map withoutLines = e'.parts.map withoutLines) :
    e.withoutLines = e'.withoutLines := by
  have hshaped := h.shaped
  have hshaped' := h'.shaped
  have hcount : e.parts.length = e'.parts.length := by simpa using congrArg List.length hparts
  cases e with
  | literal v =>
    cases e' with
    | literal w => rw [h.plain.text_inj h'.plain hhead]
    | _ => cases hcount
  | grouping a =>
    cases e' with
    | grouping a' =>
      obtain ⟨ha, -⟩ := List.cons.inj hparts
      rw [withoutLines, withoutLines, ha]
    | unary op' a' =>
      cases hshaped' with
      | unary hop' => exact absurd hhead.symm hop'.ne_group
    | _ => cases hcount
  | unary op a =>
    cases hshaped with
    | unary hop =>
      cases e' with
      | grouping a' => exact absurd hhead hop.ne_group
      | unary op' a' =>
        cases hshaped' with
        | unary hop' =>
          obtain ⟨ha, -⟩ := List.cons.inj hparts
          rw [withoutLines, withoutLines, ha, hop.withoutLine_eq hop' hhead]
      | _ => cases hcount
  | binary a op b =>
    cases hshaped with
    | binary hop =>
      cases e' with
      | binary a' op' b' =>
        cases hshaped' with
        | binary hop' =>
          obtain ⟨ha, htail⟩ := List.cons.inj hparts
          obtain ⟨hb, -⟩ := List.cons.inj htail
          rw [withoutLines, withoutLines, ha, hb, hop.withoutLine_eq hop' hhead]
      | _ => cases hcount
  | conditional a b c =>
    cases e' with
    | conditional a' b' c' =>
      obtain ⟨ha, htail⟩ := List.cons.inj hparts
      obtain ⟨hb, hlast⟩ := List.cons.inj htail
      obtain ⟨hc, -⟩ := List.cons.inj hlast
      rw [withoutLines, withoutLines, ha, hb, hc]
    | _ => cases hcount

/-! ## Readability -/

/-- The tree is read off the front of a text that begins with its form. -/
def ReadsOff (e : Expr) : Prop :=
  ∀ (e' : Expr) (rest rest' : List Char), e'.Regular → EndsWord rest → EndsWord rest' →
    e.bracketed.toList ++ rest = e'.bracketed.toList ++ rest' →
    e.withoutLines = e'.withoutLines ∧ rest = rest'

/-- After a part comes a space or the closing parenthesis. -/
theorem endsWord_parts (ps : List Expr) (rest : List Char) :
    EndsWord (spacedParts ps ++ ')' :: rest) := by
  intro c hc
  cases ps with
  | nil => exact .inr (Option.some.inj hc).symm
  | cons p ps => exact .inl (Option.some.inj hc).symm

/-- Parts are read off one after the other, and their end is seen. -/
theorem spacedParts_inj {ps qs : List Expr} (hps : ∀ p ∈ ps, p.ReadsOff)
    (hqs : ∀ q ∈ qs, q.Regular) {rest rest' : List Char}
    (h : spacedParts ps ++ ')' :: rest = spacedParts qs ++ ')' :: rest') :
    ps.map withoutLines = qs.map withoutLines ∧ rest = rest' := by
  induction ps generalizing qs with
  | nil =>
    cases qs with
    | nil => exact ⟨rfl, (List.cons.inj h).2⟩
    | cons q qs => cases (List.cons.inj h).1
  | cons p ps ih =>
    cases qs with
    | nil => cases (List.cons.inj h).1
    | cons q qs =>
      obtain ⟨hp, hps⟩ := List.forall_mem_cons.mp hps
      obtain ⟨hq, hqs⟩ := List.forall_mem_cons.mp hqs
      have htail : p.bracketed.toList ++ (spacedParts ps ++ ')' :: rest)
          = q.bracketed.toList ++ (spacedParts qs ++ ')' :: rest') := by
        simp only [spacedParts, List.flatMap_cons, List.cons_append, List.append_assoc] at h ⊢
        exact (List.cons.inj h).2
      obtain ⟨hsame, hmore⟩ := hp q _ _ hq (endsWord_parts ps rest) (endsWord_parts qs rest') htail
      obtain ⟨hall, hrest⟩ := ih hps hqs hmore
      rw [List.map_cons, List.map_cons, hsame, hall]
      exact ⟨rfl, hrest⟩

/-- **Every regular tree is read off.** -/
theorem Regular.readsOff {e : Expr} (h : e.Regular) : e.ReadsOff := by
  induction e using parts_induction with
  | step e ih =>
    intro e' rest rest' h' hrest hrest' heq
    by_cases hnone : e.parts = []
    · by_cases hnone' : e'.parts = []
      · -- two literals
        rw [bracketed_of_parts_nil hnone, bracketed_of_parts_nil hnone'] at heq
        obtain ⟨hhead, hmore⟩ := h.bareWord_head.append_inj h'.bareWord_head hrest hrest' heq
        exact ⟨h.withoutLines_eq h' hhead (by rw [hnone, hnone']), hmore⟩
      · rw [bracketed_of_parts_nil hnone, toList_bracketed hnone'] at heq
        exact absurd heq h.bareWord_head.append_ne_paren
    · by_cases hnone' : e'.parts = []
      · rw [toList_bracketed hnone, bracketed_of_parts_nil hnone'] at heq
        exact absurd heq.symm h'.bareWord_head.append_ne_paren
      · -- two forms in parentheses: first the heads, then the parts
        rw [toList_bracketed hnone, toList_bracketed hnone'] at heq
        simp only [List.cons_append, List.append_assoc, List.nil_append] at heq
        obtain ⟨hhead, hmore⟩ := h.bareWord_head.append_inj h'.bareWord_head
          (endsWord_parts e.parts rest) (endsWord_parts e'.parts rest') (List.cons.inj heq).2
        obtain ⟨hparts, hend⟩ :=
          spacedParts_inj (fun p hp => ih p hp (h.parts p hp)) h'.parts hmore
        exact ⟨h.withoutLines_eq h' hhead hparts, hend⟩

/-- **The bracketed form determines the tree.** -/
theorem Regular.bracketed_inj {e e' : Expr} (h : e.Regular) (h' : e'.Regular)
    (heq : e.bracketed = e'.bracketed) : e.withoutLines = e'.withoutLines := by
  refine (h.readsOff e' [] [] h' endsWord_nil endsWord_nil ?_).1
  rw [heq]

end Expr

/-! ## Sources -/

/-- Without string tokens there is no string in the tree. -/
theorem Derives.stringless {n : Nonterminal} {ts : List Token} {e : Expr} (h : Derives n ts e)
    (hts : ∀ t ∈ ts, t.kind ≠ .string) : e.Stringless := by
  induction h with
  | operand _ _ ih | condition _ ih | primary _ ih => exact ih hts
  | binary _ _ _ _ _ iha ihb =>
    obtain ⟨hta, htail⟩ := List.forall_mem_append.mp hts
    exact ⟨iha hta, ihb (List.forall_mem_cons.mp htail).2⟩
  | conditional _ _ _ _ _ iha ihb ihc =>
    obtain ⟨hta, htail⟩ := List.forall_mem_append.mp hts
    obtain ⟨htb, hlast⟩ := List.forall_mem_append.mp (List.forall_mem_cons.mp htail).2
    exact ⟨iha hta, ihb htb, ihc (List.forall_mem_cons.mp hlast).2⟩
  | unary _ _ ih => exact ih (List.forall_mem_cons.mp hts).2
  | literal hv =>
    rintro s rfl
    cases hv with
    | string hk => exact List.forall_mem_singleton.mp hts hk
  | grouping _ _ _ ih =>
    exact ih (List.forall_mem_append.mp (List.forall_mem_cons.mp hts).2).1

/-- A tree is derived from tokens of its source. -/
theorem exists_derives_of_parse {source : String} {e : Expr} (h : parse source = .ok e) :
    ∃ us, Derives .comma us e ∧ ∀ t ∈ us, t ∈ (scan source).tokens := by
  obtain ⟨us, rest, hwords, hd⟩ := derives_of_parse h
  refine ⟨us, hd, fun t ht => ?_⟩
  rw [(tokens_scan source).1, hwords, List.append_assoc]
  exact List.mem_append_left _ ht

theorem stringless_of_parse {source : String} {e : Expr} (h : parse source = .ok e)
    (hsource : ∀ t ∈ (scan source).tokens, t.kind ≠ .string) : e.Stringless := by
  obtain ⟨us, hd, hus⟩ := exists_derives_of_parse h
  exact hd.stringless fun t ht => hsource t (hus t ht)

/-- **The bracketed form of a source determines its tree.**  A source without string tokens is parsed
    to a tree without strings; and two trees without strings, parsed from any two sources, have the
    same bracketed form just if they are equal up to the lines of their operators. -/
theorem bracketed_eq_iff :
    (∀ source e, parse source = .ok e → (∀ t ∈ (scan source).tokens, t.kind ≠ .string) →
      e.Stringless) ∧
    ∀ source source' e e', parse source = .ok e → parse source' = .ok e' → e.Stringless →
      e'.Stringless → (e.bracketed = e'.bracketed ↔ e.withoutLines = e'.withoutLines) := by
  constructor
  · intro source e h hsource
    exact stringless_of_parse h hsource
  · intro source source' e e' h h' hs hs'
    constructor
    · exact Expr.Regular.bracketed_inj ⟨wellShaped_of_parse h, hs⟩ ⟨wellShaped_of_parse h', hs'⟩
    · exact fun heq => (print_eq_of_withoutLines heq).1

/-- Two trees that differ in a line only, with a minus that heads two parts and one that heads one. -/
theorem bracketed_eq_iff_minus :
    let one := Expr.literal (.number (Decimal.toBinary64 ⟨1, 0⟩))
    let minus (line : Nat) : Token := ⟨.symbol .minus, "-", none, line⟩
    let e := Expr.binary one (minus 1) (.unary (minus 1) one)
    let e' := Expr.binary one (minus 1) (.unary (minus 2) one)
    parse "1 - -1" = .ok e ∧ parse "1 -\n-1" = .ok e' ∧ e ≠ e' ∧ e.Stringless ∧ e'.Stringless ∧
      e.bracketed = e'.bracketed := by
  intro one minus e e'
  have h : parse "1 - -1" = .ok e := by decide +kernel
  have h' : parse "1 -\n-1" = .ok e' := by decide +kernel
  have hs : e.Stringless := bracketed_eq_iff.1 _ e h (by decide +kernel)
  have hs' : e'.Stringless := bracketed_eq_iff.1 _ e' h' (by decide +kernel)
  exact ⟨h, h', by decide +kernel, hs, hs', (bracketed_eq_iff.2 _ _ e e' h h' hs hs').mpr rfl⟩

/-- A string can be printed like another tree: this is why strings are left out. -/
example : (Expr.literal (.string "nil")).bracketed = (Expr.literal .nil).bracketed := rfl

end Lox
