/-
  Round trip — what is written is parsed back, and what is parsed could have been written.

  1. **Ranks** — the ranks of trees and operators are those of the grammar's nonterminals.
  2. **Writing, then parsing** — the lexemes of a well-shaped tree are those of spelled tokens, which
     derive the tree at every level that its rank allows (`WellShaped.readsFrom`); written with spaces,
     they are scanned and parsed back.
  3. **Parsing** — a derivation over spelled tokens gives a well-shaped tree whose rank is at least
     that of the level (`Derives.wellShaped`).
-/
import Lox.Run
import Lox.Proofs.Grammar.Recognition
import Lox.Proofs.Unparse.WellShaped

namespace Lox

/-! ## Ranks -/

/-- An operator that has a rank is repeated by the nonterminal of that rank. -/
theorem Symbol.exists_repeats {s : Symbol} {r : Nat} (h : s.rank? = some r) :
    ∃ (n m : Nonterminal) (operators : List Symbol), n.repeats = some (m, operators) ∧
      s ∈ operators ∧ n.rank = r ∧ m.rank = r + 1 := by
  cases s with
  | comma => cases h; exact ⟨.comma, _, _, rfl, by decide, rfl, rfl⟩
  | bangEqual | equalEqual => cases h; exact ⟨.equality, _, _, rfl, by decide, rfl, rfl⟩
  | greater | greaterEqual | less | lessEqual =>
    cases h; exact ⟨.comparison, _, _, rfl, by decide, rfl, rfl⟩
  | minus | plus => cases h; exact ⟨.term, _, _, rfl, by decide, rfl, rfl⟩
  | slash | star => cases h; exact ⟨.factor, _, _, rfl, by decide, rfl, rfl⟩
  | _ => cases h

theorem Nonterminal.rank_of_repeats {n m : Nonterminal} {operators : List Symbol}
    (h : n.repeats = some (m, operators)) : m.rank = n.rank + 1 := by
  cases n <;> cases h <;> rfl

/-- The operators that a nonterminal repeats have its rank. -/
theorem Symbol.rank?_of_repeats {n m : Nonterminal} {operators : List Symbol} {s : Symbol}
    (h : n.repeats = some (m, operators)) (hs : s ∈ operators) : s.rank? = some n.rank := by
  cases n <;> cases h <;> revert hs <;> cases s <;> decide

theorem Expr.rank_binary {a b : Expr} {op : Token} {s : Symbol} {r : Nat}
    (hk : op.kind = .symbol s) (hr : s.rank? = some r) : (Expr.binary a op b).rank = r := by
  rw [Expr.rank, hk]
  show s.rank?.getD 0 = r
  rw [hr, Option.getD_some]

/-! ## Writing, then parsing -/

theorem Token.marks_ofSymbol (s : Symbol) : (Token.ofSymbol s).Marks s := ⟨rfl, rfl, rfl⟩

/-- The lexemes are those of spelled tokens, which derive the tree at every level that is no tighter
    than its rank. -/
def Expr.ReadsFrom (e : Expr) (ws : List String) : Prop :=
  ∃ ts : List Token, ts.map Token.lexeme = ws ∧ (∀ t ∈ ts, t.Spelled) ∧
    ∀ n : Nonterminal, n.rank ≤ e.rank → Derives n ts e

theorem Denotes.readsFrom {t : Token} {v : Value} (h : Denotes t v) (ht : t.Spelled) :
    (Expr.literal v).ReadsFrom [t.lexeme] :=
  ⟨[t], rfl, List.forall_mem_singleton.mpr ht, fun _ hn => Derives.loosen (.literal h) hn⟩

/-- A well-shaped tree reads from its lexemes. -/
theorem Expr.WellShaped.readsFrom {e : Expr} (h : e.WellShaped) :
    ∀ ws, e.Writes ws → e.ReadsFrom ws := by
  induction h with
  | number =>
    intro ws hws
    -- the numeral in `hws` need not be the one that `e` was built from
    generalize hx : Value.number _ = v at hws ⊢
    cases hws with
    | number hd => exact Denotes.readsFrom (.number rfl rfl) (hd.spelled 0)
    | _ => cases hx
  | string hno =>
    intro ws hws
    cases hws
    exact Denotes.readsFrom (.string rfl rfl) (Token.spelled_string hno 0)
  | @boolean b =>
    intro ws hws
    cases hws
    cases b with
    | false => exact Denotes.readsFrom (.falseWord rfl) (Keyword.spelled .falseWord 0)
    | true => exact Denotes.readsFrom (.trueWord rfl) (Keyword.spelled .trueWord 0)
  | nil =>
    intro ws hws
    cases hws
    exact Denotes.readsFrom (.nilWord rfl) (Keyword.spelled .nilWord 0)
  | grouping _ ih =>
    intro ws hws
    cases hws with
    | grouping hinner =>
      obtain ⟨ts, rfl, hts, hd⟩ := ih _ hinner
      refine ⟨.ofSymbol .leftParen :: (ts ++ [.ofSymbol .rightParen]), ?_, ?_, fun n hn => ?_⟩
      · rw [List.map_cons, List.map_append]
        rfl
      · refine List.forall_mem_cons.mpr ⟨(Token.marks_ofSymbol _).spelled, ?_⟩
        refine List.forall_mem_append.mpr ⟨hts, ?_⟩
        exact List.forall_mem_singleton.mpr (Token.marks_ofSymbol _).spelled
      · exact Derives.loosen (.grouping rfl (hd .comma (Nat.zero_le _)) rfl) hn
  | @unary op s e hmarks hs _ hrank ih =>
    intro ws hws
    cases hws with
    | unary hinner =>
      obtain ⟨ts, rfl, hts, hd⟩ := ih _ hinner
      refine ⟨op :: ts, rfl, List.forall_mem_cons.mpr ⟨hmarks.spelled, hts⟩, fun n hn => ?_⟩
      refine Derives.loosen (.unary ?_ (hd .unary hrank)) hn
      rw [hmarks.kind]
      exact hs.imp (congrArg Kind.symbol) (congrArg Kind.symbol)
  | @binary a op s r b hmarks hr _ _ hleft hright iha ihb =>
    intro ws hws
    cases hws with
    | binary ha hb =>
      obtain ⟨ts, rfl, hts, hda⟩ := iha _ ha
      obtain ⟨us, rfl, hus, hdb⟩ := ihb _ hb
      obtain ⟨l, m, operators, hl, hs, hlr, hmr⟩ := Symbol.exists_repeats hr
      refine ⟨ts ++ op :: us, by rw [List.map_append, List.map_cons], ?_, fun n hn => ?_⟩
      · refine List.forall_mem_append.mpr ⟨hts, List.forall_mem_cons.mpr ⟨hmarks.spelled, hus⟩⟩
      · rw [Expr.rank_binary hmarks.kind hr] at hn
        have hda' : Derives l ts a := hda l (by omega)
        have hdb' : Derives m us b := hdb m (by omega)
        exact Derives.loosen (.binary hl hda' hmarks.kind hs hdb') (by omega)
  | conditional _ _ _ harank hbrank hcrank iha ihb ihc =>
    intro ws hws
    cases hws with
    | conditional ha hb hc =>
      obtain ⟨ts, rfl, hts, hda⟩ := iha _ ha
      obtain ⟨us, rfl, hus, hdb⟩ := ihb _ hb
      obtain ⟨vs, rfl, hvs, hdc⟩ := ihc _ hc
      refine ⟨ts ++ .ofSymbol .questionMark :: (us ++ .ofSymbol .colon :: vs), ?_, ?_,
        fun n hn => ?_⟩
      · rw [List.map_append, List.map_cons, List.map_append, List.map_cons]
        rfl
      · refine List.forall_mem_append.mpr ⟨hts, List.forall_mem_cons.mpr ⟨?_, ?_⟩⟩
        · exact (Token.marks_ofSymbol _).spelled
        · refine List.forall_mem_append.mpr ⟨hus, List.forall_mem_cons.mpr ⟨?_, hvs⟩⟩
          exact (Token.marks_ofSymbol _).spelled
      · exact Derives.loosen (.conditional (hda .ternary harank) rfl (hdb .equality hbrank) rfl
          (hdc .equality hcrank)) hn

/-! ## Parsing -/

/-- A derivation over spelled tokens gives a well-shaped tree, at least as tight as its level. -/
theorem Derives.wellShaped {n : Nonterminal} {ts : List Token} {e : Expr} (h : Derives n ts e)
    (hts : ∀ t ∈ ts, t.Spelled) : e.WellShaped ∧ n.rank ≤ e.rank := by
  induction h with
  | operand hn _ ih =>
    obtain ⟨hshaped, hrank⟩ := ih hts
    have hnm := Nonterminal.rank_of_repeats hn
    exact ⟨hshaped, by omega⟩
  | @binary n m operators ts left op s us right hn _ hk hs _ ihl ihr =>
    obtain ⟨htl, htr⟩ := List.forall_mem_append.mp hts
    obtain ⟨hop, htr⟩ := List.forall_mem_cons.mp htr
    obtain ⟨hleft, hlrank⟩ := ihl htl
    obtain ⟨hright, hrrank⟩ := ihr htr
    have hnm := Nonterminal.rank_of_repeats hn
    have hrank := Symbol.rank?_of_repeats hn hs
    constructor
    · exact .binary (hop.marks hk) hrank hleft hright hlrank (by omega)
    · exact Nat.le_of_eq (Expr.rank_binary hk hrank).symm
  | condition _ ih =>
    obtain ⟨hshaped, hrank⟩ := ih hts
    exact ⟨hshaped, Nat.le_of_succ_le hrank⟩
  | conditional _ _ _ _ _ ihc ihy ihn =>
    obtain ⟨htc, hts⟩ := List.forall_mem_append.mp hts
    obtain ⟨-, hts⟩ := List.forall_mem_cons.mp hts
    obtain ⟨hty, hts⟩ := List.forall_mem_append.mp hts
    obtain ⟨-, htn⟩ := List.forall_mem_cons.mp hts
    obtain ⟨hc, hcrank⟩ := ihc htc
    obtain ⟨hy, hyrank⟩ := ihy hty
    obtain ⟨hn, hnrank⟩ := ihn htn
    exact ⟨.conditional hc hy hn hcrank hyrank hnrank, Nat.le_refl 1⟩
  | @unary op ts e hk _ ih =>
    obtain ⟨hop, hts⟩ := List.forall_mem_cons.mp hts
    obtain ⟨hshaped, hrank⟩ := ih hts
    refine ⟨?_, Nat.le_refl 6⟩
    rcases hk with hk | hk
    · exact .unary (hop.marks hk) (.inl rfl) hshaped hrank
    · exact .unary (hop.marks hk) (.inr rfl) hshaped hrank
  | primary _ ih =>
    obtain ⟨hshaped, hrank⟩ := ih hts
    exact ⟨hshaped, Nat.le_of_succ_le hrank⟩
  | @literal t v hv =>
    have ht := List.forall_mem_singleton.mp hts
    refine ⟨?_, Nat.le_refl 7⟩
    cases hv with
    | falseWord | trueWord => exact .boolean
    | nilWord => exact .nil
    | number hk hl =>
      obtain ⟨text, d, hd, rfl⟩ := ht.numeral hk hl
      exact .number hd
    | string hk hl => exact .string (ht.no_quote hk hl)
  | grouping _ _ _ ih =>
    obtain ⟨-, hts⟩ := List.forall_mem_cons.mp hts
    obtain ⟨hts, -⟩ := List.forall_mem_append.mp hts
    exact ⟨.grouping (ih hts).1, Nat.le_refl 7⟩

/-! ## Sources -/

/-- A tree that is written is parsed back, up to the lines of its operators. -/
theorem Expr.WellShaped.parse_writes {e : Expr} (h : e.WellShaped) {ws : List String}
    (hws : e.Writes ws) :
    (scan (" ".intercalate ws)).errors = [] ∧
      ∃ e', parse (" ".intercalate ws) = .ok e' ∧ e'.withoutLines = e.withoutLines := by
  obtain ⟨ts, rfl, hts, hd⟩ := h.readsFrom ws hws
  obtain ⟨us, last, hscan, hsame⟩ := scan_spaced hts
  obtain ⟨e', hd', he⟩ := (hd .comma (Nat.zero_le _)).withoutLines us hsame.symm
  rw [parse, hscan]
  exact ⟨rfl, e', TokenStream.parseTokens_endOn hd' last, he⟩

/-- What a source parses to is derived from its first words. -/
theorem derives_of_parse {source : String} {e : Expr} (h : parse source = .ok e) :
    ∃ us rest, (scan source).words = us ++ rest ∧ Derives .comma us e := by
  obtain ⟨htokens, hwords⟩ := tokens_scan source
  have hpending := TokenStream.pending_endOn hwords (lastLine source.toList)
  rw [parse, htokens, parseTokens] at h
  rcases TokenStream.expression_cases ((scan source).words ++ [.endOn (lastLine source.toList)]) with
    ⟨us, rest, e', hus, hd, -, hx⟩ | ⟨cause, rest, -, hx⟩
  · rw [hx] at h
    obtain rfl : e' = e := Except.ok.inj h
    exact ⟨us, rest, hpending.symm.trans hus, hd⟩
  · rw [hx] at h
    cases h

/-- A tree that is parsed is well shaped. -/
theorem wellShaped_of_parse {source : String} {e : Expr} (h : parse source = .ok e) :
    e.WellShaped := by
  obtain ⟨us, rest, hwords, hd⟩ := derives_of_parse h
  obtain ⟨vs, last, htokens, hspelled⟩ := spelled_scan source
  rw [Scan.words_eq htokens fun t ht => (hspelled t ht).not_eof] at hwords
  rw [hwords] at hspelled
  exact (hd.wellShaped (List.forall_mem_append.mp hspelled).1).1

/-- **Unparsing is inverted, and only well-shaped trees are parsed.**  A well-shaped tree can be
    written, and however its numbers are written, its lexemes with single spaces between them scan
    without error and parse to the tree, up to the lines of its operators.  Conversely whatever any
    source parses to is well shaped. -/
theorem unparse_parse :
    (∀ e : Expr, e.WellShaped →
      (∃ ws, e.Writes ws) ∧
      ∀ ws, e.Writes ws →
        (scan (" ".intercalate ws)).errors = [] ∧
        ∃ e', parse (" ".intercalate ws) = .ok e' ∧ e'.withoutLines = e.withoutLines) ∧
    ∀ source e, parse source = .ok e → e.WellShaped := by
  constructor
  · intro e he
    exact ⟨he.exists_writes, fun ws hws => he.parse_writes hws⟩
  · intro source e h
    exact wellShaped_of_parse h

/-- A conditional may be the condition of another without parentheses. -/
theorem unparse_parse_nested_conditional :
    let no := Expr.literal .nil
    let e := Expr.conditional (.conditional no no no) no (.unary (.ofSymbol .minus) no)
    let source := " ".intercalate ["nil", "?", "nil", ":", "nil", "?", "nil", ":", "-", "nil"]
    e.WellShaped ∧ (scan source).errors = [] ∧
      ∃ e', parse source = .ok e' ∧ e'.withoutLines = e.withoutLines ∧ e'.WellShaped := by
  intro no e source
  have hminus : Expr.WellShaped (.unary (.ofSymbol .minus) no) :=
    .unary (Token.marks_ofSymbol .minus) (.inr rfl) .nil (by decide)
  have hinner : Expr.WellShaped (.conditional no no no) :=
    .conditional .nil .nil .nil (by decide) (by decide) (by decide)
  have he : e.WellShaped := .conditional hinner .nil hminus (by decide) (by decide) (by decide)
  have hwrites : e.Writes ["nil", "?", "nil", ":", "nil", "?", "nil", ":", "-", "nil"] :=
    .conditional (.conditional .nil .nil .nil) .nil (.unary .nil)
  obtain ⟨herrors, e', hparse, hsame⟩ := (unparse_parse.1 e he).2 _ hwrites
  exact ⟨he, herrors, e', hparse, hsame, unparse_parse.2 source e' hparse⟩

end Lox
