/-
  Printed numbers — what is printed for a number is a source for the same number.

  A source may spell a number with any digits: zeros in front, zeros behind, far more places than a
  double has.  Its text is the shortest spelling, and that is again ONE number lexeme.

  1. **Numerals as sources** — a numeral by itself is scanned as one number, and all of it is the lexeme.
  2. **Numbers as expressions** — a number by itself is parsed as its literal, and every form of the tree
     is the text of the number.
  3. **Printing again** — the text of a finite number is a numeral that stands for it (`exists_numeral`),
     so it is scanned as the number that was printed, and printed as it is.
-/
import Lox.Proofs.Grammar.EarliestError
import Lox.Proofs.Printing.Bracketed
import Lox.Proofs.Report.Located

namespace Lox

/-! ## Numerals as sources -/

/-- A numeral is on one line. -/
theorem Numeral.newlines_eq_zero {text : List Char} {d : Decimal} (h : Numeral text d) :
    newlines text = 0 := by
  have hdigit : ∀ c : Char, c.isDigit → c ≠ '\n' := by
    rintro c hc rfl
    exact absurd hc (by decide)
  refine List.count_eq_zero.mpr fun hmem => ?_
  cases h with
  | whole _ hdigits => exact hdigit _ (hdigits _ hmem) rfl
  | fraction _ hdigits _ hplaces =>
    rcases List.mem_append.mp hmem with hmem | hmem
    · exact hdigit _ (hdigits _ hmem) rfl
    · rcases List.mem_cons.mp hmem with heq | hmem
      · exact absurd heq (by decide)
      · exact hdigit _ (hplaces _ hmem) rfl

/-- **A numeral is scanned as one number**, and nothing of it is left. -/
theorem scan_numeral {text : String} {d : Decimal} (h : Numeral text.toList d) :
    scan text = ⟨[⟨.number, text, some (.number d.toBinary64), 1⟩, .endOn 1], []⟩ := by
  have hshape : Shape .number text.toList [] := .lexeme (h.lexeme spaceNext_nil)
  have hsplits := Splits.cons hshape .nil
  rw [List.append_nil] at hsplits
  have htokens : Tokenizes 1 [⟨.number, text.toList⟩] _ [] := .token (.number h) .eof
  rw [String.ofList_toList, h.newlines_eq_zero] at htokens
  exact scan_eq hsplits htokens

/-! ## Numbers as expressions -/

/-- A source that is one number is printed as the text of the number. -/
theorem runSource_number {source : String} {t : Token} {line : Nat} {x : Binary64}
    (htokens : (scan source).tokens = [t, .endOn line]) (herrors : (scan source).errors = [])
    (hkind : t.kind = .number) (hliteral : t.literal = some (.number x)) :
    runSource source .bracketed = .ok x.text ∧ runSource source .reversePolish = .ok x.text := by
  have hderives : Derives .comma [t] (.literal (.number x)) :=
    .of_denotes (.number hkind hliteral) .comma
  have hparse : parse source = .ok (.literal (.number x)) := by
    rw [parse, htokens]
    exact TokenStream.parseTokens_endOn hderives line
  have hnone : lexicalDiagnostics source = [] := by
    rw [lexicalDiagnostics, herrors]
    rfl
  have hbracketed : render .bracketed (scan source).tokens = (parse source).map Expr.bracketed := rfl
  have hpolish : render .reversePolish (scan source).tokens
      = (parse source).map Expr.reversePolish := rfl
  refine ⟨(runSource_of_render hbracketed).1 _ hnone hparse, ?_⟩
  rw [(runSource_of_render hpolish).1 _ hnone hparse]
  exact congrArg Except.ok String.empty_append

/-! ## Printing again -/

/-- The number is finite. -/
def Binary64.Finite : Binary64 → Prop
  | .nan => False
  | .signed _ m => m ≠ .infinity

/-- The text of a finite number that a numeral stands for is scanned as that number. -/
theorem scan_text {d : Decimal} (h : d.toBinary64.Finite) :
    scan d.toBinary64.text
      = ⟨[⟨.number, d.toBinary64.text, some (.number d.toBinary64), 1⟩, .endOn 1], []⟩ := by
  have htext : d.toBinary64.text = d.magnitude.text := Value.text_number d.magnitude
  obtain ⟨d', hnumeral, hsame⟩ := Magnitude.exists_numeral h
  rw [← htext] at hnumeral
  have hvalue : d'.toBinary64 = d.toBinary64 := congrArg (Binary64.signed false) hsame
  rw [← hvalue] at hnumeral ⊢
  exact scan_numeral hnumeral

/-- **A printed number is a number of the same value.**  If the tokens of a source are one number and
    the end of input, without an error, and the number is finite, then both forms of the tree are the
    text of the number.  This text is scanned without an error as one number, of which it is the whole
    lexeme and which has the same sign and the same magnitude; so printing it gives it again. -/
theorem number_reprinted (source : String) (t : Token) (line : Nat) (x : Binary64)
    (htokens : (scan source).tokens = [t, .endOn line]) (herrors : (scan source).errors = [])
    (hkind : t.kind = .number) (hliteral : t.literal = some (.number x)) (hfinite : x.Finite) :
    runSource source .bracketed = .ok x.text ∧ runSource source .reversePolish = .ok x.text ∧
      scan x.text = ⟨[⟨.number, x.text, some (.number x), 1⟩, .endOn 1], []⟩ ∧
      runSource x.text .bracketed = .ok x.text ∧ runSource x.text .reversePolish = .ok x.text := by
  obtain ⟨us, last, hus, hspelled⟩ := spelled_scan source
  have hmem : t ∈ us := by
    have hboth : us ++ [.endOn last] = [t] ++ [.endOn line] := hus.symm.trans htokens
    rw [(List.append_inj' hboth rfl).1]
    exact List.mem_singleton_self t
  obtain ⟨text, d, -, rfl⟩ := (hspelled t hmem).numeral hkind hliteral
  have hscan := scan_text hfinite
  obtain ⟨hbracketed, hpolish⟩ := runSource_number htokens herrors hkind hliteral
  have hagain := runSource_number (congrArg Scan.tokens hscan) (congrArg Scan.errors hscan) rfl rfl
  exact ⟨hbracketed, hpolish, hscan, hagain⟩

/-- Zeros on both sides and a value half way between two doubles, of which the even one is printed. -/
theorem number_reprinted_halfway :
    let source := "0009007199254740993.00 // 2^53 + 1"
    let x := Binary64.ofBits 0x4340000000000000
    let t : Token := ⟨.number, "0009007199254740993.00", some (.number x), 1⟩
    (scan source).tokens = [t, .endOn 1] ∧ (scan source).errors = [] ∧ x.Finite ∧
      x.text = "9007199254740992" ∧
      runSource source .bracketed = .ok x.text ∧ runSource source .reversePolish = .ok x.text ∧
      scan x.text = ⟨[⟨.number, x.text, some (.number x), 1⟩, .endOn 1], []⟩ ∧
      runSource x.text .bracketed = .ok x.text := by
  intro source x t
  have htokens : (scan source).tokens = [t, .endOn 1] := by decide +kernel
  have herrors : (scan source).errors = [] := by decide +kernel
  have hfinite : x.Finite := by
    show Magnitude.mk _ _ ≠ .infinity
    decide +kernel
  obtain ⟨hbracketed, hpolish, hscan, hagain, -⟩ :=
    number_reprinted source t 1 x htokens herrors rfl rfl hfinite
  exact ⟨htokens, herrors, hfinite, by decide +kernel, hbracketed, hpolish, hscan, hagain⟩

end Lox
