/-
  Lexemes — the lexical grammar, on its own.

  Nothing here scans.  Each rule says when a text, GIVEN WHAT FOLLOWS IT, is a piece of source of some
  form: a rule of longest match is a condition on the rest.

  1. **Lexemes** — `Lexeme form text rest`, a rule for each form; a number has two.
  2. **Shapes** — a lexeme, or one character with which no lexeme begins.
  3. **Splits** — `Splits cs ps`: the texts of the pieces `ps` are the source `cs`, in order, and each
     piece has its shape before the rest of the source.
-/
import Lox.Source.Piece

namespace Lox

/-! ## Lexemes -/

/-- The text is a lexeme of the form when the source goes on with `rest`. -/
inductive Lexeme : Form → List Char → List Char → Prop where
  | blank {c rest} : c = ' ' ∨ c = '\t' ∨ c = '\r' ∨ c = '\n' → Lexeme .blank [c] rest
  /-- A line comment goes up to the next line feed, which it leaves. -/
  | lineComment {body rest} : '\n' ∉ body → (∀ c ∈ rest.head?, c = '\n') →
      Lexeme .lineComment ('/' :: '/' :: body) rest
  /-- A block comment goes to the FIRST `*/` after its opening. -/
  | blockComment {body rest} : ¬ ['*', '/'] <:+: body →
      Lexeme .blockComment ('/' :: '*' :: (body ++ ['*', '/'])) rest
  | string {body rest} : '"' ∉ body → Lexeme .string ('"' :: (body ++ ['"'])) rest
  /-- Digits alone: no digit follows, and no point with a digit. -/
  | whole {digits rest} : digits ≠ [] → (∀ c ∈ digits, c.isDigit) →
      (∀ c ∈ rest.head?, ¬ c.isDigit) → (∀ d more, rest = '.' :: d :: more → ¬ d.isDigit) →
      Lexeme .number digits rest
  /-- Digits, a point, and digits: no further digit follows. -/
  | fraction {digits places rest} : digits ≠ [] → (∀ c ∈ digits, c.isDigit) → places ≠ [] →
      (∀ c ∈ places, c.isDigit) → (∀ c ∈ rest.head?, ¬ c.isDigit) →
      Lexeme .number (digits ++ '.' :: places) rest
  | word {c body rest} : c.isAlpha ∨ c = '_' →
      (∀ d ∈ body, d.isAlpha ∨ d = '_' ∨ d.isDigit) →
      (∀ d ∈ rest.head?, ¬ (d.isAlpha ∨ d = '_' ∨ d.isDigit)) → Lexeme .word (c :: body) rest
  /-- No longer symbol begins here, and a slash begins no comment. -/
  | symbol {s rest} :
      (∀ t : Symbol, t.spelling.toList <+: s.spelling.toList ++ rest →
        t.spelling.length ≤ s.spelling.length) →
      (s = .slash → ∀ c ∈ rest.head?, c ≠ '/' ∧ c ≠ '*') →
      Lexeme (.symbol s) s.spelling.toList rest
  /-- A string without a closing quote takes all that is left. -/
  | openString {body} : '"' ∉ body → Lexeme .openString ('"' :: body) []
  /-- So does a block comment without a `*/`. -/
  | openComment {body} : ¬ ['*', '/'] <:+: body → Lexeme .openComment ('/' :: '*' :: body) []

/-! ## Shapes and splits -/

/-- Some lexeme begins with the character and takes a part of what follows. -/
def Starts (c : Char) (cs : List Char) : Prop :=
  ∃ form body rest, cs = body ++ rest ∧ Lexeme form (c :: body) rest

/-- The text is a piece of the form when the source goes on with `rest`. -/
inductive Shape : Form → List Char → List Char → Prop where
  | lexeme {form text rest} : Lexeme form text rest → Shape form text rest
  /-- One character, with which no lexeme begins. -/
  | stray {c rest} : ¬ Starts c rest → Shape (.stray c) [c] rest

/-- The source is split into the pieces. -/
inductive Splits : List Char → List Piece → Prop where
  | nil : Splits [] []
  | cons {form text rest ps} : Shape form text rest → Splits rest ps →
      Splits (text ++ rest) (⟨form, text⟩ :: ps)

theorem Symbol.spelling_ne_nil (s : Symbol) : s.spelling.toList ≠ [] := by
  cases s <;> decide

theorem Lexeme.ne_nil {form : Form} {text rest : List Char} (h : Lexeme form text rest) :
    text ≠ [] := by
  cases h with
  | whole hne => exact hne
  | symbol => exact Symbol.spelling_ne_nil _
  | fraction => exact List.append_ne_nil_of_right_ne_nil _ (List.cons_ne_nil _ _)
  | _ => exact List.cons_ne_nil _ _

/-- A piece is not empty. -/
theorem Shape.ne_nil {form : Form} {text rest : List Char} (h : Shape form text rest) :
    text ≠ [] := by
  cases h with
  | lexeme h => exact h.ne_nil
  | stray => exact List.cons_ne_nil _ _

theorem Splits.ne_nil {cs : List Char} {ps : List Piece} (h : Splits cs ps) :
    ∀ p ∈ ps, p.text ≠ [] := by
  induction h with
  | nil => exact fun p hp => absurd hp List.not_mem_nil
  | cons hshape _ ih =>
    intro p hp
    rcases List.mem_cons.mp hp with rfl | hp
    · exact hshape.ne_nil
    · exact ih p hp

/-- Nothing is lost and nothing comes twice. -/
theorem Splits.flatMap_text {cs : List Char} {ps : List Piece} (h : Splits cs ps) :
    ps.flatMap Piece.text = cs := by
  induction h with
  | nil => rfl
  | cons _ _ ih => rw [List.flatMap_cons, ih]

end Lox
