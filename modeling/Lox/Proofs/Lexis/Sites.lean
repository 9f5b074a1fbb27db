/-
  Sites — where in a source its tokens and errors stand, and that the reported lines say so.

  The scanner counts lines as it goes: strings and comments hold line feeds, and what is looked ahead
  at is not counted.  Here nothing is counted along the way; a line is the number of line feeds in ALL
  the text before.

  1. **Sites** — each piece of a split, with the text before it.
  2. **Tokens and errors** — one for one the words of a scan are the pieces that are tokens, and its
     errors the pieces that are faults, each on the line of its site.
  3. **Order** — lines never go back, along the tokens and along the errors.
-/
import Lox.Proofs.Lexis.Tokens

namespace Lox

/-! ## Sites -/

/-- A piece of a source, and the text before it. -/
structure Site where
  before : List Char
  piece : Piece

/-- The sites of consecutive pieces, the first of which has the given text before it. -/
def sites (before : List Char) : List Piece → List Site
  | [] => []
  | p :: ps => ⟨before, p⟩ :: sites (before ++ p.text) ps

namespace Site

/-- The line on which the piece begins. -/
def line (s : Site) : Nat := 1 + newlines s.before

/-- The piece is a token. -/
def isToken (s : Site) : Bool :=
  match s.piece.form with
  | .string | .number | .word | .symbol _ => true
  | _ => false

/-- The piece is an error. -/
def isFault (s : Site) : Bool :=
  match s.piece.form with
  | .openString | .openComment | .stray _ => true
  | _ => false

end Site

/-- A site is in the source: the text before it, its piece, and some text after it. -/
theorem exists_after_of_mem_sites {before : List Char} {ps : List Piece} {s : Site}
    (h : s ∈ sites before ps) :
    ∃ after, before ++ ps.flatMap Piece.text = s.before ++ s.piece.text ++ after := by
  induction ps generalizing before with
  | nil => cases h
  | cons p ps ih =>
    rw [List.flatMap_cons]
    rcases List.mem_cons.mp h with rfl | h
    · exact ⟨ps.flatMap Piece.text, (List.append_assoc ..).symm⟩
    · obtain ⟨after, hafter⟩ := ih h
      exact ⟨after, by rw [← hafter, List.append_assoc]⟩

/-- The sites of pieces behind a text lie behind it. -/
theorem le_before_of_mem_sites {before : List Char} {ps : List Piece} {s : Site}
    (h : s ∈ sites before ps) : before.length ≤ s.before.length := by
  induction ps generalizing before with
  | nil => cases h
  | cons p ps ih =>
    rcases List.mem_cons.mp h with rfl | h
    · exact Nat.le_refl _
    · have hle := ih h
      rw [List.length_append] at hle
      exact Nat.le_of_add_right_le hle

/-! ## Tokens and errors -/

/-- What a faulty piece begins with. -/
def ScanFault.opening : ScanFault → List Char
  | strayCharacter c => [c]
  | openString => ['"']
  | openComment => ['/', '*']

theorem Shape.opening {form : Form} {text rest : List Char} {fault : ScanFault}
    (h : Shape form text rest) (hfault : form.Faulty fault) : fault.opening <+: text := by
  cases h with
  | stray =>
    cases hfault
    exact List.prefix_rfl
  | lexeme hlex =>
    cases hfault with
    | stray => cases hlex
    | openString =>
      cases hlex with
      | @openString body => exact ⟨body, rfl⟩
    | openComment =>
      cases hlex with
      | @openComment body => exact ⟨body, rfl⟩

/-- The token is the piece of the site, and is on its line. -/
structure Token.IsAt (s : Site) (t : Token) : Prop where
  reads : s.piece.Reads t.kind t.literal
  lexeme : t.lexeme.toList = s.piece.text
  line : t.line = s.line

/-- The error is that of the piece of the site, and is on the line of its opening. -/
structure ScanError.IsAt (s : Site) (e : ScanError) : Prop where
  faulty : s.piece.form.Faulty e.fault
  opening : e.fault.opening <+: s.piece.text
  line : e.line = s.line

theorem Site.isToken_of_reads {s : Site} {kind : Kind} {literal : Option Literal}
    (h : s.piece.Reads kind literal) : s.isToken ∧ ¬ s.isFault := by
  rw [isToken, isFault]
  generalize s.piece = p at h
  cases h <;> exact ⟨rfl, Bool.false_ne_true⟩

theorem Site.isFault_of_faulty {s : Site} {fault : ScanFault} (h : s.piece.form.Faulty fault) :
    ¬ s.isToken ∧ s.isFault := by
  rw [isToken, isFault]
  generalize s.piece.form = form at h
  cases h <;> exact ⟨Bool.false_ne_true, rfl⟩

theorem Site.neither_of_silent {s : Site} (h : s.piece.form.Silent) :
    ¬ s.isToken ∧ ¬ s.isFault := by
  rw [isToken, isFault]
  generalize s.piece.form = form at h
  cases h <;> exact ⟨Bool.false_ne_true, Bool.false_ne_true⟩

/-- **What pieces stand for is at their sites**, if the line counted so far is that of the text so
    far. -/
theorem Tokenizes.isAt {line : Nat} {cs : List Char} {ps : List Piece} {ts : List Token}
    {es : List ScanError} (hsplits : Splits cs ps) (h : Tokenizes line ps ts es) :
    ∀ before, line = 1 + newlines before →
      ∃ us, ts = us ++ [.endOn (1 + newlines (before ++ cs))] ∧
        List.Forall₂ Token.IsAt ((sites before ps).filter Site.isToken) us ∧
        List.Forall₂ ScanError.IsAt ((sites before ps).filter Site.isFault) es := by
  have hcounted : ∀ before text : List Char,
      1 + newlines before + newlines text = 1 + newlines (before ++ text) := by
    intro before text
    rw [newlines_append, Nat.add_assoc]
  induction h generalizing cs with
  | eof =>
    rintro before rfl
    cases hsplits
    exact ⟨[], by rw [List.append_nil]; rfl, .nil, .nil⟩
  | token hreads _ ih =>
    rintro before rfl
    cases hsplits with
    | @cons form text rest _ hshape htail =>
      obtain ⟨us, rfl, hus, hes⟩ := ih htail (before ++ text) (hcounted before text)
      obtain ⟨htoken, hfault⟩ := Site.isToken_of_reads (s := ⟨before, ⟨form, text⟩⟩) hreads
      rw [List.append_assoc, sites, List.filter_cons_of_pos htoken, List.filter_cons_of_neg hfault]
      exact ⟨_ :: us, rfl, .cons ⟨hreads, String.toList_ofList, rfl⟩ hus, hes⟩
  | fault hfaulty _ ih =>
    rintro before rfl
    cases hsplits with
    | @cons form text rest _ hshape htail =>
      obtain ⟨us, rfl, hus, hes⟩ := ih htail (before ++ text) (hcounted before text)
      obtain ⟨htoken, hfault⟩ := Site.isFault_of_faulty (s := ⟨before, ⟨form, text⟩⟩) hfaulty
      rw [List.append_assoc, sites, List.filter_cons_of_neg htoken, List.filter_cons_of_pos hfault]
      exact ⟨us, rfl, hus, .cons ⟨hfaulty, hshape.opening hfaulty, rfl⟩ hes⟩
  | silent hsilent _ ih =>
    rintro before rfl
    cases hsplits with
    | @cons form text rest _ hshape htail =>
      obtain ⟨us, rfl, hus, hes⟩ := ih htail (before ++ text) (hcounted before text)
      obtain ⟨htoken, hfault⟩ := Site.neither_of_silent (s := ⟨before, ⟨form, text⟩⟩) hsilent
      rw [List.append_assoc, sites, List.filter_cons_of_neg htoken, List.filter_cons_of_neg hfault]
      exact ⟨us, rfl, hus, hes⟩

/-! ## Order -/

/-- Nothing that pieces stand for is above the line on which the first of them begins. -/
theorem Tokenizes.le_line {line : Nat} {ps : List Piece} {ts : List Token} {es : List ScanError}
    (h : Tokenizes line ps ts es) : (∀ t ∈ ts, line ≤ t.line) ∧ ∀ e ∈ es, line ≤ e.line := by
  induction h with
  | eof => exact ⟨List.forall_mem_singleton.mpr (Nat.le_refl _), by simp⟩
  | token _ _ ih =>
    refine ⟨List.forall_mem_cons.mpr ⟨Nat.le_refl _, fun t ht => ?_⟩, fun e he => ?_⟩
    · exact Nat.le_of_add_right_le (ih.1 t ht)
    · exact Nat.le_of_add_right_le (ih.2 e he)
  | fault _ _ ih =>
    refine ⟨fun t ht => ?_, List.forall_mem_cons.mpr ⟨Nat.le_refl _, fun e he => ?_⟩⟩
    · exact Nat.le_of_add_right_le (ih.1 t ht)
    · exact Nat.le_of_add_right_le (ih.2 e he)
  | silent _ _ ih =>
    refine ⟨fun t ht => ?_, fun e he => ?_⟩
    · exact Nat.le_of_add_right_le (ih.1 t ht)
    · exact Nat.le_of_add_right_le (ih.2 e he)

/-- Lines never go back. -/
theorem Tokenizes.pairwise_line {line : Nat} {ps : List Piece} {ts : List Token}
    {es : List ScanError} (h : Tokenizes line ps ts es) :
    ts.Pairwise (fun t u => t.line ≤ u.line) ∧ es.Pairwise (fun e f => e.line ≤ f.line) := by
  induction h with
  | eof => exact ⟨List.pairwise_singleton .., .nil⟩
  | token _ htail ih =>
    refine ⟨.cons (fun t ht => ?_) ih.1, ih.2⟩
    exact Nat.le_of_add_right_le (htail.le_line.1 t ht)
  | fault _ htail ih =>
    refine ⟨ih.1, .cons (fun e he => ?_) ih.2⟩
    exact Nat.le_of_add_right_le (htail.le_line.2 e he)
  | silent _ _ ih => exact ih

/-- **Every reported position is exact.**  A source has one split.  One for one, its tokens but the
    end of input are the pieces that are tokens and its errors are the pieces that are faults, each on
    the line of its first character; the end of input is on the last line.  Lines never go back. -/
theorem scan_positions (source : String) :
    ∃ ps, (∀ qs, Splits source.toList qs ↔ qs = ps) ∧
      (∀ s ∈ sites [] ps, ∃ after, source.toList = s.before ++ s.piece.text ++ after) ∧
      (scan source).tokens = (scan source).words ++ [.endOn (1 + newlines source.toList)] ∧
      List.Forall₂ Token.IsAt ((sites [] ps).filter Site.isToken) (scan source).words ∧
      List.Forall₂ ScanError.IsAt ((sites [] ps).filter Site.isFault) (scan source).errors ∧
      (scan source).tokens.Pairwise (fun t u => t.line ≤ u.line) ∧
      (scan source).errors.Pairwise (fun e f => e.line ≤ f.line) := by
  have hsplits := splits_pieces source.toList
  have hscan := tokenizes_scan source
  obtain ⟨us, htokens, hus, hes⟩ := hscan.isAt hsplits [] rfl
  obtain ⟨hwords, -⟩ := tokens_scan source
  have hsame : us = (scan source).words := by
    have hboth := htokens.symm.trans hwords
    exact (List.append_inj' hboth rfl).1
  refine ⟨pieces source.toList, fun qs => ⟨Splits.eq_pieces, ?_⟩, fun s hs => ?_, hwords,
    hsame ▸ hus, hes, hscan.pairwise_line⟩
  · rintro rfl
    exact hsplits
  · obtain ⟨after, hafter⟩ := exists_after_of_mem_sites hs
    rw [List.nil_append, flatMap_text_pieces] at hafter
    exact ⟨after, hafter⟩

end Lox
