/-
  Stray characters — they can be blanked out, and nothing else changes.

  A piece is recognised with ALL that follows it in view, so what stands in the place of a stray
  character could in principle change the pieces before it.

  1. **Blanking** — the source with each stray character replaced, in its place, by a space.
  2. **Fading** — one text fades to another if characters with which no lexeme begins are replaced by
     spaces.  A lexeme stays a lexeme when what follows it fades: wherever a rule of longest match
     looks at the next character, a space ends the lexeme just as a stray character does.
  3. **Scans** — so the split keeps its pieces, each stray one now a blank, and the scan its tokens and
     its other errors.
  4. **Runs** — the diagnostics of the other errors are those of the blanked source.
-/
import Mathlib.Data.List.Forall2
import Lox.Proofs.Lexis.Seam
import Lox.Proofs.Lexis.Sites
import Lox.Run

namespace Lox

/-! ## Blanking -/

/-- A piece of the form is a character that begins nothing. -/
def Form.isStray : Form → Bool
  | .stray _ => true
  | _ => false

/-- The error is an unexpected character. -/
def ScanError.isStray (e : ScanError) : Bool :=
  match e.fault with
  | .strayCharacter _ => true
  | _ => false

/-- The message says that a character is unexpected. -/
def Diagnostic.isStray (d : Diagnostic) : Bool :=
  "Unexpected character: ".toList.isPrefixOf d.message.toList

/-- The sites of the stray characters of a source, in order. -/
def strays (source : String) : List Site :=
  (sites [] (pieces source.toList)).filter fun s => s.piece.form.isStray

/-- The piece, or a space if it is a stray character. -/
def Piece.blanked (p : Piece) : Piece := if p.form.isStray then ⟨.blank, [' ']⟩ else p

/-- The source with every stray character replaced by a space. -/
def blanked (source : String) : String :=
  String.ofList ((pieces source.toList).flatMap fun p => p.blanked.text)

theorem Piece.blanked_of_not_stray {p : Piece} (h : p.form.isStray = false) : p.blanked = p := by
  rw [blanked, h, if_neg Bool.false_ne_true]

/-- A stray piece is one character, and no lexeme begins with it. -/
theorem Shape.eq_of_isStray {form : Form} {text rest : List Char} (h : Shape form text rest)
    (hstray : form.isStray = true) : ∃ c, form = .stray c ∧ text = [c] ∧ ¬ Starts c rest := by
  cases h with
  | stray hnot => exact ⟨_, rfl, rfl, hnot⟩
  | lexeme hlex => cases hlex <;> cases hstray

/-! ## Fading -/

/-- The character stays, or is one with which no lexeme begins and becomes a space. -/
def FadesTo (c d : Char) : Prop := d = c ∨ d = ' ' ∧ ¬ Starts c []

theorem fades_refl (cs : List Char) : List.Forall₂ FadesTo cs cs :=
  List.forall₂_same.mpr fun _ _ => .inl rfl

/-- What holds of the next character, and of a space, holds once the text has faded. -/
theorem head?_fades {p : Char → Prop} {rest rest' : List Char}
    (h : List.Forall₂ FadesTo rest rest') (hrest : ∀ c ∈ rest.head?, p c) (hp : p ' ') :
    ∀ c ∈ rest'.head?, p c := by
  intro d hd
  cases h with
  | nil => cases hd
  | @cons c d' rest rest' hfades htail =>
    obtain rfl : d' = d := Option.some.inj hd
    rcases hfades with rfl | ⟨rfl, -⟩
    · exact hrest d' rfl
    · exact hp

/-- A text without a space that begins a faded text began it before. -/
theorem prefix_of_fades {text rest rest' : List Char} (h : List.Forall₂ FadesTo rest rest')
    (hspace : ' ' ∉ text) (hp : text <+: rest') : text <+: rest := by
  induction h generalizing text with
  | nil => exact hp
  | @cons c d rest rest' hfades htail ih =>
    cases text with
    | nil => exact List.nil_prefix
    | cons e text =>
      obtain ⟨rfl, htext⟩ := List.cons_prefix_cons.mp hp
      rw [List.mem_cons, not_or] at hspace
      obtain ⟨hne, hspace⟩ := hspace
      have hstays : e = c := by
        rcases hfades with heq | ⟨heq, -⟩
        · exact heq
        · exact absurd heq.symm hne
      subst hstays
      exact List.cons_prefix_cons.mpr ⟨rfl, ih hspace htext⟩

/-- **A lexeme does not notice** that stray characters behind it fade. -/
theorem Lexeme.fades {form : Form} {text rest rest' : List Char} (h : Lexeme form text rest)
    (hfades : List.Forall₂ FadesTo rest rest') : Lexeme form text rest' := by
  cases h with
  | blank hc => exact .blank hc
  | lineComment hbody hrest =>
    refine .lineComment hbody fun d hd => ?_
    cases hfades with
    | nil => cases hd
    | @cons c d' _ _ hfade _ =>
      obtain rfl : d' = d := Option.some.inj hd
      obtain rfl : c = '\n' := hrest c rfl
      -- a line feed is a blank, and stays
      have hblank : Starts '\n' [] := ⟨_, [], [], rfl, .blank (by decide)⟩
      exact hfade.resolve_right fun hboth => hboth.2 hblank
  | blockComment hbody => exact .blockComment hbody
  | string hbody => exact .string hbody
  | whole hne hdigits hrest hpoint =>
    refine .whole hne hdigits (head?_fades hfades hrest (by decide)) ?_
    rintro d' more' rfl
    cases hfades with
    | @cons c _ _ _ hc htail =>
      cases htail with
      | @cons d _ more _ hd _ =>
        have hcpoint : '.' = c := hc.resolve_right fun hboth => absurd hboth.1 (by decide)
        subst hcpoint
        rcases hd with rfl | ⟨rfl, -⟩
        · exact hpoint d' more rfl
        · decide
  | fraction hne hdigits hplaces hall hrest =>
    exact .fraction hne hdigits hplaces hall (head?_fades hfades hrest (by decide))
  | word hc hbody hrest => exact .word hc hbody (head?_fades hfades hrest (by decide))
  | @symbol s _ hlongest hslash =>
    refine .symbol (fun t ht => hlongest t ?_) fun hs => head?_fades hfades (hslash hs) (by decide)
    have hall := List.rel_append (fades_refl s.spelling.toList) hfades
    exact prefix_of_fades hall (t.blank_not_mem (by decide)) ht
  | openString hbody =>
    cases hfades
    exact .openString hbody
  | openComment hbody =>
    cases hfades
    exact .openComment hbody

/-! ## Scans -/

/-- **The split keeps its pieces**, the stray ones as blanks. -/
theorem Splits.blanked {cs : List Char} {ps : List Piece} (h : Splits cs ps) :
    List.Forall₂ FadesTo cs (ps.flatMap fun p => p.blanked.text) ∧
      Splits (ps.flatMap fun p => p.blanked.text) (ps.map Piece.blanked) := by
  induction h with
  | nil => exact ⟨.nil, .nil⟩
  | @cons form text rest ps hshape _ ih =>
    obtain ⟨hfades, hsplits⟩ := ih
    rw [List.flatMap_cons, List.map_cons]
    cases hstray : form.isStray with
    | true =>
      obtain ⟨c, rfl, rfl, hnot⟩ := hshape.eq_of_isStray hstray
      have hfade : FadesTo c ' ' := .inr ⟨rfl, fun hstarts => hnot (hstarts.congr rest)⟩
      exact ⟨.cons hfade hfades, .cons (.lexeme (.blank (.inl rfl))) hsplits⟩
    | false =>
      rw [Piece.blanked_of_not_stray hstray]
      refine ⟨List.rel_append (fades_refl text) hfades, .cons ?_ hsplits⟩
      cases hshape with
      | stray => cases hstray
      | lexeme hlex => exact .lexeme (hlex.fades hfades)

/-- What the pieces stand for stays, but the stray characters. -/
theorem Tokenizes.blanked {line : Nat} {cs : List Char} {ps : List Piece} {ts : List Token}
    {es : List ScanError} (hsplits : Splits cs ps) (h : Tokenizes line ps ts es) :
    Tokenizes line (ps.map Piece.blanked) ts (es.filter fun e => !e.isStray) := by
  induction h generalizing cs with
  | eof => exact .eof
  | @token line p _ _ _ _ _ hreads _ ih =>
    have hnot : p.form.isStray = false := by cases hreads <;> rfl
    rw [List.map_cons, Piece.blanked_of_not_stray hnot]
    cases hsplits with
    | cons _ htail => exact .token hreads (ih htail)
  | @fault line p fault _ _ _ hfaulty _ ih =>
    cases hsplits with
    | @cons form text rest _ hshape htail =>
      have hsilent := ih htail
      rw [List.map_cons]
      cases hfaulty with
      | @stray c =>
        obtain ⟨c', hform, rfl, hnot⟩ := hshape.eq_of_isStray rfl
        obtain rfl := Form.stray.inj hform
        have hline : c ≠ '\n' := by
          rintro rfl
          exact hnot ⟨_, [], rest, rfl, .blank (by decide)⟩
        have hnone : newlines [c] = newlines [' '] := by
          rw [newlines, List.count_singleton, if_neg (by simpa using hline)]
          rfl
        rw [hnone] at hsilent
        exact .silent .blank hsilent
      | openString => exact .fault .openString hsilent
      | openComment => exact .fault .openComment hsilent
  | @silent line p _ _ _ hsilent _ ih =>
    have hnot : p.form.isStray = false := by
      generalize p.form = form at hsilent
      cases hsilent <;> rfl
    rw [List.map_cons, Piece.blanked_of_not_stray hnot]
    cases hsplits with
    | cons _ htail => exact .silent hsilent (ih htail)

/-- The blanked source is scanned as the source, but for the stray characters. -/
theorem scan_blanked (source : String) :
    scan (blanked source)
      = ⟨(scan source).tokens, (scan source).errors.filter fun e => !e.isStray⟩ := by
  have hsplits := splits_pieces source.toList
  have hblanked := hsplits.blanked.2
  rw [← String.toList_ofList (l := (pieces source.toList).flatMap _)] at hblanked
  exact scan_eq hblanked ((tokenizes_scan source).blanked hsplits)

/-! ## Places -/

/-- Blanking puts a space where a stray character is, and leaves all else. -/
theorem getElem?_blanked {cs : List Char} {ps : List Piece} (h : Splits cs ps) :
    ∀ (before : List Char) (i : Nat),
      (ps.flatMap fun p => p.blanked.text)[i]?
        = if ∃ s ∈ sites before ps, s.piece.form.isStray ∧ s.before.length = before.length + i
          then some ' ' else cs[i]? := by
  induction h with
  | nil =>
    intro before i
    rw [if_neg]
    · rfl
    · rintro ⟨s, hs, -⟩
      cases hs
  | @cons form text rest ps hshape _ ih =>
    intro before i
    have hlength : (Piece.blanked ⟨form, text⟩).text.length = text.length := by
      cases hstray : form.isStray with
      | true =>
        obtain ⟨c, rfl, rfl, -⟩ := hshape.eq_of_isStray hstray
        rfl
      | false => rw [Piece.blanked_of_not_stray hstray]
    have hpos : 0 < text.length := List.length_pos_of_ne_nil hshape.ne_nil
    rw [List.flatMap_cons, sites]
    rcases Nat.lt_or_ge i text.length with hlt | hge
    · rw [List.getElem?_append_left (hlength ▸ hlt), List.getElem?_append_left hlt]
      cases hstray : form.isStray with
      | true =>
        obtain ⟨c, rfl, rfl, -⟩ := hshape.eq_of_isStray hstray
        obtain rfl : i = 0 := Nat.lt_one_iff.mp hlt
        rw [if_pos ⟨_, List.mem_cons_self, rfl, rfl⟩]
        rfl
      | false =>
        rw [Piece.blanked_of_not_stray hstray, if_neg]
        rintro ⟨s, hs, hs', hplace⟩
        rcases List.mem_cons.mp hs with rfl | hs
        · cases hstray.symm.trans hs'
        · -- the later sites lie behind this piece
          have hle : (before ++ text).length ≤ s.before.length := le_before_of_mem_sites hs
          rw [List.length_append] at hle
          omega
    · rw [List.getElem?_append_right (hlength ▸ hge), List.getElem?_append_right hge, hlength,
        ih (before ++ text) (i - text.length)]
      have hiff : (∃ s ∈ sites (before ++ text) ps, s.piece.form.isStray ∧
          s.before.length = (before ++ text).length + (i - text.length)) ↔
          ∃ s ∈ ⟨before, ⟨form, text⟩⟩ :: sites (before ++ text) ps, s.piece.form.isStray ∧
            s.before.length = before.length + i := by
        rw [List.length_append]
        constructor
        · rintro ⟨s, hs, hs', hplace⟩
          exact ⟨s, List.mem_cons_of_mem _ hs, hs', by omega⟩
        · rintro ⟨s, hs, hs', hplace⟩
          rcases List.mem_cons.mp hs with rfl | hs
          · have hzero : before.length = before.length + i := hplace
            omega
          · exact ⟨s, hs, hs', by omega⟩
      exact if_congr hiff rfl rfl

/-- A stray site is a fault. -/
theorem Site.isFault_of_isStray {s : Site} (h : s.piece.form.isStray = true) :
    s.isFault = true := by
  rw [isFault]
  generalize s.piece.form = form at h
  cases form <;> first | rfl | cases h

/-- The unexpected characters are those of the stray sites, one for one. -/
theorem isAt_strays (source : String) :
    List.Forall₂ ScanError.IsAt (strays source)
      ((scan source).errors.filter ScanError.isStray) := by
  obtain ⟨us, -, -, hes⟩ :=
    (tokenizes_scan source).isAt (splits_pieces source.toList) [] rfl
  have hsame : ∀ (s : Site) (e : ScanError), ScanError.IsAt s e →
      (s.piece.form.isStray ↔ e.isStray) := by
    intro s e h
    have hfaulty := h.faulty
    rw [ScanError.isStray]
    generalize s.piece.form = form, e.fault = fault at hfaulty
    cases hfaulty <;> exact Iff.rfl
  have hfilter := List.rel_filter (p := fun s => s.piece.form.isStray) (q := ScanError.isStray)
    (fun _ _ h => hsame _ _ h) hes
  rw [List.filter_filter] at hfilter
  have hfaults : ∀ s : Site, (s.piece.form.isStray && s.isFault) = s.piece.form.isStray := by
    intro s
    cases hstray : s.piece.form.isStray with
    | true => rw [Site.isFault_of_isStray hstray]; rfl
    | false => rfl
  simp only [hfaults] at hfilter
  exact hfilter

/-! ## Runs -/

/-- The diagnostics of a run. -/
def reported : Except (List Diagnostic) String → List Diagnostic
  | .ok _ => []
  | .error ds => ds

theorem ScanError.isStray_diagnostic (e : ScanError) : e.diagnostic.isStray = e.isStray := by
  obtain ⟨fault, line⟩ := e
  cases fault with
  | strayCharacter c =>
    show "Unexpected character: ".toList.isPrefixOf
      ("Unexpected character: " ++ c.toString ++ ".").toList = true
    rw [String.toList_append, String.toList_append, List.append_assoc, List.isPrefixOf_iff_prefix]
    exact List.prefix_append _ _
  | openString =>
    show "Unexpected character: ".toList.isPrefixOf ScanFault.openString.message.toList = false
    decide +kernel
  | openComment =>
    show "Unexpected character: ".toList.isPrefixOf ScanFault.openComment.message.toList = false
    decide +kernel

theorem SyntaxError.isStray_diagnostic (e : SyntaxError) : e.diagnostic.isStray = false := by
  have hcause : ∀ cause : Cause,
      "Unexpected character: ".toList.isPrefixOf cause.message.toList = false := by
    intro cause
    cases cause <;> decide +kernel
  exact hcause e.cause

theorem filter_diagnostic (es : List ScanError) :
    (es.map ScanError.diagnostic).filter (fun d => !d.isStray)
      = (es.filter fun e => !e.isStray).map ScanError.diagnostic := by
  rw [List.filter_map]
  have hsame : (fun d : Diagnostic => !d.isStray) ∘ ScanError.diagnostic = fun e => !e.isStray := by
    funext e
    show (!e.diagnostic.isStray) = !e.isStray
    rw [e.isStray_diagnostic]
  rw [hsame]

/-- If a source has errors its run fails, and what is reported but for the stray characters is what
    the run of the blanked source reports. -/
theorem runSource_blanked {source : String} (h : (scan source).errors ≠ []) (output : Output) :
    ∃ ds, runSource source output = .error ds ∧
      ds.filter (fun d => !d.isStray) = reported (runSource (blanked source) output) := by
  have hlexical : ((scan source).errors.map ScanError.diagnostic).isEmpty = false := by
    rw [List.isEmpty_eq_false_iff, Ne, List.map_eq_nil_iff]
    exact h
  rw [runSource_eq, runSource_eq, scan_blanked]
  cases render output (scan source).tokens with
  | ok text =>
    simp only [hlexical, if_neg Bool.false_ne_true]
    refine ⟨_, rfl, ?_⟩
    rw [filter_diagnostic]
    split
    · rename_i hempty
      exact List.isEmpty_iff.mp hempty
    · rfl
  | error e =>
    refine ⟨_, rfl, ?_⟩
    rw [List.filter_append, filter_diagnostic, List.filter_singleton, e.isStray_diagnostic]
    rfl

/-- **Unexpected characters are transparent.**  They are reported in order, each for the site of a
    character that begins nothing.  With a space in the place of each the source has the same tokens
    and its other errors; if there are any, the source itself is not accepted under any output, and
    what is reported besides is what is reported for the blanked source. -/
theorem stray_transparent (source : String) :
    List.Forall₂ ScanError.IsAt (strays source)
        ((scan source).errors.filter ScanError.isStray) ∧
      (∀ s ∈ strays source, ∃ after, source.toList = s.before ++ s.piece.text ++ after) ∧
      (∀ i, (blanked source).toList[i]?
        = if ∃ s ∈ strays source, s.before.length = i then some ' ' else source.toList[i]?) ∧
      (scan (blanked source)).tokens = (scan source).tokens ∧
      (scan (blanked source)).errors = (scan source).errors.filter (fun e => !e.isStray) ∧
      (strays source ≠ [] → ∀ output, ∃ ds, runSource source output = .error ds ∧
        ds.filter (fun d => !d.isStray) = reported (runSource (blanked source) output)) := by
  have hstrays := isAt_strays source
  refine ⟨hstrays, fun s hs => ?_, fun i => ?_, ?_, ?_,
    fun hne output => runSource_blanked ?_ output⟩
  · obtain ⟨after, hafter⟩ := exists_after_of_mem_sites (List.mem_filter.mp hs).1
    rw [List.nil_append, flatMap_text_pieces] at hafter
    exact ⟨after, hafter⟩
  · have hplaces := getElem?_blanked (splits_pieces source.toList) [] i
    rw [blanked, String.toList_ofList, hplaces]
    refine if_congr ?_ rfl rfl
    simp only [strays, List.mem_filter, List.length_nil, Nat.zero_add, and_assoc]
  · rw [scan_blanked]
  · rw [scan_blanked]
  · intro hnone
    rw [hnone, List.filter_nil] at hstrays
    exact hne (List.forall₂_nil_right_iff.mp hstrays)

/-- The stray characters stand between a number and its point, and between `!` and `=`; the one in
    the string stays. -/
theorem stray_transparent_lookahead :
    let source := "7@.5 !é= \"@\" +"
    strays source ≠ [] ∧ blanked source = "7 .5 ! = \"@\" +" ∧
      (scan source).errors.map ScanError.diagnostic
        = [⟨1, .nowhere, "Unexpected character: @."⟩, ⟨1, .nowhere, "Unexpected character: é."⟩] ∧
      ∃ ds, runSource source .bracketed = .error ds ∧
        ds.filter (fun d => !d.isStray) = reported (runSource (blanked source) .bracketed) := by
  intro source
  have hne : strays source ≠ [] := by decide +kernel
  obtain ⟨-, -, -, -, -, hruns⟩ := stray_transparent source
  exact ⟨hne, by decide +kernel, by decide +kernel, hruns hne .bracketed⟩

end Lox
