/-
  Prompt — a session is its lines, ONE AFTER ANOTHER.

  1. **Sources** — what each line of input that is text adds to either stream, read off the run of its
     source and nothing else.
  2. **Good lines** — a session that begins with lines of text is what they add, and then the session
     on the other lines.
  3. **The loop** — the terminal reads a line a turn, runs it and writes, until the input ends or a line
     is not text.  By induction on the lines: after some of them it has run their sources, has written
     what they add, and no more of the input is read.
  4. **Sessions** — what is written, the status, and what of the input is left alone; and a session
     goes on behind whole lines as one that begins there.
-/
import Mathlib.Data.List.Forall2
import Lox.Proofs.Session.Lines
import Lox.Proofs.Report.Located

namespace Lox

/-! ## Sources -/

/-- The line is text, and the source is that text without its line ending. -/
def SourceOf (source : String) (line : List UInt8) : Prop :=
  ∃ text : String, line = utf8 text.toList ∧ StrippedFrom source text

/-- What a source adds to standard output. -/
def printed (output : Output) (source : String) : String :=
  match runSource source output with
  | .ok text => text ++ "\n"
  | .error _ => ""

/-- What a source adds to standard error: its diagnostics, each with a line feed. -/
def complaint (output : Output) (source : String) : String :=
  match runSource source output with
  | .ok _ => ""
  | .error ds => String.join (ds.map fun d => d.text ++ "\n")

/-- Standard output after some sources: a mark and the result of each. -/
def echoes (output : Output) (sources : List String) : String :=
  String.join (sources.map fun source => promptMark ++ printed output source)

/-- Standard error after some sources. -/
def complaints (output : Output) (sources : List String) : String :=
  String.join (sources.map (complaint output))

@[simp]
theorem echoes_nil (output : Output) : echoes output [] = "" := rfl

@[simp]
theorem echoes_cons (output : Output) (source : String) (sources : List String) :
    echoes output (source :: sources) = promptMark ++ printed output source ++ echoes output sources :=
  String.join_cons

@[simp]
theorem complaints_nil (output : Output) : complaints output [] = "" := rfl

@[simp]
theorem complaints_cons (output : Output) (source : String) (sources : List String) :
    complaints output (source :: sources) = complaint output source ++ complaints output sources :=
  String.join_cons

theorem sourceOf_iff {source : String} {line : List UInt8} :
    SourceOf source line ↔ ∃ text, textOf? line = some text ∧ source = stripLineEnd text := by
  constructor
  · rintro ⟨text, hline, hsource⟩
    exact ⟨text, textOf?_eq_some_iff.mpr hline, hsource.eq_stripLineEnd⟩
  · rintro ⟨text, hline, rfl⟩
    exact ⟨text, textOf?_eq_some_iff.mp hline, strippedFrom_stripLineEnd text⟩

theorem textOf?_eq_none_iff {line : List UInt8} :
    textOf? line = none ↔ ∀ source, ¬ SourceOf source line := by
  rw [Option.eq_none_iff_forall_ne_some]
  constructor
  · rintro h source hsource
    obtain ⟨text, hline, -⟩ := sourceOf_iff.mp hsource
    exact h text hline
  · exact fun h text hline => h _ (sourceOf_iff.mpr ⟨text, hline, rfl⟩)

/-- A report has a line feed after each of its diagnostics. -/
theorem report_lineFeed {ds : List Diagnostic} (h : ds ≠ []) :
    Diagnostic.report ds ++ "\n" = String.join (ds.map fun d => d.text ++ "\n") := by
  induction ds with
  | nil => exact absurd rfl h
  | cons d ds ih =>
    rw [Diagnostic.report, List.map_cons, List.map_cons, String.join_cons]
    by_cases hds : ds = []
    · subst hds
      rw [List.map_nil, List.map_nil, String.intercalate_singleton, String.join_nil,
        String.append_empty]
    · rw [← ih hds, String.intercalate_cons_of_ne_nil (mt List.map_eq_nil_iff.mp hds),
        Diagnostic.report, String.append_assoc]

theorem respondTo_eq (source : String) (output : Output) :
    ∃ code, respondTo source output = ⟨code, printed output source, complaint output source⟩ := by
  rw [respondTo, printed, complaint]
  cases hrun : runSource source output with
  | ok text => exact ⟨0, rfl⟩
  | error ds => exact ⟨65, congrArg _ (report_lineFeed (diagnostics_of_error hrun).1)⟩

/-! ## Good lines -/

variable {output : Output} {sources : List String} {good more : List (List UInt8)}

theorem promptLines_append (h : List.Forall₂ SourceOf sources good) :
    promptLines output (good ++ more) =
      ⟨(promptLines output more).code, echoes output sources ++ (promptLines output more).stdout,
        complaints output sources ++ (promptLines output more).stderr⟩ := by
  induction h with
  | nil => simp only [List.nil_append, echoes_nil, complaints_nil, String.empty_append]
  | @cons source line sources good hline _ ih =>
    obtain ⟨text, htext, rfl⟩ := sourceOf_iff.mp hline
    obtain ⟨code, hanswer⟩ := respondTo_eq (stripLineEnd text) output
    rw [List.cons_append, promptLines, answerLine, htext, Option.map_some, hanswer, ih]
    simp only [echoes_cons, complaints_cons, String.append_assoc]

/-- The lines of a text are texts. -/
theorem exists_sources_of_text {bytes : List UInt8} (h : (textOf? bytes).isSome) :
    ∃ sources, List.Forall₂ SourceOf sources (inputLines bytes) := by
  obtain ⟨text, htext⟩ := Option.isSome_iff_exists.mp h
  obtain ⟨texts, hlines⟩ := exists_inputLines_utf8 text.toList
  rw [textOf?_eq_some_iff.mp htext, hlines]
  refine ⟨texts.map fun cs => stripLineEnd (String.ofList cs), ?_⟩
  rw [List.forall₂_map_left_iff, List.forall₂_map_right_iff, List.forall₂_same]
  exact fun cs _ => sourceOf_iff.mpr ⟨_, textOf?_utf8 cs, rfl⟩

/-- The lines are texts up to one that is not, or all of them. -/
theorem exists_sources (lines : List (List UInt8)) :
    (∃ sources, List.Forall₂ SourceOf sources lines) ∨
      ∃ good bad rest sources, lines = good ++ bad :: rest ∧ List.Forall₂ SourceOf sources good ∧
        ∀ source, ¬ SourceOf source bad := by
  induction lines with
  | nil => exact .inl ⟨[], .nil⟩
  | cons line lines ih =>
    by_cases hline : ∃ source, SourceOf source line
    · obtain ⟨source, hline⟩ := hline
      rcases ih with ⟨sources, h⟩ | ⟨good, bad, rest, sources, rfl, h, hbad⟩
      · exact .inl ⟨source :: sources, .cons hline h⟩
      · exact .inr ⟨line :: good, bad, rest, source :: sources, rfl, .cons hline h, hbad⟩
    · exact .inr ⟨[], line, lines, [], rfl, .nil, not_exists.mp hline⟩

/-! ## The loop -/

/-- A terminal: the input that is unread, the sources that were run, and what was written. -/
structure Terminal where
  unread : List UInt8
  ran : List String
  stdout : String
  stderr : String

namespace Terminal

/-- The terminal before the first turn. -/
def start (stdin : List UInt8) : Terminal := ⟨stdin, [], "", ""⟩

/-- The terminal after a source was run. -/
def run (t : Terminal) (output : Output) (source : String) : Terminal :=
  let t := { t with ran := t.ran ++ [source] }
  match runSource source output with
  | .ok text => { t with stdout := t.stdout ++ text ++ "\n" }
  | .error ds => { t with stderr := t.stderr ++ Diagnostic.report ds ++ "\n" }

/-- One turn: the terminal after it, and the status if the session ends here.  At the end of the input
    there is no line. -/
def turn (t : Terminal) (output : Output) : Terminal × Option Nat :=
  let line := (cutLine t.unread).1
  let t := { t with unread := (cutLine t.unread).2, stdout := t.stdout ++ promptMark }
  if line = [] then (t, some 0)
  else
    match textOf? line with
    | none => ({ t with stderr := t.stderr ++ promptFailure }, some 1)
    | some text => (t.run output (stripLineEnd text), none)

/-- The session goes on turn by turn and ends with the status. -/
inductive Ends (output : Output) : Terminal → Nat → Terminal → Prop where
  | stop {t final code} : t.turn output = (final, some code) → Ends output t code final
  | again {t t' final code} : t.turn output = (t', none) → Ends output t' code final →
      Ends output t code final

theorem Ends.unique {t final final' : Terminal} {code code' : Nat} (h : Ends output t code final)
    (h' : Ends output t code' final') : code' = code ∧ final' = final := by
  induction h with
  | stop hturn =>
    cases h' with
    | stop hturn' =>
      cases hturn.symm.trans hturn'
      exact ⟨rfl, rfl⟩
    | again hturn' _ => cases hturn.symm.trans hturn'
  | again hturn _ ih =>
    cases h' with
    | stop hturn' => cases hturn.symm.trans hturn'
    | again hturn' h' =>
      cases hturn.symm.trans hturn'
      exact ih h'

/-- A session ends in one way. -/
theorem Ends.iff {t final final' : Terminal} {code code' : Nat} (h : Ends output t code final) :
    Ends output t code' final' ↔ code' = code ∧ final' = final := by
  refine ⟨h.unique, ?_⟩
  rintro ⟨rfl, rfl⟩
  exact h

theorem run_eq (t : Terminal) (output : Output) (source : String) :
    t.run output source = ⟨t.unread, t.ran ++ [source], t.stdout ++ printed output source,
      t.stderr ++ complaint output source⟩ := by
  rw [run, printed, complaint]
  cases hrun : runSource source output with
  | ok text => simp only [String.append_assoc, String.append_empty]
  | error ds =>
    have hreport := report_lineFeed (diagnostics_of_error hrun).1
    simp only [← hreport, String.append_assoc, String.append_empty]

variable {t : Terminal}

/-- Without a line the session ends. -/
theorem turn_end (h : t.unread = []) :
    t.turn output = (⟨[], t.ran, t.stdout ++ promptMark, t.stderr⟩, some 0) := by
  rw [turn, h]
  rfl

/-- A line that is not text is read, and ends the session. -/
theorem turn_bad {bad : List UInt8} (h : LinesOf (bad :: more) t.unread)
    (hbad : ∀ source, ¬ SourceOf source bad) :
    t.turn output = (⟨more.flatten, t.ran, t.stdout ++ promptMark, t.stderr ++ promptFailure⟩,
      some 1) := by
  obtain ⟨hne, hcut, -⟩ := h.cut
  rw [turn, hcut, if_neg hne, textOf?_eq_none_iff.mpr hbad]

/-- A line of text is read and run. -/
theorem turn_good {source : String} {line : List UInt8} (h : LinesOf (line :: more) t.unread)
    (hline : SourceOf source line) :
    t.turn output = (⟨more.flatten, t.ran ++ [source],
      t.stdout ++ (promptMark ++ printed output source), t.stderr ++ complaint output source⟩,
      none) := by
  obtain ⟨hne, hcut, -⟩ := h.cut
  obtain ⟨text, htext, rfl⟩ := sourceOf_iff.mp hline
  rw [turn, hcut, if_neg hne, htext, ← String.append_assoc]
  show (run _ output _, none) = _
  rw [run_eq]

/-- A session that begins with lines of text goes on behind them. -/
theorem Ends.of_sources (h : List.Forall₂ SourceOf sources good) {final : Terminal} {code : Nat}
    (hlines : LinesOf (good ++ more) t.unread)
    (hends : Ends output ⟨more.flatten, t.ran ++ sources, t.stdout ++ echoes output sources,
      t.stderr ++ complaints output sources⟩ code final) : Ends output t code final := by
  induction h generalizing t with
  | nil =>
    rw [List.nil_append] at hlines
    rwa [hlines.flatten_eq, List.append_nil, echoes_nil, complaints_nil, String.append_empty,
      String.append_empty] at hends
  | @cons source line sources good hline _ ih =>
    refine .again (turn_good hlines hline) (ih hlines.cut.2.2 ?_)
    simp only [echoes_cons, complaints_cons, String.append_assoc] at hends ⊢
    rwa [List.append_assoc]

theorem Ends.start_of_sources (h : List.Forall₂ SourceOf sources good) {stdin : List UInt8}
    {final : Terminal} {code : Nat} (hlines : LinesOf (good ++ more) stdin)
    (hends : Ends output ⟨more.flatten, sources, echoes output sources, complaints output sources⟩
      code final) : Ends output (start stdin) code final := by
  refine .of_sources h hlines ?_
  rw [start, List.nil_append, String.empty_append, String.empty_append]
  exact hends

end Terminal

/-! ## Sessions -/

/-- **A session is its lines, one after another.**  The input is divided into lines in one way, and all
    of them are text or there is a first that is not.  If all are, the session writes a mark and the
    result of its run for each, then a last mark, and the diagnostics of the runs that fail, and its
    status is 0.  If there is a first that is not, it writes this for the lines before it, then one mark
    and the failure, its status is 1, and what is behind that line is never read.  No other source is
    run.  A session behind text that ends with a line feed goes on as one that begins there. -/
theorem prompt_session (output : Output) (stdin : List UInt8) :
    (∃ lines, LinesOf lines stdin ∧ (∀ lines', LinesOf lines' stdin → lines' = lines) ∧
      ((∃ sources, List.Forall₂ SourceOf sources lines) ∨
        ∃ good bad rest sources, lines = good ++ bad :: rest ∧ List.Forall₂ SourceOf sources good ∧
          ∀ source, ¬ SourceOf source bad)) ∧
      (∀ lines sources, LinesOf lines stdin → List.Forall₂ SourceOf sources lines →
        runPrompt output stdin =
          ⟨0, echoes output sources ++ promptMark, complaints output sources⟩ ∧
        ∀ code final, Terminal.Ends output (.start stdin) code final ↔
          code = 0 ∧ final = ⟨[], sources, echoes output sources ++ promptMark,
            complaints output sources⟩) ∧
      (∀ good bad rest sources, LinesOf (good ++ bad :: rest) stdin →
        List.Forall₂ SourceOf sources good → (∀ source, ¬ SourceOf source bad) →
        runPrompt output stdin = ⟨1, echoes output sources ++ promptMark,
          complaints output sources ++ promptFailure⟩ ∧
        ∀ code final, Terminal.Ends output (.start stdin) code final ↔
          code = 1 ∧ final = ⟨rest.flatten, sources, echoes output sources ++ promptMark,
            complaints output sources ++ promptFailure⟩) ∧
      ((textOf? stdin).isSome → stdin.getLast? = some 10 →
        ∃ before written, runPrompt output stdin = ⟨0, before ++ promptMark, written⟩ ∧
          ∀ later, runPrompt output (stdin ++ later) =
            ⟨(runPrompt output later).code, before ++ (runPrompt output later).stdout,
              written ++ (runPrompt output later).stderr⟩) := by
  refine ⟨?_, ?_, ?_, ?_⟩
  · exact ⟨inputLines stdin, linesOf_inputLines stdin, fun _ h => h.inputLines_eq.symm,
      exists_sources _⟩
  · rintro lines sources hlines hsources
    rw [← List.append_nil lines] at hlines
    constructor
    · rw [runPrompt, hlines.inputLines_eq, promptLines_append hsources, promptLines]
      simp only [String.append_empty]
    · have hends : Terminal.Ends output (.start stdin) 0 ⟨[], sources, _, _⟩ :=
        .start_of_sources hsources hlines (.stop (Terminal.turn_end rfl))
      exact fun _ _ => hends.iff
  · rintro good bad rest sources hlines hsources hbad
    constructor
    · rw [runPrompt, hlines.inputLines_eq, promptLines_append hsources, promptLines, answerLine,
        textOf?_eq_none_iff.mpr hbad]
      rfl
    · have hends : Terminal.Ends output (.start stdin) 1 ⟨rest.flatten, sources, _, _⟩ :=
        .start_of_sources hsources hlines (.stop (Terminal.turn_bad hlines.behind hbad))
      exact fun _ _ => hends.iff
  · rintro htext hlast
    obtain ⟨sources, hsources⟩ := exists_sources_of_text htext
    refine ⟨echoes output sources, complaints output sources, ?_, fun later => ?_⟩
    · rw [runPrompt, ← List.append_nil (inputLines stdin), promptLines_append hsources, promptLines]
      simp only [String.append_empty]
    · rw [runPrompt, inputLines_append (fun b hb => ?_), promptLines_append hsources, runPrompt]
      exact Option.some.inj (hb.symm.trans hlast)

/-- A good line, a failing one, one that is not text, and one behind it. -/
theorem prompt_session_bad_line :
    let good := [utf8 "1 + 2\r\n".toList, utf8 "(\n".toList]
    let bad : List UInt8 := [255, 10]
    let stdin := good.flatten ++ bad ++ [51]
    LinesOf (good ++ bad :: [[51]]) stdin ∧
      List.Forall₂ SourceOf ["1 + 2", "("] good ∧ (∀ source, ¬ SourceOf source bad) ∧
      runPrompt .bracketed stdin = ⟨1, "> (+ 1 2)\n> > ",
        "[line 1] Error at end: Expected expression.\nError: stream did not contain valid UTF-8\n"⟩ ∧
      (∃ final, Terminal.Ends .bracketed (.start stdin) 1 final ∧ final.unread = [51]) ∧
      ∃ before written, runPrompt .bracketed good.flatten = ⟨0, before ++ "> ", written⟩ ∧
        (runPrompt .bracketed stdin).stdout = before ++ "> " := by
  intro good bad stdin
  have hlines : LinesOf (good ++ bad :: [[51]]) stdin := by
    have hinput : inputLines stdin = good ++ bad :: [[51]] := by decide +kernel
    rw [← hinput]
    exact linesOf_inputLines stdin
  have hsources : List.Forall₂ SourceOf ["1 + 2", "("] good :=
    .cons (sourceOf_iff.mpr ⟨"1 + 2\r\n", by decide +kernel, by decide +kernel⟩)
      (.cons (sourceOf_iff.mpr ⟨"(\n", by decide +kernel, by decide +kernel⟩) .nil)
  have hbad : ∀ source, ¬ SourceOf source bad := textOf?_eq_none_iff.mp (by decide +kernel)
  obtain ⟨hrun, hends⟩ := (prompt_session .bracketed stdin).2.2.1 _ _ _ _ hlines hsources hbad
  obtain ⟨before, written, hgood, hlater⟩ :=
    (prompt_session .bracketed good.flatten).2.2.2 (by decide +kernel) (by decide +kernel)
  refine ⟨hlines, hsources, hbad, hrun.trans (by decide +kernel), ⟨_, (hends _ _).mpr ⟨rfl, rfl⟩, rfl⟩,
    before, written, hgood, ?_⟩
  have hbehind : (runPrompt .bracketed (bad ++ [51])).stdout = "> " := by decide +kernel
  show (runPrompt .bracketed (good.flatten ++ bad ++ [51])).stdout = _
  rw [List.append_assoc, hlater, hbehind]

end Lox
