/-
  Token lines — the token dump has ONE entry for each line that carries a token.

  The dump puts adjacent tokens of one line together, and would give a line two entries if tokens of
  another came between.  They never do, because lines do not go back along a scan.

  1. **Lines** — the line numbers of tokens, each once; and the tokens of one line.
  2. **Division** — tokens whose lines do not go back are their lines' tokens, line after line.  The
     induction is on the lines: the tokens of the least stand in front, and those behind have the
     other lines.
  3. **Dump** — so putting adjacent tokens together gives exactly these groups, and one entry for each.
-/
import Mathlib.Data.List.Dedup
import Mathlib.Data.List.SplitBy
import Lox.Proofs.Report.Located

namespace Lox

/-! ## Lines -/

/-- The tokens of one line, in their order. -/
def onLine (n : Nat) (ts : List Token) : List Token := ts.filter fun t => t.line == n

/-- Along the tokens the line never goes back. -/
def Downward (ts : List Token) : Prop := ts.Pairwise fun t u => t.line ≤ u.line

/-- The line numbers that tokens carry, each once. -/
def lineNumbers (ts : List Token) : List Nat := (ts.map Token.line).dedup

variable {ts : List Token} {n m : Nat}

theorem mem_onLine {t : Token} : t ∈ onLine n ts ↔ t ∈ ts ∧ t.line = n := by
  unfold onLine
  rw [List.mem_filter, beq_iff_eq]

theorem mem_lineNumbers : n ∈ lineNumbers ts ↔ ∃ t ∈ ts, t.line = n := by
  unfold lineNumbers
  rw [List.mem_dedup, List.mem_map]

/-- A line that tokens carry has tokens. -/
theorem onLine_ne_nil (h : n ∈ lineNumbers ts) : onLine n ts ≠ [] := by
  obtain ⟨t, ht, hline⟩ := mem_lineNumbers.mp h
  exact List.ne_nil_of_mem (mem_onLine.mpr ⟨ht, hline⟩)

theorem Downward.pairwise_lineNumbers (h : Downward ts) : (lineNumbers ts).Pairwise (· < ·) := by
  have hle : (ts.map Token.line).Pairwise (· ≤ ·) := List.pairwise_map.mpr h
  have hsorted : (lineNumbers ts).Pairwise (· ≤ ·) := hle.sublist (List.dedup_sublist _)
  have hne : (lineNumbers ts).Pairwise (· ≠ ·) := List.nodup_dedup _
  exact (hsorted.and hne).imp fun hboth => Nat.lt_of_le_of_ne hboth.1 hboth.2

/-! ## Division -/

/-- The tokens of the least line stand in front of the others. -/
theorem Downward.eq_append (h : Downward ts) (hleast : ∀ t ∈ ts, n ≤ t.line) :
    ts = onLine n ts ++ ts.filter fun t => t.line != n := by
  induction ts with
  | nil => rfl
  | cons t ts ih =>
    obtain ⟨hbelow, hts⟩ := List.pairwise_cons.mp h
    obtain ⟨ht, hrest⟩ := List.forall_mem_cons.mp hleast
    by_cases heq : t.line = n
    · have hkeep : onLine n (t :: ts) = t :: onLine n ts :=
        List.filter_cons_of_pos (by simpa using heq)
      have hpass : (t :: ts).filter (fun u => u.line != n) = ts.filter fun u => u.line != n :=
        List.filter_cons_of_neg (by simpa using heq)
      rw [hkeep, hpass, List.cons_append, ← ih hts hrest]
    · -- behind the first token of another line there is none of this line
      have hnone : onLine n (t :: ts) = [] := by
        apply List.filter_eq_nil_iff.mpr
        intro u hu
        have hle : t.line ≤ u.line := by
          rcases List.mem_cons.mp hu with rfl | hu
          · exact Nat.le_refl _
          · exact hbelow u hu
        have hne : u.line ≠ n := by omega
        simpa using hne
      have hall : (t :: ts).filter (fun u => u.line != n) = t :: ts := by
        apply List.filter_eq_self.mpr
        intro u hu
        have hnot := List.filter_eq_nil_iff.mp hnone u hu
        simpa using hnot
      rw [hnone, hall]
      rfl

/-- Tokens whose lines do not go back are divided by ascending lines, if none is left out. -/
theorem Downward.flatMap_onLine {lines : List Nat} (h : Downward ts)
    (hlines : lines.Pairwise (· < ·)) (hall : ∀ t ∈ ts, t.line ∈ lines) :
    (lines.flatMap fun n => onLine n ts) = ts := by
  induction lines generalizing ts with
  | nil =>
    cases ts with
    | nil => rfl
    | cons t ts => cases hall t List.mem_cons_self
  | cons n lines ih =>
    obtain ⟨hbelow, hlines⟩ := List.pairwise_cons.mp hlines
    have hleast : ∀ t ∈ ts, n ≤ t.line := by
      intro t ht
      rcases List.mem_cons.mp (hall t ht) with heq | hmem
      · omega
      · exact Nat.le_of_lt (hbelow _ hmem)
    have hdivided := h.eq_append hleast
    generalize hothers : ts.filter (fun t => t.line != n) = others at hdivided
    have hrest : (lines.flatMap fun m => onLine m others) = others := by
      subst hothers
      apply ih (h.sublist List.filter_sublist) hlines
      intro t ht
      obtain ⟨ht, hne⟩ := List.mem_filter.mp ht
      exact (List.mem_cons.mp (hall t ht)).resolve_left (by simpa using hne)
    have hsame : ∀ m ∈ lines, onLine m ts = onLine m others := by
      intro m hm
      have hlt := hbelow m hm
      unfold onLine
      rw [← hothers, List.filter_filter]
      apply List.filter_congr
      intro t _
      by_cases ht : t.line = m
      · have hne : t.line ≠ n := by omega
        simp [ht, ht ▸ hne]
      · simp [ht]
    rw [List.flatMap_cons, List.flatMap_congr hsame, hrest]
    exact hdivided.symm

/-- **Line after line, the tokens of each line are all tokens in their order.** -/
theorem Downward.flatMap_lineNumbers (h : Downward ts) :
    ((lineNumbers ts).flatMap fun n => onLine n ts) = ts := by
  apply h.flatMap_onLine h.pairwise_lineNumbers
  intro t ht
  exact mem_lineNumbers.mpr ⟨t, ht, rfl⟩

/-! ## Dump -/

/-- The entry of a line: its number, and the tokens of that line. -/
def entry (ts : List Token) (n : Nat) : String :=
  toString n ++ ": " ++ " ".intercalate ((onLine n ts).map Token.text)

/-- A group of tokens is shown under the line that they carry. -/
theorem dumpLine_onLine (h : n ∈ lineNumbers ts) : dumpLine (onLine n ts) = entry ts n := by
  unfold dumpLine entry
  cases hts : onLine n ts with
  | nil => exact absurd hts (onLine_ne_nil h)
  | cons t us =>
    have ht : t ∈ onLine n ts := by
      rw [hts]
      exact List.mem_cons_self
    rw [List.head?_cons, Option.elim_some, (mem_onLine.mp ht).2]

/-- **Adjacent tokens of one line are all the tokens of that line.** -/
theorem Downward.splitBy_eq (h : Downward ts) :
    (ts.splitBy fun a b => a.line == b.line) = (lineNumbers ts).map fun n => onLine n ts := by
  apply List.splitBy_eq_iff.mpr
  refine ⟨h.flatMap_lineNumbers.symm, ?_, ?_, ?_⟩
  · intro hnil
    obtain ⟨n, hn, hempty⟩ := List.mem_map.mp hnil
    exact onLine_ne_nil hn hempty
  · intro us hus
    obtain ⟨n, -, rfl⟩ := List.mem_map.mp hus
    apply List.Pairwise.isChain
    apply List.pairwise_of_forall_mem_list
    intro t ht u hu
    rw [(mem_onLine.mp ht).2, (mem_onLine.mp hu).2, beq_self_eq_true]
  · apply List.Pairwise.isChain
    rw [List.pairwise_map]
    apply h.pairwise_lineNumbers.imp_of_mem
    intro n m hn hm hlt
    have hne := onLine_ne_nil hn
    have hne' := onLine_ne_nil hm
    refine ⟨hne, hne', ?_⟩
    have hlast := (mem_onLine.mp (List.getLast_mem hne)).2
    have hhead := (mem_onLine.mp (List.head_mem hne')).2
    rw [hlast, hhead, beq_eq_false_iff_ne]
    omega

/-- The dump of tokens whose lines do not go back. -/
theorem Downward.dumpTokens_eq (h : Downward ts) :
    dumpTokens ts = "\n".intercalate ((lineNumbers ts).map (entry ts)) := by
  rw [dumpTokens, h.splitBy_eq, List.map_map]
  congr 1
  apply List.map_congr_left
  intro n hn
  exact dumpLine_onLine hn

/-- **The token dump lists every token once, with one entry for each line.**  Of a source without
    lexical errors it has an entry for each line number that a token carries, in strictly increasing
    order, and no other; the entry of a line shows all tokens of that line in the order of the scan.
    Entry after entry these are the tokens of the scan, and the last is its one end of input. -/
theorem tokens_listed_by_line {source : String} (h : (scan source).errors = []) :
    let ts := (scan source).tokens
    ∃ lines : List Nat, lines.Pairwise (· < ·) ∧ (∀ n, n ∈ lines ↔ ∃ t ∈ ts, t.line = n) ∧
      runSource source .tokens = .ok ("\n".intercalate (lines.map fun n =>
        toString n ++ ": " ++ " ".intercalate ((ts.filter fun t => t.line == n).map Token.text))) ∧
      (lines.flatMap fun n => ts.filter fun t => t.line == n) = ts ∧
      ∃ words, ts = words ++ [.endOn (lastLine source.toList)] ∧ ∀ t ∈ words, t.isEof = false := by
  intro ts
  have hdownward : Downward ts := (tokenizes_scan source).pairwise_line.1
  have hnone : lexicalDiagnostics source = [] := by
    rw [lexicalDiagnostics, h]
    rfl
  refine ⟨lineNumbers ts, hdownward.pairwise_lineNumbers, fun n => mem_lineNumbers, ?_,
    hdownward.flatMap_lineNumbers, (scan source).words, tokens_scan source⟩
  rw [runSource_tokens, if_pos hnone, hdownward.dumpTokens_eq]
  rfl

/-- A string that ends on the next line, where the tokens behind it are, and a comment in front of the
    end of input. -/
theorem tokens_listed_by_line_string :
    let source := "(\"a\nb\" + 1) /*\n*/"
    (scan source).errors = [] ∧
      runSource source .tokens = .ok ("1: [LEFT_PAREN ( null] [STRING \"a\nb\" a\nb]\n"
        ++ "2: [PLUS + null] [NUMBER 1 1] [RIGHT_PAREN ) null]\n3: [EOF  null]") ∧
      ∃ lines : List Nat, lines.Pairwise (· < ·) ∧ (∀ n, n ∈ lines ↔ n = 1 ∨ n = 2 ∨ n = 3) ∧
        (lines.flatMap fun n => (scan source).tokens.filter fun t => t.line == n)
          = (scan source).tokens := by
  intro source
  have hnone : (scan source).errors = [] := by decide +kernel
  obtain ⟨lines, hlines, hmem, -, htokens, -⟩ := tokens_listed_by_line hnone
  have hcarried : (scan source).tokens.map Token.line = [1, 1, 2, 2, 2, 3] := by decide +kernel
  refine ⟨hnone, by decide +kernel, lines, hlines, fun n => ?_, htokens⟩
  rw [hmem, ← List.mem_map, hcarried]
  simp

end Lox
