/-
  Runs with checks — the program on checked slices, indices and numerals.

  1. **One source** — scanned, parsed and printed by the checked machines.
  2. **Calls** — a parser may be asked for expressions and for recovery any number of times, whatever
     came of the calls before.
  3. **No breach** — on every source the checked program gives what the program gives; and after any
     calls, on any list, the index has only risen and is not past the first end of input.
-/
import Lox.Proofs.Guarded.Reading
import Lox.Proofs.Guarded.Scanning
import Lox.Run

namespace Lox

open TokenStream

namespace Guarded

/-! ## One source -/

/-- The expression at the front of a token list, which is ended first. -/
def parseTokens (ts : List Token) : Except Breach (Except SyntaxError Expr) := do
  let list := ended ts
  let (result, _) ← expression list (list.findIdx Token.isEof) 0
  return result

/-- The text to print for a scanned source. -/
def render (output : Output) (ts : List Token) : Except Breach (Except SyntaxError String) := do
  match output with
  | .bracketed => return (← parseTokens ts).map Expr.bracketed
  | .reversePolish => return (← parseTokens ts).map Expr.reversePolish
  | .tokens => return .ok (dumpTokens ts)

/-- Runs a source on the checked machines. -/
def runSource (source : String) (output : Output) :
    Except Breach (Except (List Diagnostic) String) := do
  let s ← scanFrom (source.length + 1) (.ofString source)
  let lexical := s.errors.map ScanError.diagnostic
  match ← render output s.tokens with
  | .ok text => return if lexical.isEmpty then .ok text else .error lexical
  | .error e => return .error (lexical ++ [e.diagnostic])

theorem parseTokens_eq (ts : List Token) : parseTokens ts = .ok (Lox.parseTokens ts) := by
  have h := expression_eq (liesIn_ended ts)
  show (expression (ended ts) ((ended ts).findIdx Token.isEof) (ofTokens ts).position >>=
    fun r => pure r.1) = _
  rw [h]
  rfl

theorem render_eq (output : Output) (ts : List Token) :
    render output ts = .ok (Lox.render output ts) := by
  cases output with
  | bracketed | reversePolish =>
    rw [render, parseTokens_eq]
    rfl
  | tokens => rfl

/-- **No check fails in a run.** -/
theorem runSource_eq (source : String) (output : Output) :
    runSource source output = .ok (Lox.runSource source output) := by
  rw [runSource, scanFrom_eq, Lox.runSource_eq]
  show (render output (scan source).tokens >>= fun rendered => _) = _
  rw [render_eq]
  cases Lox.render output (scan source).tokens with
  | ok text => rfl
  | error e => rfl

end Guarded

/-! ## Calls -/

/-- What a parser can be asked for. -/
inductive Call where
  | expression
  | synchronize
  deriving DecidableEq

namespace Call

/-- The stream after a call, whether it succeeds or fails. -/
def next (s : TokenStream) : Call → TokenStream
  | expression => s.expression.2
  | synchronize => s.synchronize

/-- The index after a call of the checked machine. -/
def run (ts : List Token) (last : Nat) (i : Nat) : Call → Except Breach Nat
  | expression => do
    let (_, j) ← Guarded.expression ts last i
    return j
  | synchronize => do
    let (_, j) ← Guarded.synchronize ts last i
    return j

/-- The index before each of the calls, and after the last. -/
def indices (ts : List Token) (last : Nat) : Nat → List Call → Except Breach (List Nat)
  | i, [] => .ok [i]
  | i, call :: calls => do
    let j ← call.run ts last i
    return i :: (← indices ts last j calls)

variable {s : TokenStream} {ts : List Token} {last : Nat}

theorem run_eq (h : s.LiesIn ts last) (call : Call) :
    call.run ts last s.position = .ok (next s call).position := by
  cases call with
  | expression => rw [run, Guarded.expression_eq h]; rfl
  | synchronize => rw [run, Guarded.synchronize_eq h]; rfl

/-- A call leads to a tail of what is pending. -/
theorem exists_next (s : TokenStream) (call : Call) :
    ∃ rest, rest <:+ s.pending ∧ next s call = s.moveTo rest := by
  cases call with
  | expression =>
    obtain ⟨us, rest, hpending, ⟨e, hx⟩ | ⟨cause, hx⟩⟩ := s.expression_moves
    · exact ⟨rest, ⟨us, hpending.symm⟩, by rw [next, hx]⟩
    · have hrest : rest <:+ s.pending := ⟨us, hpending.symm⟩
      exact ⟨_, (afterFailure_suffix cause rest).trans hrest, by rw [next, hx]⟩
  | synchronize => exact ⟨_, recover_suffix s.pending, rfl⟩

theorem liesIn_next (h : s.LiesIn ts last) (call : Call) : (next s call).LiesIn ts last := by
  obtain ⟨rest, hrest, heq⟩ := exists_next s call
  rw [heq]
  exact h.moveTo hrest

/-- The indices are the positions of the streams. -/
theorem indices_eq (h : s.LiesIn ts last) (calls : List Call) :
    indices ts last s.position calls = .ok ((calls.scanl next s).map TokenStream.position) := by
  induction calls generalizing s with
  | nil => rfl
  | cons call calls ih =>
    rw [indices, run_eq h]
    show (indices ts last (next s call).position calls >>= fun later => _) = _
    rw [ih (liesIn_next h call), List.scanl_cons]
    rfl

/-- No index is past the end of input. -/
theorem le_last (h : s.LiesIn ts last) (calls : List Call) :
    ∀ i ∈ (calls.scanl next s).map TokenStream.position, i ≤ last := by
  induction calls generalizing s with
  | nil =>
    intro i hi
    obtain rfl := List.mem_singleton.mp hi
    exact h.position_le
  | cons call calls ih =>
    intro i hi
    rw [List.scanl_cons, List.map_cons] at hi
    rcases List.mem_cons.mp hi with rfl | hi
    · exact h.position_le
    · exact ih (liesIn_next h call) i hi

theorem le_run {i j : Nat} {call : Call} (h : call.run ts last i = .ok j) : i ≤ j := by
  cases call with
  | expression =>
    obtain ⟨⟨r, k⟩, hk, hj⟩ := Breach.exists_of_bind h
    obtain rfl := Except.ok.inj hj
    exact Guarded.rises_read _ _ i r k hk
  | synchronize =>
    obtain ⟨⟨r, k⟩, hk, hj⟩ := Breach.exists_of_bind h
    obtain rfl := Except.ok.inj hj
    exact Guarded.rises_synchronize i r k hk

/-- From call to call the index only rises, on every list. -/
theorem pairwise_indices {i : Nat} {calls : List Call} {places : List Nat}
    (h : indices ts last i calls = .ok places) : places.Pairwise (· ≤ ·) ∧ ∀ j ∈ places, i ≤ j := by
  induction calls generalizing i places with
  | nil =>
    obtain rfl := Except.ok.inj h
    refine ⟨List.pairwise_singleton _ _, fun j hj => ?_⟩
    obtain rfl := List.mem_singleton.mp hj
    exact Nat.le_refl _
  | cons call calls ih =>
    obtain ⟨j, hj, hrest⟩ := Breach.exists_of_bind h
    obtain ⟨later, hlater, hplaces⟩ := Breach.exists_of_bind hrest
    obtain rfl := Except.ok.inj hplaces
    obtain ⟨hpairwise, hfrom⟩ := ih hlater
    have hle : i ≤ j := le_run hj
    refine ⟨List.pairwise_cons.mpr ⟨fun k hk => hle.trans (hfrom k hk), hpairwise⟩, fun k hk => ?_⟩
    rcases List.mem_cons.mp hk with rfl | hk
    · exact Nat.le_refl _
    · exact hle.trans (hfrom k hk)

end Call

/-- **No check ever fails.**  Every source is run on the checked machines with the result that it has.
    On every list of tokens, ended as it is for reading, any calls succeed on the checked machine, the
    failed readings included: their indices are the positions of the streams, only rise, and are not
    past the first end of input, which is in the list. -/
theorem no_breach :
    (∀ source output, Guarded.runSource source output = .ok (runSource source output)) ∧
    ∀ ts calls,
      let last := (ended ts).findIdx Token.isEof
      last < (ended ts).length ∧
        ∃ places, Call.indices (ended ts) last 0 calls = .ok places ∧
          places = (calls.scanl Call.next (ofTokens ts)).map TokenStream.position ∧
          places.Pairwise (· ≤ ·) ∧ ∀ i ∈ places, i ≤ last := by
  refine ⟨Guarded.runSource_eq, fun ts calls => ?_⟩
  have h := liesIn_ended ts
  have hplaces := Call.indices_eq h calls
  exact ⟨h.last_lt, _, hplaces, rfl, (Call.pairwise_indices hplaces).1, Call.le_last h calls⟩

end Lox
