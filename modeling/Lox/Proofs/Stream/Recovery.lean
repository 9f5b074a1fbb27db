/-
  Recovery — where reading goes on after a syntax error.

  1. **Boundaries** — the indices of a token list at which a statement is likely to begin: at the end
     of input, just past a semicolon, or at a keyword that begins a statement.
  2. **Places** — every stream that readings and recoveries lead to stands somewhere in ONE list,
     before or at its first end of input.
  3. **Synchronizing** — away from the end it goes to the FIRST boundary past the current token, and at
     the end it stays.  One step looks at one index; the rest is induction on what is pending.
  4. **After a failure** — a missing `)` or `:` leaves the stream AT the offending token, a missing
     expression leaves it PAST that token.  Recovery then starts one token late, and a boundary
     directly after the offending token is passed over.
-/
import Mathlib.Order.Bounds.Basic
import Lox.Expr.OfTokens
import Lox.Proofs.Grammar.Recognition
import Lox.Proofs.Grammar.Window
import Lox.Proofs.Stream.Ended
import Lox.Token.Scan

namespace Lox

open Parse

/-! ## Boundaries -/

/-- At this index of the list a statement is likely to begin. -/
inductive Boundary (ts : List Token) : Nat → Prop where
  | atEnd {j t} : ts[j]? = some t → t.isEof → Boundary ts j
  | pastSemicolon {j t} : ts[j]? = some t → t.kind = .symbol .semicolon → Boundary ts (j + 1)
  | atKeyword {j t} : ts[j]? = some t → t.kind.startsStatement → Boundary ts j

namespace TokenStream

/-! ## Places -/

/-- The stream is a place in the token list: what it has passed and what is pending are together what
    comes before the first end of input. -/
structure StandsIn (s : TokenStream) (ts : List Token) : Prop where
  pending : ∃ us, us.length = s.position ∧ (ofTokens ts).pending = us ++ s.pending
  eof : s.eof = eofOf ts

theorem StandsIn.start (ts : List Token) : (ofTokens ts).StandsIn ts :=
  ⟨⟨[], rfl, rfl⟩, rfl⟩

theorem StandsIn.moveTo {s : TokenStream} {ts us rest : List Token} (h : s.StandsIn ts)
    (hrest : s.pending = us ++ rest) : (s.moveTo rest).StandsIn ts := by
  obtain ⟨passed, hlength, hpending⟩ := h.pending
  refine ⟨⟨passed ++ us, ?_, ?_⟩, h.eof⟩
  · rw [position_moveTo hrest, List.length_append, hlength]
  · show _ = passed ++ us ++ rest
    rw [hpending, hrest, List.append_assoc]

/-- The token at an index that is still to come. -/
theorem StandsIn.getElem? {s : TokenStream} {ts us rest : List Token} (h : s.StandsIn ts)
    (hrest : s.pending = us ++ rest) :
    (ended ts)[s.position + us.length]? = some (s.front rest) := by
  obtain ⟨passed, hlength, hpending⟩ := h.pending
  have hsplit : (ofTokens ts).pending = (passed ++ us) ++ rest := by
    rw [hpending, hrest, List.append_assoc]
  have hget := getElem?_ended hsplit
  rwa [List.length_append, hlength, front, show (ofTokens ts).eof = s.eof from h.eof.symm] at hget

theorem StandsIn.getElem?_peek {s : TokenStream} {ts : List Token} (h : s.StandsIn ts) :
    (ended ts)[s.position]? = some s.peek :=
  h.getElem? (List.nil_append s.pending).symm

theorem StandsIn.getElem?_next {s : TokenStream} {ts rest : List Token} {t : Token}
    (h : s.StandsIn ts) (hs : s.pending = t :: rest) :
    (ended ts)[s.position + 1]? = some (s.front rest) := by
  rw [← List.singleton_append] at hs
  exact h.getElem? hs

/-- The end of input is not pending. -/
theorem StandsIn.not_eof {s : TokenStream} {ts : List Token} (h : s.StandsIn ts) :
    ∀ t ∈ s.pending, t.isEof = false := by
  obtain ⟨passed, -, hpending⟩ := h.pending
  intro t ht
  have hmem : t ∈ (ofTokens ts).pending := by
    rw [hpending]
    exact List.mem_append_right _ ht
  rw [ofTokens] at hmem
  have hnot := List.mem_takeWhile_imp hmem
  simpa using hnot

theorem StandsIn.isEof_eof {s : TokenStream} {ts : List Token} (h : s.StandsIn ts) :
    s.eof.isEof = true := by
  rw [h.eof]
  exact isEof_eofOf ts

theorem StandsIn.pending_eq_nil_iff {s : TokenStream} {ts : List Token} (h : s.StandsIn ts) :
    s.pending = [] ↔ s.peek.isEof := by
  have hnot := h.not_eof
  rw [peek]
  cases hs : s.pending with
  | nil => exact iff_of_true rfl h.isEof_eof
  | cons t rest =>
    have ht : t.isEof = false := hnot t (by rw [hs]; exact List.mem_cons_self)
    exact iff_of_false (List.cons_ne_nil t rest) (by simpa [front] using ht)

/-! ## Synchronizing -/

theorem recover_suffix (ts : List Token) : recover ts <:+ ts := by
  induction ts with
  | nil => exact List.suffix_refl _
  | cons t ts ih =>
    rw [recover]
    split
    · exact List.suffix_cons t ts
    · exact ih.trans (List.suffix_cons t ts)

/-- Moving on in two steps is moving on in one. -/
theorem moveTo_moveTo {s : TokenStream} {rest more : List Token} (hrest : rest <:+ s.pending)
    (hmore : more <:+ rest) : (s.moveTo rest).moveTo more = s.moveTo more := by
  have h₁ := hrest.length_le
  have h₂ := hmore.length_le
  show TokenStream.mk _ more s.eof = TokenStream.mk _ more s.eof
  congr 1
  show s.position + (s.pending.length - rest.length) + (rest.length - more.length) = _
  omega

/-- The next index is a boundary if the current token or the next one makes it one. -/
theorem StandsIn.boundary_next_iff {s : TokenStream} {ts rest : List Token} {t : Token}
    (h : s.StandsIn ts) (hs : s.pending = t :: rest) :
    Boundary (ended ts) (s.position + 1) ↔
      rest = [] ∨ t.kind = .symbol .semicolon ∨ ∃ u ∈ rest.head?, u.kind.startsStatement := by
  have hcurrent : (ended ts)[s.position]? = some t := by
    rw [h.getElem?_peek, peek, hs]
    rfl
  have hnext := h.getElem?_next hs
  constructor
  · intro hb
    cases hb with
    | atEnd hu heof =>
      obtain rfl := Option.some.inj (hnext.symm.trans hu)
      cases rest with
      | nil => exact .inl rfl
      | cons u rest =>
        -- a pending token does not end the input
        have hnot := h.not_eof u (by rw [hs]; simp)
        cases hnot.symm.trans heof
    | pastSemicolon hu hk =>
      obtain rfl := Option.some.inj (hcurrent.symm.trans hu)
      exact .inr (.inl hk)
    | atKeyword hu hk =>
      obtain rfl := Option.some.inj (hnext.symm.trans hu)
      cases rest with
      | nil => exact .inl rfl
      | cons u rest => exact .inr (.inr ⟨u, rfl, hk⟩)
  · rintro (rfl | hk | ⟨u, hu, hk⟩)
    · exact .atEnd hnext h.isEof_eof
    · exact .pastSemicolon hcurrent hk
    · refine .atKeyword hnext ?_
      rw [front, Option.mem_def.mp hu]
      exact hk

/-- One step: recovery stops at the next index if it is a boundary, and else starts again there. -/
theorem StandsIn.synchronize_step {s : TokenStream} {ts rest : List Token} {t : Token}
    (h : s.StandsIn ts) (hs : s.pending = t :: rest) :
    (Boundary (ended ts) (s.position + 1) ∧ s.synchronize = s.moveTo rest) ∨
    (¬ Boundary (ended ts) (s.position + 1) ∧ rest ≠ [] ∧
      s.synchronize = (s.moveTo rest).synchronize) := by
  have hsuffix : rest <:+ s.pending := by
    rw [hs]
    exact List.suffix_cons t rest
  have hagain : (s.moveTo rest).synchronize = s.moveTo (recover rest) :=
    moveTo_moveTo hsuffix (recover_suffix rest)
  have hiff := h.boundary_next_iff hs
  have hstops : (t.kind = .symbol .semicolon || rest.head?.any fun u => u.kind.startsStatement) ↔
      t.kind = .symbol .semicolon ∨ ∃ u ∈ rest.head?, u.kind.startsStatement := by
    rw [Bool.or_eq_true, decide_eq_true_eq, Option.any_eq_true]
    rfl
  rw [hagain, synchronize, hs, recover]
  by_cases hstop : t.kind = .symbol .semicolon ∨ ∃ u ∈ rest.head?, u.kind.startsStatement
  · rw [if_pos (hstops.mpr hstop)]
    exact .inl ⟨hiff.mpr (.inr hstop), rfl⟩
  · rw [if_neg (mt hstops.mp hstop)]
    by_cases hempty : rest = []
    · exact .inl ⟨hiff.mpr (.inl hempty), by rw [hempty, recover]⟩
    · exact .inr ⟨fun hb => hstop ((hiff.mp hb).resolve_left hempty), hempty, rfl⟩

/-- What is first past `i + 1` is also first past `i`, unless `i + 1` itself comes before it. -/
theorem isLeast_iff_of_next {p : Nat → Prop} {i n : Nat} (h : IsLeast {j | i + 1 < j ∧ p j} n) :
    IsLeast {j | i < j ∧ p j} n ↔ ¬ p (i + 1) := by
  obtain ⟨⟨hlt, hn⟩, hleast⟩ := h
  constructor
  · intro hfirst hnext
    have hle : n ≤ i + 1 := hfirst.2 ⟨Nat.lt_succ_self i, hnext⟩
    omega
  · intro hnext
    refine ⟨⟨by omega, hn⟩, ?_⟩
    rintro j ⟨hj, hpj⟩
    have hne : j ≠ i + 1 := by
      rintro rfl
      exact hnext hpj
    exact hleast ⟨by omega, hpj⟩

/-- At the end of input recovery stays. -/
theorem StandsIn.synchronize_at_end {s : TokenStream} {ts : List Token} (h : s.StandsIn ts)
    (hs : s.peek.isEof = true) : s.synchronize = s := by
  have hempty : s.pending = [] := h.pending_eq_nil_iff.mpr hs
  obtain ⟨position, pending, eof⟩ := s
  obtain rfl : pending = [] := hempty
  rfl

/-- **Recovery stops at the first boundary** past the current token. -/
theorem StandsIn.isLeast_synchronize {s : TokenStream} {ts : List Token} (h : s.StandsIn ts)
    (hs : s.peek.isEof = false) :
    IsLeast {j | s.position < j ∧ Boundary (ended ts) j} s.synchronize.position := by
  have hne : s.pending ≠ [] := by
    intro hempty
    cases hs.symm.trans (h.pending_eq_nil_iff.mp hempty)
  clear hs
  generalize hpending : s.pending = pending at hne
  induction pending generalizing s with
  | nil => exact absurd rfl hne
  | cons t rest ih =>
    have hsplit : s.pending = [t] ++ rest := hpending
    have hmoved : (s.moveTo rest).position = s.position + 1 := position_moveTo hsplit
    rcases h.synchronize_step hpending with ⟨hb, heq⟩ | ⟨hnot, hrest, heq⟩
    · rw [heq, hmoved]
      exact ⟨⟨Nat.lt_succ_self _, hb⟩, fun j hj => hj.1⟩
    · have hleast := ih (h.moveTo hsplit) rfl hrest
      rw [hmoved] at hleast
      rw [heq]
      exact (isLeast_iff_of_next hleast).mpr hnot

/-! ## Streams that are reached -/

/-- The streams to which readings and recoveries lead from the start of a token list. -/
inductive Reachable (ts : List Token) : TokenStream → Prop where
  | start : Reachable ts (ofTokens ts)
  | expression {s} : Reachable ts s → Reachable ts s.expression.2
  | synchronize {s} : Reachable ts s → Reachable ts s.synchronize

theorem afterFailure_suffix (cause : Cause) (rest : List Token) : afterFailure cause rest <:+ rest := by
  cases cause with
  | expectedExpression => exact List.tail_suffix rest
  | missingRightParen | missingColon => exact List.suffix_rfl

/-- Reading moves past a tree, or fails at a token still to come and leaves off there or just past
    it. -/
theorem expression_moves (s : TokenStream) :
    ∃ us rest, s.pending = us ++ rest ∧
      ((∃ e, s.expression = (.ok e, s.moveTo rest)) ∨
        ∃ cause, s.expression =
          (.error ⟨cause, s.front rest⟩, s.moveTo (afterFailure cause rest))) := by
  have hrun := runs_level .comma s.pending
  cases ha : (level .comma s.pending).answer with
  | done e rest =>
    rw [ha] at hrun
    obtain ⟨us, hus, -⟩ := hrun.window
    exact ⟨us, rest, hus, .inl ⟨e, expression_of_done hrun⟩⟩
  | stuck cause rest =>
    rw [ha] at hrun
    obtain ⟨us, hus, -⟩ := hrun.window
    exact ⟨us, rest, hus, .inr ⟨cause, expression_of_stuck hrun⟩⟩

theorem StandsIn.expression {s : TokenStream} {ts : List Token} (h : s.StandsIn ts) :
    s.expression.2.StandsIn ts := by
  obtain ⟨us, rest, hpending, ⟨e, hx⟩ | ⟨cause, hx⟩⟩ := s.expression_moves
  · rw [hx]
    exact h.moveTo hpending
  · obtain ⟨vs, hvs⟩ := afterFailure_suffix cause rest
    have hpast : s.pending = (us ++ vs) ++ afterFailure cause rest := by
      rw [hpending, List.append_assoc, hvs]
    rw [hx]
    exact h.moveTo hpast

theorem StandsIn.synchronize {s : TokenStream} {ts : List Token} (h : s.StandsIn ts) :
    s.synchronize.StandsIn ts := by
  obtain ⟨us, hus⟩ := recover_suffix s.pending
  exact h.moveTo hus.symm

/-- **Every stream that is reached stands in the list.** -/
theorem Reachable.standsIn {s : TokenStream} {ts : List Token} (h : Reachable ts s) :
    s.StandsIn ts := by
  induction h with
  | start => exact .start ts
  | expression _ ih => exact ih.expression
  | synchronize _ ih => exact ih.synchronize

/-! ## After a failure -/

/-- Where a failed reading leaves off: at the offending token, or past it if an expression was
    expected there. -/
theorem StandsIn.position_error {s s' : TokenStream} {ts : List Token} {error : SyntaxError}
    (h : s.StandsIn ts) (hx : s.expression = (.error error, s'))
    (htoken : error.token.isEof = false) :
    ∃ i, s.position ≤ i ∧ (ended ts)[i]? = some error.token ∧
      (error.cause ≠ .expectedExpression → s'.position = i) ∧
      (error.cause = .expectedExpression → s'.position = i + 1) := by
  obtain ⟨us, rest, hpending, ⟨e, hmoves⟩ | ⟨cause, hmoves⟩⟩ := s.expression_moves
  · cases hx.symm.trans hmoves
  obtain ⟨herror, rfl⟩ := Prod.mk.inj (hx.symm.trans hmoves)
  obtain rfl := Except.error.inj herror
  refine ⟨s.position + us.length, by omega, h.getElem? hpending, ?_, ?_⟩
  · intro hcause
    have hat : afterFailure cause rest = rest := by
      rw [afterFailure]
      exact hcause
    rw [hat, position_moveTo hpending]
  · rintro rfl
    cases rest with
    | nil =>
      -- the offending token would be the end of input
      cases htoken.symm.trans h.isEof_eof
    | cons t rest =>
      have hpast : s.pending = (us ++ [t]) ++ rest := by
        rw [hpending, List.append_assoc, List.singleton_append]
      rw [afterFailure, List.tail_cons, position_moveTo hpast, List.length_append]
      rfl

end TokenStream

open TokenStream

/-- **The recovery point.**  After a failure at the token with index `i` recovery goes to the first
    boundary past `i` if a `)` or a `:` was missing.  If an expression was expected, it stays at the
    end of input when that is next, and else goes to the first boundary past `i + 1`.  So the first
    boundary past `i` is missed in just one case: an expression was expected, and the very next token
    is a boundary other than the end. -/
theorem recovery_point (ts : List Token) (s s' : TokenStream) (error : SyntaxError)
    (hs : Reachable ts s) (hx : s.expression = (.error error, s'))
    (htoken : error.token.isEof = false) :
    ∃ i, s.position ≤ i ∧ (ended ts)[i]? = some error.token ∧
      (error.cause ≠ .expectedExpression →
        s'.position = i ∧
          IsLeast {j | i < j ∧ Boundary (ended ts) j} s'.synchronize.position) ∧
      (error.cause = .expectedExpression →
        s'.position = i + 1 ∧ (s'.peek.isEof = true → s'.synchronize = s') ∧
          (s'.peek.isEof = false →
            IsLeast {j | i + 1 < j ∧ Boundary (ended ts) j} s'.synchronize.position)) ∧
      (IsLeast {j | i < j ∧ Boundary (ended ts) j} s'.synchronize.position ↔
        ¬ (error.cause = .expectedExpression ∧ s'.peek.isEof = false ∧
          Boundary (ended ts) (i + 1))) := by
  have hstands := hs.standsIn
  have hstands' : s'.StandsIn ts := by
    have := hstands.expression
    rwa [hx] at this
  obtain ⟨i, hle, hget, hat, hpast⟩ := hstands.position_error hx htoken
  have hpeek := hstands'.getElem?_peek
  have hmoves := hstands'.isLeast_synchronize
  by_cases hcause : error.cause = .expectedExpression
  · have hposition := hpast hcause
    rw [hposition] at hmoves hpeek
    refine ⟨i, hle, hget, fun hne => absurd hcause hne,
      fun _ => ⟨hposition, hstands'.synchronize_at_end, hmoves⟩, ?_⟩
    cases hend : s'.peek.isEof with
    | true =>
      -- nothing comes before the end, which is a boundary itself
      rw [hstands'.synchronize_at_end hend, hposition]
      refine iff_of_true ⟨⟨Nat.lt_succ_self i, .atEnd hpeek hend⟩, fun j hj => hj.1⟩ ?_
      rintro ⟨-, hnot, -⟩
      cases hnot
    | false =>
      rw [isLeast_iff_of_next (hmoves hend)]
      constructor
      · exact fun hno hall => hno hall.2.2
      · exact fun hno hb => hno ⟨hcause, rfl, hb⟩
  · have hposition := hat hcause
    rw [hposition] at hmoves hpeek
    have hnot : s'.peek.isEof = false := by
      rwa [Option.some.inj (hpeek.symm.trans hget)]
    refine ⟨i, hle, hget, fun _ => ⟨hposition, hmoves hnot⟩, fun h => absurd h hcause, ?_⟩
    exact iff_of_true (hmoves hnot) fun hall => hcause hall.1

/-- A missing `)`: recovery starts at the offending token, with index 2, and goes past the next
    semicolon. -/
theorem recovery_point_missing_paren :
    let ts := (scan "(nil nil; print nil").tokens
    let error := SyntaxError.mk .missingRightParen ⟨.keyword .nilWord, "nil", none, 1⟩
    let s' := (ofTokens ts).moveTo ((ofTokens ts).pending.drop 2)
    (ofTokens ts).expression = (.error error, s') ∧ error.token.isEof = false ∧
      s'.synchronize.position = 4 ∧ IsLeast {j | 2 < j ∧ Boundary (ended ts) j} 4 := by
  intro ts error s'
  have hx : (ofTokens ts).expression = (.error error, s') := by decide +kernel
  obtain ⟨i, -, -, hat, -, -⟩ := recovery_point ts _ s' error .start hx rfl
  obtain ⟨hi, hleast⟩ := hat (by decide)
  have htwo : s'.position = 2 := by decide +kernel
  obtain rfl : 2 = i := htwo.symm.trans hi
  have hposition : s'.synchronize.position = 4 := by decide +kernel
  rw [hposition] at hleast
  exact ⟨hx, rfl, hposition, hleast⟩

/-- An expression is expected at the semicolon of `1 + ; print 2`.  The statement after it begins at
    index 3, where the failed reading leaves off; recovery goes from there to the end. -/
theorem recovery_misses_statement :
    let ts := (scan "1 + ; print 2").tokens
    let semicolon : Token := ⟨.symbol .semicolon, ";", none, 1⟩
    let s' := (ofTokens ts).expression.2
    (ofTokens ts).expression.1 = .error ⟨.expectedExpression, semicolon⟩ ∧
      (ended ts)[2]? = some semicolon ∧ (∀ i, (ended ts)[i]? = some semicolon → i = 2) ∧
      Boundary (ended ts) 3 ∧
      s' = (ofTokens ts).synchronize ∧ s'.position = 3 ∧ s'.synchronize.position = 5 ∧
      ¬ IsLeast {j | 2 < j ∧ Boundary (ended ts) j} s'.synchronize.position := by
  intro ts semicolon s'
  have hb : Boundary (ended ts) 3 := .atKeyword (t := ⟨.keyword .printWord, "print", none, 1⟩)
    (by decide +kernel) rfl
  have hposition : s'.synchronize.position = 5 := by decide +kernel
  refine ⟨by decide +kernel, by decide +kernel, fun i hi => ?_, hb, by decide +kernel,
    by decide +kernel, hposition, ?_⟩
  · have hlength : (ended ts).length = 6 := by decide +kernel
    have hlt : i < 6 := hlength ▸ (List.getElem?_eq_some_iff.mp hi).1
    have honly : ∀ i < 6, (ended ts)[i]? = some semicolon → i = 2 := by decide +kernel
    exact honly i hlt hi
  · rw [hposition]
    intro hleast
    have hle : 5 ≤ 3 := hleast.2 ⟨by decide, hb⟩
    omega

end Lox
