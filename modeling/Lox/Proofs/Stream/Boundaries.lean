/-
  Boundaries — recovery, called AGAIN AND AGAIN, goes from boundary to boundary.

  1. **One call** — every stream that is reached is the one at its index of the list, so a call changes
     the index and nothing else.  Away from the end the index goes to the first boundary past it, and
     at the end it stays.
  2. **All calls** — `Sweeps s ts n`: called `n` times from `s`, recovery visits exactly the boundaries
     past `s`, in their order, and then stays at the first end of input.  The induction is on the
     number of pending tokens, which every call away from the end makes smaller.
-/
import Lox.Proofs.Stream.Lookahead

namespace Lox

namespace TokenStream

variable {s : TokenStream} {ts : List Token} {n : Nat}

/-! ## One call -/

/-- A place in a list is the stream at the front, moved on. -/
theorem StandsIn.eq_moveTo (h : s.StandsIn ts) : s = (ofTokens ts).moveTo s.pending := by
  obtain ⟨passed, hlength, hpending⟩ := h.pending
  have hposition : ((ofTokens ts).moveTo s.pending).position = 0 + passed.length :=
    position_moveTo hpending
  show TokenStream.mk s.position s.pending s.eof = TokenStream.mk _ s.pending (eofOf ts)
  rw [h.eof]
  congr 1
  show s.position = ((ofTokens ts).moveTo s.pending).position
  omega

/-- So it holds what the list has from its index up to the first end of input. -/
theorem StandsIn.liesIn (h : s.StandsIn ts) :
    s.LiesIn (ended ts) ((ended ts).findIdx Token.isEof) := by
  obtain ⟨passed, -, hpending⟩ := h.pending
  rw [h.eq_moveTo]
  apply (liesIn_ended ts).moveTo
  exact ⟨passed, hpending.symm⟩

/-- The end of input that a stream stands at is the first of the list. -/
theorem StandsIn.position_at_end (h : s.StandsIn ts) (hs : s.peek.isEof = true) :
    s.position = (ended ts).findIdx Token.isEof := by
  have hempty : s.pending = [] := h.pending_eq_nil_iff.mpr hs
  have hlast := h.liesIn.last
  rwa [hempty] at hlast

/-- A call away from the end leaves fewer tokens to come. -/
theorem StandsIn.length_synchronize (h : s.StandsIn ts) (hs : s.peek.isEof = false) :
    s.synchronize.pending.length < s.pending.length := by
  have hforward : s.position < s.synchronize.position := (h.isLeast_synchronize hs).1.1
  have hlast := h.liesIn.last
  have hlast' := h.synchronize.liesIn.last
  omega

/-! ## All calls -/

/-- Called `n` times from the stream, recovery moves forward with every call, visits exactly the
    boundaries past the stream up to the first end of input, and stays there from then on. -/
structure Sweeps (s : TokenStream) (ts : List Token) (n : Nat) : Prop where
  ascends : ∀ k < n, (synchronize^[k] s).position < (synchronize^[k + 1] s).position
  visits : ∀ j, (∃ k < n, (synchronize^[k + 1] s).position = j) ↔
    s.position < j ∧ j ≤ (ended ts).findIdx Token.isEof ∧ Boundary (ended ts) j
  ends : (synchronize^[n] s).position = (ended ts).findIdx Token.isEof
  stays : ∀ k ≥ n, synchronize^[k] s = synchronize^[n] s

/-- At the end no call is needed. -/
theorem StandsIn.sweeps_at_end (h : s.StandsIn ts) (hs : s.peek.isEof = true) : s.Sweeps ts 0 := by
  have hend := h.position_at_end hs
  refine ⟨?_, ?_, hend, ?_⟩
  · intro k hk
    omega
  · intro j
    constructor
    · rintro ⟨k, hk, -⟩
      omega
    · rintro ⟨hlt, hle, -⟩
      omega
  · intro k _
    exact Function.iterate_fixed (h.synchronize_at_end hs) k

/-- Away from the end, one call comes before those that are needed where it leads. -/
theorem StandsIn.sweeps_succ (h : s.StandsIn ts) (hs : s.peek.isEof = false)
    (hnext : s.synchronize.Sweeps ts n) : s.Sweeps ts (n + 1) := by
  obtain ⟨⟨hforward, hboundary⟩, hleast⟩ := h.isLeast_synchronize hs
  have hle := h.synchronize.liesIn.position_le
  refine ⟨?_, ?_, hnext.ends, ?_⟩
  · intro k hk
    cases k with
    | zero => exact hforward
    | succ k => exact hnext.ascends k (by omega)
  · intro j
    constructor
    · rintro ⟨k, hk, rfl⟩
      cases k with
      | zero => exact ⟨hforward, hle, hboundary⟩
      | succ k =>
        obtain ⟨hlt, hrest⟩ := (hnext.visits _).mp ⟨k, by omega, rfl⟩
        exact ⟨hforward.trans hlt, hrest⟩
    · rintro ⟨hlt, hbound, hb⟩
      -- no boundary lies before the one that the first call visits
      rcases Nat.eq_or_lt_of_le (hleast ⟨hlt, hb⟩) with heq | hgt
      · exact ⟨0, by omega, heq⟩
      · obtain ⟨k, hk, hj⟩ := (hnext.visits j).mpr ⟨hgt, hbound, hb⟩
        exact ⟨k + 1, by omega, hj⟩
  · intro k hk
    obtain ⟨m, rfl⟩ : ∃ m, k = m + 1 := ⟨k - 1, by omega⟩
    exact hnext.stays m (by omega)

theorem exists_sweeps : ∀ (m : Nat) (s : TokenStream), s.pending.length ≤ m → s.StandsIn ts →
    ∃ n, s.Sweeps ts n := by
  intro m
  induction m with
  | zero =>
    intro s hm h
    have hempty : s.pending = [] := List.eq_nil_of_length_eq_zero (by omega)
    exact ⟨0, h.sweeps_at_end (h.pending_eq_nil_iff.mp hempty)⟩
  | succ m ih =>
    intro s hm h
    cases hs : s.peek.isEof with
    | true => exact ⟨0, h.sweeps_at_end hs⟩
    | false =>
      have hshorter := h.length_synchronize hs
      obtain ⟨n, hn⟩ := ih s.synchronize (by omega) h.synchronize
      exact ⟨n + 1, h.sweeps_succ hs hn⟩

end TokenStream

open TokenStream

/-- **Recovery goes from boundary to boundary.**  A stream that is reached is the one at its index of
    the list, and holds the token there; recovery changes only the index.  At an end of input it stays,
    and else it goes to the first boundary past the index.  So calls from there visit exactly the
    boundaries that lie ahead, each further on than the one before, up to the first end of input of the
    list, and stay there. -/
theorem synchronize_sweeps {ts : List Token} {s : TokenStream} (hs : Reachable ts s) :
    s = startingAt ts s.position ∧ s.synchronize = startingAt ts s.synchronize.position ∧
      (ended ts)[s.position]? = some s.peek ∧
      (s.peek.isEof = true → s.synchronize = s) ∧
      (s.peek.isEof = false →
        IsLeast {j | s.position < j ∧ Boundary (ended ts) j} s.synchronize.position) ∧
      ∃ n, s.Sweeps ts n := by
  have hstands := hs.standsIn
  refine ⟨hstands.liesIn.eq_startingAt, hstands.synchronize.liesIn.eq_startingAt,
    hstands.getElem?_peek, hstands.synchronize_at_end, hstands.isLeast_synchronize, ?_⟩
  exact exists_sweeps _ s (Nat.le_refl _) hstands

/-- A keyword directly behind a semicolon, an end of input directly behind one, and a keyword behind
    that end: from the front recovery visits index 2, and index 5 last. -/
theorem synchronize_sweeps_mid_list :
    let one (kind : Kind) (lexeme : String) : Token := ⟨kind, lexeme, none, 1⟩
    let word := one (.keyword .nilWord) "nil"
    let semicolon := one (.symbol .semicolon) ";"
    let ts := [word, semicolon, one (.keyword .printWord) "print", word, semicolon, .endOn 1,
      one (.keyword .whileWord) "while"]
    Reachable ts (ofTokens ts) ∧ (ofTokens ts).peek.isEof = false ∧
      IsLeast {j | 0 < j ∧ Boundary (ended ts) j} 2 ∧
      ∃ n, (ofTokens ts).Sweeps ts n ∧
        (∃ k < n, (synchronize^[k + 1] (ofTokens ts)).position = 2) ∧
        (synchronize^[n] (ofTokens ts)).position = 5 := by
  intro one word semicolon ts
  have hs : (ofTokens ts).peek.isEof = false := by decide +kernel
  have hstart : Reachable ts (ofTokens ts) := .start
  obtain ⟨-, -, -, -, hfirst, n, hn⟩ := synchronize_sweeps hstart
  have hleast := hfirst hs
  have htwo : (ofTokens ts).synchronize.position = 2 := by decide +kernel
  have hend : (ended ts).findIdx Token.isEof = 5 := by decide +kernel
  rw [htwo] at hleast
  refine ⟨hstart, hs, hleast, n, hn, ?_, hn.ends.trans hend⟩
  apply (hn.visits 2).mpr
  rw [hend]
  exact ⟨by decide, by decide, hleast.1.2⟩

end Lox
