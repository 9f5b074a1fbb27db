/-
  Ended lists — token streams seen as places in a whole token list.

  A stream keeps only what comes before the first end of input.  Positions, though, count tokens of the
  LIST that is read: the given one, with an end of input added if its last token is none.

  1. **Ended lists** — `ended ts`, and how it divides at its first end of input (`ended_eq`).
  2. **Places** — what a stream still has to come is a tail of that list, and its position says which.
-/
import Mathlib.Data.List.TakeWhile
import Lox.Token.Stream

namespace Lox

/-! ## Ended lists -/

/-- The list that is read: an end of input is added if the last token is none, on the line of the last
    token, or on line 1. -/
def ended (ts : List Token) : List Token :=
  if ts.getLast?.any Token.isEof then ts else ts ++ [.endOn (ts.getLast?.elim 1 Token.line)]

namespace TokenStream

/-- What comes before the one end of input is pending. -/
theorem pending_endOn {ts : List Token} (h : ∀ t ∈ ts, t.isEof = false) (line : Nat) :
    (ofTokens (ts ++ [.endOn line])).pending = ts := by
  have hts : ∀ t ∈ ts, (!t.isEof) = true := by simpa using h
  show (ts ++ [Token.endOn line]).takeWhile (fun t => !t.isEof) = ts
  rw [List.takeWhile_append_of_pos hts, List.takeWhile_cons_of_neg Bool.false_ne_true,
    List.append_nil]

theorem eof_endOn {ts : List Token} (h : ∀ t ∈ ts, t.isEof = false) (line : Nat) :
    (ofTokens (ts ++ [.endOn line])).eof = .endOn line := by
  have hfind : ts.find? Token.isEof = none := by
    rw [List.find?_eq_none]
    intro t ht
    rw [h t ht]
    exact Bool.false_ne_true
  show (List.find? Token.isEof (ts ++ [Token.endOn line])).getD _ = _
  rw [List.find?_append, hfind]
  rfl

/-- The stream holds the list up to its first end of input, and that end. -/
theorem ended_eq (ts : List Token) :
    ∃ after, ended ts = (ofTokens ts).pending ++ (ofTokens ts).eof :: after := by
  cases h : ts.find? Token.isEof with
  | none =>
    have hno : ∀ t ∈ ts, t.isEof = false := by simpa using h
    have hlast : ts.getLast?.any Token.isEof = false := by
      cases hl : ts.getLast? with
      | none => rfl
      | some t => exact hno t (List.mem_of_getLast? hl)
    refine ⟨[], ?_⟩
    have htake : ts.takeWhile (fun t => !t.isEof) = ts :=
      List.takeWhile_eq_self_iff.mpr fun t ht => by simp [hno t ht]
    rw [ended, hlast, if_neg (by decide)]
    simp only [ofTokens, eofOf, h, htake, Option.getD_none]
  | some t =>
    obtain ⟨ht, before, after, rfl, hbefore⟩ := List.find?_eq_some_iff_append.mp h
    have htake : (before ++ t :: after).takeWhile (fun t => !t.isEof) = before := by
      rw [List.takeWhile_append_of_pos hbefore, List.takeWhile_cons_of_neg (by simp [ht]),
        List.append_nil]
    simp only [ofTokens, eofOf, h, htake, Option.getD_some]
    rw [ended]
    split
    · exact ⟨after, rfl⟩
    · exact ⟨after ++ [_], by rw [List.append_assoc, List.cons_append]⟩

/-- The end that a stream holds ends the input. -/
theorem isEof_eofOf (ts : List Token) : (eofOf ts).isEof = true := by
  rw [eofOf]
  cases h : ts.find? Token.isEof with
  | none => rfl
  | some t => exact List.find?_some h

/-! ## Places -/

/-- Moving to a tail of what is pending counts what was passed. -/
theorem position_moveTo {s : TokenStream} {us rest : List Token} (h : s.pending = us ++ rest) :
    (s.moveTo rest).position = s.position + us.length := by
  rw [moveTo, h, List.length_append, Nat.add_sub_cancel]

/-- The first of a tail of what is pending, or the end, stands in the list where the tail begins. -/
theorem getElem?_ended {ts us rest : List Token} (h : (ofTokens ts).pending = us ++ rest) :
    (ended ts)[us.length]? = some ((ofTokens ts).front rest) := by
  obtain ⟨after, hended⟩ := ended_eq ts
  rw [hended, h, List.append_assoc, List.getElem?_append_right (Nat.le_refl _), Nat.sub_self]
  cases rest <;> rfl

theorem take_ended {ts us rest : List Token} (h : (ofTokens ts).pending = us ++ rest) :
    (ended ts).take us.length = us := by
  obtain ⟨after, hended⟩ := ended_eq ts
  rw [hended, h, List.append_assoc, List.take_left]

/-- A part of the list without an end of input ends where a tail of what is pending begins. -/
theorem exists_pending_eq {ts : List Token} {k : Nat}
    (h : ∀ t ∈ (ended ts).take k, t.isEof = false) (hk : k ≤ (ended ts).length) :
    ∃ rest, (ofTokens ts).pending = (ended ts).take k ++ rest := by
  obtain ⟨after, hended⟩ := ended_eq ts
  rcases Nat.lt_or_ge (ofTokens ts).pending.length k with hlt | hge
  · -- the first end of input would be among the first `k`
    obtain ⟨n, rfl⟩ := Nat.exists_eq_add_of_lt hlt
    have hmem : (ofTokens ts).eof ∈ (ended ts).take ((ofTokens ts).pending.length + n + 1) := by
      rw [hended, Nat.add_assoc, List.take_length_add_append, List.take_succ_cons]
      simp
    cases (h _ hmem).symm.trans (isEof_eofOf ts)
  · refine ⟨(ofTokens ts).pending.drop k, ?_⟩
    rw [hended, List.take_append_of_le_length hge, List.take_append_drop]

end TokenStream

end Lox
