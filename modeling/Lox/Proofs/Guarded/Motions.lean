/-
  Motions with checks — an index into a list of tokens.

  A token stream holds what is still to come, so it has no index that could leave its list.  Here the
  whole list is kept and an INDEX moves over it.  Every look at a token is checked: the index must be in
  range, and not past the index `last` of an end of input.

  1. **Motions** — look at the current token or the one before it, go on by one, take a token if it is
     as wanted.  The index changes in `advance` alone, by one, and not at the end of input.
  2. **Streams** — a stream that lies in the list (`TokenStream.LiesIn`) has the machine's index as its
     position.  There no check fails, and each motion does what the stream does.
  3. **Rising** — no motion ever lowers the index, whatever the list and the index are.
-/
import Lox.Proofs.Guarded.Slice
import Lox.Proofs.Stream.Recovery

namespace Lox

namespace Guarded

/-! ## Motions -/

/-- A computation with an index that can fail on the tokens, or breach a check. -/
abbrev Reader := ExceptT SyntaxError (StateT Nat (Except Breach))

/-- The breach of a check. -/
def breach {α : Type} (b : Breach) : Reader α := fun _ => .error b

variable (ts : List Token) (last : Nat)

/-- The token at the index, which must be in range and not past the last one allowed. -/
def peek : Reader Token := fun i =>
  match ts[i]? with
  | none => .error .index
  | some t => if i ≤ last then .ok (.ok t, i) else .error .pastEnd

/-- The token before the index, if the index is not 0. -/
def previous? : Reader (Option Token) := fun i =>
  match i with
  | 0 => .ok (.ok none, 0)
  | j + 1 =>
    match ts[j]? with
    | none => .error .index
    | some t => .ok (.ok (some t), j + 1)

/-- Takes the token at the index, and goes on by one unless it ends the input. -/
def advance : Reader Token := do
  let t ← peek ts last
  if !t.isEof then modify (· + 1)
  return t

/-- Takes the token at the index if it is as wanted. -/
def matchAny (wanted : Token → Bool) : Reader (Option Token) := do
  if wanted (← peek ts last) then return some (← advance ts last) else return none

/-- Takes the token at the index, which must be the symbol. -/
def consume (s : Symbol) (cause : Cause) : Reader Token := do
  let t ← peek ts last
  if t.kind = .symbol s then advance ts last else throw ⟨cause, t⟩

section Bind

variable {α β : Type} {x : Reader α} {f : α → Reader β} {i j : Nat}

theorem bind_ok {a : α} (h : x i = .ok (.ok a, j)) : (x >>= f) i = f a j := by
  show (x i >>= fun r => _) = _
  rw [h]
  rfl

theorem bind_error {error : SyntaxError} (h : x i = .ok (.error error, j)) :
    (x >>= f) i = .ok (.error error, j) := by
  show (x i >>= fun r => _) = _
  rw [h]
  rfl

theorem bind_breach {b : Breach} (h : x i = .error b) : (x >>= f) i = .error b := by
  show (x i >>= fun r => _) = _
  rw [h]
  rfl

end Bind

end Guarded

/-! ## Streams that lie in a list -/

namespace TokenStream

/-- The stream is what the list holds from an index up to and with the next end of input, whose index is
    `last`. -/
structure LiesIn (s : TokenStream) (ts : List Token) (last : Nat) : Prop where
  drop : ∃ after, ts.drop s.position = s.pending ++ s.eof :: after
  last : s.position + s.pending.length = last
  not_eof : ∀ t ∈ s.pending, t.isEof = false
  isEof : s.eof.isEof = true

/-- Nothing is passed. -/
theorem moveTo_pending (s : TokenStream) : s.moveTo s.pending = s := by
  rw [moveTo, Nat.sub_self, Nat.add_zero]

variable {s : TokenStream} {ts rest : List Token} {last : Nat}

theorem LiesIn.moveTo (h : s.LiesIn ts last) (hrest : rest <:+ s.pending) :
    (s.moveTo rest).LiesIn ts last := by
  obtain ⟨us, hus⟩ := hrest
  have hposition := position_moveTo hus.symm
  obtain ⟨after, hdrop⟩ := h.drop
  refine ⟨⟨after, ?_⟩, ?_, fun t ht => h.not_eof t ?_, h.isEof⟩
  · rw [hposition, ← List.drop_drop, hdrop, ← hus, List.append_assoc, List.drop_left]
    rfl
  · rw [hposition, ← h.last, ← hus, List.length_append, Nat.add_assoc]
    rfl
  · rw [← hus]
    exact List.mem_append_right us ht

/-- The current token stands at the position. -/
theorem LiesIn.getElem? (h : s.LiesIn ts last) : ts[s.position]? = some s.peek := by
  obtain ⟨after, hdrop⟩ := h.drop
  rw [← Nat.add_zero s.position, ← List.getElem?_drop, hdrop, TokenStream.peek, front]
  cases s.pending <;> rfl

/-- The end of input is in the list. -/
theorem LiesIn.last_lt (h : s.LiesIn ts last) : last < ts.length := by
  obtain ⟨after, hdrop⟩ := h.drop
  have hlength := congrArg List.length hdrop
  rw [List.length_drop, List.length_append, List.length_cons] at hlength
  have hlast := h.last
  omega

theorem LiesIn.position_le (h : s.LiesIn ts last) : s.position ≤ last := by
  rw [← h.last]
  exact Nat.le_add_right _ _

/-- The stream of a whole list lies in it. -/
theorem liesIn_ended (ts : List Token) :
    (ofTokens ts).LiesIn (ended ts) ((ended ts).findIdx Token.isEof) := by
  have hnot : ∀ t ∈ (ofTokens ts).pending, t.isEof = false := (StandsIn.start ts).not_eof
  obtain ⟨after, hended⟩ := ended_eq ts
  refine ⟨⟨after, hended⟩, ?_, hnot, isEof_eofOf ts⟩
  have hnone : ¬ ∃ t ∈ (ofTokens ts).pending, t.isEof = true := by
    rintro ⟨t, ht, heof⟩
    cases (hnot t ht).symm.trans heof
  have hend : ((ofTokens ts).eof :: after).findIdx Token.isEof = 0 := by
    rw [List.findIdx_cons, show (ofTokens ts).eof.isEof = true from isEof_eofOf ts]
    rfl
  rw [hended, List.findIdx_append, if_neg (mt List.findIdx_lt_length.mp hnone), hend, Nat.zero_add]
  exact Nat.zero_add _

end TokenStream

namespace Guarded

open TokenStream

variable {s : TokenStream} {ts rest : List Token} {last : Nat} {t : Token}

/-! ## What the motions do -/

theorem peek_eq (h : s.LiesIn ts last) : peek ts last s.position = .ok (.ok s.peek, s.position) := by
  rw [peek, h.getElem?]
  exact if_pos h.position_le

/-- Elsewhere the checks do fail: behind the list, and past an end of input. -/
example : peek [] 0 0 = .error .index ∧ peek [.endOn 1, .endOn 1] 0 1 = .error .pastEnd :=
  ⟨rfl, rfl⟩

theorem peek_of_cons (h : s.pending = t :: rest) : s.peek = t := by
  rw [TokenStream.peek, h]
  rfl

theorem peek_of_nil (h : s.pending = []) : s.peek = s.eof := by
  rw [TokenStream.peek, h]
  rfl

theorem position_moveTo_cons (h : s.pending = t :: rest) :
    (s.moveTo rest).position = s.position + 1 := by
  rw [← List.singleton_append] at h
  rw [position_moveTo h]
  rfl

/-- A token that is pending is passed. -/
theorem advance_cons (h : s.LiesIn ts last) (hs : s.pending = t :: rest) :
    advance ts last s.position = .ok (.ok t, (s.moveTo rest).position) := by
  have hnot : t.isEof = false := h.not_eof t (by rw [hs]; exact List.mem_cons_self)
  rw [advance, bind_ok (peek_eq h), peek_of_cons hs, hnot, position_moveTo_cons hs]
  rfl

/-- The end of input is not. -/
theorem advance_nil (h : s.LiesIn ts last) (hs : s.pending = []) :
    advance ts last s.position = .ok (.ok s.eof, s.position) := by
  rw [advance, bind_ok (peek_eq h), peek_of_nil hs, h.isEof]
  rfl

theorem matchAny_of_wanted {wanted : Token → Bool} (h : s.LiesIn ts last)
    (hs : s.pending = t :: rest) (ht : wanted t) :
    matchAny ts last wanted s.position = .ok (.ok (some t), (s.moveTo rest).position) := by
  rw [matchAny, bind_ok (peek_eq h), peek_of_cons hs, if_pos ht, bind_ok (advance_cons h hs)]
  rfl

theorem matchAny_of_unwanted {wanted : Token → Bool} (h : s.LiesIn ts last)
    (hs : ¬ wanted s.peek) : matchAny ts last wanted s.position = .ok (.ok none, s.position) := by
  rw [matchAny, bind_ok (peek_eq h), if_neg hs]
  rfl

theorem consume_of_kind {sym : Symbol} (h : s.LiesIn ts last) (hs : s.pending = t :: rest)
    (ht : t.kind = .symbol sym) (cause : Cause) :
    consume ts last sym cause s.position = .ok (.ok t, (s.moveTo rest).position) := by
  rw [consume, bind_ok (peek_eq h), peek_of_cons hs, if_pos ht, advance_cons h hs]

theorem consume_of_not_kind {sym : Symbol} (h : s.LiesIn ts last) (hs : s.peek.kind ≠ .symbol sym)
    (cause : Cause) :
    consume ts last sym cause s.position = .ok (.error ⟨cause, s.peek⟩, s.position) := by
  rw [consume, bind_ok (peek_eq h), if_neg hs]
  rfl

theorem previous?_eq (h : s.LiesIn ts last) (hs : s.pending = t :: rest) :
    previous? ts (s.moveTo rest).position = .ok (.ok (some t), (s.moveTo rest).position) := by
  have hget : ts[s.position]? = some t := by rw [h.getElem?, peek_of_cons hs]
  rw [position_moveTo_cons hs]
  show previous? ts (s.position + 1) = _
  rw [previous?, hget]

theorem kind_of_isEof (h : t.isEof = true) : t.kind = .eof := by simpa [Token.isEof] using h

/-- What holds of the first pending token if there is one, and of every end of input, holds of the
    current token. -/
theorem of_peek {p : Token → Prop} (h : s.LiesIn ts last) (hs : ∀ t ∈ s.pending.head?, p t)
    (heof : ∀ t : Token, t.kind = .eof → p t) : p s.peek := by
  cases hpending : s.pending with
  | nil =>
    rw [peek_of_nil hpending]
    exact heof s.eof (kind_of_isEof h.isEof)
  | cons t rest =>
    rw [peek_of_cons hpending]
    exact hs t (by rw [hpending]; rfl)

/-! ## The index only rises -/

/-- The computation never lowers the index, wherever it starts. -/
def Rises {α : Type} (x : Reader α) : Prop := ∀ i r j, x i = .ok (r, j) → i ≤ j

section Rises

variable {α β : Type} {x : Reader α} {f : α → Reader β}

theorem Rises.of_stays (h : ∀ i r j, x i = .ok (r, j) → i = j) : Rises x :=
  fun i r j hx => Nat.le_of_eq (h i r j hx)

theorem rises_pure (a : α) : Rises (pure a : Reader α) :=
  .of_stays fun _ _ _ h => (Prod.mk.inj (Except.ok.inj h)).2

theorem rises_throw (error : SyntaxError) : Rises (throw error : Reader α) :=
  .of_stays fun _ _ _ h => (Prod.mk.inj (Except.ok.inj h)).2

theorem rises_breach (b : Breach) : Rises (breach b : Reader α) := by
  intro i r j h
  cases h

theorem Rises.bind (hx : Rises x) (hf : ∀ a, Rises (f a)) : Rises (x >>= f) := by
  intro i r k h
  cases hxi : x i with
  | error b => cases (bind_breach hxi).symm.trans h
  | ok p =>
    obtain ⟨error | a, j⟩ := p
    · obtain ⟨-, rfl⟩ := Prod.mk.inj (Except.ok.inj ((bind_error hxi).symm.trans h))
      exact hx i _ _ hxi
    · rw [bind_ok hxi] at h
      exact (hx i _ j hxi).trans (hf a j r k h)

theorem Rises.ite {c : Prop} [Decidable c] {y : Reader α} (hx : Rises x) (hy : Rises y) :
    Rises (if c then x else y) := by
  split
  · exact hx
  · exact hy

end Rises

/-- A look that breaches no check gives the token at the index, and stays there. -/
theorem exists_of_peek {i : Nat} {r : Except SyntaxError Token × Nat} (h : peek ts last i = .ok r) :
    ∃ t, ts[i]? = some t ∧ i ≤ last ∧ r = (.ok t, i) := by
  rw [peek] at h
  split at h
  · cases h
  · rename_i t ht
    split at h
    · rename_i hi
      exact ⟨t, ht, hi, (Except.ok.inj h).symm⟩
    · cases h

theorem peek_stays {i j : Nat} {r : Except SyntaxError Token} (h : peek ts last i = .ok (r, j)) :
    i = j := by
  obtain ⟨t, -, -, heq⟩ := exists_of_peek h
  exact (Prod.mk.inj heq).2.symm

theorem rises_peek : Rises (peek ts last) := .of_stays fun _ _ _ => peek_stays

theorem rises_previous? : Rises (previous? ts) := by
  refine .of_stays fun i r j h => ?_
  cases i with
  | zero => exact (Prod.mk.inj (Except.ok.inj h)).2
  | succ i =>
    rw [previous?] at h
    split at h
    · cases h
    · exact (Prod.mk.inj (Except.ok.inj h)).2

theorem rises_advance : Rises (advance ts last) := by
  refine rises_peek.bind fun t => .ite (.bind ?_ fun _ => rises_pure t) (rises_pure t)
  intro i r j h
  obtain ⟨-, rfl⟩ := Prod.mk.inj (Except.ok.inj h)
  exact Nat.le_succ i

theorem rises_matchAny (wanted : Token → Bool) : Rises (matchAny ts last wanted) :=
  rises_peek.bind fun _ => .ite (rises_advance.bind fun t => rises_pure (some t)) (rises_pure none)

theorem rises_consume (sym : Symbol) (cause : Cause) : Rises (consume ts last sym cause) :=
  rises_peek.bind fun t => .ite rises_advance (rises_throw ⟨cause, t⟩)

end Guarded

end Lox
