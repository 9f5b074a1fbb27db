/-
  Progress — no round of a loop and no re-entry without a token taken.

  On its way down the reader calls itself level by level before it looks at a token, and a chain goes
  on for as long as operators follow.  What makes both end is that a token has been taken whenever the
  reader comes back: to the head of a chain, to a unary operator behind another, or through a
  parenthesis to the loosest level.  Here the machine MEASURES this as it runs.

  1. **Watched reading** — the checked machine, and at each round of a chain and at each re-entry a check
     that fewer tokens are left before the end of input than there were where the function or the round
     began.
  2. **Success takes a token** — every task but a chain, on every list and from every index.
  3. **No check fails** — where the machine gives a result, the watched one gives the same.
  4. **The bound** — from every index of a list that ends, every reading function comes to its result
     with fuel linear in the tokens that are left.
-/
import Lox.Proofs.Stream.Lookahead

namespace Lox

open Parse

namespace Guarded

/-! ## Watched reading -/

/-- Goes on if fewer tokens are left before the end of input than from the index `start`.  A recursion
    that has taken no token since has no bound. -/
def onward {α : Type} (last start : Nat) (x : Reader α) : Reader α :=
  fun i => if last - i < last - start then x i else .error .fuel

/-- The check fails where nothing has been taken. -/
example : onward 3 1 (pure ()) 1 = .error .fuel ∧ onward 3 1 (pure ()) 2 = .ok (.ok (), 2) :=
  ⟨rfl, rfl⟩

section Watch

variable (ts : List Token) (last : Nat)

/-- A task of the descent, watched. -/
def watch : Nat → Task → Reader Expr
  | 0, _ => breach .fuel
  | fuel + 1, .level l => do
    let start ← get
    let e ← watch fuel (.operand l)
    onward last start (watch fuel (.chain l e))
  | fuel + 1, .operand l =>
    match l.tighter with
    | some m => watch fuel (.level m)
    | none => watch fuel .unary
  | fuel + 1, .chain l left => do
    let start ← get
    match ← matchAny ts last l.continues with
    | none => return left
    | some op =>
      let right ← onward last start (watch fuel (.operand l))
      if l = .conditional then
        let _ ← consume ts last .colon .missingColon
        let other ← onward last start (watch fuel (.operand l))
        onward last start (watch fuel (.chain l (.conditional left right other)))
      else
        onward last start (watch fuel (.chain l (.binary left op right)))
  | fuel + 1, .unary => do
    let start ← get
    match ← matchAny ts last isUnaryOperator with
    | none => watch fuel .primary
    | some op =>
      let e ← onward last start (watch fuel .unary)
      return .unary op e
  | fuel + 1, .primary => do
    let start ← get
    let t ← advance ts last
    match t.value? with
    | some v => return .literal v
    | none =>
      if t.kind = .symbol .leftParen then
        let e ← onward last start (watch fuel (.level .comma))
        let _ ← consume ts last .rightParen .missingRightParen
        return .grouping e
      else throw ⟨.expectedExpression, t⟩

end Watch

variable {α β : Type} {x y : Reader α} {f g : α → Reader β} {i j k : Nat}
variable {ts : List Token} {last start fuel : Nat} {task : Task} {t : Token}

/-! ## Where a reading starts -/

/-- The computation looks at a token first, so it does not start past the end of input. -/
def Within (last : Nat) (x : Reader α) : Prop := ∀ i r, x i = .ok r → i ≤ last

theorem Within.bind (h : Within last x) : Within last (x >>= f) := by
  intro i r hr
  cases hx : x i with
  | error b => cases (bind_breach hx).symm.trans hr
  | ok q => exact h i q hx

theorem within_peek : Within last (peek ts last) := by
  intro i r h
  obtain ⟨t, -, hi, -⟩ := exists_of_peek h
  exact hi

theorem within_read (fuel : Nat) (task : Task) : Within last (read ts last fuel task) := by
  induction fuel generalizing task with
  | zero =>
    intro i r h
    cases h
  | succ fuel ih =>
    cases task with
    | level l => exact (ih _).bind
    | operand l =>
      rw [read]
      split
      · exact ih _
      · exact ih _
    | chain l left => exact (within_peek.bind : Within last (matchAny ts last _)).bind
    | unary => exact (within_peek.bind : Within last (matchAny ts last _)).bind
    | primary => exact (within_peek.bind : Within last (advance ts last)).bind

/-! ## Success takes a token -/

/-- If two steps succeed, each of them does. -/
theorem exists_of_bind {b : β} (h : (x >>= f) i = .ok (.ok b, k)) :
    ∃ a j, x i = .ok (.ok a, j) ∧ f a j = .ok (.ok b, k) := by
  cases hx : x i with
  | error b => cases (bind_breach hx).symm.trans h
  | ok q =>
    obtain ⟨error | a, j⟩ := q
    · cases (bind_error hx).symm.trans h
    · exact ⟨a, j, rfl, (bind_ok hx).symm.trans h⟩

/-- What is taken is the current token. -/
theorem peek_of_advance (h : advance ts last i = .ok (.ok t, j)) :
    peek ts last i = .ok (.ok t, i) := by
  obtain ⟨u, i', hpeek, hmove⟩ := exists_of_bind h
  obtain rfl : i = i' := peek_stays hpeek
  split at hmove
  · obtain ⟨heq, -⟩ := Prod.mk.inj (Except.ok.inj hmove)
    rwa [← heq]
  · obtain ⟨heq, -⟩ := Prod.mk.inj (Except.ok.inj hmove)
    rwa [← heq]

/-- A token other than the end of input is passed. -/
theorem lt_of_advance (h : advance ts last i = .ok (.ok t, j)) (ht : t.isEof = false) : i < j := by
  have hnot : (!t.isEof) = true := by rw [ht]; rfl
  rw [advance, bind_ok (peek_of_advance h), if_pos hnot] at h
  have hj : i + 1 = j := (Prod.mk.inj (Except.ok.inj h)).2
  exact Nat.lt_of_succ_le (Nat.le_of_eq hj)

/-- So is one that is taken as wanted, if the end of input is not. -/
theorem lt_of_matchAny {wanted : Token → Bool} (h : matchAny ts last wanted i = .ok (.ok (some t), j))
    (hwanted : ∀ t : Token, t.kind = .eof → ¬ wanted t) : i < j := by
  obtain ⟨u, i', hpeek, htake⟩ := exists_of_bind h
  obtain rfl : i = i' := peek_stays hpeek
  split at htake
  · rename_i hu
    obtain ⟨v, j', hadvance, heq⟩ := exists_of_bind htake
    obtain ⟨-, rfl⟩ := Prod.mk.inj (Except.ok.inj heq)
    cases hpeek.symm.trans (peek_of_advance hadvance)
    exact lt_of_advance hadvance
      (Bool.eq_false_iff.mpr fun heof => hwanted u (kind_of_isEof heof) hu)
  · cases htake

/-- **Every task but a chain takes a token** when it gives a tree, on every list and from every
    index. -/
theorem lt_of_read {e : Expr} (h : read ts last fuel task i = .ok (.ok e, j))
    (htask : task.Opens) : i < j := by
  induction fuel generalizing task i j e with
  | zero => cases h
  | succ fuel ih =>
    cases task with
    | level l =>
      obtain ⟨left, k, hoperand, hchain⟩ := exists_of_bind h
      exact (ih hoperand trivial).trans_le (rises_read _ _ k _ j hchain)
    | operand l =>
      rw [read] at h
      cases hl : l.tighter with
      | some m =>
        rw [hl] at h
        exact ih h trivial
      | none =>
        rw [hl] at h
        exact ih h trivial
    | chain l left => exact htask.elim
    | unary =>
      obtain ⟨op, k, hop, hrest⟩ := exists_of_bind h
      have hk : i ≤ k := rises_matchAny _ i _ k hop
      cases op with
      | none => exact hk.trans_lt (ih hrest trivial)
      | some op =>
        obtain ⟨operand, j', hoperand, heq⟩ := exists_of_bind hrest
        obtain ⟨-, rfl⟩ := Prod.mk.inj (Except.ok.inj heq)
        exact hk.trans_lt (ih hoperand trivial)
    | primary =>
      obtain ⟨t, k, ht, hrest⟩ := exists_of_bind h
      have hk : i ≤ k := rises_advance i _ k ht
      cases hv : t.value? with
      | some v =>
        rw [hv] at hrest
        obtain ⟨-, rfl⟩ := Prod.mk.inj (Except.ok.inj hrest)
        refine lt_of_advance ht (Bool.eq_false_iff.mpr fun heof => ?_)
        cases hv.symm.trans (value?_of_eof (kind_of_isEof heof))
      | none =>
        simp only [hv] at hrest
        split at hrest
        · obtain ⟨inner, k', hinner, hclose⟩ := exists_of_bind hrest
          obtain ⟨paren, j', hparen, heq⟩ := exists_of_bind hclose
          obtain ⟨-, rfl⟩ := Prod.mk.inj (Except.ok.inj heq)
          exact (hk.trans_lt (ih hinner trivial)).trans_le (rises_consume _ _ k' _ j' hparen)
        · cases hrest

/-! ## No check fails -/

/-- Where `x`, from the index, gives a result, `y` gives the same. -/
def Follows (y x : Reader α) (i : Nat) : Prop := ∀ r, x i = .ok r → y i = .ok r

theorem Follows.refl (x : Reader α) (i : Nat) : Follows x x i := fun _ h => h

/-- Two computations go on from where both have come. -/
theorem Follows.bind (h : Follows y x i)
    (hnext : ∀ a j, x i = .ok (.ok a, j) → Follows (g a) (f a) j) :
    Follows (y >>= g) (x >>= f) i := by
  intro r hr
  cases hx : x i with
  | error b => cases (bind_breach hx).symm.trans hr
  | ok q =>
    have hy := h q hx
    obtain ⟨error | a, j⟩ := q
    · rw [bind_error hy, ← bind_error hx, hr]
    · rw [bind_ok hx] at hr
      rw [bind_ok hy]
      exact hnext a j hx r hr

/-- A round or a function takes note of where it begins. -/
theorem Follows.get {k : Nat → Reader α} (h : Follows (k i) x i) :
    Follows (do let start ← get; k start) x i := h

/-- The check holds where a token has been taken: what comes next looks at a token, so the end of input
    has not been passed. -/
theorem Follows.onward (h : Follows y x i) (hx : Within last x) (hi : start < i) :
    Follows (onward last start y) x i := by
  intro r hr
  have hlast : i ≤ last := hx i r hr
  have hfewer : last - i < last - start := by omega
  rw [Guarded.onward, if_pos hfewer]
  exact h r hr

/-- **No check of progress fails** where the machine gives a result: the watched one gives the same. -/
theorem watch_follows (fuel : Nat) (task : Task) (i : Nat) :
    Follows (watch ts last fuel task) (read ts last fuel task) i := by
  induction fuel generalizing task i with
  | zero =>
    intro r h
    cases h
  | succ fuel ih =>
    -- a task goes on behind a token that has been taken
    have again (task : Task) {start j : Nat} (hj : start < j) :
        Follows (onward last start (watch ts last fuel task)) (read ts last fuel task) j :=
      (ih task j).onward (within_read fuel task) hj
    cases task with
    | level l =>
      rw [watch, read]
      exact .get ((ih _ _).bind fun e j he => again _ (lt_of_read he trivial))
    | operand l =>
      rw [watch, read]
      cases l.tighter with
      | some m => exact ih _ _
      | none => exact ih _ _
    | chain l left =>
      rw [watch, read]
      refine .get ((Follows.refl _ i).bind fun op j hop => ?_)
      cases op with
      | none => exact .refl _ j
      | some op =>
        have hj : i < j := lt_of_matchAny hop fun t => not_continues_of_eof
        refine (again _ hj).bind fun right k hright => ?_
        have hk : i < k := hj.trans (lt_of_read hright trivial)
        split
        · refine (Follows.refl _ k).bind fun colon k' hcolon => ?_
          have hk' : i < k' := hk.trans_le (rises_consume _ _ k _ k' hcolon)
          refine (again _ hk').bind fun other k'' hother => ?_
          exact again _ (hk'.trans (lt_of_read hother trivial))
        · exact again _ hk
    | unary =>
      rw [watch, read]
      refine .get ((Follows.refl _ i).bind fun op j hop => ?_)
      cases op with
      | none => exact ih _ _
      | some op =>
        have hj : i < j := lt_of_matchAny hop fun t => not_isUnaryOperator_of_eof
        exact (again _ hj).bind fun e k _ => .refl _ k
    | primary =>
      rw [watch, read]
      refine .get ((Follows.refl _ i).bind fun t j ht => ?_)
      cases t.value? with
      | some v => exact .refl _ j
      | none =>
        by_cases hparen : t.kind = .symbol .leftParen
        · have hj : i < j := lt_of_advance ht (Token.not_eof_of_symbol hparen)
          simp only [if_pos hparen]
          exact (again _ hj).bind fun e k _ => .refl _ k
        · simp only [if_neg hparen]
          exact .refl _ j

end Guarded

/-! ## The bound -/

/-- The reading function of a nonterminal. -/
def Nonterminal.reading (n : Nonterminal) (ts : List Token) : Outcome ts.length :=
  match n with
  | comma => level .comma ts
  | ternary => level .conditional ts
  | equality => level .equality ts
  | comparison => level .comparison ts
  | term => level .term ts
  | factor => level .factor ts
  | unary => Parse.unary ts
  | primary => Parse.primary ts

/-- Its task. -/
def Nonterminal.task : Nonterminal → Task
  | comma => .level .comma
  | ternary => .level .conditional
  | equality => .level .equality
  | comparison => .level .comparison
  | term => .level .term
  | factor => .level .factor
  | unary => .unary
  | primary => .primary

theorem Nonterminal.runs (n : Nonterminal) (ts : List Token) :
    Runs n.task ts (n.reading ts).answer := by
  obtain ⟨hlevel, -, -, hunary, hprimary⟩ := runs_all
  cases n with
  | comma | ternary | equality | comparison | term | factor => exact hlevel _ ts
  | unary => exact hunary ts
  | primary => exact hprimary ts

namespace TokenStream

/-- A tree has taken a token or more, none of them an end of input. -/
theorem LiesIn.progress {s : TokenStream} {ts : List Token} {last j : Nat} (h : s.LiesIn ts last)
    {n : Nonterminal} {e : Expr} (he : s.reply (n.reading s.pending).answer = (.ok e, j)) :
    s.position < j ∧ j ≤ last ∧ ∀ t ∈ (ts.drop s.position).take (j - s.position), t.isEof = false := by
  have hrun := n.runs s.pending
  cases hread : n.reading s.pending with
  | stuck cause rest =>
    rw [hread] at he
    cases he
  | done e' rest shorter =>
    rw [hread] at he hrun
    obtain ⟨-, rfl⟩ := Prod.mk.inj he
    have hsuffix : rest <:+ s.pending := hrun.suffix
    have hle := (h.moveTo hsuffix).position_le
    obtain ⟨ws, hws⟩ := hsuffix
    have hpending : s.pending = ws ++ rest := hws.symm
    obtain ⟨after, hdrop⟩ := h.drop
    have htaken : (ts.drop s.position).take ws.length = ws := by
      rw [hdrop, hpending, List.append_assoc, List.take_left]
    rw [hpending, List.length_append] at shorter
    rw [position_moveTo hpending] at hle ⊢
    refine ⟨by omega, hle, fun t ht => h.not_eof t ?_⟩
    rw [Nat.add_sub_cancel_left, htaken] at ht
    rw [hpending]
    exact List.mem_append_left rest ht

end TokenStream

open TokenStream

/-- **Reading makes progress and ends.**  On every list that ends, and from every index of it, each
    reading function gives a result.  A tree has taken at least one token, and no end of input.  The
    machine that watches its own progress comes to the same result: no round of a chain, and no
    re-entry, has as many tokens left before the next end of input as there were when it began; and
    fuel linear in the tokens left there is enough. -/
theorem reading_progresses {ts : List Token} (hend : ts.getLast?.any Token.isEof = true) {i : Nat}
    (hi : i < ts.length) :
    let s := startingAt ts i
    let last := i + (ts.drop i).findIdx Token.isEof
    (s.expression.1, s.expression.2.position)
      = s.reply (Nonterminal.comma.reading s.pending).answer ∧
    ∀ n : Nonterminal,
      let result := s.reply (n.reading s.pending).answer
      (∀ e j, result = (.ok e, j) →
        i < j ∧ j ≤ last ∧ ∀ t ∈ (ts.drop i).take (j - i), t.isEof = false) ∧
      ∀ fuel > 16 * (last - i) + 13, Guarded.watch ts last fuel n.task i = .ok result := by
  intro s last
  have hended : ended ts = ts := if_pos hend
  have h : s.LiesIn ts last := by
    have h := liesIn_startingAt (hended.symm ▸ hi)
    rwa [hended] at h
  refine ⟨expression_eq_reply (Nonterminal.comma.runs s.pending), fun n => ?_⟩
  refine ⟨fun e j he => h.progress he, fun fuel hfuel => ?_⟩
  have hleft : s.pending.length = last - i := by
    have hlast : i + s.pending.length = last := h.last
    omega
  have hcost : n.task.cost s.pending < fuel := by
    have hle := n.task.cost_le s.pending
    omega
  exact Guarded.watch_follows fuel n.task i _ (Guarded.read_eq (n.runs s.pending) h rfl hcost)

/-- A factor behind an end of input, in front of another. -/
theorem reading_progresses_mid_list :
    let one (kind : Kind) (lexeme : String) : Token := ⟨kind, lexeme, none, 1⟩
    let word := one (.keyword .nilWord) "nil"
    let minus := one (.symbol .minus) "-"
    let paren := one (.symbol .leftParen) "("
    let close := one (.symbol .rightParen) ")"
    let star := one (.symbol .star) "*"
    let ts := [word, .endOn 1, paren, minus, word, close, star, word, .endOn 2]
    let tree := Expr.binary (.grouping (.unary minus (.literal .nil))) star (.literal .nil)
    ts.getLast?.any Token.isEof = true ∧ 2 < ts.length ∧
      2 + (ts.drop 2).findIdx Token.isEof = 8 ∧
      Guarded.watch ts 8 110 Nonterminal.factor.task 2 = .ok (.ok tree, 8) := by
  intro one word minus paren close star ts tree
  have hend : ts.getLast?.any Token.isEof = true := by decide +kernel
  have hi : 2 < ts.length := by decide +kernel
  have hlast : 2 + (ts.drop 2).findIdx Token.isEof = 8 := by decide +kernel
  have hreply : (startingAt ts 2).reply
      (Nonterminal.factor.reading (startingAt ts 2).pending).answer = (.ok tree, 8) := by
    decide +kernel
  have hwatch := ((reading_progresses hend hi).2 .factor).2 110
  simp only [hlast] at hwatch
  refine ⟨hend, hi, hlast, ?_⟩
  rw [hwatch (by decide), hreply]

end Lox
