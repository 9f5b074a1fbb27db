/-
  Reading with checks — the parser on an index into its list of tokens.

  The tasks of the descent are put in terms of the checked motions, and the recursion counts down a
  bound.

  1. **Reading** — one expression, and the skip to where a statement is likely to begin.
  2. **The bound** — it is linear in the tokens that are left: each of them counts for more than all
     levels together.
  3. **Agreement** — each run of the descent is one of the machine (`read_eq`): if it is so with some
     fuel (`Agrees`), then with one more, task by task.  So no check fails, and the machine leaves off
     where the stream does.
  4. **Recovery** — the same for `synchronize`.
  5. **Rising** — no task ever lowers the index.
-/
import Lox.Proofs.Guarded.Motions

namespace Lox

open Parse

namespace Guarded

variable (ts : List Token) (last : Nat)

/-! ## Reading -/

/-- A task of the descent. -/
def read : Nat → Task → Reader Expr
  | 0, _ => breach .fuel
  | fuel + 1, .level l => do
    let e ← read fuel (.operand l)
    read fuel (.chain l e)
  | fuel + 1, .operand l =>
    match l.tighter with
    | some m => read fuel (.level m)
    | none => read fuel .unary
  | fuel + 1, .chain l left => do
    match ← matchAny ts last l.continues with
    | none => return left
    | some op =>
      let right ← read fuel (.operand l)
      if l = .conditional then
        let _ ← consume ts last .colon .missingColon
        let other ← read fuel (.operand l)
        read fuel (.chain l (.conditional left right other))
      else
        read fuel (.chain l (.binary left op right))
  | fuel + 1, .unary => do
    match ← matchAny ts last isUnaryOperator with
    | none => read fuel .primary
    | some op =>
      let e ← read fuel .unary
      return .unary op e
  | fuel + 1, .primary => do
    let t ← advance ts last
    match t.value? with
    | some v => return .literal v
    | none =>
      if t.kind = .symbol .leftParen then
        let e ← read fuel (.level .comma)
        let _ ← consume ts last .rightParen .missingRightParen
        return .grouping e
      else throw ⟨.expectedExpression, t⟩

/-- An expression. -/
def expression : Reader Expr := read ts last (16 * ts.length + 14) (.level .comma)

/-- Goes on to where a statement is likely to begin. -/
def skipToBoundary : Nat → Reader Unit
  | 0 => breach .fuel
  | fuel + 1 => do
    if (← peek ts last).isEof then return
    if (← previous? ts).any fun t => t.kind = .symbol .semicolon then return
    if (← peek ts last).kind.startsStatement then return
    let _ ← advance ts last
    skipToBoundary fuel

/-- Skips at least one token, and all up to where a statement is likely to begin. -/
def synchronize : Reader Unit := do
  let _ ← advance ts last
  skipToBoundary ts last (ts.length + 1)

end Guarded

/-! ## The bound -/

namespace Parse

/-- A bound on the depth of the recursion: each token counts for more than all levels together. -/
def Task.cost : Task → List Token → Nat
  | .level l, ts => 16 * ts.length + 2 * l.height + 3
  | .operand l, ts => 16 * ts.length + 2 * l.height + 2
  | .unary, ts => 16 * ts.length + 1
  | .chain _ _, ts | .primary, ts => 16 * ts.length

theorem Task.cost_le (task : Task) (ts : List Token) : task.cost ts ≤ 16 * ts.length + 13 := by
  cases task with
  | level l | operand l =>
    have hheight := l.height_le
    rw [cost]
    omega
  | unary => exact Nat.add_le_add_left (by decide : 1 ≤ 13) (16 * ts.length)
  | chain l left | primary => exact Nat.le_add_right (16 * ts.length) 13

/-- Every task on fewer tokens costs less. -/
theorem Task.cost_lt {us ts : List Token} (task other : Task) (h : us.length < ts.length) :
    task.cost us < other.cost ts := by
  have hupper := task.cost_le us
  have hlower : 16 * ts.length ≤ other.cost ts := by
    cases other with
    | level l | operand l => exact Nat.le_add_right_of_le (Nat.le_add_right _ _)
    | unary => exact Nat.le_add_right _ _
    | chain l left | primary => exact Nat.le_refl _
  omega

end Parse

namespace TokenStream

/-- What the machine gives where the descent gives the answer: where it stands after a failure depends
    on the cause. -/
def reply (s : TokenStream) : Answer → Except SyntaxError Expr × Nat
  | .done e rest => (.ok e, (s.moveTo rest).position)
  | .stuck cause rest =>
    (.error ⟨cause, s.front rest⟩, (s.moveTo (afterFailure cause rest)).position)

/-- What comes of the rest comes of the whole. -/
theorem reply_moveTo {s : TokenStream} {rest : List Token} {a : Answer}
    (hrest : rest <:+ s.pending) (ha : a.rest <:+ rest) :
    (s.moveTo rest).reply a = s.reply a := by
  cases a with
  | done e more =>
    have hmore : more <:+ rest := ha
    rw [reply, reply, moveTo_moveTo hrest hmore]
  | stuck cause more =>
    have hmore : afterFailure cause more <:+ rest := (afterFailure_suffix cause more).trans ha
    rw [reply, reply, moveTo_moveTo hrest hmore]
    rfl

end TokenStream

namespace Guarded

open TokenStream

variable {s : TokenStream} {ts rest : List Token} {last : Nat} {t : Token}

/-! ## Agreement -/

/-- The end of input goes on with no chain. -/
theorem not_continues_of_eof {l : Level} (h : t.kind = .eof) : ¬ l.continues t := by
  rw [Level.continues, h]
  exact Bool.false_ne_true

theorem not_isUnaryOperator_of_eof (h : t.kind = .eof) : ¬ isUnaryOperator t := by
  rw [isUnaryOperator, h]
  decide

theorem ne_symbol_of_eof {sym : Symbol} (h : t.kind = .eof) : t.kind ≠ .symbol sym := by
  rw [h]
  exact nofun

theorem value?_of_eof (h : t.kind = .eof) : t.value? = none := by
  rw [Token.value?, h]

/-! What a task does once its first token is known: the rest of it is run from behind that token. -/

section Step

variable {fuel j : Nat} {l : Level} {left right : Expr} {error : SyntaxError}

/-- An operator is taken, and what is wrong with its operand is wrong with the chain. -/
theorem read_chain_error (h : s.LiesIn ts last) (hs : s.pending = t :: rest) (ht : l.continues t)
    (hright : read ts last fuel (.operand l) (s.moveTo rest).position = .ok (.error error, j)) :
    read ts last (fuel + 1) (.chain l left) s.position = .ok (.error error, j) := by
  rw [read, bind_ok (matchAny_of_wanted h hs ht)]
  exact bind_error hright

theorem read_chain_binary (h : s.LiesIn ts last) (hs : s.pending = t :: rest) (ht : l.continues t)
    (hl : l ≠ .conditional)
    (hright : read ts last fuel (.operand l) (s.moveTo rest).position = .ok (.ok right, j)) :
    read ts last (fuel + 1) (.chain l left) s.position
      = read ts last fuel (.chain l (.binary left t right)) j := by
  rw [read, bind_ok (matchAny_of_wanted h hs ht)]
  show (read ts last fuel (.operand l) >>= fun right => _) _ = _
  rw [bind_ok hright, if_neg hl]

/-- A conditional goes on with the colon. -/
theorem read_chain_conditional (h : s.LiesIn ts last) (hs : s.pending = t :: rest)
    (ht : Level.conditional.continues t)
    (hright : read ts last fuel (.operand .conditional) (s.moveTo rest).position
      = .ok (.ok right, j)) :
    read ts last (fuel + 1) (.chain .conditional left) s.position
      = (do
        let _ ← consume ts last .colon .missingColon
        let other ← read ts last fuel (.operand .conditional)
        read ts last fuel (.chain .conditional (.conditional left right other)) : Reader Expr) j := by
  rw [read, bind_ok (matchAny_of_wanted h hs ht)]
  show (read ts last fuel (.operand .conditional) >>= fun right => _) _ = _
  rw [bind_ok hright, if_pos rfl]

theorem read_unary (h : s.LiesIn ts last) (hs : s.pending = t :: rest) (ht : isUnaryOperator t) :
    read ts last (fuel + 1) .unary s.position
      = (do
        let e ← read ts last fuel .unary
        return .unary t e : Reader Expr) (s.moveTo rest).position := by
  rw [read, bind_ok (matchAny_of_wanted h hs ht)]

theorem read_grouping (h : s.LiesIn ts last) (hs : s.pending = t :: rest)
    (ht : t.kind = .symbol .leftParen) :
    read ts last (fuel + 1) .primary s.position
      = (do
        let e ← read ts last fuel (.level .comma)
        let _ ← consume ts last .rightParen .missingRightParen
        return .grouping e : Reader Expr) (s.moveTo rest).position := by
  rw [read, bind_ok (advance_cons h hs), Token.value?_of_symbol ht]
  simp only [if_pos ht]

/-- What begins no expression is reported.  It is taken before it is looked at, unless it ends the
    input. -/
theorem read_noExpression (hs : s.LiesIn ts last) (hpending : s.pending = rest)
    (hend : ∀ t ∈ rest.head?, t.value? = none ∧ t.kind ≠ .symbol .leftParen) :
    read ts last (fuel + 1) .primary s.position = .ok (s.reply (.stuck .expectedExpression rest)) := by
  have hno : s.peek.value? = none ∧ s.peek.kind ≠ .symbol .leftParen :=
    of_peek (p := fun t => t.value? = none ∧ t.kind ≠ .symbol .leftParen) hs (hpending ▸ hend)
      fun _ ht => ⟨value?_of_eof ht, ne_symbol_of_eof ht⟩
  cases rest with
  | nil =>
    rw [peek_of_nil hpending] at hno
    rw [read, bind_ok (advance_nil hs hpending), hno.1]
    simp only [if_neg hno.2]
    rw [reply, afterFailure, List.tail_nil, ← hpending, moveTo_pending, hpending]
    rfl
  | cons t us =>
    rw [peek_of_cons hpending] at hno
    rw [read, bind_ok (advance_cons hs hpending), hno.1]
    simp only [if_neg hno.2]
    rfl

/-- What is left of the tokens behind the next one is pending. -/
theorem suffix_of_cons {us : List Token} (hpending : s.pending = t :: us) (hrest : rest <:+ us) :
    rest <:+ s.pending :=
  hpending ▸ hrest.trans (List.suffix_cons t us)

/-- The symbol that is asked for is taken from where the stream may have gone. -/
theorem consume_moveTo {c : Token} {sym : Symbol} (hs : s.LiesIn ts last)
    (hrest : c :: rest <:+ s.pending) (hc : c.kind = .symbol sym) (cause : Cause) :
    consume ts last sym cause (s.moveTo (c :: rest)).position
      = .ok (.ok c, (s.moveTo rest).position) := by
  rw [consume_of_kind (hs.moveTo hrest) rfl hc, moveTo_moveTo hrest (List.suffix_cons c rest)]

/-- What stands in its place is reported, the end of input too. -/
theorem consume_moveTo_error {sym : Symbol} (hs : s.LiesIn ts last) (hrest : rest <:+ s.pending)
    (hno : ∀ c ∈ rest.head?, c.kind ≠ .symbol sym) (cause : Cause) :
    consume ts last sym cause (s.moveTo rest).position
      = .ok (.error ⟨cause, s.front rest⟩, (s.moveTo rest).position) := by
  have hmoved := hs.moveTo hrest
  have hpeek : (s.moveTo rest).peek.kind ≠ .symbol sym :=
    of_peek (p := fun t => t.kind ≠ .symbol sym) hmoved hno fun _ => ne_symbol_of_eof
  exact consume_of_not_kind hmoved hpeek cause

end Step

/-- With this fuel, every run of the descent that costs less is one of the machine. -/
def Agrees (ts : List Token) (last fuel : Nat) : Prop :=
  ∀ ⦃task : Task⦄ ⦃s : TokenStream⦄ ⦃a : Answer⦄, s.LiesIn ts last → Runs task s.pending a →
    task.cost s.pending < fuel → read ts last fuel task s.position = .ok (s.reply a)

namespace Agrees

variable {fuel : Nat} {l : Level} {left : Expr} {task other : Task} {a : Answer} {us : List Token}

/-- A task that goes on with fewer tokens has fuel enough. -/
theorem behind (h : Agrees ts last fuel) (hs : s.LiesIn ts last)
    (hfuel : other.cost s.pending < fuel + 1) (hrest : rest <:+ s.pending)
    (hshort : rest.length < s.pending.length) (hrun : Runs task rest a) :
    read ts last fuel task (s.moveTo rest).position = .ok (s.reply a) := by
  have hcost : task.cost rest < fuel :=
    (Task.cost_lt task other hshort).trans_le (Nat.le_of_lt_succ hfuel)
  rw [h (hs.moveTo hrest) hrun hcost, reply_moveTo hrest hrun.suffix]

/-- So has one that goes on behind a token. -/
theorem behind_token (h : Agrees ts last fuel) (hs : s.LiesIn ts last)
    (hfuel : other.cost s.pending < fuel + 1) (hpending : s.pending = t :: us) (hrest : rest <:+ us)
    (hrun : Runs task rest a) :
    read ts last fuel task (s.moveTo rest).position = .ok (s.reply a) := by
  have hshort : rest.length < s.pending.length := by
    rw [hpending]
    exact Nat.lt_succ_of_le hrest.length_le
  exact h.behind hs hfuel (suffix_of_cons hpending hrest) hshort hrun

theorem next (h : Agrees ts last fuel) (hs : s.LiesIn ts last)
    (hfuel : other.cost s.pending < fuel + 1) (hpending : s.pending = t :: us)
    (hrun : Runs task us a) : read ts last fuel task (s.moveTo us).position = .ok (s.reply a) :=
  h.behind_token hs hfuel hpending (List.suffix_refl us) hrun

/-! Each task is then answered with one more. -/

theorem level (h : Agrees ts last fuel) (hs : s.LiesIn ts last) (hrun : Runs (.level l) s.pending a)
    (hfuel : (Task.level l).cost s.pending < fuel + 1) :
    read ts last (fuel + 1) (.level l) s.position = .ok (s.reply a) := by
  have hoperand : (Task.operand l).cost s.pending < fuel := Nat.lt_of_succ_lt_succ hfuel
  cases hrun with
  | level hop hch =>
    rw [read, bind_ok (h hs hop hoperand)]
    exact h.behind hs hfuel hop.suffix (hop.shorter trivial) hch
  | levelStuck hop =>
    rw [read]
    exact bind_error (h hs hop hoperand)

theorem operand (h : Agrees ts last fuel) (hs : s.LiesIn ts last)
    (hrun : Runs (.operand l) s.pending a)
    (hfuel : (Task.operand l).cost s.pending < fuel + 1) :
    read ts last (fuel + 1) (.operand l) s.position = .ok (s.reply a) := by
  cases hrun with
  | @tighter _ m _ _ hm hlevel =>
    have hcost : (Task.level m).cost s.pending < (Task.operand l).cost s.pending := by
      rw [Task.cost, Task.cost, Level.height_tighter hm]
      omega
    rw [read, hm]
    exact h hs hlevel (by omega)
  | tightest hm hunary =>
    have hcost : Task.unary.cost s.pending < (Task.operand l).cost s.pending := by
      rw [Task.cost, Task.cost]
      omega
    rw [read, hm]
    exact h hs hunary (by omega)

theorem chain (h : Agrees ts last fuel) (hs : s.LiesIn ts last)
    (hrun : Runs (.chain l left) s.pending a)
    (hfuel : (Task.chain l left).cost s.pending < fuel + 1) :
    read ts last (fuel + 1) (.chain l left) s.position = .ok (s.reply a) := by
  generalize hpending : s.pending = us at hrun
  cases hrun with
  | chainEnd hend =>
    have hno : ¬ l.continues s.peek :=
      of_peek (p := fun t => ¬ l.continues t) hs (hpending ▸ hend) fun _ => not_continues_of_eof
    rw [read, bind_ok (matchAny_of_unwanted hs hno), reply, ← hpending, moveTo_pending]
    rfl
  | chainStuck hc hop =>
    exact read_chain_error hs hpending hc (h.next hs hfuel hpending hop)
  | binary hl hc hop hch =>
    have hright := h.next hs hfuel hpending hop
    rw [read_chain_binary hs hpending hc hl hright]
    exact h.behind_token hs hfuel hpending hop.suffix hch
  | @conditional _ t us yes c vs no rest _ hc hyes hcolon hno hch =>
    have hcvs : c :: vs <:+ s.pending := suffix_of_cons hpending hyes.suffix
    have hvs : vs <:+ us := (List.suffix_cons c vs).trans hyes.suffix
    have hright := h.next hs hfuel hpending hyes
    rw [read_chain_conditional hs hpending hc hright, bind_ok (consume_moveTo hs hcvs hcolon _),
      bind_ok (h.behind_token hs hfuel hpending hvs hno)]
    exact h.behind_token hs hfuel hpending (hno.suffix.trans hvs) hch
  | @elseStuck _ t us yes c vs _ _ hc hyes hcolon hno =>
    have hcvs : c :: vs <:+ s.pending := suffix_of_cons hpending hyes.suffix
    have hvs : vs <:+ us := (List.suffix_cons c vs).trans hyes.suffix
    have hright := h.next hs hfuel hpending hyes
    rw [read_chain_conditional hs hpending hc hright, bind_ok (consume_moveTo hs hcvs hcolon _)]
    exact bind_error (h.behind_token hs hfuel hpending hvs hno)
  | colonMissing hc hyes hcolon =>
    have hrest := suffix_of_cons hpending hyes.suffix
    have hright := h.next hs hfuel hpending hyes
    rw [read_chain_conditional hs hpending hc hright]
    exact bind_error (consume_moveTo_error hs hrest hcolon _)

theorem unary (h : Agrees ts last fuel) (hs : s.LiesIn ts last) (hrun : Runs .unary s.pending a)
    (hfuel : Task.unary.cost s.pending < fuel + 1) :
    read ts last (fuel + 1) .unary s.position = .ok (s.reply a) := by
  have hprimary : Task.primary.cost s.pending < fuel := Nat.lt_of_succ_lt_succ hfuel
  generalize hpending : s.pending = us at hrun
  cases hrun with
  | unary ht he =>
    rw [read_unary hs hpending ht, bind_ok (h.next hs hfuel hpending he)]
    rfl
  | unaryStuck ht he =>
    rw [read_unary hs hpending ht]
    exact bind_error (h.next hs hfuel hpending he)
  | unaryPrimary hend hp =>
    have hno : ¬ isUnaryOperator s.peek :=
      of_peek (p := fun t => ¬ isUnaryOperator t) hs (hpending ▸ hend) fun _ =>
        not_isUnaryOperator_of_eof
    rw [read, bind_ok (matchAny_of_unwanted hs hno)]
    exact h hs (hpending ▸ hp) hprimary

theorem primary (h : Agrees ts last fuel) (hs : s.LiesIn ts last)
    (hrun : Runs .primary s.pending a) (hfuel : Task.primary.cost s.pending < fuel + 1) :
    read ts last (fuel + 1) .primary s.position = .ok (s.reply a) := by
  generalize hpending : s.pending = us at hrun
  cases hrun with
  | literal hv =>
    rw [read, bind_ok (advance_cons hs hpending), hv]
    rfl
  | grouping hp he hc =>
    have hcrest := suffix_of_cons hpending he.suffix
    rw [read_grouping hs hpending hp, bind_ok (h.next hs hfuel hpending he),
      bind_ok (consume_moveTo hs hcrest hc _)]
    rfl
  | groupingStuck hp he =>
    rw [read_grouping hs hpending hp]
    exact bind_error (h.next hs hfuel hpending he)
  | parenMissing hp he hc =>
    have hrest := suffix_of_cons hpending he.suffix
    rw [read_grouping hs hpending hp, bind_ok (h.next hs hfuel hpending he)]
    exact bind_error (consume_moveTo_error hs hrest hc _)
  | noExpression hend => exact read_noExpression hs hpending hend

end Agrees

/-- So it is with any fuel. -/
theorem agrees (ts : List Token) (last fuel : Nat) : Agrees ts last fuel := by
  induction fuel with
  | zero =>
    intro task s a _ _ hfuel
    exact absurd hfuel (Nat.not_lt_zero _)
  | succ fuel ih =>
    intro task s a hs hrun hfuel
    cases task with
    | level l => exact ih.level hs hrun hfuel
    | operand l => exact ih.operand hs hrun hfuel
    | chain l left => exact ih.chain hs hrun hfuel
    | unary => exact ih.unary hs hrun hfuel
    | primary => exact ih.primary hs hrun hfuel

/-- **A run of the descent is one of the machine.** -/
theorem read_eq {task : Task} {us : List Token} {a : Answer} (h : Runs task us a) {fuel : Nat}
    (hs : s.LiesIn ts last) (hpending : s.pending = us) (hfuel : task.cost us < fuel) :
    read ts last fuel task s.position = .ok (s.reply a) := by
  subst hpending
  exact agrees ts last fuel hs h hfuel

/-- **Reading an expression** gives what the stream gives, from every index. -/
theorem expression_eq (h : s.LiesIn ts last) :
    expression ts last s.position = .ok (s.expression.1, s.expression.2.position) := by
  have hlength : s.pending.length ≤ ts.length := by
    have hlast := h.last
    have hlt := h.last_lt
    omega
  have hcost : (Task.level .comma).cost s.pending < 16 * ts.length + 14 := by
    show 16 * s.pending.length + 2 * 5 + 3 < _
    omega
  have hrun := runs_level .comma s.pending
  rw [expression, read_eq hrun h rfl hcost]
  cases ha : (level .comma s.pending).answer with
  | done e rest =>
    rw [ha] at hrun
    rw [expression_of_done hrun]
    rfl
  | stuck cause rest =>
    rw [ha] at hrun
    rw [expression_of_stuck hrun]
    rfl

/-! ## Recovery -/

/-- Past a token, recovery goes on to where the stream goes. -/
theorem skipToBoundary_eq {fuel : Nat} (h : s.LiesIn ts last) (hs : s.pending = t :: rest)
    (hfuel : rest.length < fuel) :
    skipToBoundary ts last fuel (s.moveTo rest).position
      = .ok (.ok (), s.synchronize.position) := by
  induction rest generalizing s t fuel with
  | nil =>
    obtain ⟨k, rfl⟩ := Nat.exists_eq_add_of_lt hfuel
    have hnil : ([] : List Token) <:+ s.pending := List.nil_suffix
    have heof : (s.moveTo []).peek.isEof = true := h.isEof
    have hrecover : recover [t] = [] := by
      rw [recover]
      split <;> rfl
    rw [skipToBoundary, bind_ok (peek_eq (h.moveTo hnil)), if_pos heof, TokenStream.synchronize, hs,
      hrecover]
    rfl
  | cons u rest ih =>
    obtain ⟨k, rfl⟩ := Nat.exists_eq_add_of_lt hfuel
    have hsuffix : u :: rest <:+ s.pending := hs ▸ List.suffix_cons t _
    have hmoved := h.moveTo hsuffix
    have hpeek : (s.moveTo (u :: rest)).peek = u := rfl
    have hnot : ¬ u.isEof = true := by
      rw [hmoved.not_eof u List.mem_cons_self]
      exact Bool.false_ne_true
    rw [skipToBoundary, bind_ok (peek_eq hmoved), hpeek, if_neg hnot, bind_ok (previous?_eq h hs),
      Option.any_some]
    by_cases hsemicolon : t.kind = .symbol .semicolon
    · have hrecover : recover (t :: u :: rest) = u :: rest := by
        rw [recover, decide_eq_true hsemicolon, Bool.true_or, if_pos rfl]
      rw [if_pos (decide_eq_true hsemicolon), TokenStream.synchronize, hs, hrecover]
      rfl
    have hno : ¬ decide (t.kind = .symbol .semicolon) = true :=
      fun heq => hsemicolon (of_decide_eq_true heq)
    rw [if_neg hno, bind_ok (peek_eq hmoved), hpeek]
    by_cases hkeyword : u.kind.startsStatement
    · have hrecover : recover (t :: u :: rest) = u :: rest := by
        rw [recover, if_pos]
        exact Bool.or_eq_true_iff.mpr (.inr hkeyword)
      rw [if_pos hkeyword, TokenStream.synchronize, hs, hrecover]
      rfl
    -- neither: the next token is passed, and the search goes on from there
    have hrecover : recover (t :: u :: rest) = recover (u :: rest) := by
      rw [recover, if_neg]
      rintro hstops
      exact (Bool.or_eq_true_iff.mp hstops).elim hno hkeyword
    have hagain : (s.moveTo (u :: rest)).synchronize = s.synchronize := by
      rw [TokenStream.synchronize, TokenStream.synchronize, hs, hrecover]
      exact moveTo_moveTo hsuffix (recover_suffix (u :: rest))
    have hfurther : rest.length < (u :: rest).length + k := by
      rw [List.length_cons]
      omega
    rw [if_neg hkeyword, bind_ok (advance_cons hmoved rfl), ih hmoved rfl hfurther, hagain]

/-- **Recovery** goes where the stream goes, from every index. -/
theorem synchronize_eq (h : s.LiesIn ts last) :
    synchronize ts last s.position = .ok (.ok (), s.synchronize.position) := by
  cases hs : s.pending with
  | nil =>
    have heof : s.peek.isEof = true := by
      rw [peek_of_nil hs]
      exact h.isEof
    have hstays : s.synchronize = s := by
      rw [TokenStream.synchronize, hs, recover, ← hs, moveTo_pending]
    rw [synchronize, bind_ok (advance_nil h hs), skipToBoundary, bind_ok (peek_eq h), if_pos heof,
      hstays]
    rfl
  | cons t rest =>
    have hlength : rest.length < ts.length + 1 := by
      have hlast := h.last
      have hlt := h.last_lt
      rw [hs, List.length_cons] at hlast
      omega
    rw [synchronize, bind_ok (advance_cons h hs)]
    exact skipToBoundary_eq h hs hlength

/-! ## The index only rises -/

/-- **Every task, on every list and from every index**, leaves off where it starts or later. -/
theorem rises_read (fuel : Nat) (task : Task) : Rises (read ts last fuel task) := by
  induction fuel generalizing task with
  | zero => exact rises_breach .fuel
  | succ fuel ih =>
    cases task with
    | level l => exact (ih _).bind fun e => ih _
    | operand l =>
      rw [read]
      split
      · exact ih _
      · exact ih _
    | chain l left =>
      refine (rises_matchAny _).bind fun op => ?_
      cases op with
      | none => exact rises_pure left
      | some op =>
        refine (ih _).bind fun right => .ite ?_ (ih _)
        exact (rises_consume _ _).bind fun _ => (ih _).bind fun other => ih _
    | unary =>
      refine (rises_matchAny _).bind fun op => ?_
      cases op with
      | none => exact ih _
      | some op => exact (ih _).bind fun e => rises_pure _
    | primary =>
      refine rises_advance.bind fun t => ?_
      split
      · exact rises_pure _
      · refine .ite ((ih _).bind fun e => ?_) (rises_throw _)
        exact (rises_consume _ _).bind fun _ => rises_pure _

theorem rises_skipToBoundary (fuel : Nat) : Rises (skipToBoundary ts last fuel) := by
  induction fuel with
  | zero => exact rises_breach .fuel
  | succ fuel ih =>
    refine rises_peek.bind fun t => .ite (rises_pure ()) (rises_previous?.bind fun before => ?_)
    refine .ite (rises_pure ()) (rises_peek.bind fun next => .ite (rises_pure ()) ?_)
    exact rises_advance.bind fun _ => ih

theorem rises_synchronize : Rises (synchronize ts last) :=
  rises_advance.bind fun _ => rises_skipToBoundary _

end Guarded

end Lox
