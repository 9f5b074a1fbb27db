/-
  Lookahead — a reading sees the tokens it takes and ONE more.

  1. **Starting points** — a stream may start at ANY index of a list, also past an end of input in the
     middle.  It holds the list up to and with the next end, and it is the only stream at its index
     that does (`LiesIn.unique`).
  2. **What is seen** — the tokens taken and the one at which the reading ends: what follows the tree,
     or the token that is reported.
  3. **Two lists** — lists that hold the same tokens where a reading sees them, at whatever index, give
     the same result and take the same number of tokens.
  4. **Later readings** — so a reading from where recoveries lead is a fresh one of what is left.
-/
import Lox.Proofs.Guarded.Reading

namespace Lox

open Parse

namespace TokenStream

/-! ## Starting points -/

/-- The stream at an index of a token list, which is ended first. -/
def startingAt (ts : List Token) (c : Nat) : TokenStream :=
  { ofTokens ((ended ts).drop c) with position := c }

theorem getLast?_ended (ts : List Token) : (ended ts).getLast?.any Token.isEof = true := by
  rw [ended]
  split
  · assumption
  · rw [List.getLast?_concat]
    rfl

/-- What is left of an ended list has its end. -/
theorem ended_drop {ts : List Token} {c : Nat} (hc : c < (ended ts).length) :
    ended ((ended ts).drop c) = (ended ts).drop c := by
  have hlast : ((ended ts).drop c).getLast? = (ended ts).getLast? := by
    rw [List.getLast?_drop, if_neg (Nat.not_le_of_lt hc)]
  rw [ended, if_pos]
  rw [hlast]
  exact getLast?_ended ts

/-- The stream at an index goes up to the first end of input from there on. -/
theorem liesIn_startingAt {ts : List Token} {c : Nat} (hc : c < (ended ts).length) :
    (startingAt ts c).LiesIn (ended ts) (c + ((ended ts).drop c).findIdx Token.isEof) := by
  have h := liesIn_ended ((ended ts).drop c)
  rw [ended_drop hc] at h
  refine ⟨h.drop, ?_, h.not_eof, h.isEof⟩
  rw [← h.last]
  exact congrArg (c + ·) (Nat.zero_add _).symm

theorem exists_liesIn_startingAt {ts : List Token} {c : Nat} (hc : c < (ended ts).length) :
    ∃ last, (startingAt ts c).LiesIn (ended ts) last :=
  ⟨_, liesIn_startingAt hc⟩

variable {s s' : TokenStream} {ts us : List Token} {last last' : Nat}

/-- Tokens that the list holds from the position on are pending, if there is no end of input among
    them; and the next token is seen behind them. -/
theorem LiesIn.exists_pending (h : s.LiesIn ts last) {ws more : List Token} {t : Token}
    (hdrop : ts.drop s.position = ws ++ t :: more) (hws : ∀ w ∈ ws, w.isEof = false) :
    ∃ rest, s.pending = ws ++ rest ∧ s.front rest = t ∧ (rest = [] ↔ t.isEof = true) := by
  obtain ⟨after, hafter⟩ := h.drop
  rcases List.append_eq_append_iff.mp (hafter.symm.trans hdrop) with
    ⟨bs, hbs, htail⟩ | ⟨rest, hrest, htail⟩
  · -- the end of input would be among the tokens, unless it is the next one
    cases bs with
    | nil =>
      obtain ⟨rfl, -⟩ := List.cons.inj htail
      exact ⟨[], by rw [hbs, List.append_nil, List.append_nil], rfl, iff_of_true rfl h.isEof⟩
    | cons b bs =>
      obtain ⟨rfl, -⟩ := List.cons.inj htail
      cases (hws _ (by rw [hbs]; simp)).symm.trans h.isEof
  · refine ⟨rest, hrest, ?_⟩
    cases rest with
    | nil =>
      obtain ⟨rfl, -⟩ := List.cons.inj htail
      exact ⟨rfl, iff_of_true rfl h.isEof⟩
    | cons u rest =>
      obtain ⟨rfl, -⟩ := List.cons.inj htail
      have hu := h.not_eof t (by rw [hrest]; simp)
      exact ⟨rfl, iff_of_false (List.cons_ne_nil _ _) (by simp [hu])⟩

/-- The list goes on with what is pending, and with the end of input behind it. -/
theorem LiesIn.exists_drop (h : s.LiesIn ts last) {ws rest : List Token}
    (hrest : s.pending = ws ++ rest) : ∃ more, ts.drop s.position = ws ++ s.front rest :: more := by
  obtain ⟨after, hafter⟩ := h.drop
  rw [hafter, hrest, List.append_assoc]
  cases rest with
  | nil => exact ⟨after, rfl⟩
  | cons t rest => exact ⟨rest ++ s.eof :: after, rfl⟩

/-- There is one stream at an index. -/
theorem LiesIn.unique (h : s.LiesIn ts last) (h' : s'.LiesIn ts last')
    (hposition : s.position = s'.position) : s = s' := by
  obtain ⟨after, hdrop⟩ := h'.drop
  rw [← hposition] at hdrop
  obtain ⟨rest, hpending, hfront, hnil⟩ := h.exists_pending hdrop h'.not_eof
  obtain rfl : rest = [] := hnil.mpr h'.isEof
  rw [List.append_nil] at hpending
  cases s
  cases s'
  cases hposition
  cases hpending
  cases hfront
  rfl

/-- A stream is the one that starts at its index. -/
theorem LiesIn.eq_startingAt (h : s.LiesIn (ended ts) last) : s = startingAt ts s.position := by
  have hlt : s.position < (ended ts).length := h.position_le.trans_lt h.last_lt
  obtain ⟨last', h'⟩ := exists_liesIn_startingAt hlt
  exact h.unique h' rfl

/-! ## What is seen -/

/-- The index of the last token that a reading looks at.  It is where the stream stands then; but
    where an expression was expected, the offending token has been passed, unless it ends the
    input. -/
def lastSeen (s : TokenStream) : Nat :=
  match s.expression with
  | (.ok _, s') => s'.position
  | (.error x, s') =>
    if x.cause = .expectedExpression ∧ x.token.isEof = false then s'.position - 1 else s'.position

theorem position_afterFailure {ws rest : List Token} (hs : s.pending = ws ++ rest) (cause : Cause) :
    (s.moveTo (afterFailure cause rest)).position
      = s.position + ws.length + if cause = .expectedExpression ∧ rest ≠ [] then 1 else 0 := by
  by_cases hcause : cause = .expectedExpression
  · subst hcause
    cases rest with
    | nil => rw [if_neg fun h => h.2 rfl]; exact position_moveTo hs
    | cons t rest =>
      have hpast : s.pending = (ws ++ [t]) ++ rest := by
        rw [hs, List.append_assoc, List.singleton_append]
      rw [if_pos ⟨rfl, List.cons_ne_nil t rest⟩, afterFailure, List.tail_cons,
        position_moveTo hpast, List.length_append]
      rfl
  · rw [if_neg fun h => hcause h.1, afterFailure]
    · exact position_moveTo hs
    · exact hcause

/-- A run gives the result and the position of a reading. -/
theorem expression_eq_reply {a : Answer} (hrun : Runs (.level .comma) s.pending a) :
    (s.expression.1, s.expression.2.position) = s.reply a := by
  cases a with
  | done e rest => rw [expression_of_done hrun]; rfl
  | stuck cause rest => rw [expression_of_stuck hrun]; rfl

/-- The last token that is seen comes behind those that are taken. -/
theorem LiesIn.lastSeen_eq (h : s.LiesIn ts last) {a : Answer} {ws : List Token}
    (hrun : Runs (.level .comma) s.pending a) (hws : s.pending = ws ++ a.rest) :
    s.lastSeen = s.position + ws.length := by
  cases a with
  | done e rest =>
    rw [lastSeen, expression_of_done hrun]
    exact position_moveTo hws
  | stuck cause rest =>
    have heof : (s.front rest).isEof = false ↔ rest ≠ [] := by
      cases rest with
      | nil => exact iff_of_false (by simp [front, h.isEof]) (fun hne => hne rfl)
      | cons t rest => exact iff_of_true (h.not_eof t (by rw [hws]; simp [Answer.rest])) (by simp)
    have hrest : s.pending = ws ++ rest := hws
    have hposition := position_afterFailure hrest cause
    rw [lastSeen, expression_of_stuck hrun]
    simp only [heof]
    rw [hposition]
    split <;> omega

/-- What is seen last is in the list: it follows the tree, or it is the token that is reported. -/
theorem LiesIn.getElem?_lastSeen (h : s.LiesIn ts last) {a : Answer}
    (hrun : Runs (.level .comma) s.pending a) : ts[s.lastSeen]? = some (s.front a.rest) := by
  obtain ⟨ws, hws, -⟩ := hrun.window
  obtain ⟨more, hdrop⟩ := h.exists_drop hws
  rw [h.lastSeen_eq hrun hws, ← List.getElem?_drop, hdrop,
    List.getElem?_append_right (Nat.le_refl _), Nat.sub_self]
  rfl

theorem LiesIn.le_lastSeen (h : s.LiesIn ts last) : s.position ≤ s.lastSeen := by
  have hrun := runs_level .comma s.pending
  obtain ⟨ws, hws, -⟩ := hrun.window
  rw [h.lastSeen_eq hrun hws]
  exact Nat.le_add_right _ _

theorem LiesIn.lastSeen_lt (h : s.LiesIn ts last) : s.lastSeen < ts.length :=
  (List.getElem?_eq_some_iff.mp (h.getElem?_lastSeen (runs_level .comma s.pending))).1

theorem position_of_ok {e : Expr} (hx : s.expression = (.ok e, s')) : s'.position = s.lastSeen := by
  rw [lastSeen, hx]

theorem LiesIn.getElem?_of_error (h : s.LiesIn ts last) {x : SyntaxError}
    (hx : s.expression = (.error x, s')) : ts[s.lastSeen]? = some x.token := by
  have hrun := runs_level .comma s.pending
  rw [h.getElem?_lastSeen hrun]
  have hresult := (Prod.mk.inj (expression_eq_reply hrun)).1
  rw [hx] at hresult
  generalize (level .comma s.pending).answer = a at hresult
  cases a with
  | done e rest => cases hresult
  | stuck cause rest =>
    obtain rfl := Except.error.inj hresult
    rfl

/-- What is read from two streams with the same tokens taken and the same one seen behind them. -/
theorem reply_leaving {a : Answer} {ws rest' : List Token} (hs : s.pending = ws ++ a.rest)
    (hs' : s'.pending = ws ++ rest') (hnil : rest' = [] ↔ a.rest = [])
    (hfront : s'.front rest' = s.front a.rest) :
    (s'.reply (a.leaving rest')).1 = (s.reply a).1 ∧
      (s'.reply (a.leaving rest')).2 + s.position = (s.reply a).2 + s'.position := by
  cases a with
  | done e rest =>
    have hrest : s.pending = ws ++ rest := hs
    refine ⟨rfl, ?_⟩
    show (s'.moveTo rest').position + _ = (s.moveTo rest).position + _
    rw [position_moveTo hs', position_moveTo hrest]
    omega
  | stuck cause rest =>
    have hrest : s.pending = ws ++ rest := hs
    refine ⟨congrArg (fun t => Except.error (SyntaxError.mk cause t)) hfront, ?_⟩
    show (s'.moveTo (afterFailure cause rest')).position + _
      = (s.moveTo (afterFailure cause rest)).position + _
    rw [position_afterFailure hs', position_afterFailure hrest]
    simp only [ne_eq, hnil, Answer.rest]
    omega

/-! ## Two lists -/

/-- Lists that hold the same tokens on a window both go on with them. -/
theorem exists_drop_eq {i j : Nat} {ws more : List Token} {t : Token}
    (hdrop : ts.drop i = ws ++ t :: more) (hsame : ∀ k ≤ ws.length, us[j + k]? = ts[i + k]?) :
    ∃ more', us.drop j = ws ++ t :: more' := by
  have htake : (us.drop j).take (ws.length + 1) = ws ++ [t] := by
    have hwindow : (ts.drop i).take (ws.length + 1) = ws ++ [t] := by
      rw [hdrop, List.take_length_add_append]
      rfl
    rw [← hwindow]
    refine List.ext_getElem? fun k => ?_
    rw [List.getElem?_take, List.getElem?_take, List.getElem?_drop, List.getElem?_drop]
    split
    · exact hsame k (by omega)
    · rfl
  refine ⟨(us.drop j).drop (ws.length + 1), ?_⟩
  rw [List.append_cons, ← htake, List.take_append_drop]

theorem head?_eq_of_front {rest rest' : List Token} (hnil : rest' = [] ↔ rest = [])
    (hfront : s'.front rest' = s.front rest) : rest'.head? = rest.head? := by
  cases rest with
  | nil => rw [hnil.mpr rfl]
  | cons t rest =>
    cases rest' with
    | nil => cases hnil.mp rfl
    | cons t' rest' => exact congrArg some hfront

/-- **A reading sees its window only.**  Where another list holds the same tokens up to the last one
    that is seen, the result is the same, and so is the number of tokens taken. -/
theorem LiesIn.expression_eq (h : s.LiesIn ts last) (h' : s'.LiesIn us last')
    (hsame : ∀ i ≤ s.lastSeen - s.position, us[s'.position + i]? = ts[s.position + i]?) :
    s'.expression.1 = s.expression.1 ∧
      s'.expression.2.position + s.position = s.expression.2.position + s'.position := by
  have hrun := runs_level .comma s.pending
  obtain ⟨ws, hws, hwindow⟩ := hrun.window
  generalize (level .comma s.pending).answer = a at hrun hws hwindow
  rw [h.lastSeen_eq hrun hws, Nat.add_sub_cancel_left] at hsame
  -- the list goes on with the tokens taken and the one that is seen behind them
  obtain ⟨more, hdrop⟩ := h.exists_drop hws
  have hnot : ∀ w ∈ ws, w.isEof = false :=
    fun w hw => h.not_eof w (hws ▸ List.mem_append_left a.rest hw)
  obtain ⟨more', hdrop'⟩ := exists_drop_eq hdrop hsame
  obtain ⟨rest, hrest, hfront, hnil⟩ := h.exists_pending hdrop hnot
  obtain ⟨rest', hrest', hfront', hnil'⟩ := h'.exists_pending hdrop' hnot
  obtain rfl : a.rest = rest := List.append_cancel_left (hws.symm.trans hrest)
  have hboth : rest' = [] ↔ a.rest = [] := hnil'.trans hnil.symm
  have hrun' := hwindow rest' (head?_eq_of_front hboth hfront')
  rw [← hrest'] at hrun'
  obtain ⟨hresult, hposition⟩ := Prod.mk.inj (expression_eq_reply hrun)
  obtain ⟨hresult', hposition'⟩ := Prod.mk.inj (expression_eq_reply hrun')
  rw [hresult, hresult', hposition, hposition']
  exact reply_leaving hws hrest' hboth hfront'

/-! ## Later readings -/

theorem LiesIn.synchronize (h : s.LiesIn ts last) : s.synchronize.LiesIn ts last :=
  h.moveTo (recover_suffix s.pending)

/-- Recoveries, however many, lead to a place in the list. -/
theorem liesIn_iterate (ts : List Token) (n : Nat) :
    (synchronize^[n] (ofTokens ts)).LiesIn (ended ts) ((ended ts).findIdx Token.isEof) := by
  induction n with
  | zero => exact liesIn_ended ts
  | succ n ih =>
    rw [Function.iterate_succ_apply']
    exact ih.synchronize

/-- What is read from an index is what is read of the tokens from there on. -/
theorem expression_startingAt (ts : List Token) (c : Nat) :
    (startingAt ts c).expression.1 = parseTokens ((ended ts).drop c) := by
  have hrun : Runs _ (startingAt ts c).pending _ := runs_level .comma _
  rw [parseTokens, (Prod.mk.inj (expression_eq_reply hrun)).1,
    (Prod.mk.inj (expression_eq_reply (s := ofTokens ((ended ts).drop c)) hrun)).1]
  cases (level .comma (startingAt ts c).pending).answer <;> rfl

/-- The tokens that are given are in the ended list. -/
theorem getElem?_ended_of_lt {k : Nat} (hk : k < ts.length) : (ended ts)[k]? = ts[k]? := by
  rw [ended]
  split
  · rfl
  · exact List.getElem?_append_left hk

/-- What is seen stays where it is, whatever is put behind it. -/
theorem LiesIn.getElem?_seen (h : s.LiesIn ts last) {i : Nat} (hi : i ≤ s.lastSeen - s.position)
    (more : List Token) :
    (ended (ts.take (s.lastSeen + 1) ++ more))[s.position + i]? = ts[s.position + i]? := by
  have hle := h.le_lastSeen
  have hlt := h.lastSeen_lt
  have htake : s.position + i < (ts.take (s.lastSeen + 1)).length := by
    rw [List.length_take]
    omega
  have happend : s.position + i < (ts.take (s.lastSeen + 1) ++ more).length := by
    rw [List.length_append]
    omega
  rw [getElem?_ended_of_lt happend, List.getElem?_append_left htake,
    List.getElem?_take_of_lt (by omega)]

end TokenStream

open TokenStream

/-- **The window of a reading.**  Started at any index of any list, a reading sees the tokens up to
    `lastSeen`: where it stands after a tree, or the index of the token it reports.  Any other list
    that holds the same tokens, at any index, gives the same result, and as many tokens are taken.  So
    what follows in the list may be replaced by anything; and after any number of recoveries a reading
    is that of the tokens that are left. -/
theorem reading_window (ts : List Token) :
    (∀ c < (ended ts).length,
      let s := startingAt ts c
      c ≤ s.lastSeen ∧
      (∀ e s', s.expression = (.ok e, s') → s'.position = s.lastSeen) ∧
      (∀ x s', s.expression = (.error x, s') → (ended ts)[s.lastSeen]? = some x.token) ∧
      (∀ us d, (∀ i ≤ s.lastSeen - c, (ended us)[d + i]? = (ended ts)[c + i]?) →
        (startingAt us d).expression.1 = s.expression.1 ∧
          (startingAt us d).expression.2.position + c = s.expression.2.position + d) ∧
      ∀ more,
        let s' := startingAt ((ended ts).take (s.lastSeen + 1) ++ more) c
        s'.expression.1 = s.expression.1 ∧
          s'.expression.2.position = s.expression.2.position) ∧
    ∀ n,
      let s := synchronize^[n] (ofTokens ts)
      s.expression.1 = parseTokens ((ended ts).drop s.position) := by
  constructor
  · intro c hc s
    obtain ⟨last, h⟩ := exists_liesIn_startingAt hc
    have hother : ∀ us d, (∀ i ≤ s.lastSeen - c, (ended us)[d + i]? = (ended ts)[c + i]?) →
        (startingAt us d).expression.1 = s.expression.1 ∧
          (startingAt us d).expression.2.position + c = s.expression.2.position + d := by
      intro us d hsame
      have hfirst := (hsame 0 (Nat.zero_le _)).trans (List.getElem?_eq_getElem hc)
      obtain ⟨last', h'⟩ := exists_liesIn_startingAt (List.getElem?_eq_some_iff.mp hfirst).1
      exact h.expression_eq h' hsame
    refine ⟨h.le_lastSeen, fun e s' hx => position_of_ok hx, fun x s' hx => h.getElem?_of_error hx,
      hother, fun more => ?_⟩
    obtain ⟨hresult, hposition⟩ := hother _ c fun i hi => h.getElem?_seen hi more
    exact ⟨hresult, Nat.add_right_cancel hposition⟩
  · intro n s
    rw [← expression_startingAt, ← (liesIn_iterate ts n).eq_startingAt]

/-- A reading from behind an end of input, and the same tokens at the front of another list. -/
theorem reading_window_mid_list :
    let one (kind : Kind) (lexeme : String) : Token := ⟨kind, lexeme, none, 1⟩
    let paren := one (.symbol .leftParen) "("
    let word := one (.keyword .nilWord) "nil"
    let ts := [word, .endOn 1, paren, word, word, .endOn 2]
    let us := [paren, word, word]
    (startingAt ts 2).lastSeen = 4 ∧ 2 < (ended ts).length ∧
      (∀ i ≤ (startingAt ts 2).lastSeen - 2, (ended us)[0 + i]? = (ended ts)[2 + i]?) ∧
      (startingAt us 0).expression.1 = .error ⟨.missingRightParen, word⟩ ∧
      (startingAt ts 2).expression.1 = .error ⟨.missingRightParen, word⟩ := by
  intro one paren word ts us
  have hseen : (startingAt ts 2).lastSeen = 4 := by decide +kernel
  have hlt : 2 < (ended ts).length := by decide +kernel
  have hsame : ∀ i ≤ (startingAt ts 2).lastSeen - 2, (ended us)[0 + i]? = (ended ts)[2 + i]? := by
    rw [hseen]
    decide +kernel
  have hresult : (startingAt us 0).expression.1 = .error ⟨.missingRightParen, word⟩ := by
    decide +kernel
  obtain ⟨-, -, -, hother, -⟩ := (reading_window ts).1 2 hlt
  exact ⟨hseen, hlt, hsame, hresult, (hother us 0 hsame).1.symm.trans hresult⟩

end Lox
