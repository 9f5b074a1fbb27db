/-
  Counting — a cursor is what comes after so many characters of its text.

  A cursor has three parts: its text, what is still to come of it, and a line.  They agree, because one
  NUMBER fixes all of them: how many characters have been passed.

  1. **Places** — `afterFirst source k`, the cursor behind the first `k` characters.  Moving on from
     there adds to the number.
  2. **Requests** — what a cursor can be asked, and the same on numbers alone.
  3. **Pools** — any number of live cursors over one text.  Each can be asked, cloned, or set back to
     another.  The pool of cursors does what the pool of their numbers does (`runAll_map`).
  4. **Looking** — what each place shows.
  5. **Two places** — the text between them, which is also what their byte offsets cut out; and
     equality, which does not look at lines.
-/
import Mathlib.Data.List.TakeWhile
import Lox.Proofs.Guarded.Slice

namespace Lox

namespace Cursor

/-! ## Places -/

/-- The cursor behind the first `k` characters of a text. -/
def afterFirst (source : String) (k : Nat) : Cursor :=
  ⟨source, source.toList.drop k, lastLine (source.toList.take k)⟩

theorem ofString_eq (source : String) : ofString source = afterFirst source 0 := rfl

/-- Moving on adds to the number. -/
theorem skip_afterFirst (source : String) (k n : Nat) :
    (afterFirst source k).skip n = afterFirst source (k + n) := by
  have hline : lastLine (source.toList.take k) + newlines ((source.toList.drop k).take n)
      = lastLine (source.toList.take (k + n)) := by
    rw [lastLine, lastLine, List.take_add, newlines_append, Nat.add_assoc]
  rw [skip, afterFirst, afterFirst, List.drop_drop, hline]

/-- There is no place behind the end. -/
theorem afterFirst_min (source : String) (k : Nat) :
    afterFirst source (min k source.toList.length) = afterFirst source k := by
  rcases Nat.le_total k source.toList.length with hk | hk
  · rw [Nat.min_eq_left hk]
  · rw [Nat.min_eq_right hk, afterFirst, afterFirst, List.drop_of_length_le hk, List.drop_length,
      List.take_of_length_le hk, List.take_length]

/-! ## Requests -/

/-- What a cursor can be asked. -/
inductive Request where
  | next
  | advanceIf (expected : Char)
  | advanceWhile (p : Char → Bool)
  | peek
  | peekNext

/-- What is answered. -/
inductive Reply where
  | character (c : Option Char)
  | flag (b : Bool)
  | nothing
  deriving DecidableEq

/-- A cursor answers, and goes on. -/
def Request.run : Request → Cursor → Reply × Cursor
  | next, c => (.character c.next.1, c.next.2)
  | advanceIf expected, c => (.flag (c.advanceIf expected).1, (c.advanceIf expected).2)
  | advanceWhile p, c => (.nothing, c.advanceWhile p)
  | peek, c => (.character c.peek, c)
  | peekNext, c => (.character c.peekNext, c)

/-- Where the run of characters that satisfy `p` ends, if it begins at `k`. -/
def runEnd (p : Char → Bool) (cs : List Char) (k : Nat) : Nat :=
  k + ((cs.drop k).takeWhile p).length

/-- What is answered behind the first `k` characters, and how many have been passed then. -/
def Request.count (cs : List Char) : Request → Nat → Reply × Nat
  | next, k => (.character cs[k]?, min (k + 1) cs.length)
  | advanceIf expected, k =>
    if cs[k]? = some expected then (.flag true, k + 1) else (.flag false, k)
  | advanceWhile p, k => (.nothing, runEnd p cs k)
  | peek, k => (.character cs[k]?, k)
  | peekNext, k => (.character cs[k + 1]?, k)

theorem peek_afterFirst (source : String) (k : Nat) :
    (afterFirst source k).peek = source.toList[k]? :=
  List.head?_drop

theorem peekNext_afterFirst (source : String) (k : Nat) :
    (afterFirst source k).peekNext = source.toList[k + 1]? :=
  List.getElem?_drop

/-- A cursor answers as its number does. -/
theorem Request.run_afterFirst (source : String) (q : Request) (k : Nat) :
    q.run (afterFirst source k)
      = ((q.count source.toList k).1, afterFirst source (q.count source.toList k).2) := by
  cases q with
  | next =>
    show (Reply.character (afterFirst source k).peek, (afterFirst source k).skip 1) = _
    rw [peek_afterFirst, skip_afterFirst, ← afterFirst_min]
    rfl
  | advanceIf expected =>
    rw [run, Cursor.advanceIf, count, peek_afterFirst]
    split
    · rw [skip_afterFirst]
    · rfl
  | advanceWhile p =>
    show (Reply.nothing, (afterFirst source k).skip _) = _
    rw [skip_afterFirst]
    rfl
  | peek =>
    rw [run, count, peek_afterFirst]
  | peekNext =>
    rw [run, count, peekNext_afterFirst]

/-- A number stays within the text. -/
theorem Request.count_le {cs : List Char} (q : Request) {k : Nat} (hk : k ≤ cs.length) :
    (q.count cs k).2 ≤ cs.length := by
  cases q with
  | next => exact Nat.min_le_right _ _
  | advanceIf expected =>
    rw [count]
    split
    · rename_i hc
      exact (List.getElem?_eq_some_iff.mp hc).1
    · exact hk
  | advanceWhile p =>
    have hprefix := (List.takeWhile_prefix (l := cs.drop k) p).length_le
    rw [List.length_drop] at hprefix
    show k + _ ≤ _
    omega
  | peek => exact hk
  | peekNext => exact hk

/-! ## Pools -/

/-- What can be done with live cursors, which are known by their index. -/
inductive Action where
  | ask (i : Nat) (q : Request)
  | clone (i : Nat)
  | restore (i j : Nat)

namespace Action

variable {σ τ : Type} (answer : Request → σ → Reply × σ)

/-- One action on a pool.  A clone is added at its end; `restore i j` makes `i` a clone of `j`. -/
def run (live : List σ) : Action → Option (Reply × List σ)
  | ask i q => live[i]?.map fun s => ((answer q s).1, live.set i (answer q s).2)
  | clone i => live[i]?.map fun s => (.nothing, live ++ [s])
  | restore i j => if i < live.length then live[j]?.map fun s => (.nothing, live.set i s) else none

/-- Actions one after the other, with their replies; `none` if one is on a cursor that there is not. -/
def runAll : List σ → List Action → Option (List Reply × List σ)
  | live, [] => some ([], live)
  | live, act :: acts =>
    (act.run answer live).bind fun first =>
      (runAll first.2 acts).map fun later => (first.1 :: later.1, later.2)

variable {answer : Request → σ → Reply × σ} {answer' : Request → τ → Reply × τ} {f : τ → σ}

/-- An action does the same on images as on what they are the images of. -/
theorem run_map (hf : ∀ q t, answer q (f t) = ((answer' q t).1, f (answer' q t).2)) (live : List τ)
    (act : Action) :
    act.run answer (live.map f) = (act.run answer' live).map (Prod.map id (List.map f)) := by
  cases act with
  | ask i q =>
    rw [run, run, List.getElem?_map]
    cases live[i]? with
    | none => rfl
    | some t => simp [hf, List.map_set]
  | clone i =>
    rw [run, run, List.getElem?_map]
    cases live[i]? with
    | none => rfl
    | some t => simp
  | restore i j =>
    rw [run, run, List.getElem?_map, List.length_map]
    split
    · cases live[j]? with
      | none => rfl
      | some t => simp [List.map_set]
    · rfl

/-- So do any actions one after the other. -/
theorem runAll_map (hf : ∀ q t, answer q (f t) = ((answer' q t).1, f (answer' q t).2))
    (live : List τ) (acts : List Action) :
    runAll answer (live.map f) acts
      = (runAll answer' live acts).map (Prod.map id (List.map f)) := by
  induction acts generalizing live with
  | nil => rfl
  | cons act acts ih =>
    rw [runAll, runAll, run_map hf]
    cases act.run answer' live with
    | none => rfl
    | some first =>
      show (runAll answer (first.2.map f) acts).map _ = Option.map _ ((runAll _ _ _).map _)
      rw [ih, Option.map_map, Option.map_map]
      rfl

/-- What every answer keeps, an action keeps for the whole pool. -/
theorem forall_of_run {P : σ → Prop} (hP : ∀ q s, P s → P (answer q s).2) {live live' : List σ}
    {act : Action} {reply : Reply} (hlive : ∀ s ∈ live, P s)
    (hrun : act.run answer live = some (reply, live')) : ∀ s ∈ live', P s := by
  cases act with
  | ask i q =>
    obtain ⟨s, hs, heq⟩ := Option.map_eq_some_iff.mp hrun
    obtain ⟨-, rfl⟩ := Prod.mk.inj heq
    intro u hu
    rcases List.mem_or_eq_of_mem_set hu with hu | rfl
    · exact hlive u hu
    · exact hP q s (hlive s (List.mem_of_getElem? hs))
  | clone i =>
    obtain ⟨s, hs, heq⟩ := Option.map_eq_some_iff.mp hrun
    obtain ⟨-, rfl⟩ := Prod.mk.inj heq
    exact List.forall_mem_append.mpr
      ⟨hlive, List.forall_mem_singleton.mpr (hlive s (List.mem_of_getElem? hs))⟩
  | restore i j =>
    rw [run] at hrun
    split at hrun
    · obtain ⟨s, hs, heq⟩ := Option.map_eq_some_iff.mp hrun
      obtain ⟨-, rfl⟩ := Prod.mk.inj heq
      intro u hu
      rcases List.mem_or_eq_of_mem_set hu with hu | rfl
      · exact hlive u hu
      · exact hlive u (List.mem_of_getElem? hs)
    · cases hrun

theorem forall_of_runAll {P : σ → Prop} (hP : ∀ q s, P s → P (answer q s).2)
    {live live' : List σ} {acts : List Action} {replies : List Reply} (hlive : ∀ s ∈ live, P s)
    (hrun : runAll answer live acts = some (replies, live')) : ∀ s ∈ live', P s := by
  induction acts generalizing live replies with
  | nil =>
    obtain ⟨-, rfl⟩ := Prod.mk.inj (Option.some.inj hrun)
    exact hlive
  | cons act acts ih =>
    obtain ⟨first, hact, hrest⟩ := Option.bind_eq_some_iff.mp hrun
    obtain ⟨later, hlater, heq⟩ := Option.map_eq_some_iff.mp hrest
    obtain ⟨-, rfl⟩ := Prod.mk.inj heq
    exact ih (forall_of_run hP hlive hact) hlater

end Action

/-! ## Looking -/

/-- What a cursor shows that stands behind the first `k` characters. -/
structure Shows (source : String) (k : Nat) (c : Cursor) : Prop where
  rest : c.rest = source.toList.drop k
  offset : c.offset = (String.ofList (source.toList.take k)).utf8ByteSize
  line : c.line = 1 + newlines (source.toList.take k)
  atEnd : c.atEnd ↔ k = source.toList.length
  peek : c.peek = source.toList[k]?
  peekNext : c.peekNext = source.toList[k + 1]?

theorem after_afterFirst (source : String) (k : Nat) :
    (afterFirst source k).After (source.toList.take k) := by
  refine ⟨?_, rfl⟩
  show source = String.ofList (source.toList.take k ++ source.toList.drop k)
  rw [List.take_append_drop, String.ofList_toList]

theorem offset_afterFirst (source : String) (k : Nat) :
    (afterFirst source k).offset = String.utf8Len (source.toList.take k) :=
  (after_afterFirst source k).offset_eq

theorem shows_afterFirst {source : String} {k : Nat} (hk : k ≤ source.toList.length) :
    Shows source k (afterFirst source k) where
  rest := rfl
  offset := by rw [offset_afterFirst, String.utf8ByteSize_ofList]
  line := rfl
  atEnd := by
    rw [atEnd, List.isEmpty_iff]
    show source.toList.drop k = [] ↔ _
    rw [List.drop_eq_nil_iff]
    omega
  peek := peek_afterFirst source k
  peekNext := peekNext_afterFirst source k

/-- What is passed by `advanceWhile` satisfies the predicate, and what comes next does not. -/
theorem runEnd_longest (p : Char → Bool) (cs : List Char) (k : Nat) :
    (∀ j c, k ≤ j → j < runEnd p cs k → cs[j]? = some c → p c) ∧
      ∀ c, cs[runEnd p cs k]? = some c → ¬ p c := by
  have hsplit : cs.drop k = (cs.drop k).takeWhile p ++ (cs.drop k).dropWhile p :=
    List.takeWhile_append_dropWhile.symm
  constructor
  · intro j c hkj hj hc
    obtain ⟨i, rfl⟩ := Nat.exists_eq_add_of_le hkj
    have hi : i < ((cs.drop k).takeWhile p).length := Nat.lt_of_add_lt_add_left hj
    rw [← List.getElem?_drop, hsplit, List.getElem?_append_left hi] at hc
    exact List.mem_takeWhile_imp (List.mem_of_getElem? hc)
  · intro c hc
    rw [runEnd, ← List.getElem?_drop, hsplit,
      List.getElem?_append_right (by rw [← hsplit]), ← hsplit, Nat.sub_self,
      ← List.head?_eq_getElem?] at hc
    have hnot := List.head?_dropWhile_not p (cs.drop k)
    rw [hc] at hnot
    simpa using hnot

/-! ## Two places -/

/-- The characters of a text between two places. -/
def between (source : String) (j k : Nat) : String :=
  String.ofList ((source.toList.take k).drop j)

/-- Offsets are ordered as the places are. -/
theorem offset_le_iff {source : String} {j k : Nat} (hj : j ≤ source.toList.length) :
    (afterFirst source j).offset ≤ (afterFirst source k).offset ↔ j ≤ k := by
  rw [offset_afterFirst, offset_afterFirst]
  constructor
  · intro hle
    by_contra hlt
    -- a character between the two places takes some bytes
    obtain ⟨n, rfl⟩ := Nat.exists_eq_add_of_le (Nat.le_of_not_le hlt)
    rw [List.take_add, String.utf8Len_append] at hle
    have hzero : String.utf8Len ((source.toList.drop k).take n) = 0 := by omega
    rw [String.utf8Len_eq_zero, List.take_eq_nil_iff, List.drop_eq_nil_iff] at hzero
    omega
  · exact fun hle => String.utf8Len_le_of_prefix (List.take_prefix_take_left hle)

theorem slice?_afterFirst {source : String} {j k : Nat} (hj : j ≤ source.toList.length)
    (hk : k ≤ source.toList.length) :
    (afterFirst source j).slice? (afterFirst source k)
      = if j ≤ k then some (between source j k) else none := by
  have hsource : (afterFirst source j).source = (afterFirst source k).source := rfl
  have hlength : (afterFirst source j).rest.length - (afterFirst source k).rest.length = k - j := by
    show (source.toList.drop j).length - (source.toList.drop k).length = k - j
    rw [List.length_drop, List.length_drop]
    omega
  rw [slice?, hlength, between, List.drop_take]
  simp only [offset_le_iff hj, hsource, true_and]
  rfl

/-- Byte offsets cut out the same text, and nothing if they are out of order. -/
theorem textUntil_afterFirst {source : String} {j k : Nat} (hj : j ≤ source.toList.length) :
    (afterFirst source j).textUntil (afterFirst source k)
      = if j ≤ k then .ok (between source j k) else .error .slice := by
  split
  · rename_i hjk
    obtain ⟨n, rfl⟩ := Nat.exists_eq_add_of_le hjk
    rw [← skip_afterFirst, (after_afterFirst source j).textUntil_skip, between, List.drop_take,
      Nat.add_sub_cancel_left]
    rfl
  · rename_i hjk
    have hsame : ¬ (afterFirst source j).source ≠ (afterFirst source k).source :=
      fun hne => hne rfl
    have hoffset := mt (offset_le_iff hj).mp hjk
    rw [offset_afterFirst, offset_afterFirst] at hoffset
    rw [textUntil, if_neg hsame, (after_afterFirst source j).byteOffset_eq,
      (after_afterFirst source k).byteOffset_eq]
    exact if_neg fun hall => hoffset hall.1

/-- Cursors over one text are the same just if they have passed as many characters. -/
theorem same_afterFirst {source : String} {j k : Nat} (hj : j ≤ source.toList.length)
    (hk : k ≤ source.toList.length) :
    (afterFirst source j).same (afterFirst source k) ↔ j = k := by
  rw [same, Bool.and_eq_true_iff, beq_iff_eq, beq_iff_eq]
  constructor
  · rintro ⟨-, hrest⟩
    have hlength := congrArg List.length hrest
    rw [afterFirst, afterFirst, List.length_drop, List.length_drop] at hlength
    omega
  · rintro rfl
    exact ⟨rfl, rfl⟩

/-- Texts that meet are put together. -/
theorem between_append {source : String} {i j k : Nat} (hij : i ≤ j) (hjk : j ≤ k) :
    between source i j ++ between source j k = between source i k := by
  obtain ⟨m, rfl⟩ := Nat.exists_eq_add_of_le hij
  obtain ⟨n, rfl⟩ := Nat.exists_eq_add_of_le hjk
  rw [between, between, between, ← String.ofList_append, List.drop_take, List.drop_take,
    List.drop_take, Nat.add_sub_cancel_left, Nat.add_sub_cancel_left, Nat.add_assoc,
    Nat.add_sub_cancel_left, List.take_add, List.drop_drop]

end Cursor

open Cursor

/-- **A cursor is fully described by how many characters it has passed.**  Whatever is done with live
    cursors over a text, from its start on, is done with numbers alone: the replies are the same, and
    the cursors are those behind as many characters.  Such a cursor shows what comes next, its offset
    and its line by that number; `advanceWhile` passes the longest run.  Of two of them, the text from
    one to the other is there just if the numbers are in order, also by byte offsets, and it is what
    lies between; texts that meet are put together; and cursors with equal numbers, and no others, are
    the same, in their lines as well. -/
theorem cursor_counts (source : String) :
    (∀ acts replies live,
      Action.runAll Request.run [ofString source] acts = some (replies, live) ↔
        ∃ counts, Action.runAll (Request.count source.toList) [0] acts = some (replies, counts) ∧
          (∀ k ∈ counts, k ≤ source.toList.length) ∧ live = counts.map (afterFirst source)) ∧
    (∀ k ≤ source.toList.length, Shows source k (afterFirst source k)) ∧
    (∀ p, ∀ k ≤ source.toList.length,
      let r := runEnd p source.toList k
      k ≤ r ∧ r ≤ source.toList.length ∧
        (∀ j c, k ≤ j → j < r → source.toList[j]? = some c → p c) ∧
        ∀ c, source.toList[r]? = some c → ¬ p c) ∧
    (∀ j ≤ source.toList.length, ∀ k ≤ source.toList.length,
      let a := afterFirst source j
      let b := afterFirst source k
      (a.slice? b = if j ≤ k then some (between source j k) else none) ∧
      (a.textUntil b = if j ≤ k then .ok (between source j k) else .error .slice) ∧
      (a.same b ↔ j = k) ∧ (a.same b → a = b)) ∧
    ∀ i j k, i ≤ j → j ≤ k → k ≤ source.toList.length →
      ∃ s t, (afterFirst source i).slice? (afterFirst source j) = some s ∧
        (afterFirst source j).slice? (afterFirst source k) = some t ∧
        (afterFirst source i).slice? (afterFirst source k) = some (s ++ t) := by
  refine ⟨fun acts replies live => ?_, fun k hk => shows_afterFirst hk, fun p k hk => ?_,
    fun j hj k hk => ?_, fun i j k hij hjk hk => ?_⟩
  · have hmap := Action.runAll_map (Request.run_afterFirst source) [0] acts
    rw [ofString_eq, ← List.map_singleton, hmap]
    constructor
    · intro hrun
      obtain ⟨⟨replies', counts⟩, hcounts, heq⟩ := Option.map_eq_some_iff.mp hrun
      obtain ⟨rfl, rfl⟩ := Prod.mk.inj heq
      have hle := Action.forall_of_runAll (P := (· ≤ source.toList.length))
        (fun q k hk => q.count_le hk) (List.forall_mem_singleton.mpr (Nat.zero_le _)) hcounts
      exact ⟨counts, hcounts, hle, rfl⟩
    · rintro ⟨counts, hcounts, -, rfl⟩
      rw [hcounts]
      rfl
  · obtain ⟨hall, hnext⟩ := runEnd_longest p source.toList k
    exact ⟨Nat.le_add_right _ _, (Request.advanceWhile p).count_le hk, hall, hnext⟩
  · refine ⟨slice?_afterFirst hj hk, textUntil_afterFirst hj, same_afterFirst hj hk, fun hsame => ?_⟩
    rw [(same_afterFirst hj hk).mp hsame]
  · have hj := hjk.trans hk
    have hi := hij.trans hj
    refine ⟨between source i j, between source j k, ?_, ?_, ?_⟩
    · rw [slice?_afterFirst hi hj, if_pos hij]
    · rw [slice?_afterFirst hj hk, if_pos hjk]
    · rw [slice?_afterFirst hi hk, if_pos (hij.trans hjk), between_append hij hjk]

/-- A clone stays behind, is asked, and is set to where the other cursor has gone. -/
theorem cursor_counts_clone :
    let source := "é\n==x"
    let equals (c : Char) : Bool := c == '='
    let acts : List Action := [.clone 0, .ask 0 .next, .ask 0 .next, .ask 1 .peekNext, .clone 0,
      .ask 0 (.advanceWhile equals), .restore 1 0, .ask 1 (.advanceIf 'x'), .ask 1 .peek]
    Action.runAll Request.run [ofString source] acts
        = some ([.nothing, .character 'é', .character '\n', .character '\n', .nothing, .nothing,
            .nothing, .flag true, .character none],
          [afterFirst source 4, afterFirst source 5, afterFirst source 2]) ∧
      (afterFirst source 4).line = 2 ∧ (afterFirst source 4).offset = 5 ∧
      (afterFirst source 2).slice? (afterFirst source 4) = some "==" ∧
      (afterFirst source 4).slice? (afterFirst source 2) = none := by
  intro source equals acts
  obtain ⟨hruns, hshows, -, hpairs, -⟩ := cursor_counts source
  have hcounts : Action.runAll (Request.count source.toList) [0] acts
      = some ([.nothing, .character 'é', .character '\n', .character '\n', .nothing, .nothing,
          .nothing, .flag true, .character none], [4, 5, 2]) := by decide +kernel
  have htwo : 2 ≤ source.toList.length := by decide +kernel
  have hfour : 4 ≤ source.toList.length := by decide +kernel
  refine ⟨(hruns acts _ _).mpr ⟨[4, 5, 2], hcounts, by decide +kernel, rfl⟩, ?_, ?_, ?_, ?_⟩
  · exact (hshows 4 hfour).line.trans (by decide +kernel)
  · exact (hshows 4 hfour).offset.trans (by decide +kernel)
  · exact (hpairs 2 htwo 4 hfour).1.trans (by decide +kernel)
  · exact (hpairs 4 hfour 2 htwo).1.trans (if_neg (by decide))

end Lox
