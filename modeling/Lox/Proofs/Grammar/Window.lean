/-
  Windows — a run sees the tokens it takes and ONE more.

  1. **Window** — what a run leaves over may be replaced by any tokens with the same first one (or by
     none, if it left none): the run is then the same, token by token.
  2. **Progress** — what is left over is a tail of the tokens, and a proper one if an expression was
     read.
-/
import Lox.Proofs.Grammar.Runs

namespace Lox

namespace Answer

/-- The tokens an answer leaves over; for a failure, those from the offending one on. -/
def rest : Answer → List Token
  | done _ rest => rest
  | stuck _ rest => rest

/-- The same answer with other tokens left over. -/
def leaving : Answer → List Token → Answer
  | done e _, rest => done e rest
  | stuck cause _, rest => stuck cause rest

end Answer

namespace Parse

theorem head?_append_congr {us vs ws : List Token} (h : vs.head? = ws.head?) :
    (us ++ vs).head? = (us ++ ws).head? := by
  rw [List.head?_append, List.head?_append, h]

/-- **The window of a run.** -/
theorem Runs.window {task : Task} {ts : List Token} {a : Answer} (h : Runs task ts a) :
    ∃ us, ts = us ++ a.rest ∧
      ∀ vs, vs.head? = a.rest.head? → Runs task (us ++ vs) (a.leaving vs) := by
  induction h with
  | level _ _ ihop ihch =>
    obtain ⟨us, rfl, hus⟩ := ihop
    obtain ⟨ws, hws, hch⟩ := ihch
    refine ⟨us ++ ws, by rw [List.append_assoc, ← hws]; rfl, fun vs hvs => ?_⟩
    rw [List.append_assoc]
    refine .level (hus (ws ++ vs) ?_) (hch vs hvs)
    exact (head?_append_congr hvs).trans (congrArg List.head? hws.symm)
  | levelStuck _ ihop =>
    obtain ⟨us, rfl, hus⟩ := ihop
    exact ⟨us, rfl, fun vs hvs => .levelStuck (hus vs hvs)⟩
  | tighter hm _ ih =>
    obtain ⟨us, hts, hus⟩ := ih
    exact ⟨us, hts, fun vs hvs => .tighter hm (hus vs hvs)⟩
  | tightest hm _ ih =>
    obtain ⟨us, hts, hus⟩ := ih
    exact ⟨us, hts, fun vs hvs => .tightest hm (hus vs hvs)⟩
  | chainEnd hend =>
    refine ⟨[], rfl, fun vs hvs => .chainEnd ?_⟩
    rwa [List.nil_append, hvs]
  | @chainStuck l left t ts cause rest hc _ ihop =>
    obtain ⟨us, rfl, hus⟩ := ihop
    exact ⟨t :: us, rfl, fun vs hvs => .chainStuck hc (hus vs hvs)⟩
  | @binary l left t ts right rest a hl hc _ _ ihop ihch =>
    obtain ⟨us, rfl, hus⟩ := ihop
    obtain ⟨ws, hws, hch⟩ := ihch
    refine ⟨t :: (us ++ ws), by rw [List.cons_append, List.append_assoc, ← hws]; rfl,
      fun vs hvs => ?_⟩
    rw [List.cons_append, List.append_assoc]
    refine .binary hl hc (hus (ws ++ vs) ?_) (hch vs hvs)
    exact (head?_append_congr hvs).trans (congrArg List.head? hws.symm)
  | @conditional left t ts yes c us' no rest a hc _ hcolon _ _ ihyes ihno ihch =>
    obtain ⟨us, rfl, hus⟩ := ihyes
    obtain ⟨ws, rfl, hws⟩ := ihno
    obtain ⟨xs, hxs, hch⟩ := ihch
    refine ⟨t :: (us ++ c :: (ws ++ xs)), ?_, fun vs hvs => ?_⟩
    · rw [List.cons_append, List.append_assoc, List.cons_append, List.append_assoc, ← hxs]
      rfl
    · rw [List.cons_append, List.append_assoc, List.cons_append, List.append_assoc]
      refine .conditional hc (hus (c :: (ws ++ (xs ++ vs))) rfl) hcolon (hws (xs ++ vs) ?_)
        (hch vs hvs)
      exact (head?_append_congr hvs).trans (congrArg List.head? hxs.symm)
  | @elseStuck left t ts yes c us' cause rest hc _ hcolon _ ihyes ihno =>
    obtain ⟨us, rfl, hus⟩ := ihyes
    obtain ⟨ws, rfl, hws⟩ := ihno
    refine ⟨t :: (us ++ c :: ws), by simp [Answer.rest], fun vs hvs => ?_⟩
    rw [List.cons_append, List.append_assoc, List.cons_append]
    exact .elseStuck hc (hus (c :: (ws ++ vs)) rfl) hcolon (hws vs hvs)
  | @colonMissing left t ts yes rest hc _ hcolon ihyes =>
    obtain ⟨us, rfl, hus⟩ := ihyes
    refine ⟨t :: us, rfl, fun vs hvs => .colonMissing hc (hus vs hvs) ?_⟩
    rwa [show vs.head? = rest.head? from hvs]
  | @unary t ts e rest ht _ ih =>
    obtain ⟨us, rfl, hus⟩ := ih
    exact ⟨t :: us, rfl, fun vs hvs => .unary ht (hus vs hvs)⟩
  | @unaryStuck t ts cause rest ht _ ih =>
    obtain ⟨us, rfl, hus⟩ := ih
    exact ⟨t :: us, rfl, fun vs hvs => .unaryStuck ht (hus vs hvs)⟩
  | unaryPrimary hend _ ih =>
    obtain ⟨us, rfl, hus⟩ := ih
    refine ⟨us, rfl, fun vs hvs => .unaryPrimary ?_ (hus vs hvs)⟩
    rwa [head?_append_congr hvs]
  | @literal t ts v hv =>
    exact ⟨[t], rfl, fun vs _ => .literal hv⟩
  | @grouping t ts e c rest hp _ hc ih =>
    obtain ⟨us, rfl, hus⟩ := ih
    refine ⟨t :: (us ++ [c]), by simp [Answer.rest], fun vs _ => ?_⟩
    rw [List.cons_append, List.append_assoc]
    exact .grouping hp (hus (c :: vs) rfl) hc
  | @groupingStuck t ts cause rest hp _ ih =>
    obtain ⟨us, rfl, hus⟩ := ih
    exact ⟨t :: us, rfl, fun vs hvs => .groupingStuck hp (hus vs hvs)⟩
  | @parenMissing t ts e rest hp _ hc ih =>
    obtain ⟨us, rfl, hus⟩ := ih
    refine ⟨t :: us, rfl, fun vs hvs => .parenMissing hp (hus vs hvs) ?_⟩
    rwa [show vs.head? = rest.head? from hvs]
  | noExpression hend =>
    refine ⟨[], rfl, fun vs hvs => .noExpression ?_⟩
    rwa [List.nil_append, hvs]

/-! ## Progress -/

theorem Runs.suffix {task : Task} {ts : List Token} {a : Answer} (h : Runs task ts a) :
    a.rest <:+ ts := by
  obtain ⟨us, hus, -⟩ := h.window
  exact ⟨us, hus.symm⟩

/-- The task does not go on from what has been read. -/
def Task.Opens : Task → Prop
  | .chain _ _ => False
  | _ => True

/-- An expression takes a token; only a chain may take none. -/
theorem Runs.shorter {task : Task} {ts rest : List Token} {e : Expr}
    (h : Runs task ts (.done e rest)) (htask : task.Opens) : rest.length < ts.length := by
  have hanswers := h.answers
  cases task with
  | level l | operand l | unary | primary => exact (Outcome.eq_done hanswers).1
  | chain l left => exact htask.elim

end Parse

end Lox
