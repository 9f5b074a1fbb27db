/-
  Postorder — the reverse Polish form is the items of the tree JOINED by single spaces.

  The writer does not join.  A space is written before a word if an operand came last, and behind every
  operator, so what stands between two words is settled by two calls.

  1. **Joined items** — single spaces between the texts, and one more behind an operator that is last.
  2. **Writing** — what a tree adds to a text that is there, whatever was written last.  Set off for
     the next word, the text grows by each item and one space (`PolishWriter.spaced_add`); an operand
     that comes last is not set off yet.
  3. **Calls** — a writer that was called for anything before prints a tree as its items say, and keeps
     nothing of the text.
  4. **Groupings** — a tree without some of its groupings has the same items.
-/
import Lox.Proofs.Printing.ReversePolish

namespace Lox

/-! ## Joined items -/

namespace Item

/-- The item takes trees. -/
def isOperator : Item → Bool
  | operand _ => false
  | unary _ | binary _ => true

/-- Items with single spaces between them, and a space behind an operator that is last. -/
def joined (is : List Item) : String :=
  " ".intercalate (is.map text) ++ if is.getLast?.any isOperator then " " else ""

end Item

/-- With a space behind EACH item there is one behind the last. -/
theorem spacedItems_eq {is : List Item} (h : is ≠ []) :
    spacedItems is = (" ".intercalate (is.map Item.text) ++ " ").toList := by
  induction is with
  | nil => exact absurd rfl h
  | cons i is ih =>
    rw [spacedItems_cons, List.map_cons]
    by_cases hnil : is = []
    · subst hnil
      rw [List.map_nil, String.intercalate_singleton, String.toList_append]
      rfl
    · rw [ih hnil, String.intercalate_cons_of_ne_nil (mt List.map_eq_nil_iff.mp hnil)]
      simp only [String.toList_append, List.append_assoc]
      rfl

/-! ## Writing -/

namespace PolishWriter

variable {e : Expr}

/-- A tree without items writes nothing. -/
theorem add_of_items_nil (w : PolishWriter) (h : e.items = []) : w.add e = w := by
  induction e with
  | literal => cases h
  | grouping e ih => exact ih h
  | unary | binary => exact absurd h (List.concat_ne_nil _ _)
  | conditional => rfl

/-- The last item says whether an operand was written last. -/
theorem afterOperand_eq (w : PolishWriter) (e : Expr) :
    (w.add e).afterOperand = e.items.getLast?.elim w.afterOperand (fun i => !i.isOperator) := by
  induction e with
  | literal | conditional => rfl
  | grouping e ih => exact ih
  | unary | binary =>
    rw [Expr.items, List.getLast?_concat]
    rfl

/-- **What a tree adds to a text**: its items, joined, and before them a space if an operand came
    last. -/
theorem written_add (w : PolishWriter) (h : e.items ≠ []) :
    (w.add e).written = w.spaced ++ Item.joined e.items := by
  have hspaced : (w.add e).spaced = w.spaced ++ (" ".intercalate (e.items.map Item.text) ++ " ") := by
    rw [← String.toList_inj, spaced_add, spacedItems_eq h, ← String.toList_append]
  have hoperand := afterOperand_eq w e
  rcases List.eq_nil_or_concat' e.items with hnil | ⟨is, i, his⟩
  · exact absurd hnil h
  · have hlast : e.items.getLast? = some i := by rw [his, List.getLast?_concat]
    rw [hlast] at hoperand
    unfold Item.joined
    rw [hlast, Option.any_some]
    rw [spaced, hoperand] at hspaced
    cases hi : i.isOperator with
    | true =>
      -- the space behind the operator is in the text
      rw [Option.elim_some, hi, Bool.not_true, if_neg Bool.false_ne_true] at hspaced
      exact hspaced
    | false =>
      rw [Option.elim_some, hi, Bool.not_false, if_pos rfl, ← String.append_assoc] at hspaced
      rw [if_neg Bool.false_ne_true, String.append_empty]
      exact (String.append_left_inj " ").mp hspaced

/-- **A tree is printed as its items say**, and the text is not kept. -/
theorem print_eq (w : PolishWriter) (e : Expr) :
    w.print e = (Item.joined e.items, ⟨"", e.items.getLast?.any fun i => !i.isOperator⟩) := by
  have hoperand := afterOperand_eq empty e
  have hwritten : (empty.add e).written = Item.joined e.items := by
    by_cases hnil : e.items = []
    · rw [add_of_items_nil empty hnil, hnil]
      rfl
    · rw [written_add empty hnil]
      exact String.empty_append
  show ((empty.add e).written, PolishWriter.mk "" (empty.add e).afterOperand) = _
  rw [hwritten, hoperand]
  cases e.items.getLast? <;> rfl

/-! ## Calls -/

/-- What a writer is called for: to print a tree, or to go on writing. -/
inductive Call where
  | print (e : Expr)
  | add (e : Expr)

/-- The writer after a call. -/
def after (w : PolishWriter) : Call → PolishWriter
  | .print e => (w.print e).2
  | .add e => w.add e

/-- The texts that calls return; going on writing returns none. -/
def texts (w : PolishWriter) : List Call → List String
  | [] => []
  | .print e :: calls => (w.print e).1 :: (w.after (.print e)).texts calls
  | .add e :: calls => (w.after (.add e)).texts calls

/-- The tree of a call that returns a text. -/
def Call.printed? : Call → Option Expr
  | print e => some e
  | add _ => none

/-- Whatever comes between, each tree is printed as its items say. -/
theorem texts_eq (w : PolishWriter) (calls : List Call) :
    w.texts calls = (calls.filterMap Call.printed?).map fun e => Item.joined e.items := by
  induction calls generalizing w with
  | nil => rfl
  | cons call calls ih =>
    cases call with
    | print e =>
      show (w.print e).1 :: (w.after (.print e)).texts calls = _
      rw [ih, print_eq]
      rfl
    | add e => exact ih _

end PolishWriter

/-! ## Groupings -/

/-- The second tree is the first without some of its groupings. -/
inductive Expr.UngroupsTo : Expr → Expr → Prop where
  | erased {e e'} : UngroupsTo e e' → UngroupsTo (.grouping e) e'
  | literal {v} : UngroupsTo (.literal v) (.literal v)
  | grouping {e e'} : UngroupsTo e e' → UngroupsTo (.grouping e) (.grouping e')
  | unary {op e e'} : UngroupsTo e e' → UngroupsTo (.unary op e) (.unary op e')
  | binary {a a' op b b'} : UngroupsTo a a' → UngroupsTo b b' →
      UngroupsTo (.binary a op b) (.binary a' op b')
  | conditional {a a' b b' c c'} : UngroupsTo a a' → UngroupsTo b b' → UngroupsTo c c' →
      UngroupsTo (.conditional a b c) (.conditional a' b' c')

/-- Groupings are no items. -/
theorem Expr.UngroupsTo.items_eq {e e' : Expr} (h : e.UngroupsTo e') : e'.items = e.items := by
  induction h with
  | erased _ ih | grouping _ ih => exact ih
  | literal | conditional => rfl
  | unary _ ih => rw [items, items, ih]
  | binary _ _ iha ihb => rw [items, items, iha, ihb]

/-- **The reverse Polish form is the spaced postorder.**  A writer that was called for anything before
    prints a tree as its items with exactly one space between any two, and one more just if the last is
    an operator; it keeps nothing of the text, and the calls before have all returned such texts.
    Without some of its groupings the tree is printed alike. -/
theorem print_spaced_postorder (calls : List PolishWriter.Call) (e : Expr) :
    let w := calls.foldl PolishWriter.after .empty
    (w.print e).1 = " ".intercalate (e.items.map Item.text)
        ++ (if e.items.getLast?.any Item.isOperator then " " else "") ∧
      (w.print e).2.written = "" ∧
      PolishWriter.empty.texts calls
        = (calls.filterMap PolishWriter.Call.printed?).map (fun e => Item.joined e.items) ∧
      ∀ e', e.UngroupsTo e' → w.print e' = w.print e := by
  intro w
  refine ⟨?_, rfl, PolishWriter.texts_eq .empty calls, ?_⟩
  · rw [PolishWriter.print_eq]
    rfl
  · intro e' h
    rw [PolishWriter.print_eq, PolishWriter.print_eq, h.items_eq]

/-- An operator behind an operator, one without its operand, and an empty string; the calls before have
    left a text and an operand written last. -/
theorem print_spaced_postorder_vanishing :
    let op (lexeme : String) : Token := ⟨.symbol .minus, lexeme, none, 1⟩
    let word := Expr.literal .nil
    let hole := Expr.conditional word word word
    let e := Expr.unary (op "!") (.binary (.grouping (.literal (.string ""))) (op "-") hole)
    let e' := Expr.unary (op "!") (.binary (.literal (.string "")) (op "-") hole)
    let calls := [PolishWriter.Call.add word, .print word, .add word]
    let w := calls.foldl PolishWriter.after .empty
    e.UngroupsTo e' ∧ w = ⟨" nil", true⟩ ∧ e.items.map Item.text = ["", "-", "!"] ∧
      (w.print e).1 = " - ! " ∧ w.print e' = w.print e := by
  intro op word hole e e' calls w
  have hword : word.UngroupsTo word := .literal
  have hungroups : e.UngroupsTo e' :=
    .unary (.binary (.erased .literal) (.conditional hword hword hword))
  obtain ⟨hprint, -, -, hungrouped⟩ := print_spaced_postorder calls e
  refine ⟨hungroups, by decide +kernel, by decide +kernel, ?_, hungrouped e' hungroups⟩
  exact hprint.trans (by decide +kernel)

end Lox
