/-
  Slices with a check — the text between two byte offsets, or a breach.

  Slices, indices and the number parser are partial: each has an input on which it has nothing to
  return.  Here they say so.  The modules beside this one run the whole program on these checked
  operations, and show that no check ever fails.

  1. **Breaches** — what must not happen.
  2. **Slices** — both offsets must lie on character boundaries of the text, in order.  The boundaries
     are those of the library: `String.Pos.Raw.IsValid` looks at the bytes.
  3. **Between cursors** — a cursor that stands in its own source (`Cursor.After`) is on a boundary, and
     a skip leads from boundary to boundary; so the text that is skipped can be sliced.
-/
import Mathlib.Data.String.Basic
import Lox.Source.Cursor

namespace Lox

/-! ## Breaches -/

/-- What must not happen in a run. -/
inductive Breach where
  /-- A slice out of range, out of order, or off a character boundary. -/
  | slice
  /-- A number token whose text is no numeral. -/
  | numeral
  /-- An index out of the range of a token list. -/
  | index
  /-- A look at a token past the first end of input. -/
  | pastEnd
  /-- A recursion deeper than its bound. -/
  | fuel
  deriving DecidableEq

/-- Two steps without a breach are each without one. -/
theorem Breach.exists_of_bind {α β : Type} {x : Except Breach α} {f : α → Except Breach β} {b : β}
    (h : (x >>= f) = .ok b) : ∃ a, x = .ok a ∧ f a = .ok b := by
  cases x with
  | error breach => cases h
  | ok a => exact ⟨a, rfl, h⟩

/-! ## Slices -/

/-- The text between two byte offsets. -/
def sliceBytes (s : String) (i j : Nat) : Except Breach String :=
  if i ≤ j ∧ String.Pos.Raw.IsValid s ⟨i⟩ ∧ String.Pos.Raw.IsValid s ⟨j⟩ then
    .ok (String.Pos.Raw.extract s ⟨i⟩ ⟨j⟩)
  else .error .slice

/-- The end of a beginning is a boundary. -/
theorem isValid_utf8Len (before after : List Char) :
    String.Pos.Raw.IsValid (String.ofList (before ++ after)) ⟨String.utf8Len before⟩ := by
  rw [String.Pos.Raw.isValid_iff_exists_append]
  refine ⟨String.ofList before, String.ofList after, String.ofList_append, ?_⟩
  rw [String.rawEndPos_ofList]

/-- What stands between two texts can be sliced. -/
theorem sliceBytes_append (before text after : List Char) :
    sliceBytes (String.ofList (before ++ text ++ after)) (String.utf8Len before)
      (String.utf8Len before + String.utf8Len text) = .ok (String.ofList text) := by
  have hstart := isValid_utf8Len before (text ++ after)
  have hstop := isValid_utf8Len (before ++ text) after
  rw [← List.append_assoc] at hstart
  rw [String.utf8Len_append] at hstop
  rw [sliceBytes, if_pos ⟨Nat.le_add_right _ _, hstart, hstop⟩, String.extract_of_valid]

/-! ## Between cursors -/

namespace Cursor

/-- The offset of a cursor: the bytes still to come must not be more than there are. -/
def byteOffset (c : Cursor) : Except Breach Nat :=
  if (String.ofList c.rest).utf8ByteSize ≤ c.source.utf8ByteSize then .ok c.offset
  else .error .slice

/-- The text from one cursor to another: they must share their source. -/
def textUntil (start stop : Cursor) : Except Breach String := do
  if start.source ≠ stop.source then throw .slice
  sliceBytes start.source (← start.byteOffset) (← stop.byteOffset)

/-- The cursor stands in its source just after the given text, on the line where that ends. -/
structure After (before : List Char) (c : Cursor) : Prop where
  source : c.source = String.ofList (before ++ c.rest)
  line : c.line = lastLine before

theorem After.start (source : String) : (ofString source).After [] :=
  ⟨String.ofList_toList.symm, rfl⟩

/-- A skip passes text; the cursor then stands after that too. -/
theorem After.skip {before : List Char} {c : Cursor} (h : c.After before) (n : Nat) :
    (c.skip n).After (before ++ c.rest.take n) := by
  constructor
  · show c.source = String.ofList (before ++ c.rest.take n ++ c.rest.drop n)
    rw [List.append_assoc, List.take_append_drop, h.source]
  · show c.line + newlines (c.rest.take n) = 1 + newlines (before ++ c.rest.take n)
    rw [newlines_append, h.line, lastLine, Nat.add_assoc]

theorem After.utf8ByteSize_eq {before : List Char} {c : Cursor} (h : c.After before) :
    c.source.utf8ByteSize = String.utf8Len before + (String.ofList c.rest).utf8ByteSize := by
  rw [h.source, String.utf8ByteSize_ofList, String.utf8Len_append, String.utf8ByteSize_ofList]

/-- The offset of a cursor is the size of what it stands after. -/
theorem After.offset_eq {before : List Char} {c : Cursor} (h : c.After before) :
    c.offset = String.utf8Len before := by
  have hsource := h.utf8ByteSize_eq
  rw [offset]
  omega

theorem After.byteOffset_eq {before : List Char} {c : Cursor} (h : c.After before) :
    c.byteOffset = .ok (String.utf8Len before) := by
  have hsource := h.utf8ByteSize_eq
  rw [byteOffset, if_pos (by omega), h.offset_eq]

/-- **What is skipped can be sliced.** -/
theorem After.textUntil_skip {before : List Char} {c : Cursor} (h : c.After before) (n : Nat) :
    c.textUntil (c.skip n) = .ok (String.ofList (c.rest.take n)) := by
  have hslice := sliceBytes_append before (c.rest.take n) (c.rest.drop n)
  rw [List.append_assoc, List.take_append_drop, ← h.source, ← String.utf8Len_append] at hslice
  have hsame : ¬ c.source ≠ (c.skip n).source := fun hne => hne rfl
  rw [textUntil, if_neg hsame, h.byteOffset_eq, (h.skip n).byteOffset_eq]
  exact hslice

end Cursor

/-- The checks do fail: an offset within a character, and offsets out of order. -/
example : sliceBytes "é" 0 1 = .error .slice ∧ sliceBytes "ab" 2 1 = .error .slice := by
  decide +kernel

end Lox
