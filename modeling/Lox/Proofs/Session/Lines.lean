/-
  Lines of input — bytes are divided at line feeds, and text at the same places.

  1. **Lines** — what the lines of some bytes are: each ends with its one line feed, but for a last one
     that has none and is not empty.  `inputLines` finds just these, and they are the only ones; read
     one by one, each is what `cutLine` cuts off.
  2. **Behind a line feed** — bytes that end with a line feed, or are none, have their lines whatever
     follows them.
  3. **Text** — in UTF-8 the byte of a line feed stands for a line feed and is part of nothing else.  So
     the lines of a text are texts.
  4. **Line endings** — what is cut off the end of a line.
-/
import Mathlib.Data.List.DropRight
import Lox.Command.Session

namespace Lox

/-! ## Lines -/

/-- The lines of some bytes. -/
inductive LinesOf : List (List UInt8) → List UInt8 → Prop where
  | none : LinesOf [] []
  | last {line} : line ≠ [] → 10 ∉ line → LinesOf [line] line
  | line {line lines bytes} : 10 ∉ line → LinesOf lines bytes →
      LinesOf ((line ++ [10]) :: lines) (line ++ 10 :: bytes)

theorem inputLines_line {line : List UInt8} (h : 10 ∉ line) (bytes : List UInt8) :
    inputLines (line ++ 10 :: bytes) = (line ++ [10]) :: inputLines bytes := by
  induction line with
  | nil =>
    rw [List.nil_append, inputLines, if_pos rfl]
    rfl
  | cons b line ih =>
    obtain ⟨hb, hline⟩ := not_or.mp (mt List.mem_cons.mpr h)
    rw [List.cons_append, inputLines, if_neg (Ne.symm hb), ih hline]
    rfl

theorem inputLines_last {line : List UInt8} (hne : line ≠ []) (h : 10 ∉ line) :
    inputLines line = [line] := by
  induction line with
  | nil => exact absurd rfl hne
  | cons b line ih =>
    obtain ⟨hb, hline⟩ := not_or.mp (mt List.mem_cons.mpr h)
    rw [inputLines, if_neg (Ne.symm hb)]
    by_cases hempty : line = []
    · subst hempty
      rfl
    · rw [ih hempty hline]

/-- Lines are found. -/
theorem LinesOf.inputLines_eq {lines : List (List UInt8)} {bytes : List UInt8}
    (h : LinesOf lines bytes) : inputLines bytes = lines := by
  induction h with
  | none => rfl
  | last hne h => exact inputLines_last hne h
  | line h _ ih => rw [inputLines_line h, ih]

/-- What is found are the lines. -/
theorem linesOf_inputLines (bytes : List UInt8) : LinesOf (inputLines bytes) bytes := by
  induction hn : bytes.length using Nat.strongRecOn generalizing bytes with
  | _ n ih =>
    subst hn
    by_cases hmem : 10 ∈ bytes
    · obtain ⟨line, rest, rfl, hline⟩ := List.eq_append_cons_of_mem hmem
      rw [inputLines_line hline]
      refine .line hline (ih rest.length ?_ rest rfl)
      rw [List.length_append, List.length_cons]
      omega
    · by_cases hne : bytes = []
      · subst hne
        exact .none
      · rw [inputLines_last hne hmem]
        exact .last hne hmem

/-- The first line of some bytes, and what is behind it. -/
def cutLine : List UInt8 → List UInt8 × List UInt8
  | [] => ([], [])
  | b :: bs => if b = 10 then ([b], bs) else (b :: (cutLine bs).1, (cutLine bs).2)

theorem cutLine_line {line : List UInt8} (h : 10 ∉ line) (bytes : List UInt8) :
    cutLine (line ++ 10 :: bytes) = (line ++ [10], bytes) := by
  induction line with
  | nil => rw [List.nil_append, cutLine, if_pos rfl, List.nil_append]
  | cons b line ih =>
    obtain ⟨hb, hline⟩ := not_or.mp (mt List.mem_cons.mpr h)
    rw [List.cons_append, cutLine, if_neg (Ne.symm hb), ih hline]
    rfl

theorem cutLine_last {line : List UInt8} (h : 10 ∉ line) : cutLine line = (line, []) := by
  induction line with
  | nil => rfl
  | cons b line ih =>
    obtain ⟨hb, hline⟩ := not_or.mp (mt List.mem_cons.mpr h)
    rw [cutLine, if_neg (Ne.symm hb), ih hline]

theorem LinesOf.flatten_eq {lines : List (List UInt8)} {bytes : List UInt8} (h : LinesOf lines bytes) :
    lines.flatten = bytes := by
  induction h with
  | none => rfl
  | last => exact List.flatten_singleton
  | line _ _ ih =>
    rw [List.flatten_cons, ih, List.append_assoc]
    rfl

/-- The first line is cut off, and leaves the other ones. -/
theorem LinesOf.cut {line bytes : List UInt8} {lines : List (List UInt8)}
    (h : LinesOf (line :: lines) bytes) :
    line ≠ [] ∧ cutLine bytes = (line, lines.flatten) ∧ LinesOf lines lines.flatten := by
  cases h with
  | last hne h => exact ⟨hne, cutLine_last h, .none⟩
  | line h hlines =>
    rw [hlines.flatten_eq]
    exact ⟨List.append_ne_nil_of_right_ne_nil _ (List.cons_ne_nil _ _), cutLine_line h _, hlines⟩

/-- What is behind some lines has the other lines. -/
theorem LinesOf.behind {bytes : List UInt8} {lines more : List (List UInt8)}
    (h : LinesOf (lines ++ more) bytes) : LinesOf more more.flatten := by
  induction lines generalizing bytes with
  | nil =>
    rw [List.nil_append] at h
    rwa [h.flatten_eq]
  | cons line lines ih => exact ih h.cut.2.2

/-! ## Behind a line feed -/

theorem inputLines_append {a : List UInt8} (h : ∀ b ∈ a.getLast?, b = 10) (b : List UInt8) :
    inputLines (a ++ b) = inputLines a ++ inputLines b := by
  have hlines := linesOf_inputLines a
  generalize inputLines a = lines at hlines
  induction hlines with
  | none => rfl
  | last hne hno =>
    have hlast := h _ (List.getLast?_eq_some_getLast hne)
    exact absurd (hlast ▸ List.getLast_mem hne) hno
  | @line line lines bytes hline _ ih =>
    rw [List.append_assoc, List.cons_append, inputLines_line hline, ih]
    · rfl
    · intro c hc
      refine h c ?_
      rw [List.getLast?_append, List.getLast?_cons, Option.mem_def.mp hc]
      rfl

/-! ## Text -/

/-- The bytes of a text. -/
def utf8 (cs : List Char) : List UInt8 := cs.flatMap String.utf8EncodeChar

theorem textOf?_eq_some_iff {bytes : List UInt8} {text : String} :
    textOf? bytes = some text ↔ bytes = utf8 text.toList := by
  have hbytes : text.toByteArray = (utf8 text.toList).toByteArray := String.utf8Encode_toList.symm
  constructor
  · intro h
    rw [textOf?, String.fromUTF8?] at h
    split at h
    · obtain rfl := Option.some.inj h
      have hdata := congrArg (fun a => a.data.toList) hbytes
      rwa [List.data_toByteArray] at hdata
    · cases h
  · rintro rfl
    have harray : (⟨(utf8 text.toList).toArray⟩ : ByteArray) = text.toByteArray := by
      rw [hbytes]
      exact ByteArray.ext List.data_toByteArray.symm
    rw [textOf?, harray, String.fromUTF8?, dif_pos text.isValidUTF8]
    rfl

theorem textOf?_utf8 (cs : List Char) : textOf? (utf8 cs) = some (String.ofList cs) :=
  textOf?_eq_some_iff.mpr (by rw [String.toList_ofList])

/-- The byte of a line feed is part of no other character: all bytes of a longer form are above it. -/
theorem eq_lineFeed_of_mem {c : Char} (h : (10 : UInt8) ∈ String.utf8EncodeChar c) : c = '\n' := by
  have hbyte : ∀ m k n, 0 < k → 10 < n → k + n ≤ 256 → (10 : UInt8) ≠ UInt8.ofNat (m % k + n) := by
    intro m k n hk hn hkn heq
    have hlt := Nat.mod_lt m hk
    have hnat : 10 = (UInt8.ofNat (m % k + n)).toNat := congrArg UInt8.toNat heq
    rw [UInt8.toNat_ofNat', Nat.mod_eq_of_lt (by omega)] at hnat
    omega
  simp only [String.utf8EncodeChar] at h
  split at h
  · have hnat : 10 = (UInt8.ofNat c.val.toNat).toNat :=
      congrArg UInt8.toNat (List.mem_singleton.mp h)
    rw [UInt8.toNat_ofNat', Nat.mod_eq_of_lt (by omega)] at hnat
    exact Char.ext (UInt32.toNat_inj.mp hnat.symm)
  · split_ifs at h <;>
      simp (disch := omega) only [List.mem_cons, List.not_mem_nil, hbyte, or_self] at h

theorem lineFeed_mem_utf8_iff {cs : List Char} : 10 ∈ utf8 cs ↔ '\n' ∈ cs := by
  rw [utf8, List.mem_flatMap]
  constructor
  · rintro ⟨c, hc, hmem⟩
    exact eq_lineFeed_of_mem hmem ▸ hc
  · exact fun h => ⟨_, h, List.mem_singleton_self _⟩

/-- The lines of a text are texts. -/
theorem exists_inputLines_utf8 (cs : List Char) :
    ∃ texts : List (List Char), inputLines (utf8 cs) = texts.map utf8 := by
  induction hn : cs.length using Nat.strongRecOn generalizing cs with
  | _ n ih =>
    subst hn
    by_cases hmem : '\n' ∈ cs
    · obtain ⟨ds, es, rfl, hds⟩ := List.eq_append_cons_of_mem hmem
      obtain ⟨texts, htexts⟩ := ih es.length (by simp; omega) es rfl
      refine ⟨(ds ++ ['\n']) :: texts, ?_⟩
      have hsplit : utf8 (ds ++ '\n' :: es) = utf8 ds ++ 10 :: utf8 es := List.flatMap_append
      rw [hsplit, inputLines_line (mt lineFeed_mem_utf8_iff.mp hds), htexts, List.map_cons]
      have hline : utf8 (ds ++ ['\n']) = utf8 ds ++ [10] := List.flatMap_append
      rw [hline]
    · by_cases hne : utf8 cs = []
      · exact ⟨[], by rw [hne]; rfl⟩
      · exact ⟨[cs], inputLines_last hne (mt lineFeed_mem_utf8_iff.mp hmem)⟩

/-! ## Line endings -/

/-- The text is a line without the line feeds and carriage returns at its end. -/
structure StrippedFrom (text line : String) : Prop where
  ending : ∃ ending : String, line = text ++ ending ∧ ∀ c ∈ ending.toList, c = '\n' ∨ c = '\r'
  last : ∀ c ∈ text.toList.getLast?, c ≠ '\n' ∧ c ≠ '\r'

theorem endsLine_iff {c : Char} : endsLine c = true ↔ c = '\n' ∨ c = '\r' := by
  rw [endsLine, Bool.or_eq_true, beq_iff_eq, beq_iff_eq]

theorem strippedFrom_stripLineEnd (line : String) : StrippedFrom (stripLineEnd line) line := by
  have htext : (stripLineEnd line).toList = line.toList.rdropWhile endsLine := String.toList_ofList
  refine ⟨⟨String.ofList (line.toList.rtakeWhile endsLine), ?_, ?_⟩, ?_⟩
  · rw [← String.toList_inj, String.toList_append, htext, String.toList_ofList,
      List.rdropWhile_append_rtakeWhile]
  · intro c hc
    rw [String.toList_ofList] at hc
    exact endsLine_iff.mp (List.mem_rtakeWhile_imp hc)
  · intro c hc
    rw [htext] at hc
    obtain ⟨hne, rfl⟩ := List.mem_getLast?_eq_getLast hc
    exact not_or.mp (mt endsLine_iff.mpr (List.rdropWhile_last_not endsLine line.toList hne))

theorem StrippedFrom.eq_stripLineEnd {text line : String} (h : StrippedFrom text line) :
    text = stripLineEnd line := by
  obtain ⟨ending, rfl, hending⟩ := h.ending
  have htext : text.toList.rdropWhile endsLine = text.toList := by
    refine List.rdropWhile_eq_self_iff.mpr fun hne => ?_
    exact mt endsLine_iff.mp (not_or.mpr (h.last _ (List.getLast?_eq_some_getLast hne)))
  show text = String.ofList ((text ++ ending).toList.rdropWhile endsLine)
  rw [String.toList_append, List.rdropWhile, List.reverse_append, List.dropWhile_append_of_pos]
  · exact (congrArg String.ofList htext).trans String.ofList_toList |>.symm
  · exact fun c hc => endsLine_iff.mpr (hending c (List.mem_reverse.mp hc))

end Lox
