/-
  Reading back — a printed number is a numeral that stands for the same double.

  1. **Decimals** — what is written for a decimal is a numeral that stands for just that decimal, its
     count of places included.
  2. **Rounding** — a value that is a double is rounded to itself: its significand, counted in the
     spacing of its own field, is a whole number.
  3. **Shortest decimals** — every decimal that the search returns reads back, and so does the value
     itself, written out in full.
  4. **Texts** — so different doubles have different texts.
-/
import Lox.Number.Shortest
import Lox.Proofs.Lexis.Tokens

namespace Lox

/-! ## Decimals -/

namespace Decimal

theorem isDigit_toDigits (n : Nat) : ∀ c ∈ Nat.toDigits 10 n, c.isDigit :=
  fun _ hc => Nat.isDigit_of_mem_toDigits (by decide) (by decide) hc

theorem isDigit_paddedDigits (width n : Nat) : ∀ c ∈ paddedDigits width n, c.isDigit := by
  intro c hc
  rw [paddedDigits, List.leftpad] at hc
  rcases List.mem_append.mp hc with hzero | hdigit
  · rw [List.eq_of_mem_replicate hzero]
    rfl
  · exact isDigit_toDigits n c hdigit

/-- Padded digits are as many as they should be, if the number has no more. -/
theorem length_paddedDigits {width n : Nat} (hwidth : 0 < width) (hn : n < Nat.pow 10 width) :
    (paddedDigits width n).length = width := by
  have hle : (Nat.toDigits 10 n).length ≤ width :=
    (Nat.length_toDigits_le_iff (by decide) hwidth).mpr hn
  rw [paddedDigits, List.length_leftpad]
  omega

/-- Zeros in front count for nothing. -/
theorem ofDigitChars_paddedDigits (width n : Nat) :
    Nat.ofDigitChars 10 (paddedDigits width n) 0 = n := by
  rw [paddedDigits, List.leftpad, Nat.ofDigitChars_append, Nat.ofDigitChars_replicate_zero,
    Nat.mul_zero, Nat.ofDigitChars_ten_toDigits]

/-- **A written decimal is a numeral for it.** -/
theorem numeral_chars (d : Decimal) : Numeral d.chars d := by
  obtain ⟨digits, places⟩ := d
  rw [chars]
  by_cases hplaces : places = 0
  · subst hplaces
    have hread : Nat.ofDigitChars 10 (Nat.toDigits 10 digits) 0 = digits :=
      Nat.ofDigitChars_ten_toDigits
    have hnumeral := Numeral.whole Nat.toDigits_ne_nil (isDigit_toDigits digits)
    rwa [hread] at hnumeral
  · have hpos : 0 < places := Nat.pos_of_ne_zero hplaces
    have hfraction : digits % 10 ^ places < 10 ^ places := Nat.mod_lt _ (Nat.pow_pos (by decide))
    have hlength := length_paddedDigits hpos hfraction
    have hne : paddedDigits places (digits % 10 ^ places) ≠ [] := by
      intro hnil
      rw [hnil] at hlength
      exact hplaces hlength.symm
    have hread : Nat.ofDigitChars 10 (Nat.toDigits 10 (digits / 10 ^ places)
        ++ paddedDigits places (digits % 10 ^ places)) 0 = digits := by
      rw [Nat.ofDigitChars_append, Nat.ofDigitChars_ten_toDigits,
        Nat.ofDigitChars_eq_ofDigitChars_zero, hlength, ofDigitChars_paddedDigits]
      exact Nat.div_add_mod digits (10 ^ places)
    have hnumeral := Numeral.fraction Nat.toDigits_ne_nil
      (isDigit_toDigits (digits / 10 ^ places)) hne
      (isDigit_paddedDigits places (digits % 10 ^ places))
    rw [hread, hlength] at hnumeral
    rw [if_neg hplaces]
    exact hnumeral

end Decimal

/-! ## Rounding -/

/-- A whole number is rounded to itself. -/
theorem roundHalfEven_mul (k : Nat) {den : Nat} (hden : 0 < den) :
    roundHalfEven (k * den) den = k := by
  simp only [roundHalfEven, Nat.mul_div_cancel k hden, Nat.mul_mod_left, Nat.mul_zero, if_pos hden]

namespace Magnitude

theorem eq_of_rank {m n : Magnitude} (h : m.rank = n.rank) : m = n := by
  cases m
  cases n
  cases h
  rfl

theorem fieldSize_pos : 0 < fieldSize := Nat.pow_pos (by decide)

theorem rank_eq (m : Magnitude) : m.exponent * fieldSize + m.rank % fieldSize = m.rank := by
  rw [exponent, Nat.mul_comm]
  exact Nat.div_add_mod m.rank fieldSize

/-- The spacing at a double is that of its own field. -/
theorem log2_units (m : Magnitude) : Nat.log2 m.units - 52 = m.exponent - 1 := by
  have hfraction : m.rank % fieldSize < 2 ^ 52 := Nat.mod_lt _ fieldSize_pos
  rw [units, significand]
  by_cases hexponent : m.exponent = 0
  · rw [if_pos hexponent, hexponent]
    show Nat.log2 (m.rank % fieldSize * 1) - 52 = 0
    rw [Nat.mul_one]
    by_cases hzero : m.rank % fieldSize = 0
    · rw [hzero, Nat.log2_zero]
    · have hlt := (Nat.log2_lt hzero).mpr hfraction
      omega
  · rw [if_neg hexponent]
    have hsize : fieldSize = 2 ^ 52 := rfl
    have hlow : 2 ^ 52 * 2 ^ (m.exponent - 1)
        ≤ (fieldSize + m.rank % fieldSize) * Nat.pow 2 (m.exponent - 1) :=
      Nat.mul_le_mul_right _ (hsize ▸ Nat.le_add_right _ _)
    have hhigh : (fieldSize + m.rank % fieldSize) * Nat.pow 2 (m.exponent - 1)
        < 2 ^ 53 * 2 ^ (m.exponent - 1) := by
      refine Nat.mul_lt_mul_of_pos_right ?_ (Nat.pow_pos (by decide))
      rw [hsize] at hfraction ⊢
      omega
    rw [← Nat.pow_add] at hlow hhigh
    have hne : (fieldSize + m.rank % fieldSize) * Nat.pow 2 (m.exponent - 1) ≠ 0 :=
      Nat.ne_of_gt (Nat.lt_of_lt_of_le (Nat.pow_pos (by decide)) hlow)
    have hlog := (Nat.log2_eq_iff hne).mpr ⟨hlow, by rwa [Nat.add_right_comm]⟩
    rw [hlog, Nat.add_sub_cancel_left]

/-- **A double is rounded to itself.** -/
theorem nearest_units (m : Magnitude) {den : Nat} (hden : 0 < den) :
    nearest (m.units * den) den = m := by
  have hcount : roundHalfEven (m.units * den) (den * Nat.pow 2 (m.exponent - 1))
      = m.significand := by
    rw [units, Nat.mul_assoc, Nat.mul_comm _ den]
    exact roundHalfEven_mul _ (Nat.mul_pos hden (Nat.pow_pos (by decide)))
  have hrank : (m.exponent - 1) * fieldSize + m.significand = m.rank := by
    rw [significand]
    have hdivides := m.rank_eq
    by_cases hexponent : m.exponent = 0
    · rw [hexponent] at hdivides ⊢
      exact hdivides
    · obtain ⟨k, hk⟩ := Nat.exists_eq_succ_of_ne_zero hexponent
      rw [if_neg hexponent, hk, Nat.succ_sub_one]
      rw [hk, Nat.succ_mul] at hdivides
      omega
  refine eq_of_rank ?_
  show min ((Nat.log2 (m.units * den / den) - 52) * fieldSize
    + roundHalfEven (m.units * den) (den * Nat.pow 2 (Nat.log2 (m.units * den / den) - 52)))
    infinityRank = m.rank
  rw [Nat.mul_div_cancel _ hden, log2_units, hcount, hrank]
  exact Nat.min_eq_left m.rank_le

/-! ## Shortest decimals -/

/-- What is found on a grid reads back. -/
theorem magnitude_of_onGrid {m : Magnitude} {g : Grid} {d : Decimal} (h : m.onGrid g = some d) :
    d.magnitude = m := by
  simp only [onGrid] at h
  split at h
  · rename_i hlow
    split at h
    · rename_i hhigh
      obtain rfl := Option.some.inj h
      simpa using (Bool.and_eq_true_iff.mp hhigh).1
    · obtain rfl := Option.some.inj h
      exact hlow
  · split at h
    · rename_i hhigh
      obtain rfl := Option.some.inj h
      exact hhigh
    · cases h

/-- A double that is written in a power of ten reads back: five and two make ten. -/
theorem nearest_pow_ten (m : Magnitude) (n : Nat) :
    nearest (m.units * Nat.pow 5 n * Nat.pow 2 n) (Nat.pow 10 n) = m := by
  have hten : Nat.pow 5 n * Nat.pow 2 n = Nat.pow 10 n := (Nat.mul_pow 5 2 n).symm
  rw [Nat.mul_assoc, hten]
  exact m.nearest_units (Nat.pow_pos (by decide))

/-- The value itself reads back. -/
theorem magnitude_exact (m : Magnitude) : m.exact.magnitude = m := by
  unfold exact Decimal.magnitude unitsInOne
  generalize 1074 = n
  exact m.nearest_pow_ten n

/-- **A shortest decimal reads back.** -/
theorem magnitude_shortest (m : Magnitude) : m.shortest.magnitude = m := by
  rw [shortest]
  cases h : m.grids.findSome? m.onGrid with
  | none => exact m.magnitude_exact
  | some d =>
    obtain ⟨g, -, hg⟩ := List.exists_of_findSome?_eq_some h
    exact magnitude_of_onGrid hg

/-! ## Texts -/

/-- A finite magnitude is written as a numeral that stands for it. -/
theorem exists_numeral {m : Magnitude} (h : m ≠ infinity) :
    ∃ d, Numeral m.text.toList d ∧ d.magnitude = m := by
  rw [text, if_neg h, String.toList_ofList]
  exact ⟨m.shortest, m.shortest.numeral_chars, m.magnitude_shortest⟩

theorem text_infinity : infinity.text = "inf" := if_pos rfl

/-- What is written for infinity is no numeral. -/
theorem text_ne_infinity {m : Magnitude} (h : m ≠ infinity) : m.text ≠ infinity.text := by
  intro htext
  obtain ⟨d, hd, -⟩ := exists_numeral h
  have hread := hd.ofChars?_eq
  rw [htext, text_infinity] at hread
  cases hread

/-- **Different magnitudes have different texts.** -/
theorem text_injective {m n : Magnitude} (h : m.text = n.text) : m = n := by
  by_cases hm : m = infinity
  · by_cases hn : n = infinity
    · exact hm.trans hn.symm
    · exact absurd (h.symm.trans (congrArg text hm)) (text_ne_infinity hn)
  by_cases hn : n = infinity
  · exact absurd (h.trans (congrArg text hn)) (text_ne_infinity hm)
  obtain ⟨d, hd, rfl⟩ := exists_numeral hm
  obtain ⟨d', hd', rfl⟩ := exists_numeral hn
  have hread := hd.ofChars?_eq
  rw [h] at hread
  obtain rfl : d = d' := Option.some.inj (hread.symm.trans hd'.ofChars?_eq)
  rfl

end Magnitude

end Lox
