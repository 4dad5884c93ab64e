import Mathlib

/-!
# `ChainAlerter.Library.DecimalText`: numbers in decimal text

A decimal number is written as digits, with at most one point that has digits on
both sides. `decimalValue` is the number that such a text stands for, and `none` for
any other text.

`decimalDigits mantissa scale` is the usual way to write `mantissa / 10 ^ scale`: the
digits of the mantissa with zeros in front, and a point before the last `scale` of
them. `decimalValue_decimalDigits` says that nothing is lost.
-/

set_option autoImplicit false

namespace ChainAlerter.Library

/-- The number that a text stands for. -/
def decimalValue (text : List Char) : Option ℚ :=
  let integer := text.takeWhile Char.isDigit
  match text.dropWhile Char.isDigit with
  | [] => if integer = [] then none else some (Nat.ofDigitChars 10 integer 0 : ℚ)
  | point :: fraction =>
      if point = '.' ∧ integer ≠ [] ∧ fraction ≠ [] ∧ ∀ c ∈ fraction, c.isDigit then
        some ((Nat.ofDigitChars 10 (integer ++ fraction) 0 : ℚ) / 10 ^ fraction.length)
      else none

/-- The digits of a number, with zeros in front of them up to `width`. -/
def paddedDigits (width n : Nat) : List Char :=
  List.replicate (width - (Nat.toDigits 10 n).length) '0' ++ Nat.toDigits 10 n

/-- The text of `mantissa / 10 ^ scale`. -/
def decimalDigits (mantissa scale : Nat) : List Char :=
  let digits := paddedDigits (scale + 1) mantissa
  let integer := digits.take (digits.length - scale)
  if scale = 0 then integer else integer ++ '.' :: digits.drop (digits.length - scale)

/-! ### Digits -/

/-- Padded digits are digits, the zeros in front of them as well. -/
theorem isDigit_of_mem_paddedDigits {width n : Nat} {c : Char} (h : c ∈ paddedDigits width n) :
    c.isDigit := by
  rcases List.mem_append.mp h with hzero | hdigit
  · rw [List.eq_of_mem_replicate hzero]
    rfl
  · exact Nat.isDigit_of_mem_toDigits (by decide) (by decide) hdigit

/-- The zeros in front do not change the number. -/
theorem ofDigitChars_paddedDigits (width n : Nat) :
    Nat.ofDigitChars 10 (paddedDigits width n) 0 = n := by
  rw [paddedDigits, Nat.ofDigitChars_append, Nat.ofDigitChars_replicate_zero, Nat.mul_zero,
    Nat.ofDigitChars_ten_toDigits]

/-- Padding brings a number to at least the width. -/
theorem le_length_paddedDigits (width n : Nat) : width ≤ (paddedDigits width n).length := by
  rw [paddedDigits, List.length_append, List.length_replicate]
  omega

/-! ### The value of a text -/

/-- Digits alone stand for the number that they write. -/
theorem decimalValue_of_digits {digits : List Char} (hdigits : ∀ c ∈ digits, c.isDigit)
    (hne : digits ≠ []) : decimalValue digits = some (Nat.ofDigitChars 10 digits 0 : ℚ) := by
  have hall : digits.takeWhile Char.isDigit = digits := List.takeWhile_eq_self_iff.mpr hdigits
  have hrest : digits.dropWhile Char.isDigit = [] := List.dropWhile_eq_nil_iff.mpr hdigits
  rw [decimalValue, hall, hrest]
  exact if_neg hne

/-- Digits, a point and digits stand for the number of all the digits, divided by a
power of ten for those behind the point. -/
theorem decimalValue_of_point {integer fraction : List Char} (hinteger : ∀ c ∈ integer, c.isDigit)
    (hfraction : ∀ c ∈ fraction, c.isDigit) (hne : integer ≠ []) (hne' : fraction ≠ []) :
    decimalValue (integer ++ '.' :: fraction) =
      some ((Nat.ofDigitChars 10 (integer ++ fraction) 0 : ℚ) / 10 ^ fraction.length) := by
  -- The point is no digit, so the first digits end there.
  have htake : (integer ++ '.' :: fraction).takeWhile Char.isDigit = integer := by
    rw [List.takeWhile_append_of_pos hinteger, List.takeWhile_cons_of_neg (by decide),
      List.append_nil]
  have hdrop : (integer ++ '.' :: fraction).dropWhile Char.isDigit = '.' :: fraction := by
    rw [List.dropWhile_append_of_pos hinteger, List.dropWhile_cons_of_neg (by decide)]
  have hnumber : '.' = '.' ∧ integer ≠ [] ∧ fraction ≠ [] ∧ ∀ c ∈ fraction, c.isDigit :=
    ⟨rfl, hne, hne', hfraction⟩
  rw [decimalValue, htake, hdrop]
  exact if_pos hnumber

/-- A text that stands for a number has digits and a point only. So a text that follows
it in a line starts at the first other character. -/
theorem notMem_of_decimalValue {text : List Char} {value : ℚ} {c : Char}
    (h : decimalValue text = some value) (hdigit : c.isDigit = false) (hpoint : c ≠ '.') :
    c ∉ text := by
  have hnotDigits : ∀ digits : List Char, (∀ d ∈ digits, d.isDigit) → c ∉ digits := by
    intro digits hdigits hmem
    rw [hdigits c hmem] at hdigit
    cases hdigit
  rw [← List.takeWhile_append_dropWhile (p := Char.isDigit) (l := text), List.mem_append, not_or]
  refine ⟨hnotDigits _ fun d hd => List.mem_takeWhile_imp hd, ?_⟩
  rw [decimalValue] at h
  split at h
  · rename_i hrest
    rw [hrest]
    exact List.not_mem_nil
  · rename_i point fraction hrest
    split at h
    · rename_i hnumber
      obtain ⟨hpoint', -, -, hfraction⟩ := hnumber
      rw [hrest, List.mem_cons, not_or, hpoint']
      exact ⟨hpoint, hnotDigits fraction hfraction⟩
    · cases h

/-- The text of a decimal number stands for it. The integer part and the padded fraction
are put together again, with no digit lost between them. -/
theorem decimalValue_decimalDigits (mantissa scale : Nat) :
    decimalValue (decimalDigits mantissa scale) = some ((mantissa : ℚ) / 10 ^ scale) := by
  have hlength := le_length_paddedDigits (scale + 1) mantissa
  have hdigits : ∀ c ∈ paddedDigits (scale + 1) mantissa, c.isDigit := fun c =>
    isDigit_of_mem_paddedDigits
  have hvalue := ofDigitChars_paddedDigits (scale + 1) mantissa
  rw [decimalDigits]
  -- From here only the three facts about the digits are used.
  generalize paddedDigits (scale + 1) mantissa = digits at hlength hdigits hvalue
  by_cases hscale : scale = 0
  · rw [if_pos hscale, hscale, Nat.sub_zero, List.take_length,
      decimalValue_of_digits hdigits (List.ne_nil_of_length_pos (by omega)), hvalue]
    simp
  · rw [if_neg hscale]
    have hinteger : digits.take (digits.length - scale) ≠ [] :=
      List.ne_nil_of_length_pos (by rw [List.length_take]; omega)
    have hfraction : (digits.drop (digits.length - scale)).length = scale := by
      rw [List.length_drop]
      omega
    rw [decimalValue_of_point (fun c hc => hdigits c (List.mem_of_mem_take hc))
      (fun c hc => hdigits c (List.mem_of_mem_drop hc)) hinteger
      (List.ne_nil_of_length_pos (by omega)), List.take_append_drop, hvalue, hfraction]

end ChainAlerter.Library
