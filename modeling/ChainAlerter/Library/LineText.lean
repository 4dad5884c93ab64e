import Mathlib

/-!
# `ChainAlerter.Library.LineText`: texts that can be taken apart

A text is made of parts that are put one after the other, and it can be read back when
the parts can be found in it: the lines of a text without line breaks in them
(`lines_injective`), the part after the last occurrence of a character
(`append_cons_inj_of_notMem_right`), and the digits of a number
(`digits_injective`).
-/

set_option autoImplicit false

namespace ChainAlerter.Library

variable {α : Type}

/-- A list is split at the last occurrence of an element in one way. What follows the
element does not contain it, so neither split can be further left than the other. -/
theorem append_cons_inj_of_notMem_right {a a' b b' : List α} {c : α} (hb : c ∉ b) (hb' : c ∉ b')
    (h : a ++ c :: b = a' ++ c :: b') : a = a' ∧ b = b' := by
  rcases List.append_eq_append_iff.mp h with ⟨d, rfl, hd⟩ | ⟨d, rfl, hd⟩
  · cases d with
    | nil =>
        rw [List.nil_append, List.cons.injEq] at hd
        exact ⟨(List.append_nil _).symm, hd.2⟩
    | cons x d =>
        -- Then the later occurrence stands in `b`.
        rw [List.cons_append, List.cons.injEq] at hd
        exact absurd (hd.2 ▸ List.mem_append_right d List.mem_cons_self) hb
  · cases d with
    | nil =>
        rw [List.nil_append, List.cons.injEq] at hd
        exact ⟨List.append_nil _, hd.2.symm⟩
    | cons x d =>
        rw [List.cons_append, List.cons.injEq] at hd
        exact absurd (hd.2 ▸ List.mem_append_right d List.mem_cons_self) hb'

/-- A list is split at the first occurrence of an element in one way. It is the lemma
above, read from the end. -/
theorem append_cons_inj_of_notMem_left {a a' b b' : List α} {c : α} (ha : c ∉ a) (ha' : c ∉ a')
    (h : a ++ c :: b = a' ++ c :: b') : a = a' ∧ b = b' := by
  have hreverse := congrArg List.reverse h
  simp only [List.reverse_append, List.reverse_cons, List.append_assoc, List.singleton_append]
    at hreverse
  obtain ⟨hb, hsame⟩ := append_cons_inj_of_notMem_right (by simpa using ha) (by simpa using ha')
    hreverse
  exact ⟨List.reverse_injective hsame, List.reverse_injective hb⟩

/-- A list of values is read back from their texts, when a text that is none of
them follows. That text marks the end of the list, and what comes after it is read
back as well. -/
theorem map_append_cons_inj {β : Type} {f : β → α} (hf : Function.Injective f) {c : α}
    (hc : ∀ x, f x ≠ c) {xs ys : List β} {rest rest' : List α}
    (h : xs.map f ++ c :: rest = ys.map f ++ c :: rest') : xs = ys ∧ rest = rest' := by
  induction xs generalizing ys with
  | nil =>
      cases ys with
      | nil => exact ⟨rfl, (List.cons.inj h).2⟩
      | cons y ys => exact absurd (List.cons.inj h).1.symm (hc y)
  | cons x xs ih =>
      cases ys with
      | nil => exact absurd (List.cons.inj h).1 (hc x)
      | cons y ys =>
          obtain ⟨hfirst, hrest⟩ := List.cons.inj h
          obtain ⟨hxs, hrest'⟩ := ih hrest
          exact ⟨by rw [hf hfirst, hxs], hrest'⟩

/-- A text without line breaks. -/
def IsLine (line : String) : Prop := '\n' ∉ line.toList

instance (line : String) : Decidable (IsLine line) := inferInstanceAs (Decidable (_ ∉ _))

/-- Two parts make a line exactly when each of them is without line breaks. -/
@[simp] theorem isLine_append_iff {line line' : String} :
    IsLine (line ++ line') ↔ IsLine line ∧ IsLine line' := by
  rw [IsLine, String.toList_append, List.mem_append, not_or]
  rfl

/-- The first line of a text. -/
theorem takeWhile_line {line : String} (h : IsLine line) (rest : List Char) :
    (line.toList ++ '\n' :: rest).takeWhile (· ≠ '\n') = line.toList := by
  have hline : ∀ c ∈ line.toList, decide (c ≠ '\n') = true := by
    intro c hc
    exact decide_eq_true fun heq => h (heq ▸ hc)
  rw [List.takeWhile_append_of_pos hline, List.takeWhile_cons_of_neg (by simp), List.append_nil]

/-- The lines of a text can be read back from it. A line has no line end, so splitting
the text at its line ends gives the lines. -/
theorem lines_injective {lines lines' : List String} (hne : lines ≠ []) (hne' : lines' ≠ [])
    (hlines : ∀ line ∈ lines, IsLine line) (hlines' : ∀ line ∈ lines', IsLine line)
    (h : "\n".intercalate lines = "\n".intercalate lines') : lines = lines' := by
  have hsplit : ∀ {ls : List String}, ls ≠ [] → (∀ line ∈ ls, IsLine line) →
      ("\n".intercalate ls).toList.splitOn '\n' = ls.map String.toList := by
    intro ls hls hline
    rw [String.toList_intercalate]
    refine List.splitOn_intercalate '\n' (fun l hl => ?_) (by simpa using hls)
    obtain ⟨line, hmem, rfl⟩ := List.mem_map.mp hl
    exact hline line hmem
  have hmap := hsplit hne hlines
  rw [h, hsplit hne' hlines'] at hmap
  exact (List.map_injective_iff.mpr (fun _ _ => String.toList_injective) hmap).symm

/-- A string is shown as it is. -/
@[simp] theorem toString_string (s : String) : toString s = s := rfl

/-- A line break is the first character of the text after it. -/
theorem append_newline (a b : String) : a ++ "\n" ++ b = a ++ ("\n" ++ b) := String.append_assoc

/-- A number can be read back from its digits. -/
theorem digits_injective {n n' : Nat} (h : toString n = toString n') : n = n' := by
  have hdigits : Nat.toDigits 10 n = Nat.toDigits 10 n' := by
    rw [← Nat.toList_repr, ← Nat.toList_repr]
    exact congrArg String.toList h
  rw [← Nat.ofDigitChars_ten_toDigits (n := n), hdigits, Nat.ofDigitChars_ten_toDigits]

/-- A character that is no digit is not in the digits of a number. -/
theorem notMem_digits {c : Char} (hc : c.isDigit = false) (n : Nat) : c ∉ (toString n).toList := by
  intro hmem
  have hdigit := Nat.isDigit_of_mem_toDigits (b := 10) (n := n) (by decide) (by decide)
    (Nat.toList_repr ▸ hmem)
  rw [hc] at hdigit
  cases hdigit

/-- The digits of a number are on one line. -/
theorem isLine_digits (n : Nat) : IsLine (toString n) := notMem_digits rfl n

/-- The same for `Nat.repr`, which is what string interpolation unfolds to. -/
@[simp] theorem isLine_repr (n : Nat) : IsLine n.repr := isLine_digits n

end ChainAlerter.Library
