import Mathlib.Algebra.Group.Nat.Defs
import Mathlib.Data.List.TakeWhile

/-! Decimal numbers in a text: zero-padded, as `printf` writes them, and read back from the front of
what is left of a text. -/

namespace LibcShim.Kit.Decimal

/-- `%0d` with a width. -/
def padded (width : Nat) (n : Int) : List Char :=
  let sign := if n < 0 then ['-'] else []
  let digits := Nat.toDigits 10 n.natAbs
  sign ++ List.replicate (width - sign.length - digits.length) '0' ++ digits

/-- The number in front, and the text behind it. -/
def scan (s : List Char) : Option (Nat × List Char) :=
  let digits := s.takeWhile Char.isDigit
  if digits.isEmpty then none
  else some (Nat.ofDigitChars 10 digits 0, s.dropWhile Char.isDigit)

theorem takeWhile_stops {α : Type} {p : α → Bool} {l rest : List α} (hAll : ∀ a ∈ l, p a = true)
    (hRest : ∀ a ∈ rest.head?, p a = false) : (l ++ rest).takeWhile p = l := by
  rw [List.takeWhile_append_of_pos hAll]
  cases rest with
  | nil => simp
  | cons a rest => simp [hRest a rfl]

theorem dropWhile_stops {α : Type} {p : α → Bool} {l rest : List α} (hAll : ∀ a ∈ l, p a = true)
    (hRest : ∀ a ∈ rest.head?, p a = false) : (l ++ rest).dropWhile p = rest := by
  rw [List.dropWhile_append_of_pos hAll]
  cases rest with
  | nil => rfl
  | cons a rest => simp [hRest a rfl]

variable {width : Nat} {n : Int} {rest : List Char}

theorem padded_nonneg (h : 0 ≤ n) : padded width n =
    List.replicate (width - (Nat.toDigits 10 n.natAbs).length) '0' ++
      Nat.toDigits 10 n.natAbs := by
  simp [padded, Int.not_lt.mpr h]

theorem padded_isDigit (h : 0 ≤ n) : ∀ c ∈ padded width n, c.isDigit = true := by
  intro c hc
  rw [padded_nonneg h] at hc
  rcases List.mem_append.mp hc with hZero | hDigit
  · rw [List.eq_of_mem_replicate hZero]
    rfl
  · exact Nat.isDigit_of_mem_toDigits (by decide) (by decide) hDigit

theorem length_padded (h : 0 ≤ n) (hWidth : 0 < width) (hFits : n.natAbs < 10 ^ width) :
    (padded width n).length = width := by
  have hDigits := (Nat.length_toDigits_le_iff (by decide) hWidth).mpr hFits
  rw [padded_nonneg h, List.length_append, List.length_replicate]
  omega

theorem ofDigitChars_padded (h : 0 ≤ n) : Nat.ofDigitChars 10 (padded width n) 0 = n.natAbs := by
  rw [padded_nonneg h, Nat.ofDigitChars_append, Nat.ofDigitChars_replicate_zero, Nat.mul_zero,
    Nat.ofDigitChars_ten_toDigits]

/-- A number is read back where no further digit follows it. -/
theorem scan_padded (h : 0 ≤ n) (hRest : ∀ c ∈ rest.head?, c.isDigit = false) :
    scan (padded width n ++ rest) = some (n.natAbs, rest) := by
  have hDigits : ∀ c ∈ padded width n, c.isDigit = true := padded_isDigit h
  have hNonempty : padded width n ≠ [] := by
    rw [padded_nonneg h]
    simp
  unfold scan
  rw [takeWhile_stops hDigits hRest, dropWhile_stops hDigits hRest]
  simp [hNonempty, ofDigitChars_padded h]

end LibcShim.Kit.Decimal
