import PosteItaliane.Model.LoadConfig
import PosteItaliane.Model.ReportFiles
import Mathlib.Algebra.Order.Group.Int
import Mathlib.Data.List.TakeWhile

/-!
# Numbers as text

What `%d` prints, `atol` and `atoi` read back, as far as the number has a `long` or an `int`
for it.
-/

namespace PosteItaliane

theorem isDigit_of_mem_digits {n : ℕ} {c : Char} (h : c ∈ Nat.toDigits 10 n) :
    c.isDigit = true :=
  Nat.isDigit_of_mem_toDigits (by decide) (by decide) h

theorem mem_decimalText {n : ℤ} {c : Char} (h : c ∈ decimalText n) :
    c = '-' ∨ c.isDigit = true := by
  unfold decimalText at h
  split at h
  · rcases List.mem_cons.mp h with rfl | h
    · exact Or.inl rfl
    · exact Or.inr (isDigit_of_mem_digits h)
  · exact Or.inr (isDigit_of_mem_digits h)

theorem notMem_decimalText (n : ℤ) {c : Char} (hminus : c ≠ '-') (hdigit : c.isDigit = false) :
    c ∉ decimalText n := by
  intro h
  rcases mem_decimalText h with rfl | h
  · exact hminus rfl
  · rw [hdigit] at h
    cases h

theorem decimalText_ne_nil (n : ℤ) : decimalText n ≠ [] := by
  unfold decimalText
  split
  · exact List.cons_ne_nil _ _
  · exact Nat.toDigits_ne_nil

theorem length_decimalText_le {n : ℤ} {k : ℕ} (hpos : 0 ≤ n) (hk : 0 < k) (h : n < 10 ^ k) :
    (decimalText n).length ≤ k := by
  rw [decimalText, if_neg (by omega), Nat.length_toDigits_le_iff (by decide) hk]
  have hn : (n.natAbs : ℤ) = n := Int.natAbs_of_nonneg hpos
  have hlt : ((n.natAbs : ℕ) : ℤ) < ((10 ^ k : ℕ) : ℤ) := by
    rw [hn]
    exact_mod_cast h
  exact_mod_cast hlt

theorem leadingDigits_digits (n : ℕ) : leadingDigits (Nat.toDigits 10 n) = n := by
  have hall : (Nat.toDigits 10 n).takeWhile Char.isDigit = Nat.toDigits 10 n :=
    List.takeWhile_eq_self_iff.mpr fun c hc => isDigit_of_mem_digits hc
  rw [leadingDigits, hall, ← Nat.ofDigitChars_eq_foldl, Nat.ofDigitChars_ten_toDigits]

theorem isSpace_of_isDigit {c : Char} (h : c.isDigit = true) : isSpace c = false := by
  by_contra hspace
  rw [Bool.not_eq_false] at hspace
  simp only [isSpace, Bool.or_eq_true, decide_eq_true_eq] at hspace
  rcases hspace with ((((rfl | rfl) | rfl) | rfl) | rfl) | rfl <;> exact absurd h (by decide)

theorem decimal_digits (n : ℕ) : decimal (Nat.toDigits 10 n) = n := by
  cases hdigits : Nat.toDigits 10 n with
  | nil => exact absurd hdigits Nat.toDigits_ne_nil
  | cons c s =>
    have hc : c.isDigit = true := isDigit_of_mem_digits (n := n) (by simp [hdigits])
    have hskip : (c :: s).dropWhile isSpace = c :: s :=
      List.dropWhile_cons_of_neg (by simp [isSpace_of_isDigit hc])
    have hvalue := leadingDigits_digits n
    rw [hdigits] at hvalue
    rw [decimal, hskip]
    split
    · rename_i heq
      cases heq
      exact absurd hc (by decide)
    · rename_i heq
      cases heq
      exact absurd hc (by decide)
    · rw [hvalue]

theorem decimal_decimalText (n : ℤ) : decimal (decimalText n) = n := by
  unfold decimalText
  split
  · have hskip : ('-' :: Nat.toDigits 10 n.natAbs).dropWhile isSpace =
        '-' :: Nat.toDigits 10 n.natAbs := List.dropWhile_cons_of_neg (by decide)
    rw [decimal, hskip]
    simp only [leadingDigits_digits]
    omega
  · rw [decimal_digits]
    omega

theorem atol_decimalText {n : ℤ} (hlow : -2 ^ 63 ≤ n) (hhigh : n < 2 ^ 63) :
    atol (decimalText n) = n := by
  rw [atol, decimal_decimalText]
  omega

theorem atoi_decimalText {n : ℤ} (hlow : -2 ^ 31 ≤ n) (hhigh : n < 2 ^ 31) :
    atoi (decimalText n) = n := by
  rw [atoi, atol_decimalText (by omega) (by omega)]
  exact Int.bmod_eq_of_le_mul_two (by omega) (by omega)

end PosteItaliane
