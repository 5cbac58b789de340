import Mathlib.Algebra.Order.Field.Rat
import Mathlib.Tactic.FieldSimp
import Mathlib.Tactic.Ring

/-!
# Decimal numerals

Values of digit strings, and of numerals with a point.  Digits are read from the left, so that a
digit string is read after another one by starting from the value of the first.
-/

namespace BitInfinity.Foundation

/-! ## Digit strings -/

theorem ofDigitChars_eq_add (digits : List Char) (n : Nat) :
    Nat.ofDigitChars 10 digits n = n * 10 ^ digits.length + Nat.ofDigitChars 10 digits 0 := by
  induction digits generalizing n with
  | nil => simp [Nat.ofDigitChars]
  | cons c digits ih =>
    rw [Nat.ofDigitChars_cons, Nat.ofDigitChars_cons, ih, ih (10 * 0 + _), List.length_cons]
    ring

theorem le_ofDigitChars (digits : List Char) (n : Nat) : n ≤ Nat.ofDigitChars 10 digits n := by
  rw [ofDigitChars_eq_add]
  exact Nat.le_add_right_of_le (Nat.le_mul_of_pos_right _ (Nat.pow_pos (by omega)))

theorem ofDigitChars_replicate_zero (k n : Nat) :
    Nat.ofDigitChars 10 (List.replicate k '0') n = n * 10 ^ k := by
  induction k generalizing n with
  | zero => simp [Nat.ofDigitChars]
  | succ =>
    simp
    ring

theorem ofDigitChars_append_zeros (digits : List Char) (k : Nat) :
    Nat.ofDigitChars 10 (digits ++ List.replicate k '0') 0 =
      Nat.ofDigitChars 10 digits 0 * 10 ^ k := by
  rw [Nat.ofDigitChars_append, ofDigitChars_replicate_zero]

theorem ofDigitChars_leftpad (k : Nat) (digits : List Char) :
    Nat.ofDigitChars 10 (List.leftpad k '0' digits) 0 = Nat.ofDigitChars 10 digits 0 := by
  rw [List.leftpad, Nat.ofDigitChars_append, ofDigitChars_replicate_zero, Nat.zero_mul]

/-! ## Numerals with a point -/

/-- The text is the whole part alone, or both parts with a point between them. -/
structure IsDecimal (text whole frac : List Char) : Prop where
  text_eq : text = whole ∧ frac = [] ∨ text = whole ++ '.' :: frac
  whole_digits : ∀ c ∈ whole, c.isDigit = true
  frac_digits : ∀ c ∈ frac, c.isDigit = true

def decimalValue (whole frac : List Char) : ℚ :=
  Nat.ofDigitChars 10 whole 0 + Nat.ofDigitChars 10 frac 0 / 10 ^ frac.length

theorem decimalValue_mul {whole frac : List Char} {k : Nat} (hlength : frac.length ≤ k) :
    decimalValue whole frac * 10 ^ k = (Nat.ofDigitChars 10 whole 0 * 10 ^ k +
        Nat.ofDigitChars 10 frac 0 * 10 ^ (k - frac.length) : Nat) := by
  have hpow : (10 : ℚ) ^ k = 10 ^ (k - frac.length) * 10 ^ frac.length := by
    rw [← pow_add, Nat.sub_add_cancel hlength]
  rw [decimalValue, add_mul]
  push_cast
  rw [hpow]
  field_simp

end BitInfinity.Foundation
