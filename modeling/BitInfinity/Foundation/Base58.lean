import Mathlib.Data.Nat.Digits.Lemmas
import Mathlib.Tactic

/-!
# Base58

The text form of a byte string: one `1` for each leading zero byte, then the digits of the
number that the bytes stand for, to the base 58.
-/

namespace BitInfinity.Foundation.Base58

variable {data : List UInt8}

def alphabet : List Char := "123456789ABCDEFGHJKLMNPQRSTUVWXYZabcdefghijkmnopqrstuvwxyz".toList

/-- The number that the bytes stand for, the first byte being the highest. -/
def value (data : List UInt8) : Nat := Nat.ofDigits 256 (data.reverse.map UInt8.toNat)

def leadingZeros (data : List UInt8) : Nat := (data.takeWhile (· == 0)).length

def digit (d : Nat) : Char := alphabet.getD d '1'

def encode (data : List UInt8) : List Char :=
  List.replicate (leadingZeros data) '1' ++ (Nat.digits 58 (value data)).reverse.map digit

theorem mem_encode {data : List UInt8} {c : Char} (hc : c ∈ encode data) : c ∈ alphabet := by
  rcases List.mem_append.mp hc with hc | hc
  · rw [List.eq_of_mem_replicate hc]
    decide
  · obtain ⟨d, hd, rfl⟩ := List.mem_map.mp hc
    have hlt : d < 58 := Nat.digits_lt_base (by omega) (List.mem_reverse.mp hd)
    rw [digit, List.getD_eq_getElem?_getD, List.getElem?_eq_getElem hlt]
    exact List.getElem_mem hlt

theorem length_encode (data : List UInt8) :
    (encode data).length = leadingZeros data + (Nat.digits 58 (value data)).length := by
  simp [encode]

theorem encode_zero_cons (data : List UInt8) : ∃ rest, encode (0 :: data) = '1' :: rest := by
  refine ⟨List.replicate (leadingZeros data) '1' ++
    (Nat.digits 58 (value (0 :: data))).reverse.map digit, ?_⟩
  have hzeros : leadingZeros (0 :: data) = leadingZeros data + 1 := by simp [leadingZeros]
  rw [encode, hzeros, List.replicate_succ, List.cons_append]

/-! ## Reading a text back -/

def textValue (text : List Char) : Nat := text.foldl (fun n c => n * 58 + alphabet.idxOf c) 0

def decode (width : Nat) (text : List Char) : List UInt8 :=
  ((Nat.digitsAppend 256 width (textValue text)).map UInt8.ofNat).reverse

theorem idxOf_digit {d : Nat} (hd : d < 58) : alphabet.idxOf (digit d) = d := by
  have hall : ∀ n : Fin 58, alphabet.idxOf (digit n) = n := by decide
  exact hall ⟨d, hd⟩

theorem textValue_encode (data : List UInt8) : textValue (encode data) = value data := by
  have hones : ∀ k, (List.replicate k '1').foldl (fun n c => n * 58 + alphabet.idxOf c) 0 = 0 := by
    intro k
    induction k with
    | zero => rfl
    | succ k ih => rwa [List.replicate_succ, List.foldl_cons]
  have hdigits : ∀ digits : List Nat, (∀ d ∈ digits, d < 58) →
      (digits.reverse.map digit).foldl (fun n c => n * 58 + alphabet.idxOf c) 0 =
        Nat.ofDigits 58 digits := by
    intro digits hlt
    induction digits with
    | nil => rfl
    | cons d digits ih =>
      rw [List.reverse_cons, List.map_append, List.foldl_append,
        ih fun x hx => hlt x (by simp [hx]), Nat.ofDigits_cons]
      simp only [List.map_cons, List.map_nil, List.foldl_cons, List.foldl_nil,
        idxOf_digit (hlt d (by simp))]
      omega
  rw [textValue, encode, List.foldl_append, hones,
    hdigits _ fun d hd => Nat.digits_lt_base (by omega) hd, Nat.ofDigits_digits]

theorem decode_encode (data : List UInt8) : decode data.length (encode data) = data := by
  have hdigits : (data.reverse.map UInt8.toNat).length = data.length ∧
      ∀ d ∈ data.reverse.map UInt8.toNat, d < 256 := by
    refine ⟨by simp, fun d hd => ?_⟩
    obtain ⟨b, -, rfl⟩ := List.mem_map.mp hd
    exact b.toNat_lt
  have hround := (Nat.setInvOn_digitsAppend_ofDigits (show 1 < 256 by omega) data.length).1 hdigits
  rw [decode, textValue_encode, value, hround, List.map_map]
  simp [Function.comp_def]

/-! ## How long a text can be -/

theorem value_lt (data : List UInt8) : value data < 256 ^ data.length := by
  have h := @Nat.ofDigits_lt_base_pow_length 256 (data.reverse.map UInt8.toNat) (by omega) (by
      intro d hd
      obtain ⟨b, -, rfl⟩ := List.mem_map.mp hd
      exact b.toNat_lt)
  simpa [value] using h

theorem value_zero_append (k : Nat) (data : List UInt8) :
    value (List.replicate k 0 ++ data) = value data := by
  rw [value, List.reverse_append, List.map_append, Nat.ofDigits_append, List.reverse_replicate,
    List.map_replicate, value]
  have hzero : Nat.ofDigits 256 (List.replicate k (UInt8.toNat 0)) = 0 := by
    simp
  rw [hzero, Nat.mul_zero, Nat.add_zero]

theorem le_value_cons {b : UInt8} (hb : b ≠ 0) (data : List UInt8) :
    256 ^ data.length ≤ value (b :: data) := by
  have hpos : 0 < b.toNat := by
    rcases Nat.eq_zero_or_pos b.toNat with h | h
    · exact absurd (UInt8.toNat_inj.mp h) hb
    · exact h
  rw [value, List.reverse_cons, List.map_append, Nat.ofDigits_append]
  calc 256 ^ data.length ≤ 256 ^ data.length * b.toNat := Nat.le_mul_of_pos_right _ hpos
    _ ≤ _ := by simp

theorem encode_nonzero_cons {b : UInt8} (hb : b ≠ 0) (data : List UInt8) :
    ∃ c rest, encode (b :: data) = c :: rest ∧ c ≠ '1' := by
  have hpositive : value (b :: data) ≠ 0 := by
    have hle := le_value_cons hb data
    have hpow : 0 < 256 ^ data.length := Nat.pow_pos (by omega)
    omega
  have hzeros : leadingZeros (b :: data) = 0 := by simp [leadingZeros, hb]
  have hne : Nat.digits 58 (value (b :: data)) ≠ [] := Nat.digits_ne_nil_iff_ne_zero.mpr hpositive
  -- the highest digit comes first in the text
  have hdigits := List.dropLast_append_getLast hne
  have hlast : (Nat.digits 58 (value (b :: data))).getLast hne ≠ 0 :=
    Nat.getLast_digit_ne_zero 58 hpositive
  have hlt : (Nat.digits 58 (value (b :: data))).getLast hne < 58 :=
    Nat.digits_lt_base (by omega) (List.getLast_mem hne)
  generalize (Nat.digits 58 (value (b :: data))).getLast hne = d at hdigits hlast hlt
  refine ⟨digit d, (Nat.digits 58 (value (b :: data))).dropLast.reverse.map digit, ?_, ?_⟩
  · rw [encode, hzeros, ← hdigits]
    simp
  · intro hone
    have hidx := idxOf_digit hlt
    rw [hone] at hidx
    exact hlast (hidx.symm.trans (by decide))

theorem value_cons (b : UInt8) (data : List UInt8) :
    value (b :: data) = value data + 256 ^ data.length * b.toNat := by
  rw [value, List.reverse_cons, List.map_append, Nat.ofDigits_append, value]
  simp

theorem digits_eq_append {v k low high : Nat} (hpos : 0 < low) (hhigh : high < 58)
    (hle : low * 58 ^ k ≤ v) (hlt : v < (high + 1) * 58 ^ k) :
    ∃ init d, Nat.digits 58 v = init ++ [d] ∧ low ≤ d ∧ d ≤ high := by
  induction k generalizing v with
  | zero =>
    rw [pow_zero, Nat.mul_one] at hle hlt
    exact ⟨[], v, Nat.digits_of_lt 58 v (by omega) (by omega), hle, by omega⟩
  | succ k ih =>
    rw [pow_succ, ← Nat.mul_assoc] at hle hlt
    obtain ⟨init, d, hdigits, hbounds⟩ := @ih (v / 58) (by omega) (by omega)
    have hv : 0 < v := by
      have hpow : 0 < low * 58 ^ k := Nat.mul_pos hpos (Nat.pow_pos (by omega))
      omega
    refine ⟨v % 58 :: init, d, ?_, hbounds⟩
    rw [Nat.digits_def' (by omega) hv, hdigits, List.cons_append]

theorem encode_cons_of_bounds {b : UInt8} {k low high : Nat} (hb : b ≠ 0)
    (hpos : 0 < low) (hhigh : high < 58) (hle : low * 58 ^ k ≤ 256 ^ data.length * b.toNat)
    (hlt : 256 ^ data.length * (b.toNat + 1) ≤ (high + 1) * 58 ^ k) :
    ∃ d rest, encode (b :: data) = digit d :: rest ∧ low ≤ d ∧ d ≤ high := by
  have hvalue := value_cons b data
  have hdata := value_lt data
  have hzeros : leadingZeros (b :: data) = 0 := by simp [leadingZeros, hb]
  rw [Nat.mul_add, Nat.mul_one] at hlt
  obtain ⟨init, d, hdigits, hbounds⟩ := @digits_eq_append (value (b :: data)) k low high hpos hhigh
    (by omega) (by omega)
  refine ⟨d, init.reverse.map digit, ?_, hbounds⟩
  rw [encode, hzeros, hdigits]
  simp

theorem eq_leadingZeros_append (h : leadingZeros data < data.length) :
    ∃ b rest, b ≠ 0 ∧ data = List.replicate (leadingZeros data) 0 ++ b :: rest := by
  induction data with
  | nil => simp at h
  | cons a data ih =>
    by_cases ha : a = 0
    · subst ha
      have hzeros : leadingZeros (0 :: data) = leadingZeros data + 1 := by
        simp [leadingZeros]
      rw [hzeros] at h ⊢
      obtain ⟨b, rest, hb, hdata⟩ := ih (by simpa using h)
      refine ⟨b, rest, hb, ?_⟩
      rw [List.replicate_succ, List.cons_append, ← hdata]
    · have hzeros : leadingZeros (a :: data) = 0 := by simp [leadingZeros, ha]
      rw [hzeros]
      exact ⟨a, data, ha, rfl⟩

theorem value_bounds (h : leadingZeros data < data.length) :
    256 ^ (data.length - leadingZeros data - 1) ≤ value data ∧
      value data < 256 ^ (data.length - leadingZeros data) := by
  obtain ⟨b, rest, hb, hdata⟩ := eq_leadingZeros_append h
  have hlength : data.length - leadingZeros data = rest.length + 1 := by
    have := congrArg List.length hdata
    simp only [List.length_append, List.length_replicate, List.length_cons] at this
    omega
  have hvalue : value data = value (b :: rest) := by
    rw [hdata, value_zero_append]
  rw [hlength, hvalue, Nat.add_sub_cancel]
  exact ⟨le_value_cons hb rest, value_lt (b :: rest)⟩

theorem length_digits_bounds {v low high : Nat} (hlow : 58 ^ low ≤ v) (hhigh : v < 58 ^ high) :
    low < (Nat.digits 58 v).length ∧ (Nat.digits 58 v).length ≤ high := by
  have hne : v ≠ 0 := by
    have := Nat.pow_pos (n := low) (show 0 < 58 by omega)
    omega
  constructor
  · exact (Nat.pow_lt_pow_iff_right (by omega)).mp
      (Nat.lt_of_le_of_lt hlow (Nat.lt_base_pow_length_digits (by omega)))
  · refine Nat.le_of_lt_succ ((Nat.pow_lt_pow_iff_right (show 1 < 58 by omega)).mp ?_)
    calc 58 ^ (Nat.digits 58 v).length ≤ 58 * v :=
          Nat.base_pow_length_digits_le 58 v (by omega) hne
      _ < 58 * 58 ^ high := by omega
      _ = 58 ^ (high + 1) := by rw [pow_succ, Nat.mul_comm]

theorem length_encode_bounds (hdata : data.length = 25) (hpos : 0 < leadingZeros data)
    (hle : leadingZeros data ≤ 21) : 26 ≤ (encode data).length ∧ (encode data).length ≤ 34 := by
  obtain ⟨hlow, hhigh⟩ := value_bounds (by omega : leadingZeros data < data.length)
  rw [length_encode]
  generalize leadingZeros data = k at *
  rw [hdata] at hlow hhigh
  have hpowers : 58 ^ (25 - k) ≤ 256 ^ (25 - k - 1) ∧ 256 ^ (25 - k) ≤ 58 ^ (34 - k) := by
    interval_cases k <;> decide
  obtain ⟨_, _⟩ := length_digits_bounds (Nat.le_trans hpowers.1 hlow)
    (Nat.lt_of_lt_of_le hhigh hpowers.2)
  omega

theorem length_encode_of_nonzero {data : List UInt8} (hdata : 0 < data.length)
    (hzero : leadingZeros data = 0) {low high : Nat} (hlow : 58 ^ low ≤ 256 ^ (data.length - 1))
    (hhigh : 256 ^ data.length ≤ 58 ^ high) :
    low < (encode data).length ∧ (encode data).length ≤ high := by
  obtain ⟨hmin, hmax⟩ := value_bounds (by omega : leadingZeros data < data.length)
  rw [hzero] at hmin hmax
  rw [length_encode, hzero, Nat.zero_add]
  exact length_digits_bounds (Nat.le_trans hlow hmin) (Nat.lt_of_lt_of_le hmax hhigh)

theorem length_encode_bounds_of_nonzero (hdata : data.length = 25) (hzero : leadingZeros data = 0) :
    26 ≤ (encode data).length ∧ (encode data).length ≤ 35 := by
  obtain ⟨_, _⟩ := @length_encode_of_nonzero data (by omega) hzero 26 35
    (by rw [hdata]; decide) (by rw [hdata]; decide)
  omega

theorem length_encode_le (data : List UInt8) : (encode data).length ≤ 2 * data.length := by
  have hzeros : data.takeWhile (· == 0) = List.replicate (leadingZeros data) 0 := by
    refine List.eq_replicate_of_mem fun b hb => ?_
    exact beq_iff_eq.mp (List.all_eq_true.mp List.all_takeWhile b hb)
  have hsplit : data = List.replicate (leadingZeros data) 0 ++ data.dropWhile (· == 0) := by
    rw [← hzeros, List.takeWhile_append_dropWhile]
  have hlength : data.length = leadingZeros data + (data.dropWhile (· == 0)).length := by
    have := congrArg List.length hsplit
    rwa [List.length_append, List.length_replicate] at this
  have hvalue : value data < 58 ^ (2 * (data.dropWhile (· == 0)).length) := by
    calc value data = value (data.dropWhile (· == 0)) := by
          rw [hsplit, value_zero_append, ← hsplit]
      _ < 256 ^ (data.dropWhile (· == 0)).length := value_lt _
      _ ≤ (58 ^ 2) ^ (data.dropWhile (· == 0)).length := Nat.pow_le_pow_left (by omega) _
      _ = 58 ^ (2 * (data.dropWhile (· == 0)).length) := (Nat.pow_mul 58 2 _).symm
  have hdigits := (Nat.digits_length_le_iff (show 1 < 58 by omega) (value data)).mpr hvalue
  rw [length_encode]
  omega

end BitInfinity.Foundation.Base58
