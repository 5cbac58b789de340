import BitInfinity.Tools.GenesisBuilder
import Mathlib.Data.List.DropRight

/-!
# Amounts in bitcoins

The tool reads amounts as decimal texts, without going through floating point numbers.  A text
is accepted when it is a numeral with at most eight digits after the point, and then the number
of satoshis is exact.
-/

namespace BitInfinity.Tools

open Foundation

/-! ## Reading an amount -/

variable {text whole frac : List Char} {n : Nat}

def satoshisPerBtc : Nat := 100000000

def isWhitespace (c : Char) : Bool :=
  let n := c.toNat
  (decide (0x09 ≤ n) && decide (n ≤ 0x0d)) || n == 0x20 || n == 0x85 || n == 0xa0 ||
    n == 0x1680 || (decide (0x2000 ≤ n) && decide (n ≤ 0x200a)) || n == 0x2028 || n == 0x2029 ||
    n == 0x202f || n == 0x205f || n == 0x3000

def trim (text : List Char) : List Char := (text.dropWhile isWhitespace).rdropWhile isWhitespace

def stripPlus (value : List Char) : List Char :=
  if value.head? = some '+' then value.tail else value

def parseBtcAmountToSatoshis (raw : String) : Except String Nat := do
  let value := trim raw.toList
  ensure (!value.isEmpty) "BTC amount is empty"
  let value := stripPlus value
  ensure (value.head? != some '-') ("BTC amount cannot be negative: " ++ raw)
  ensure (!(value.contains 'e' || value.contains 'E'))
    ("BTC amount scientific notation is not supported: " ++ raw)
  let parts := value.splitOn '.'
  let wholePart := parts.headD []
  let fracPart := parts[1]?
  ensure parts[2]?.isNone ("Invalid BTC amount format: " ++ raw)
  let wholeDigits := if wholePart.isEmpty then ['0'] else wholePart
  ensure (wholeDigits.all Char.isDigit) ("Invalid BTC whole-part digits: " ++ raw)
  let fracDigits := fracPart.getD []
  ensure (fracDigits.all Char.isDigit) ("Invalid BTC fractional digits: " ++ raw)
  -- digits are single bytes, so that the source's length is the number of digits
  ensure (decide (fracDigits.length ≤ 8)) ("BTC amount has more than 8 decimal places: " ++ raw)
  let whole ← parseU128 (String.ofList wholeDigits)
  let fracPadded := fracDigits ++ List.replicate (8 - fracDigits.length) '0'
  let frac ← parseU128 (String.ofList fracPadded)
  okOr ((checkedMul 128 whole satoshisPerBtc).bind fun x => checkedAdd 128 x frac)
    "BTC amount conversion overflowed u128"

/-! ## The parts of a numeral -/

theorem splitOn_of_isDecimal (h : IsDecimal text whole frac) :
    (text.splitOn '.').headD [] = whole ∧ ((text.splitOn '.')[1]?).getD [] = frac ∧
      (text.splitOn '.')[2]? = none := by
  have hwhole : '.' ∉ whole := fun hdot => absurd (h.whole_digits _ hdot) (by decide)
  have hfrac : '.' ∉ frac := fun hdot => absurd (h.frac_digits _ hdot) (by decide)
  rcases h.text_eq with ⟨rfl, rfl⟩ | rfl
  · have hsplit : (['.'].intercalate [text]).splitOn '.' = [text] :=
      List.splitOn_intercalate '.' (by simpa using hwhole) (by simp)
    rw [List.intercalate_singleton] at hsplit
    simp [hsplit]
  · have hsplit : (['.'].intercalate [whole, frac]).splitOn '.' = [whole, frac] :=
      List.splitOn_intercalate '.' (by simpa using ⟨hwhole, hfrac⟩) (by simp)
    simp only [List.intercalate, List.intersperse, List.flatten_cons, List.flatten_nil,
      List.append_nil, List.singleton_append] at hsplit
    simp [hsplit]

theorem isDecimal_of_splitOn (htwo : (text.splitOn '.')[2]? = none)
    (hwhole : ∀ c ∈ (text.splitOn '.').headD [], c.isDigit = true)
    (hfrac : ∀ c ∈ ((text.splitOn '.')[1]?).getD [], c.isDigit = true) :
    IsDecimal text ((text.splitOn '.').headD []) (((text.splitOn '.')[1]?).getD []) := by
  refine ⟨?_, hwhole, hfrac⟩
  have htext : ['.'].intercalate (text.splitOn '.') = text := List.intercalate_splitOn '.'
  match hparts : text.splitOn '.' with
  | [] => exact absurd hparts (List.splitOnP_ne_nil _ _)
  | [whole] =>
    rw [hparts, List.intercalate_singleton] at htext
    exact .inl ⟨htext.symm, rfl⟩
  | [whole, frac] =>
    rw [hparts] at htext
    right
    simpa [List.intercalate] using htext.symm
  | _ :: _ :: _ :: _ => simp [hparts] at htwo

theorem digit_or_point (h : IsDecimal text whole frac) {c : Char}
    (hc : c ∈ text) : c.isDigit = true ∨ c = '.' := by
  rcases h.text_eq with ⟨rfl, -⟩ | rfl
  · exact .inl (h.whole_digits c hc)
  · rcases List.mem_append.mp hc with hwhole | hrest
    · exact .inl (h.whole_digits c hwhole)
    · rcases List.mem_cons.mp hrest with rfl | hfrac
      · exact .inr rfl
      · exact .inl (h.frac_digits c hfrac)

/-! ## Amounts are exact -/

def satoshisOfParts (whole frac : List Char) : Nat :=
  Nat.ofDigitChars 10 whole 0 * 10 ^ 8 + Nat.ofDigitChars 10 frac 0 * 10 ^ (8 - frac.length)

theorem all_wholeDigits : (if whole.isEmpty then ['0'] else whole).all Char.isDigit = true ↔
      ∀ c ∈ whole, c.isDigit = true := by
  cases whole with
  | nil => simp
  | cons => exact List.all_eq_true

theorem cast_satoshisOfParts (hlength : frac.length ≤ 8) :
    (satoshisOfParts whole frac : ℚ) = decimalValue whole frac * 10 ^ 8 :=
  (decimalValue_mul hlength).symm

theorem parseU128_wholeDigits (hdigits : ∀ c ∈ whole, c.isDigit = true) :
    parseU128 (String.ofList (if whole.isEmpty then ['0'] else whole)) = .ok n ↔
      n = Nat.ofDigitChars 10 whole 0 ∧ n < 2 ^ 128 := by
  cases whole with
  | nil => exact parseU128_digits (by simp) (List.all_eq_true.mp (by decide))
  | cons => exact parseU128_digits (by simp) hdigits

theorem parseU128_fracPadded (hdigits : ∀ c ∈ frac, c.isDigit = true) (hlength : frac.length ≤ 8) :
    parseU128 (String.ofList (frac ++ List.replicate (8 - frac.length) '0')) = .ok n ↔
      n = Nat.ofDigitChars 10 frac 0 * 10 ^ (8 - frac.length) ∧ n < 2 ^ 128 := by
  rw [← ofDigitChars_append_zeros]
  refine parseU128_digits ?_ fun c hc => ?_
  · intro hnil
    have hlen := congrArg List.length hnil
    rw [List.length_append, List.length_replicate, List.length_nil] at hlen
    omega
  · rcases List.mem_append.mp hc with hfrac | hzero
    · exact hdigits c hfrac
    · rw [List.eq_of_mem_replicate hzero]
      rfl

theorem parseBtcAmountToSatoshis_eq_ok {raw : String} : parseBtcAmountToSatoshis raw = .ok n ↔
      trim raw.toList ≠ [] ∧ ∃ whole frac, IsDecimal (stripPlus (trim raw.toList)) whole frac ∧
        frac.length ≤ 8 ∧ n = satoshisOfParts whole frac ∧ n < 2 ^ 128 := by
  simp only [parseBtcAmountToSatoshis, bind_eq_ok, ensure_eq_ok, okOr_eq_ok,
    Option.bind_eq_some_iff, checkedMul_eq_some, checkedAdd_eq_some, Option.isNone_iff_eq_none,
    decide_eq_true_eq, Bool.not_eq_true', List.isEmpty_eq_false_iff]
  constructor
  · rintro ⟨-, hne, -, -, -, -, -, htwo, -, hwhole, -, hfrac, -, hlength, whole, hparse, frac,
      hparse', -, ⟨-, rfl⟩, hlt, rfl⟩
    rw [all_wholeDigits] at hwhole
    rw [List.all_eq_true] at hfrac
    obtain ⟨rfl, -⟩ := (parseU128_wholeDigits hwhole).mp hparse
    obtain ⟨rfl, -⟩ := (parseU128_fracPadded hfrac hlength).mp hparse'
    exact ⟨hne, _, _, isDecimal_of_splitOn htwo hwhole hfrac, hlength, rfl, hlt⟩
  · rintro ⟨hne, whole, frac, hdecimal, hlength, rfl, hlt⟩
    obtain ⟨hhead, hsecond, htwo⟩ := splitOn_of_isDecimal hdecimal
    have hnot : ∀ c, c.isDigit = false → c ≠ '.' → c ∉ stripPlus (trim raw.toList) := by
      intro c hdigit hpoint hc
      rcases digit_or_point hdecimal hc with h | h
      · simp [hdigit] at h
      · exact hpoint h
    have hminus : (stripPlus (trim raw.toList)).head? ≠ some '-' := fun h =>
      hnot '-' rfl (by decide) (List.mem_of_head? h)
    have hexponent : 'e' ∉ stripPlus (trim raw.toList) ∧ 'E' ∉ stripPlus (trim raw.toList) :=
      ⟨hnot 'e' rfl (by decide), hnot 'E' rfl (by decide)⟩
    unfold satoshisOfParts at hlt ⊢
    rw [hhead, hsecond, all_wholeDigits, List.all_eq_true]
    refine ⟨(), hne, (), by simpa using hminus, (), by simpa using hexponent, (), htwo, (),
      hdecimal.whole_digits, (), hdecimal.frac_digits, (), hlength, _,
      (parseU128_wholeDigits hdecimal.whole_digits).mpr ⟨rfl, by omega⟩, _,
      (parseU128_fracPadded hdecimal.frac_digits hlength).mpr ⟨rfl, by omega⟩, _, ⟨?_, rfl⟩,
      hlt, rfl⟩
    exact Nat.lt_of_le_of_lt (Nat.le_add_right _ _) hlt

/-! ## Printed amounts -/

def printBtcAmount (n : Nat) : String :=
  toString (n / 10 ^ 8) ++ "." ++ String.ofList (List.leftpad 8 '0' (Nat.toDigits 10 (n % 10 ^ 8)))

theorem trim_eq_self (h : ∀ c ∈ text, isWhitespace c = false) : trim text = text := by
  have hleft : text.dropWhile isWhitespace = text := by
    rw [List.dropWhile_eq_self_iff]
    intro hlength
    simp [h _ (List.getElem_mem hlength)]
  rw [trim, hleft, List.rdropWhile_eq_self_iff]
  intro hne
  simp [h _ (List.getLast_mem hne)]

theorem isWhitespace_of_digit_or_point {c : Char} (h : c.isDigit = true ∨ c = '.') :
    isWhitespace c = false := by
  rcases h with hdigit | rfl
  · have hrange : 48 ≤ c.toNat ∧ c.toNat ≤ 57 := by
      simpa [Char.isDigit, UInt32.le_iff_toNat_le] using hdigit
    simp only [isWhitespace, Bool.or_eq_false_iff, Bool.and_eq_false_iff, decide_eq_false_iff_not,
      beq_eq_false_iff_ne]
    omega
  · rfl

theorem trim_of_isDecimal (h : IsDecimal text whole frac) : trim text = text :=
  trim_eq_self fun _ hc => isWhitespace_of_digit_or_point (digit_or_point h hc)

theorem stripPlus_eq_self (h : IsDecimal text whole frac) : stripPlus text = text := by
  refine if_neg fun hplus => ?_
  rcases digit_or_point h (List.mem_of_head? hplus) with hdigit | hpoint
  · exact absurd hdigit (by decide)
  · exact absurd hpoint (by decide)

theorem isDecimal_printBtcAmount (n : Nat) :
    IsDecimal (printBtcAmount n).toList (Nat.toDigits 10 (n / 10 ^ 8))
      (List.leftpad 8 '0' (Nat.toDigits 10 (n % 10 ^ 8))) where
  text_eq := by
    rw [printBtcAmount, Nat.toString_eq_repr, Nat.repr_eq_ofList_toDigits]
    simp
  whole_digits c := Nat.isDigit_of_mem_toDigits (by omega) le_rfl
  frac_digits c hc := by
    rcases List.mem_append.mp hc with hzero | hdigit
    · rw [List.eq_of_mem_replicate hzero]
      rfl
    · exact Nat.isDigit_of_mem_toDigits (by omega) le_rfl hdigit

theorem parse_printBtcAmount (hn : n < 2 ^ 128) :
    parseBtcAmountToSatoshis (printBtcAmount n) = .ok n := by
  have hdecimal := isDecimal_printBtcAmount n
  have hlength : (List.leftpad 8 '0' (Nat.toDigits 10 (n % 10 ^ 8))).length = 8 := by
    have hle : (Nat.toDigits 10 (n % 10 ^ 8)).length ≤ 8 :=
      (Nat.length_toDigits_le_iff (by omega) (by omega)).mpr (Nat.mod_lt _ (by omega))
    rw [List.length_leftpad]
    omega
  rw [parseBtcAmountToSatoshis_eq_ok, trim_of_isDecimal hdecimal, stripPlus_eq_self hdecimal]
  refine ⟨?_, _, _, hdecimal, hlength.le, ?_, hn⟩
  · rw [printBtcAmount]
    simp
  · rw [satoshisOfParts, hlength, ofDigitChars_leftpad, Nat.ofDigitChars_ten_toDigits,
      Nat.ofDigitChars_ten_toDigits]
    omega

/-- An amount is read when it is a numeral with at most eight digits after the point that fits,
and then exactly; printed amounts are read back. -/
theorem btc_amounts_exact : (∀ (raw : String) (n : Nat), parseBtcAmountToSatoshis raw = .ok n ↔
        trim raw.toList ≠ [] ∧ ∃ whole frac,
          IsDecimal (stripPlus (trim raw.toList)) whole frac ∧ frac.length ≤ 8 ∧
            decimalValue whole frac * 10 ^ 8 < 2 ^ 128 ∧
            (n : ℚ) = decimalValue whole frac * 10 ^ 8) ∧
      ∀ n < 2 ^ 128, parseBtcAmountToSatoshis (printBtcAmount n) = .ok n := by
  refine ⟨fun raw n => ?_, fun n => parse_printBtcAmount⟩
  rw [parseBtcAmountToSatoshis_eq_ok]
  refine and_congr_right fun _ => exists_congr fun whole => exists_congr fun frac =>
    and_congr_right fun _ => and_congr_right fun hlength => ?_
  rw [← cast_satoshisOfParts hlength]
  norm_cast
  constructor
  · rintro ⟨rfl, hlt⟩
    exact ⟨hlt, rfl⟩
  · rintro ⟨hlt, rfl⟩
    exact ⟨rfl, hlt⟩

theorem btc_amounts_exact_sample : (2 ^ 128 - 1 : Nat) < 2 ^ 128 ∧
      parseBtcAmountToSatoshis (printBtcAmount (2 ^ 128 - 1)) = .ok (2 ^ 128 - 1) :=
  ⟨by decide, btc_amounts_exact.2 _ (by decide)⟩

example : parseBtcAmountToSatoshis " +19893654.1234 " = .ok 1989365412340000 := by decide +kernel

end BitInfinity.Tools
