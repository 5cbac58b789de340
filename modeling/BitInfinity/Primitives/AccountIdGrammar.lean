import BitInfinity.Foundation.Base58
import BitInfinity.Foundation.Languages
import BitInfinity.Foundation.Utf8
import BitInfinity.Primitives.AccountId

/-!
# The grammar of account ids

The comment in `validate` gives the regular expression that its loop stands for.  The loop only
remembers whether the last character was a separator.  `validateConst` runs the same automaton
over the bytes of a text at compile time, without the shortcut for Bitcoin addresses.
-/

namespace BitInfinity.AccountId

open Foundation Computability

/-! ## The documented expression -/

variable {c : Char} {id : AccountId}

def lowerAlphanumerics : List Char := "abcdefghijklmnopqrstuvwxyz0123456789".toList

def pattern : RegularExpression Char :=
  let word := oneOf lowerAlphanumerics * (oneOf lowerAlphanumerics).star
  let part := (word * oneOf ['-', '_']).star * word
  (part * .char '.').star * part

def isSeparator (c : Char) : Bool := c == '-' || c == '_' || c == '.'

theorem isLowerAlphanumeric_iff_toNat : isLowerAlphanumeric c = true ↔
    97 ≤ c.toNat ∧ c.toNat ≤ 122 ∨ 48 ≤ c.toNat ∧ c.toNat ≤ 57 := by
  simp only [isLowerAlphanumeric, Bool.or_eq_true, Bool.and_eq_true, decide_eq_true_eq,
    Char.le_def, UInt32.le_iff_toNat_le]
  rfl

theorem mem_lowerAlphanumerics : c ∈ lowerAlphanumerics ↔ isLowerAlphanumeric c = true := by
  constructor
  · have hall : lowerAlphanumerics.all isLowerAlphanumeric = true := by decide +kernel
    exact List.all_eq_true.mp hall c
  · intro h
    have hall : (List.range 123).all (fun n => !isLowerAlphanumeric (Char.ofNat n) ||
        lowerAlphanumerics.contains (Char.ofNat n)) = true := by decide +kernel
    have hlt : c.toNat < 123 := by
      rw [isLowerAlphanumeric_iff_toNat] at h
      omega
    have hc := List.all_eq_true.mp hall c.toNat (List.mem_range.mpr hlt)
    rw [Char.ofNat_toNat, h] at hc
    simpa using hc

theorem matches_pattern :
    pattern.matches' = words (isLowerAlphanumeric · = true) (isSeparator · = true) := by
  have hletters : (oneOf lowerAlphanumerics).matches' = letters (isLowerAlphanumeric · = true) := by
    rw [matches_oneOf]
    simp only [mem_lowerAlphanumerics]
  have hdot : (RegularExpression.char '.').matches' = letters (· = '.') := by
    apply Language.ext
    intro x
    simp [letters]
    rfl
  have hseparators : letters (· ∈ ['-', '_']) + letters (· = '.') =
      letters (isSeparator · = true) := by
    rw [← letters_or]
    funext c
    simp [isSeparator, or_assoc]
  have hnested : pattern.matches' = sepBy (sepBy (letters (isLowerAlphanumeric · = true) *
        (letters (isLowerAlphanumeric · = true))∗) (letters (· ∈ ['-', '_'])))
        (letters (· = '.')) := by
    simp only [pattern, RegularExpression.matches'_mul, RegularExpression.matches'_star, hletters,
      hdot, matches_oneOf, sepBy]
  rw [hnested, sepBy_sepBy, hseparators, words]

/-! ## The loop of the parser -/

theorem validateChars_cons_lower (hc : isLowerAlphanumeric c = true) (cs : List Char)
    (i : Nat) (sep : Bool) (last : Option (Nat × Char)) :
    validateChars (c :: cs) i sep last = validateChars cs (i + 1) false (some (i, c)) := by
  rw [validateChars, if_pos hc]

theorem charClasses_of_separator (hc : isSeparator c = true) :
    isLowerAlphanumeric c = false ∧ c.toNat ≤ 127 := by
  simp only [isSeparator, Bool.or_eq_true, beq_iff_eq] at hc
  rcases hc with (rfl | rfl) | rfl
  · decide
  · decide
  · decide

theorem not_isSeparator_of_lower (hc : isLowerAlphanumeric c = true) : isSeparator c = false := by
  rw [Bool.eq_false_iff]
  intro hsep
  rw [(charClasses_of_separator hsep).1] at hc
  cases hc

theorem validateChars_eq_ok (cs : List Char) (i : Nat) (last : Option (Nat × Char)) :
    (validateChars cs i true last = .ok () ↔
      cs ∈ words (isLowerAlphanumeric · = true) (isSeparator · = true)) ∧
    (validateChars cs i false last = .ok () ↔
      cs ∈ wordsTail (isLowerAlphanumeric · = true) (isSeparator · = true)) := by
  induction cs generalizing i last with
  | nil => simp [validateChars, nil_notMem_words, nil_mem_wordsTail]
  | cons c cs ih =>
    rw [cons_mem_words, cons_mem_wordsTail]
    by_cases hlower : isLowerAlphanumeric c = true
    · rw [validateChars_cons_lower hlower, validateChars_cons_lower hlower]
      simp [hlower, not_isSeparator_of_lower hlower, (ih _ _).2]
    · by_cases hsep : isSeparator c = true
      · have hloop : ∀ sep, validateChars (c :: cs) i sep last =
            if sep then .error ⟨.redundantSeparator, some (i, c)⟩
            else validateChars cs (i + 1) true (some (i, c)) := by
          intro sep
          rw [validateChars, if_neg hlower]
          exact if_pos hsep
        simp [hloop, hlower, hsep, (ih _ _).1]
      · have hloop : ∀ sep, validateChars (c :: cs) i sep last =
            .error ⟨.invalidChar, some (i, c)⟩ := by
          intro sep
          rw [validateChars, if_neg hlower]
          exact if_neg hsep
        simp [hloop, hlower, hsep]

theorem validate_eq_ok {C : Crypto} : validate C id = .ok () ↔
    2 ≤ id.utf8ByteSize ∧ id.utf8ByteSize ≤ 64 ∧
      (isBitcoinImplicit C id = true ∨ validateChars id.toList 0 true none = .ok ()) := by
  unfold validate minLen maxLen
  split
  · simp
    omega
  · split
    · simp
      omega
    · have hrange : 2 ≤ id.utf8ByteSize ∧ id.utf8ByteSize ≤ 64 := by omega
      split
      · next hbitcoin => simp [hbitcoin, hrange]
      · next hbitcoin => simp [hbitcoin, hrange]

/-- The parser accepts the texts of the right length that are Bitcoin addresses or match the
documented expression. -/
theorem validate_iff_pattern (C : Crypto) (id : AccountId) : validate C id = .ok () ↔
    2 ≤ id.utf8ByteSize ∧ id.utf8ByteSize ≤ 64 ∧
      (isBitcoinImplicit C id = true ∨ id.toList ∈ pattern.matches') := by
  rw [validate_eq_ok, matches_pattern, (validateChars_eq_ok _ _ _).1]

/-! ## The check at compile time -/

def isLowerAlphanumericByte (b : UInt8) : Bool := (0x61 ≤ b && b ≤ 0x7a) || (0x30 ≤ b && b ≤ 0x39)

def isSeparatorByte (b : UInt8) : Bool := b == 0x2d || b == 0x5f || b == 0x2e

/-- From position `idx` on.  A panic is an error with its message. -/
def validateFormatConst : List UInt8 → Nat → Bool → Except String Unit
  | [], _, currentCharIsSeparator =>
    if currentCharIsSeparator then
      .error "NEAR Account ID cannot end with char separator (-, _, .)"
    else .ok ()
  | b :: id, idx, currentCharIsSeparator =>
    if isLowerAlphanumericByte b then validateFormatConst id (idx + 1) false
    else if isSeparatorByte b then
      if currentCharIsSeparator then
        .error "NEAR Account ID cannot contain redundant separator (-, _, .)"
      else if idx = 0 then
        .error "NEAR Account ID cannot start with char separator (-, _, .)"
      else validateFormatConst id (idx + 1) true
    else
      .error "NEAR Account ID cannot contain invalid chars (only a-z, 0-9, -, _, and . are allowed)"

def validateConst (id : AccountId) : Except String Unit :=
  if id.utf8ByteSize < minLen then .error "NEAR Account ID is too short"
  else if maxLen < id.utf8ByteSize then .error "NEAR Account ID is too long"
  else validateFormatConst (utf8Bytes id.toList) 0 false

theorem byteClasses_of_ascii (hc : c.toNat ≤ 127) :
    isLowerAlphanumericByte c.val.toUInt8 = isLowerAlphanumeric c ∧
      isSeparatorByte c.val.toUInt8 = isSeparator c := by
  have hall : ∀ n < 128, isLowerAlphanumericByte (Char.ofNat n).val.toUInt8 =
      isLowerAlphanumeric (Char.ofNat n) ∧
      isSeparatorByte (Char.ofNat n).val.toUInt8 = isSeparator (Char.ofNat n) := by
    decide +kernel
  have h := hall c.toNat (by omega)
  rwa [Char.ofNat_toNat] at h

theorem byteClasses_of_high {b : UInt8} (hb : 128 ≤ b.toNat) :
    isLowerAlphanumericByte b = false ∧ isSeparatorByte b = false := by
  have hall : ∀ n < 256, 128 ≤ n → isLowerAlphanumericByte (UInt8.ofNat n) = false ∧
      isSeparatorByte (UInt8.ofNat n) = false := by
    decide +kernel
  have h := hall b.toNat b.toNat_lt hb
  rwa [UInt8.ofNat_toNat] at h

theorem charClasses_of_high (hc : 127 < c.toNat) :
    isLowerAlphanumeric c = false ∧ isSeparator c = false := by
  constructor
  · rw [Bool.eq_false_iff, ne_eq, isLowerAlphanumeric_iff_toNat]
    omega
  · rw [Bool.eq_false_iff]
    intro hsep
    have hle := (charClasses_of_separator hsep).2
    omega

/-- A byte sequence is read character by character: the first byte of a character outside the
ASCII range is already refused. -/
theorem validateFormatConst_cons (c : Char) (cs : List Char) (idx : Nat) (sep : Bool) :
    validateFormatConst (utf8Bytes (c :: cs)) idx sep = .ok () ↔
      isLowerAlphanumeric c = true ∧ validateFormatConst (utf8Bytes cs) (idx + 1) false = .ok () ∨
      isSeparator c = true ∧ sep = false ∧ idx ≠ 0 ∧
        validateFormatConst (utf8Bytes cs) (idx + 1) true = .ok () := by
  rw [utf8Bytes_cons]
  rcases Nat.lt_or_ge 127 c.toNat with hhigh | hascii
  · obtain ⟨b, _, hbytes, hb⟩ := exists_utf8EncodeChar_eq_cons hhigh
    rw [hbytes, List.cons_append, validateFormatConst, (byteClasses_of_high hb).1,
      (byteClasses_of_high hb).2, (charClasses_of_high hhigh).1, (charClasses_of_high hhigh).2]
    simp
  · rw [utf8EncodeChar_of_ascii hascii, List.singleton_append, validateFormatConst,
      (byteClasses_of_ascii hascii).1, (byteClasses_of_ascii hascii).2]
    by_cases hlower : isLowerAlphanumeric c = true
    · simp [hlower, not_isSeparator_of_lower hlower]
    · cases hsep : isSeparator c <;> cases sep <;> simp [hlower]
      split <;> simp_all

theorem validateFormatConst_eq_ok (cs : List Char) (idx : Nat) :
    (validateFormatConst (utf8Bytes cs) (idx + 1) true = .ok () ↔
      cs ∈ words (isLowerAlphanumeric · = true) (isSeparator · = true)) ∧
    (validateFormatConst (utf8Bytes cs) (idx + 1) false = .ok () ↔
      cs ∈ wordsTail (isLowerAlphanumeric · = true) (isSeparator · = true)) := by
  induction cs generalizing idx with
  | nil => simp [validateFormatConst, nil_notMem_words, nil_mem_wordsTail]
  | cons c cs ih =>
    rw [validateFormatConst_cons, validateFormatConst_cons, cons_mem_words, cons_mem_wordsTail,
      (ih (idx + 1)).1, (ih (idx + 1)).2]
    simp [or_comm]

theorem validateConst_eq_ok : validateConst id = .ok () ↔
    2 ≤ id.utf8ByteSize ∧ id.utf8ByteSize ≤ 64 ∧
      id.toList ∈ words (isLowerAlphanumeric · = true) (isSeparator · = true) := by
  unfold validateConst minLen maxLen
  split
  · simp
    omega
  · split
    · simp
      omega
    · rename_i hmin hmax
      have hrange : 2 ≤ id.utf8ByteSize ∧ id.utf8ByteSize ≤ 64 := by omega
      cases hchars : id.toList with
      | nil =>
        rw [String.toList_eq_nil_iff.mp hchars] at hmin
        exact absurd hmin (by decide)
      | cons c cs =>
        rw [validateFormatConst_cons, cons_mem_words, (validateFormatConst_eq_ok cs 0).2]
        simp [hrange]

/-! ## Bitcoin addresses are letters and digits -/

/-- What the decoders of the base58 and bech32 crates accept at most. -/
structure TextDecoders (C : Crypto) : Prop where
  bs58_alphabet : ∀ {text : String} {data : Bytes}, C.bs58Decode text = some data →
    ∀ c ∈ text.toList, c ∈ Base58.alphabet
  segwit_alphanumeric : ∀ {text hrp : String}, C.segwitDecode text = some hrp →
    hrp ∈ ["bc", "tb", "bcrt"] → ∀ c ∈ text.toList, c.isAlphanum = true

theorem isUpper_iff_toNat : c.isUpper = true ↔ 65 ≤ c.toNat ∧ c.toNat ≤ 90 := by
  delta Char.isUpper
  simp only [decide_eq_true_eq, ge_iff_le, UInt32.le_iff_toNat_le]
  rfl

theorem isAlphanum_iff_toNat : c.isAlphanum = true ↔
    ((65 ≤ c.toNat ∧ c.toNat ≤ 90) ∨ (97 ≤ c.toNat ∧ c.toNat ≤ 122)) ∨
      (48 ≤ c.toNat ∧ c.toNat ≤ 57) := by
  delta Char.isAlphanum Char.isAlpha Char.isUpper Char.isLower Char.isDigit
  simp only [Bool.or_eq_true, Bool.and_eq_true, decide_eq_true_eq, ge_iff_le,
    UInt32.le_iff_toNat_le]
  rfl

theorem isLowerAlphanumeric_iff :
    isLowerAlphanumeric c = true ↔ c.isAlphanum = true ∧ c.isUpper = false := by
  rw [isLowerAlphanumeric_iff_toNat, isAlphanum_iff_toNat, ← Bool.not_eq_true, isUpper_iff_toNat]
  omega

theorem all_lower_of_legacy (h : isLegacyLowercasedBitcoin id = true) :
    ∀ c ∈ id.toList, isLowerAlphanumeric c = true := by
  refine List.all_eq_true.mp ?_
  unfold isLegacyLowercasedBitcoin at h
  dsimp only at h
  split_ifs at h
  · exact h
  · exact h
  · exact h
  · exact h

theorem decoded_of_base58check {C : Crypto} (h : hasValidBase58checkAddress C id = true) :
    ∃ version rest, C.bs58Decode id = some (version :: rest) ∧
      version ∈ ([0x00, 0x05, 0x6f, 0xc4] : List UInt8) ∧
      (version :: rest).drop 21 = (C.sha256 (C.sha256 ((version :: rest).take 21))).take 4 := by
  unfold hasValidBase58checkAddress at h
  dsimp only at h
  split at h
  · cases h
  · cases hdecode : C.bs58Decode id with
    | none =>
      rw [hdecode] at h
      cases h
    | some decoded =>
      rw [hdecode] at h
      dsimp only at h
      split_ifs at h with hlength hchecksum
      cases decoded with
      | nil => simp at h
      | cons version rest => exact ⟨version, rest, rfl, by simpa using h, by simpa using hchecksum⟩

section Decoders

variable {C : Crypto} (hC : TextDecoders C)
include hC

theorem isAlphanum_of_base58check {id : AccountId} (h : hasValidBase58checkAddress C id = true) :
    ∀ c ∈ id.toList, c.isAlphanum = true := by
  have hall : Base58.alphabet.all Char.isAlphanum = true := by decide +kernel
  obtain ⟨_, _, hdecode, -⟩ := decoded_of_base58check h
  exact fun c hc => List.all_eq_true.mp hall c (hC.bs58_alphabet hdecode c hc)

theorem isAlphanum_of_segwit {id : AccountId} (h : hasValidSegwitAddress C id = true) :
    ∀ c ∈ id.toList, c.isAlphanum = true := by
  unfold hasValidSegwitAddress at h
  cases hdecode : C.segwitDecode id with
  | none =>
    rw [hdecode] at h
    cases h
  | some =>
    rw [hdecode] at h
    exact hC.segwit_alphanumeric hdecode (by simpa using h)

theorem isAlphanum_of_isBitcoinImplicit {id : AccountId} (h : isBitcoinImplicit C id = true) :
    ∀ c ∈ id.toList, c.isAlphanum = true := by
  simp only [isBitcoinImplicit, Bool.or_eq_true] at h
  rcases h with (hbase58 | hsegwit) | hlegacy
  · exact isAlphanum_of_base58check hC hbase58
  · exact isAlphanum_of_segwit hC hsegwit
  · exact fun c hc => (isLowerAlphanumeric_iff.mp (all_lower_of_legacy hlegacy c hc)).1

/-- What the check at compile time accepts, the parser accepts, and on texts without capital
letters the two agree. -/
theorem validateConst_agrees (id : AccountId) :
    (validateConst id = .ok () → validate C id = .ok ()) ∧ ((∀ c ∈ id.toList, c.isUpper = false) →
        validate C id = .ok () → validateConst id = .ok ()) := by
  constructor
  · intro hconst
    obtain ⟨hmin, hmax, hwords⟩ := validateConst_eq_ok.mp hconst
    exact validate_eq_ok.mpr ⟨hmin, hmax, .inr ((validateChars_eq_ok _ _ _).1.mpr hwords)⟩
  · intro hupper hvalid
    obtain ⟨hmin, hmax, hbitcoin | hchars⟩ := validate_eq_ok.mp hvalid
    · have hlower : ∀ c ∈ id.toList, isLowerAlphanumeric c = true := fun c hc =>
        isLowerAlphanumeric_iff.mpr ⟨isAlphanum_of_isBitcoinImplicit hC hbitcoin c hc, hupper c hc⟩
      have hne : id.toList ≠ [] := by
        intro hnil
        rw [String.toList_eq_nil_iff.mp hnil] at hmin
        exact absurd hmin (by decide)
      exact validateConst_eq_ok.mpr ⟨hmin, hmax, mem_words_of_forall hne hlower⟩
    · exact validateConst_eq_ok.mpr ⟨hmin, hmax, (validateChars_eq_ok _ _ _).1.mp hchars⟩

end Decoders

theorem textDecoders_sample : TextDecoders .sample where
  bs58_alphabet h := nomatch h
  segwit_alphanumeric h := nomatch h

theorem validateConst_agrees_sample :
    validateConst "alice.near" = .ok () ∧ validate .sample "alice.near" = .ok () :=
  ⟨by decide +kernel, (validateConst_agrees textDecoders_sample "alice.near").1 (by decide +kernel)⟩

/-! ## Parents -/

def splitOnce (text : List Char) (delimiter : Char) : Option (List Char × List Char) :=
  if delimiter ∈ text then
    some (text.takeWhile (· != delimiter), (text.dropWhile (· != delimiter)).tail)
  else none

/-- With debug assertions the text is checked; a panic is an error with its message. -/
def newUnvalidated (C : Crypto) (debugAssertions : Bool) (id : String) : Except String AccountId :=
  if debugAssertions && !(validate C id).isOk then
    .error "assertion failed: crate::validation::validate(id).is_ok()"
  else .ok id

def getParentAccountId (C : Crypto) (debugAssertions : Bool) (id : AccountId) :
    Except String (Option AccountId) :=
  match splitOnce id.toList '.' with
  | none => .ok none
  | some (_, parentStr) => (newUnvalidated C debugAssertions (String.ofList parentStr)).map some

theorem splitOnce_append {name : List Char} {c : Char} (hname : c ∉ name) (rest : List Char) :
    splitOnce (name ++ c :: rest) c = some (name, rest) := by
  have hall : ∀ d ∈ name, (d != c) = true := by
    intro d hd
    rw [bne_iff_ne]
    rintro rfl
    exact hname hd
  rw [splitOnce, if_pos (by simp), List.takeWhile_append_of_pos hall,
    List.dropWhile_append_of_pos hall]
  simp

theorem exists_eq_append_of_mem {text : List Char} {c : Char} (h : c ∈ text) :
    ∃ name rest, c ∉ name ∧ text = name ++ c :: rest := by
  induction text with
  | nil => simp at h
  | cons d text ih =>
    by_cases hd : c = d
    · exact ⟨[], text, by simp, by rw [hd]; rfl⟩
    · obtain ⟨name, rest, hname, rfl⟩ := ih (by simpa [hd] using h)
      exact ⟨d :: name, rest, by simp [hd, hname], rfl⟩

theorem stripSuffix_append (text suffix : List Char) :
    stripSuffix (text ++ suffix) suffix = some text := by
  rw [stripSuffix, if_pos (by simp)]
  simp

theorem isSubAccountOf_append {name : List Char} (hname : '.' ∉ name) (rest : List Char) :
    isSubAccountOf (String.ofList (name ++ '.' :: rest)) (String.ofList rest) = true := by
  have hsplit : name ++ '.' :: rest = (name ++ ['.']) ++ rest := by simp
  rw [isSubAccountOf, String.toList_ofList, String.toList_ofList, hsplit, stripSuffix_append,
    Option.bind_some, stripSuffix_append]
  simpa using hname

section Parents

variable {C : Crypto} (hC : TextDecoders C) {name rest : List Char}

theorem ascii_of_mem_words {cs : List Char}
    (h : cs ∈ words (isLowerAlphanumeric · = true) (isSeparator · = true)) :
    ∀ c ∈ cs, c.val ≤ 127 := by
  intro c hc
  rcases Nat.lt_or_ge 127 c.toNat with hhigh | hascii
  · rcases forall_of_mem_words_or_tail (.inl h) c hc with hlower | hsep
    · rw [(charClasses_of_high hhigh).1] at hlower
      cases hlower
    · rw [(charClasses_of_high hhigh).2] at hsep
      cases hsep
  · exact UInt32.le_iff_toNat_le.mpr hascii

include hC

theorem printable_of_validate {id : AccountId} (h : validate C id = .ok ()) :
    ∀ c ∈ id.toList, 32 < c.toNat ∧ c.toNat ≤ 127 := by
  intro c hc
  obtain ⟨-, -, hbitcoin | hchars⟩ := validate_eq_ok.mp h
  · have halphanum := isAlphanum_of_isBitcoinImplicit hC hbitcoin c hc
    rw [isAlphanum_iff_toNat] at halphanum
    omega
  · have hwords := (validateChars_eq_ok _ _ _).1.mp hchars
    rcases forall_of_mem_words_or_tail (.inl hwords) c hc with hlower | hsep
    · have hrange := isLowerAlphanumeric_iff_toNat.mp hlower
      omega
    · simp only [isSeparator, Bool.or_eq_true, beq_iff_eq] at hsep
      rcases hsep with (rfl | rfl) | rfl
      · decide
      · decide
      · decide

theorem mem_words_of_validate (h : validate C (String.ofList (name ++ '.' :: rest)) = .ok ()) :
    name ++ '.' :: rest ∈ words (isLowerAlphanumeric · = true) (isSeparator · = true) ∧
      (name ++ '.' :: rest).length ≤ 64 := by
  obtain ⟨-, hmax, hbitcoin | hchars⟩ := validate_eq_ok.mp h
  · have hdot := isAlphanum_of_isBitcoinImplicit hC hbitcoin '.' (by simp)
    exact absurd hdot (by decide)
  · rw [String.toList_ofList, (validateChars_eq_ok _ _ _).1] at hchars
    rw [utf8ByteSize_ofList_of_ascii (ascii_of_mem_words hchars)] at hmax
    exact ⟨hchars, hmax⟩

theorem validate_rest_iff (h : validate C (String.ofList (name ++ '.' :: rest)) = .ok ()) :
    validate C (String.ofList rest) = .ok () ↔ ∀ c, rest ≠ [c] := by
  obtain ⟨hwords, hmax⟩ := mem_words_of_validate hC h
  have hrest : rest ∈ words (isLowerAlphanumeric · = true) (isSeparator · = true) :=
    mem_words_of_append (c := '.') (by decide) (.inl hwords)
  have hsize := utf8ByteSize_ofList_of_ascii (ascii_of_mem_words hrest)
  rw [List.length_append, List.length_cons] at hmax
  rw [validate_eq_ok, hsize, String.toList_ofList, (validateChars_eq_ok _ _ _).1]
  constructor
  · rintro ⟨hmin, -, -⟩ c rfl
    simp at hmin
  · intro hlong
    refine ⟨?_, by omega, .inr hrest⟩
    cases rest with
    | nil => exact absurd hrest (nil_notMem_words _ _)
    | cons c rest =>
      cases rest with
      | nil => exact absurd rfl (hlong c)
      | cons => simp

/-- The parent of an accepted account id is accepted, and the assertion on it holds, unless it is
a single character. -/
theorem parents_valid_iff {id : AccountId} (hvalid : validate C id = .ok ()) :
    (∀ p, getParentAccountId C false id = .ok (some p) →
      validate C p = .ok () ∧ getParentAccountId C true id = .ok (some p) ∧
        isSubAccountOf id p = true) ↔
      ∀ name c, '.' ∉ name → id.toList ≠ name ++ ['.', c] := by
  by_cases hdot : '.' ∈ id.toList
  · obtain ⟨name, rest, hname, htext⟩ := exists_eq_append_of_mem hdot
    obtain rfl : id = String.ofList (name ++ '.' :: rest) := by
      rw [← htext, String.ofList_toList]
    have hparent : ∀ debugAssertions, getParentAccountId C debugAssertions
        (String.ofList (name ++ '.' :: rest)) =
          (newUnvalidated C debugAssertions (String.ofList rest)).map some := by
      intro debugAssertions
      rw [getParentAccountId, String.toList_ofList, splitOnce_append hname]
    constructor
    · intro h name' c hname' heq
      obtain ⟨hok, -, -⟩ := h (String.ofList rest) (hparent false)
      have hsplit := splitOnce_append hname' [c]
      rw [← heq, String.toList_ofList, splitOnce_append hname] at hsplit
      exact (validate_rest_iff hC hvalid).mp hok c (by simpa using congrArg (·.map Prod.snd) hsplit)
    · intro hlong p hp
      have hok := (validate_rest_iff hC hvalid).mpr fun c hc => hlong name c hname (by simp [hc])
      obtain rfl : String.ofList rest = p := by
        rw [hparent] at hp
        exact Option.some.inj (Except.ok.inj hp)
      refine ⟨hok, ?_, isSubAccountOf_append hname rest⟩
      rw [hparent, newUnvalidated, hok]
      rfl
  · have hnone : getParentAccountId C false id = .ok none := by
      rw [getParentAccountId, splitOnce, if_neg hdot]
    simp only [hnone]
    constructor
    · intro _ name c _ heq
      exact hdot (by rw [heq]; simp)
    · intro _ p hp
      cases hp

end Parents

theorem parents_valid_alice :
    validate .sample "near" = .ok () ∧ isSubAccountOf "alice.near" "near" = true := by
  have hlong : ∀ name c, '.' ∉ name → "alice.near".toList ≠ name ++ ['.', c] := by
    intro name c hname heq
    have hsplit := splitOnce_append hname [c]
    rw [← heq] at hsplit
    have hrest : splitOnce "alice.near".toList '.' =
        some ("alice".toList, "near".toList) := by decide +kernel
    rw [hrest] at hsplit
    simp at hsplit
  have h := (@parents_valid_iff _ textDecoders_sample "alice.near" (by decide +kernel)).mpr
    hlong "near" (by decide +kernel)
  exact ⟨h.1, h.2.2⟩

/-- The parent of an accepted text can be too short, and then the assertion fails. -/
theorem parent_too_short : validate .sample "a.b" = .ok () ∧
      getParentAccountId .sample false "a.b" = .ok (some "b") ∧
      validate .sample "b" = .error ⟨.tooShort, none⟩ ∧
      getParentAccountId .sample true "a.b" =
        .error "assertion failed: crate::validation::validate(id).is_ok()" := by
  decide +kernel

end BitInfinity.AccountId
