import BitInfinity.Bitcoin.Bech32
import BitInfinity.Foundation.Base58

/-!
# Derived addresses are account ids

Every address that is derived from a key passes the account id parser and is classified as a
Bitcoin account.  The hash functions are any functions with outputs of the right length, and
base58 is the standard encoding.
-/

namespace BitInfinity

open Foundation

/-- What is assumed of the hash functions and of the base58 crate. -/
structure StandardEncodings (C : Crypto) : Prop where
  sha256_length : ∀ data, (C.sha256 data).length = 32
  ripemd160_length : ∀ data, (C.ripemd160 data).length = 20
  zeros_checksum : (C.sha256 (C.sha256 (List.replicate 21 0))).head? ≠ some 0
  bs58Encode_eq : ∀ data, data.length = 25 → C.bs58Encode data = String.ofList (Base58.encode data)
  bs58Decode_encode : ∀ data, data.length = 25 → C.bs58Decode (C.bs58Encode data) = some data

/-! ## Texts that the parser takes for Bitcoin addresses -/

section Texts

open AccountId

variable {id : AccountId} {text : List Char}

theorem isLowerAlphanumeric_ascii {c : Char} (h : isLowerAlphanumeric c = true) : c.val ≤ 127 := by
  simp only [isLowerAlphanumeric, Bool.or_eq_true, Bool.and_eq_true, decide_eq_true_eq] at h
  rcases h with ⟨-, h⟩ | ⟨-, h⟩
  · exact UInt32.le_trans h (by decide)
  · exact UInt32.le_trans h (by decide)

theorem validate_of_isBitcoinImplicit {C : Crypto}
    (h : isBitcoinImplicit C id = true) (hmin : 2 ≤ id.utf8ByteSize) (hmax : id.utf8ByteSize ≤ 64) :
    validate C id = .ok () ∧ getAccountType C id = .btcImplicitAccount := by
  constructor
  · rw [validate, if_neg (by unfold minLen; omega), if_neg (by unfold maxLen; omega), if_pos h]
  · rw [getAccountType, if_pos h]

theorem utf8ByteSize_le_of_validate {C : Crypto}
    (h : validate C id = .ok ()) : id.utf8ByteSize ≤ 64 := by
  unfold validate at h
  split at h
  · cases h
  · split at h
    · cases h
    · next hmax => exact Nat.not_lt.mp hmax

theorem validate_of_lower {C : Crypto}
    (halnum : ∀ c ∈ text, isLowerAlphanumeric c = true) (hmin : 2 ≤ text.length)
    (hmax : text.length ≤ 64) : validate C (String.ofList text) = .ok () := by
  have hsize := utf8ByteSize_ofList_of_ascii fun c hc => isLowerAlphanumeric_ascii (halnum c hc)
  have hchars : ∀ (cs : List Char) (i : Nat) (last : Option (Nat × Char)),
      (∀ c ∈ cs, isLowerAlphanumeric c = true) → validateChars cs i false last = .ok () := by
    intro cs
    induction cs with
    | nil => exact fun i last _ => rfl
    | cons c cs ih =>
      intro i last hcs
      rw [validateChars, if_pos (hcs c List.mem_cons_self)]
      exact ih _ _ fun d hd => hcs d (List.mem_cons_of_mem c hd)
  rw [validate, hsize, if_neg (by unfold minLen; omega), if_neg (by unfold maxLen; omega),
    String.toList_ofList]
  split
  · rfl
  · cases text with
    | nil => simp at hmin
    | cons c cs =>
      rw [validateChars, if_pos (halnum c List.mem_cons_self)]
      exact hchars _ _ _ fun d hd => halnum d (List.mem_cons_of_mem c hd)

theorem isBitcoinImplicit_of_lower {C : Crypto} (halnum : ∀ c ∈ text, isLowerAlphanumeric c = true)
    (hhead : text.head? = some '1') (hmin : 25 ≤ text.length) (hmax : text.length ≤ 34) :
    isBitcoinImplicit C (String.ofList text) = true := by
  have hsize := utf8ByteSize_ofList_of_ascii fun c hc => isLowerAlphanumeric_ascii (halnum c hc)
  obtain ⟨rest, rfl⟩ : ∃ rest, text = '1' :: rest := by
    cases text with
    | nil => simp at hhead
    | cons c rest => exact ⟨rest, by rw [Option.some.inj hhead]⟩
  have hlegacy : isLegacyLowercasedBitcoin (String.ofList ('1' :: rest)) = true := by
    have hall : ('1' :: rest).all isLowerAlphanumeric = true := List.all_eq_true.mpr halnum
    simp only [isLegacyLowercasedBitcoin, startsWith, String.toList_ofList, hsize, hall]
    simp only [List.length_cons] at hmin hmax
    simp
    omega
  rw [isBitcoinImplicit, hlegacy, Bool.or_true]

theorem isBitcoinImplicit_of_segwit {C : Crypto} {rest : List Char}
    (halnum : ∀ c ∈ rest, isLowerAlphanumeric c = true) (hlength : rest.length = 38) :
    isBitcoinImplicit C (String.ofList ('b' :: 'c' :: '1' :: 'q' :: rest)) = true := by
  have hall : ∀ c ∈ 'b' :: 'c' :: '1' :: 'q' :: rest, isLowerAlphanumeric c = true := by
    intro c hc
    simp only [List.mem_cons] at hc
    rcases hc with rfl | rfl | rfl | rfl | hc
    · decide
    · decide
    · decide
    · decide
    · exact halnum c hc
  have hsize := utf8ByteSize_ofList_of_ascii fun c hc => isLowerAlphanumeric_ascii (hall c hc)
  have hlegacy : isLegacyLowercasedBitcoin (String.ofList ('b' :: 'c' :: '1' :: 'q' :: rest)) =
      true := by
    simp only [isLegacyLowercasedBitcoin, startsWith, String.toList_ofList, hsize,
      List.all_eq_true.mpr hall]
    simp [hlength]
  rw [isBitcoinImplicit, hlegacy, Bool.or_true]

end Texts

/-! ## Base58 addresses -/

theorem utf8ByteSize_base58 {text : List Char} (h : ∀ c ∈ text, c ∈ Base58.alphabet) :
    (String.ofList text).utf8ByteSize = text.length := by
  have hascii : Base58.alphabet.all (fun c => c.val ≤ 127) = true := by decide +kernel
  exact utf8ByteSize_ofList_of_ascii fun c hc =>
    of_decide_eq_true (List.all_eq_true.mp hascii c (h c hc))

section Base58Addresses

variable {C : Crypto} (hC : StandardEncodings C)
include hC

variable {payload : Bytes}

theorem length_hash160 (data : Bytes) : (hash160 C data).length = 20 := hC.ripemd160_length _

def checkedPayload (C : Crypto) (version : UInt8) (payload : Bytes) : Bytes :=
  version :: payload ++ (C.sha256 (C.sha256 (version :: payload))).take 4

theorem length_checkedPayload (version : UInt8) (hpayload : payload.length = 20) :
    (checkedPayload C version payload).length = 25 := by
  simp [checkedPayload, hpayload, hC.sha256_length]

theorem base58checkEncode_eq (version : UInt8) (hpayload : payload.length = 20) :
    base58checkEncode C version payload =
      String.ofList (Base58.encode (checkedPayload C version payload)) :=
  hC.bs58Encode_eq _ (length_checkedPayload hC version hpayload)

theorem leadingZeros_checkedPayload (hpayload : payload.length = 20) :
    0 < Base58.leadingZeros (checkedPayload C 0 payload) ∧
      Base58.leadingZeros (checkedPayload C 0 payload) ≤ 21 := by
  have hlength : (0 :: payload).length = 21 := by simp [hpayload]
  constructor
  · simp [Base58.leadingZeros, checkedPayload]
  · rw [Base58.leadingZeros, checkedPayload, List.takeWhile_append]
    split
    · rename_i hall
      have hzeros : 0 :: payload = List.replicate 21 0 := by
        rw [← hlength]
        refine List.eq_replicate_of_mem fun b hb => ?_
        have hself : (0 :: payload).takeWhile (· == 0) = 0 :: payload :=
          (List.takeWhile_prefix _).eq_of_length hall
        have hzero := @List.all_takeWhile _ (· == (0 : UInt8)) (0 :: payload)
        rw [hself] at hzero
        simpa using List.all_eq_true.mp hzero b hb
      have hchecksum : ((C.sha256 (C.sha256 (0 :: payload))).take 4).takeWhile (· == 0) = [] := by
        have hhead := hC.zeros_checksum
        rw [hzeros]
        cases hsum : C.sha256 (C.sha256 (List.replicate 21 0)) with
        | nil => rfl
        | cons b rest =>
          have hb : b ≠ 0 := fun h => hhead (by rw [hsum, h]; rfl)
          simp [hb]
      rw [hchecksum, List.append_nil, hlength]
    · have hle := (List.takeWhile_prefix (· == 0) (l := (0 :: payload : Bytes))).length_le
      omega

theorem length_base58_bounds (hpayload : payload.length = 20) :
    26 ≤ (Base58.encode (checkedPayload C 0 payload)).length ∧
      (Base58.encode (checkedPayload C 0 payload)).length ≤ 34 :=
  Base58.length_encode_bounds (length_checkedPayload hC 0 hpayload)
    (leadingZeros_checkedPayload hC hpayload).1 (leadingZeros_checkedPayload hC hpayload).2

theorem utf8ByteSize_base58check (version : UInt8) (hpayload : payload.length = 20) :
    (base58checkEncode C version payload).utf8ByteSize =
      (Base58.encode (checkedPayload C version payload)).length := by
  rw [base58checkEncode_eq hC version hpayload, utf8ByteSize_base58 fun c => Base58.mem_encode]

section Version

variable {version : UInt8} (hversion : version ∈ ([0x00, 0x05, 0x6f, 0xc4] : List UInt8))
  (hpayload : payload.length = 20)
  (hmin : 26 ≤ (Base58.encode (checkedPayload C version payload)).length)
  (hmax : (Base58.encode (checkedPayload C version payload)).length ≤ 35)
include hversion hpayload hmin hmax

theorem hasValidBase58check_of_version :
    AccountId.hasValidBase58checkAddress C (base58checkEncode C version payload) = true := by
  have hlength := length_checkedPayload hC version hpayload
  have hdecode : C.bs58Decode (base58checkEncode C version payload) =
      some (checkedPayload C version payload) := hC.bs58Decode_encode _ hlength
  have hsize := utf8ByteSize_base58check hC version hpayload
  have htake : (checkedPayload C version payload).take 21 = version :: payload := by
    rw [checkedPayload, List.take_left' (by simp [hpayload])]
  have hdrop : (checkedPayload C version payload).drop 21 =
      (C.sha256 (C.sha256 (version :: payload))).take 4 := by
    rw [checkedPayload, List.drop_left' (by simp [hpayload])]
  have hrange : (!(26 ≤ (Base58.encode (checkedPayload C version payload)).length &&
      (Base58.encode (checkedPayload C version payload)).length ≤ 35)) = false := by
    simp [hmin, hmax]
  simp only [AccountId.hasValidBase58checkAddress, hsize, hdecode, hlength, htake, hdrop, hrange]
  simpa using hversion

theorem isBitcoinImplicit_of_version :
    AccountId.isBitcoinImplicit C (base58checkEncode C version payload) = true := by
  rw [AccountId.isBitcoinImplicit,
    hasValidBase58check_of_version hC hversion hpayload hmin hmax, Bool.true_or, Bool.true_or]

end Version

theorem isBitcoinImplicit_base58check (hpayload : payload.length = 20) :
    AccountId.isBitcoinImplicit C (base58checkEncode C 0 payload) = true := by
  obtain ⟨hmin, _⟩ := length_base58_bounds hC hpayload
  exact isBitcoinImplicit_of_version hC (by simp) hpayload hmin (by omega)

end Base58Addresses

/-! ## The addresses of a key -/

theorem isLowerAlphanumeric_toLower {c : Char} (hc : c ∈ Base58.alphabet) :
    AccountId.isLowerAlphanumeric c.toLower = true := by
  have hall : Base58.alphabet.all (fun c => AccountId.isLowerAlphanumeric c.toLower) = true := by
    decide +kernel
  exact List.all_eq_true.mp hall c hc

theorem isLowerAlphanumeric_symbol (d : UInt8) :
    AccountId.isLowerAlphanumeric (Bech32.symbol d) = true := by
  have hall : Bech32.charset.all AccountId.isLowerAlphanumeric = true := by decide +kernel
  exact List.all_eq_true.mp hall _ (Bech32.getD_mem_charset d.toNat)

theorem length_convertBits {program : Bytes} (hlength : program.length = 20) :
    (Bech32.convertBits 0 0 program).length = 32 := by
  obtain ⟨-, _, _, hbits⟩ := @Bech32.convertBits_bits program 0 0 (by omega)
  have h := congrArg List.length hbits
  simp only [length_symbolBits, List.length_append, length_bitsOf, List.length_replicate,
    hlength] at h
  omega

section Derived

variable {C : Crypto} (hC : StandardEncodings C) (pubkey : Secp256K1PublicKey)
include hC

theorem derivedBase58_valid :
    AccountId.validate C (deriveBitcoinAddressFromPubkey C pubkey) = .ok () ∧
      AccountId.getAccountType C (deriveBitcoinAddressFromPubkey C pubkey) =
        .btcImplicitAccount := by
  have hpayload := length_hash160 hC (compressPublicKey pubkey)
  obtain ⟨_, _⟩ := length_base58_bounds hC hpayload
  have hsize : (deriveBitcoinAddressFromPubkey C pubkey).utf8ByteSize =
      (Base58.encode (checkedPayload C 0 (hash160 C (compressPublicKey pubkey)))).length :=
    utf8ByteSize_base58check hC 0 hpayload
  refine validate_of_isBitcoinImplicit (isBitcoinImplicit_base58check hC hpayload) ?_ ?_
  · omega
  · omega

theorem derivedLegacy_valid :
    AccountId.validate C (toLowercase (deriveBitcoinAddressFromPubkey C pubkey)) = .ok () ∧
      AccountId.getAccountType C (toLowercase (deriveBitcoinAddressFromPubkey C pubkey)) =
        .btcImplicitAccount := by
  have hpayload := length_hash160 hC (compressPublicKey pubkey)
  set text := Base58.encode (checkedPayload C 0 (hash160 C (compressPublicKey pubkey))) with htext
  obtain ⟨hmin, hmax⟩ := length_base58_bounds hC hpayload
  rw [← htext] at hmin hmax
  have hlower : toLowercase (deriveBitcoinAddressFromPubkey C pubkey) =
      String.ofList (text.map Char.toLower) := by
    rw [deriveBitcoinAddressFromPubkey, base58checkEncode_eq hC 0 hpayload, toLowercase,
      String.toList_ofList]
  have halnum : ∀ c ∈ text.map Char.toLower, AccountId.isLowerAlphanumeric c = true := by
    intro c hc
    obtain ⟨x, hx, rfl⟩ := List.mem_map.mp hc
    exact isLowerAlphanumeric_toLower (Base58.mem_encode hx)
  have hhead : (text.map Char.toLower).head? = some '1' := by
    obtain ⟨k, -⟩ := Nat.exists_eq_succ_of_ne_zero
      (Nat.ne_of_gt (leadingZeros_checkedPayload hC hpayload).1)
    rfl
  have hsize := utf8ByteSize_ofList_of_ascii fun c hc => isLowerAlphanumeric_ascii (halnum c hc)
  rw [List.length_map] at hsize
  rw [hlower]
  refine validate_of_isBitcoinImplicit (isBitcoinImplicit_of_lower halnum hhead ?_ ?_) ?_ ?_
  · rw [List.length_map]
    omega
  · rwa [List.length_map]
  · omega
  · omega

theorem derivedSegwit_valid :
    AccountId.validate C (deriveBitcoinP2wpkhFromPubkey C pubkey) = .ok () ∧
      AccountId.getAccountType C (deriveBitcoinP2wpkhFromPubkey C pubkey) =
        .btcImplicitAccount := by
  set data := Bech32.convertBits 0 0 (hash160 C (compressPublicKey pubkey)) with hdata
  set rest := (data ++ Bech32.checksum "bc" (0 :: data)).map Bech32.symbol with hrest
  have hlength : rest.length = 38 := by
    rw [hrest, List.length_map, List.length_append, Bech32.length_checksum,
      length_convertBits (length_hash160 hC _)]
  have halnum : ∀ c ∈ rest, AccountId.isLowerAlphanumeric c = true := by
    intro c hc
    obtain ⟨d, -, rfl⟩ := List.mem_map.mp hc
    exact isLowerAlphanumeric_symbol d
  have htext : deriveBitcoinP2wpkhFromPubkey C pubkey =
      String.ofList ('b' :: 'c' :: '1' :: 'q' :: rest) := by
    refine String.toList_inj.mp ?_
    rfl
  have hsize : (deriveBitcoinP2wpkhFromPubkey C pubkey).utf8ByteSize = 42 := by
    rw [htext, String.ofList_cons, String.ofList_cons, String.ofList_cons, String.ofList_cons]
    simp only [String.utf8ByteSize_append]
    rw [utf8ByteSize_ofList_of_ascii fun c hc => isLowerAlphanumeric_ascii (halnum c hc), hlength]
    rfl
  refine validate_of_isBitcoinImplicit ?_ (by omega) (by omega)
  exact isBitcoinImplicit_of_segwit halnum hlength

/-- All addresses derived from a key are account ids of Bitcoin accounts. -/
theorem derived_addresses_valid {address : String}
    (haddress : address ∈ deriveAllBitcoinAddresses C pubkey) :
    AccountId.validate C address = .ok () ∧
      AccountId.getAccountType C address = .btcImplicitAccount := by
  rcases (mem_deriveAllBitcoinAddresses C pubkey).mp haddress with rfl | rfl | rfl
  · exact derivedBase58_valid hC pubkey
  · exact derivedSegwit_valid hC pubkey
  · exact derivedLegacy_valid hC pubkey

end Derived

/-- Hash functions with outputs of the right length, and base58 as it is. -/
def Crypto.standard : Crypto :=
  { Crypto.sample with
    sha256 := fun data => UInt8.ofNat (data.length + 1) :: List.replicate 31 (data.getD 1 0)
    ripemd160 := fun data => data.take 20 ++ List.replicate (20 - data.length) 0
    bs58Encode := fun data => String.ofList (Base58.encode data)
    bs58Decode := fun text => some (Base58.decode 25 text.toList) }

theorem standardEncodings_standard : StandardEncodings .standard where
  sha256_length _ := by simp [Crypto.standard]
  ripemd160_length data := by
    simp only [Crypto.standard, List.length_append, List.length_take, List.length_replicate]
    omega
  zeros_checksum := by decide
  bs58Encode_eq _ _ := rfl
  bs58Decode_encode data hdata := by
    simp only [Crypto.standard, String.toList_ofList]
    rw [← hdata, Base58.decode_encode]

theorem derived_addresses_valid_sample :
    AccountId.validate .standard (deriveBitcoinAddressFromPubkey .standard sampleKey) =
        .ok () ∧
      AccountId.getAccountType .standard
        (deriveBitcoinAddressFromPubkey .standard sampleKey) = .btcImplicitAccount :=
  derived_addresses_valid standardEncodings_standard sampleKey
    ((mem_deriveAllBitcoinAddresses _ _).mpr (.inl rfl))

end BitInfinity
