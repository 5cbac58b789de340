import BitInfinity.Bitcoin.Scripts
import BitInfinity.Proxy.BitcoinTransaction

/-!
# The account of a sender

The proxy takes the sender's account from the key in the first input: the address of the key as
it stands there, on the network of the proxy.  The runtime derives the accounts of a key from its
compressed form, on the main network.
-/

namespace BitInfinity.Proxy

open BitInfinity Foundation

/-- The bytes that a curve point is read from: compressed, or the two coordinates behind one of
the three tags of the long form. -/
inductive Serialises (key : Secp256K1PublicKey) : Bytes → Prop
  | compressed : Serialises key (compressPublicKey key)
  | uncompressed {tag} (htag : tag ∈ ([0x04, 0x06, 0x07] : List UInt8)) :
      Serialises key (tag :: key.bytes)

/-- The key of the sender has the hash, or the text in lower case, of its compressed form. -/
def HashedAlike (C : Crypto) (key : Secp256K1PublicKey) : SenderKey → Prop
  | .p2pkh pubkey =>
    toLowercase (base58checkEncode C 0x00 (hash160 C pubkey)) =
      toLowercase (base58checkEncode C 0x00 (hash160 C (compressPublicKey key)))
  | .p2wpkh pubkey => hash160 C pubkey = hash160 C (compressPublicKey key)

theorem Serialises.eq_of_length {key : Secp256K1PublicKey} {pubkey : Bytes}
    (h : Serialises key pubkey) (hlength : pubkey.length = 33) :
    pubkey = compressPublicKey key := by
  cases h with
  | compressed => rfl
  | uncompressed htag =>
    rw [List.length_cons, key.length_eq] at hlength
    omega

section Texts

variable {C : Crypto} (hC : StandardEncodings C)
include hC

theorem head_base58check_zero {payload : Bytes} (hpayload : payload.length = 20) :
    (base58checkEncode C 0x00 payload).toList.head? = some '1' := by
  obtain ⟨_, hrest⟩ := Base58.encode_zero_cons
    (payload ++ (C.sha256 (C.sha256 (0 :: payload))).take 4)
  rw [base58checkEncode_eq hC 0x00 hpayload, String.toList_ofList, checkedPayload,
    List.cons_append, hrest, List.head?_cons]

theorem head_toLowercase_zero {payload : Bytes} (hpayload : payload.length = 20) :
    (toLowercase (base58checkEncode C 0x00 payload)).toList.head? = some '1' := by
  rw [toLowercase, String.toList_ofList, List.head?_map, head_base58check_zero hC hpayload]
  rfl

theorem toLowercase_nonzero {version : UInt8} (hversion : version ≠ 0) {payload : Bytes}
    (hpayload : payload.length = 20) :
    (toLowercase (base58checkEncode C version payload)).toList.head? ≠ some '1' ∧
      (toLowercase (base58checkEncode C version payload)).toList.length ≤ 35 := by
  have htext := base58checkEncode_eq hC version hpayload
  have hzeros : Base58.leadingZeros (checkedPayload C version payload) = 0 := by
    simp [Base58.leadingZeros, checkedPayload, hversion]
  have hlength := Base58.length_encode_bounds_of_nonzero
    (length_checkedPayload hC version hpayload) hzeros
  obtain ⟨c, _, hencode, hc⟩ := @Base58.encode_nonzero_cons version hversion
    (payload ++ (C.sha256 (C.sha256 (version :: payload))).take 4)
  have halphabet : c ∈ Base58.alphabet := by
    refine @Base58.mem_encode (checkedPayload C version payload) c ?_
    rw [checkedPayload, List.cons_append, hencode]
    exact List.mem_cons_self
  have hlower : Base58.alphabet.all (fun c => c == '1' || c.toLower != '1') = true := by decide
  constructor
  · rw [htext, toLowercase, String.toList_ofList, String.toList_ofList, checkedPayload,
      List.cons_append, hencode]
    have hc' := List.all_eq_true.mp hlower c halphabet
    simpa [hc] using hc'
  · rw [htext, toLowercase, String.toList_ofList, String.toList_ofList, List.length_map]
    exact hlength.2

def keyProgram (data : Bytes) : Segwit.WitnessProgram where
  version := 0
  program := hash160 C data
  version_le := Nat.zero_le 16
  two_le_length := by rw [length_hash160 hC]; decide
  length_le := by rw [length_hash160 hC]; decide
  length_zero _ := .inl (length_hash160 hC data)

theorem hash160_of_bech32 {data data' : Bytes}
    (h : Bech32.encode "bc" 0 (hash160 C data) = Bech32.encode "bc" 0 (hash160 C data')) :
    hash160 C data = hash160 C data' := by
  have htext : Segwit.encode "bc" (keyProgram hC data) =
      Segwit.encode "bc" (keyProgram hC data') := by
    refine String.ofList_injective ?_
    rw [Segwit.encode_zero "bc" rfl, Segwit.encode_zero "bc" rfl]
    exact h
  have hdecode := congrArg Segwit.decode htext
  rw [decode_encode_bc, decode_encode_bc] at hdecode
  simp only [Option.some.injEq, Prod.mk.injEq, true_and] at hdecode
  exact congrArg Segwit.WitnessProgram.program hdecode

theorem length_bech32 (data : Bytes) :
    (Bech32.encode "bc" 0 (hash160 C data)).toList.length = 42 := by
  have htext := Segwit.encode_zero "bc" (w := keyProgram hC data) rfl
  have hlength := length_encode "bc" (keyProgram hC data)
  have hprogram : (keyProgram hC data).program.length = 20 := length_hash160 hC data
  have hhrp : "bc".toList.length = 2 := by decide
  change String.ofList _ = Bech32.encode "bc" 0 (hash160 C data) at htext
  rw [← htext, String.toList_ofList, hlength, hprogram, hhrp]

end Texts

/-! ## Senders and derived accounts -/

theorem head_ne_of_bech32 {hrp : String} (hhrp : hrp ∈ ["bc", "tb", "bcrt"]) (program : Bytes) :
    (Bech32.encode hrp 0 program).toList.head? ≠ some '1' := by
  obtain ⟨_, hrest⟩ := Bech32.toList_encode hrp 0 program
  rw [hrest]
  simp only [List.mem_cons, List.not_mem_nil, or_false] at hhrp
  rcases hhrp with rfl | rfl | rfl
  · simp
  · simp
  · simp

section Senders

variable {C : Crypto} (hC : StandardEncodings C) {key : Secp256K1PublicKey}
include hC

theorem p2pkh_mem_iff (pubkey : Bytes) :
    (SenderKey.p2pkh pubkey).address C "bc" ∈ deriveAllBitcoinAddresses C key ↔
      HashedAlike C key (.p2pkh pubkey) := by
  have hhead := head_toLowercase_zero hC (length_hash160 hC pubkey)
  have hbech := head_ne_of_bech32 (by simp : "bc" ∈ ["bc", "tb", "bcrt"])
    (hash160 C (compressPublicKey key))
  have haddress : (SenderKey.p2pkh pubkey).address C "bc" =
      toLowercase (base58checkEncode C 0x00 (hash160 C pubkey)) := rfl
  rw [mem_deriveAllBitcoinAddresses, haddress]
  constructor
  · rintro (h | h | h)
    · have hlower := congrArg toLowercase h
      rwa [toLowercase_toLowercase] at hlower
    · rw [h] at hhead
      exact absurd hhead hbech
    · exact h
  · exact fun h => .inr (.inr h)

theorem p2wpkh_mem_iff (pubkey : Bytes) :
    (SenderKey.p2wpkh pubkey).address C "bc" ∈ deriveAllBitcoinAddresses C key ↔
      HashedAlike C key (.p2wpkh pubkey) := by
  have hbech := head_ne_of_bech32 (by simp : "bc" ∈ ["bc", "tb", "bcrt"]) (hash160 C pubkey)
  have hlength := length_hash160 hC (compressPublicKey key)
  rw [mem_deriveAllBitcoinAddresses, SenderKey.address]
  constructor
  · rintro (h | h | h)
    · rw [h] at hbech
      exact absurd (head_base58check_zero hC hlength) hbech
    · exact hash160_of_bech32 hC h
    · rw [h] at hbech
      exact absurd (head_toLowercase_zero hC hlength) hbech
  · intro h
    exact .inr (.inl (congrArg (Bech32.encode "bc" 0) h))

theorem test_address_notMem {hrp : String} (hhrp : hrp ∈ ["tb", "bcrt"]) (sender : SenderKey) :
    sender.address C hrp ∉ deriveAllBitcoinAddresses C key := by
  have hlength := length_hash160 hC (compressPublicKey key)
  have hzero := head_base58check_zero hC hlength
  have hlower := head_toLowercase_zero hC hlength
  rw [mem_deriveAllBitcoinAddresses]
  cases sender with
  | p2pkh pubkey =>
    have hversion : p2pkhVersionByte hrp = 0x6f := by
      simp only [List.mem_cons, List.not_mem_nil, or_false] at hhrp
      rcases hhrp with rfl | rfl <;> rfl
    obtain ⟨hhead, hle⟩ := @toLowercase_nonzero C hC 0x6f (by decide) _ (length_hash160 hC pubkey)
    rw [SenderKey.address, hversion]
    rintro (h | h | h)
    · exact hhead (h ▸ hzero)
    · have hbech := length_bech32 hC (compressPublicKey key)
      rw [h] at hle
      change (Bech32.encode "bc" 0 (hash160 C (compressPublicKey key))).toList.length ≤ 35 at hle
      omega
    · exact hhead (h ▸ hlower)
  | p2wpkh pubkey =>
    have hhead := head_ne_of_bech32 (List.mem_cons_of_mem "bc" hhrp) (hash160 C pubkey)
    rw [SenderKey.address]
    rintro (h | h | h)
    · exact hhead (h ▸ hzero)
    · obtain ⟨_, hrest⟩ := Bech32.toList_encode hrp 0 (hash160 C pubkey)
      obtain ⟨_, hrest'⟩ := Bech32.toList_encode "bc" 0 (hash160 C (compressPublicKey key))
      rw [h, deriveBitcoinP2wpkhFromPubkey, hrest'] at hrest
      simp only [List.mem_cons, List.not_mem_nil, or_false] at hhrp
      rcases hhrp with rfl | rfl
      · simp at hrest
      · simp at hrest
    · exact hhead (h ▸ hlower)

end Senders

/-- What the proxy reads of the sender: the key as it stands in the input, and the account. -/
def senderOf (X : TranslatorExternals) (bech32Hrp : String) (tx : BitcoinTx) :
    Except String (Bytes × String) :=
  (extractSenderFromInput X tx).map fun sender =>
    (sender.pubkey, sender.address X.toCrypto bech32Hrp)

/-- The account of a sender is one that its key can control exactly on the main network and, as
far as no two hashes coincide, for a compressed key. -/
theorem sender_controlled_iff {X : TranslatorExternals} (hC : StandardEncodings X.toCrypto)
    {tx : BitcoinTx} {hrp address : String} (hhrp : hrp ∈ ["bc", "tb", "bcrt"]) {pubkey : Bytes}
    (hsender : senderOf X hrp tx = .ok (pubkey, address)) {key : Secp256K1PublicKey}
    (hkey : Serialises key pubkey) :
    address ∈ deriveAllBitcoinAddresses X.toCrypto key ↔ hrp = "bc" ∧ (pubkey.length = 33 ∨
        ∃ sender, extractSenderFromInput X tx = .ok sender ∧
          HashedAlike X.toCrypto key sender) := by
  obtain ⟨sender, hextract, heq⟩ := map_eq_ok.mp hsender
  obtain ⟨rfl, rfl⟩ := heq
  have hother : (∃ s, extractSenderFromInput X tx = .ok s ∧ HashedAlike X.toCrypto key s) ↔
      HashedAlike X.toCrypto key sender := by
    rw [hextract]
    simp
  rw [hother]
  by_cases hmain : hrp = "bc"
  · subst hmain
    have hmem : sender.address X.toCrypto "bc" ∈ deriveAllBitcoinAddresses X.toCrypto key ↔
        HashedAlike X.toCrypto key sender := by
      cases sender with
      | p2pkh pubkey => exact p2pkh_mem_iff hC pubkey
      | p2wpkh pubkey => exact p2wpkh_mem_iff hC pubkey
    have hshort : sender.pubkey.length = 33 → HashedAlike X.toCrypto key sender := by
      intro hlength
      have hpubkey := hkey.eq_of_length hlength
      cases sender with
      | p2pkh pubkey => exact congrArg _ (congrArg _ (congrArg _ hpubkey))
      | p2wpkh pubkey => exact congrArg _ hpubkey
    rw [hmem]
    constructor
    · exact fun h => ⟨rfl, .inr h⟩
    · rintro ⟨-, h | h⟩
      · exact hshort h
      · exact h
  · have htest : hrp ∈ ["tb", "bcrt"] := by
      rcases List.mem_cons.mp hhrp with h | h
      · exact absurd h hmain
      · exact h
    constructor
    · exact fun h => absurd h (test_address_notMem hC htest sender)
    · exact fun h => absurd h.1 hmain

def generatorKey : Secp256K1PublicKey where
  bytes := [0x79, 0xbe, 0x66, 0x7e, 0xf9, 0xdc, 0xbb, 0xac, 0x55, 0xa0, 0x62, 0x95, 0xce, 0x87,
    0x0b, 0x07, 0x02, 0x9b, 0xfc, 0xdb, 0x2d, 0xce, 0x28, 0xd9, 0x59, 0xf2, 0x81, 0x5b, 0x16,
    0xf8, 0x17, 0x98, 0x48, 0x3a, 0xda, 0x77, 0x26, 0xa3, 0xc4, 0x65, 0x5d, 0xa4, 0xfb, 0xfc,
    0x0e, 0x11, 0x08, 0xa8, 0xfd, 0x17, 0xb4, 0x48, 0xa6, 0x85, 0x54, 0x19, 0x9c, 0x47, 0xd0,
    0x8f, 0xfb, 0x10, 0xd4, 0xb8]
  length_eq := rfl

def legacyTx (pubkey : Bytes) : BitcoinTx := ⟨2, 0, [⟨"", 0, pubkey, 0, []⟩], []⟩

/-- An input without signature script, and the key in the witness. -/
def witnessTx (pubkey : Bytes) : BitcoinTx := ⟨2, 0, [⟨"", 0, [], 0, [[], pubkey]⟩], []⟩

/-- The generator in its long form on the main network, and in its short form on a test
network. -/
theorem sender_not_controlled :
    (∃ address, senderOf .sample "bc" (legacyTx (uncompressedPublicKey generatorKey)) =
        .ok (uncompressedPublicKey generatorKey, address) ∧
      address ∉ deriveAllBitcoinAddresses TranslatorExternals.sample.toCrypto generatorKey) ∧
    (∃ address, senderOf .sample "tb" (witnessTx (compressPublicKey generatorKey)) =
        .ok (compressPublicKey generatorKey, address) ∧
      address ∉ deriveAllBitcoinAddresses TranslatorExternals.sample.toCrypto generatorKey) := by
  refine ⟨⟨_, rfl, ?_⟩, ⟨_, rfl, ?_⟩⟩
  · decide +kernel
  · decide +kernel

def TranslatorExternals.standard : TranslatorExternals :=
  { TranslatorExternals.sample with
    toProxyExternals := { ProxyExternals.sample with toCrypto := .standard } }

theorem sender_controlled_generator :
    (SenderKey.p2pkh (compressPublicKey generatorKey)).address .standard "bc" ∈
      deriveAllBitcoinAddresses .standard generatorKey := by
  have hiff := @sender_controlled_iff .standard standardEncodings_standard
    (legacyTx (compressPublicKey generatorKey)) "bc" _ (by simp) _ rfl _ .compressed
  exact hiff.mpr ⟨rfl, .inl rfl⟩

end BitInfinity.Proxy
