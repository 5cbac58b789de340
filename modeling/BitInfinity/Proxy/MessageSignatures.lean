import BitInfinity.Proxy.KeyExport
import BitInfinity.Proxy.Psbt
import BitInfinity.Proxy.WalletSends

/-!
# Signed messages

A message signature carries no public key: the verifier recovers one from the signature and the
digest of the message, and compares its addresses with the given one.  A header byte says which
of four points to take and whether the key was in compressed form.
-/

namespace BitInfinity.Proxy.Message

open BitInfinity Foundation

/-- Base64 and the recoverable signatures of the secp256k1 crate. -/
structure MessageExternals extends ProxyExternals where
  base64Encode : Bytes → String
  base64Decode : String → Option Bytes
  /-- The recovery id and the 64 bytes of the signature of a digest. -/
  signEcdsaRecoverable : (digest secret : Bytes) → Fin 4 × Bytes
  recoverEcdsa : (digest : Bytes) → Fin 4 → (signature : Bytes) → Option Secp256K1PublicKey

/-! ## The digest -/

def messagePrefix : Bytes := 0x18 :: "Bitcoin Signed Message:\n".toUTF8.data.toList

def messageHash (C : Crypto) (message : String) : Bytes :=
  let bytes := message.toUTF8.data.toList
  C.sha256 (C.sha256 (messagePrefix ++ encodeBitcoinVarint bytes.length ++ bytes))

/-! ## Signing -/

def signedText (M : MessageExternals) (secret : Bytes) (message : String) : String :=
  let (recId, data) := M.signEcdsaRecoverable (messageHash M.toCrypto message) secret
  M.base64Encode (UInt8.ofNat (27 + recId.val + 4) :: data)

def keyError {α : Type} (x : Except String α) : Except RpcError α :=
  x.mapError fun e => ⟨-32000, "Key error: " ++ e⟩

theorem keyError_eq_ok {α : Type} {x : Except String α} {a : α} : keyError x = .ok a ↔ x = .ok a :=
  mapError_eq_ok

def signmessage (M : MessageExternals) (s : RpcState) (address message : Option String) :
    Except RpcError String := do
  s.ensureWalletUsable
  let address ← okOr address ⟨-32602, "Missing address parameter"⟩
  let message ← okOr message ⟨-32602, "Missing message parameter"⟩
  let entry ← okOr (s.keystore.get address) ⟨-3, "Address not found in wallet: " ++ address⟩
  let secretBytes ← keyError entry.privateKeyBytes
  let secret ← keyError (secretKeyFromSlice M.toProxyExternals secretBytes)
  .ok (signedText M secret message)

/-! ## Verifying -/

/-- The recovery id in the header byte, whichever form of the key it stands for. -/
def recoveryId (header : UInt8) : Option (Fin 4) :=
  let raw := if 31 ≤ header.toNat then some (header.toNat - 31)
    else if 27 ≤ header.toNat then some (header.toNat - 27)
    else none
  raw.bind fun raw => if h : raw < 4 then some ⟨raw, h⟩ else none

def isCompressed (header : UInt8) : Bool := 31 ≤ header.toNat

def hrps (address bech32Hrp : String) : List String :=
  if AccountId.startsWith address "bc1" then ["bc"]
  else if AccountId.startsWith address "tb1" then ["tb"]
  else if AccountId.startsWith address "bcrt1" then ["bcrt"]
  else [bech32Hrp, "bc", "tb"]

def versionBytes (address : String) : List UInt8 :=
  if AccountId.startsWith address "1" then [0x00]
  else if AccountId.startsWith address "m" || AccountId.startsWith address "n" then [0x6f]
  else [0x00, 0x6f]

def serialize (compressed : Bool) (key : Secp256K1PublicKey) : Bytes :=
  if compressed then compressPublicKey key else uncompressedPublicKey key

def matchesAddress (C : Crypto) (address bech32Hrp : String) (compressed : Bool)
    (key : Secp256K1PublicKey) : Bool :=
  let pubkeyHash := hash160 C (serialize compressed key)
  (versionBytes address).any (fun version =>
      base58checkEncode C version pubkeyHash == address ||
        toLowercase (base58checkEncode C version pubkeyHash) == address) ||
    compressed && (hrps address bech32Hrp).any fun hrp => Bech32.encode hrp 0 pubkeyHash == address

def verifyBitcoinMessageSignature (M : MessageExternals)
    (address signatureBase64 message bech32Hrp : String) : Bool :=
  match M.base64Decode signatureBase64 with
  | some (header :: signature) =>
    if signature.length ≠ 64 then false
    else
      match recoveryId header with
      | none => false
      | some recId =>
        match M.recoverEcdsa (messageHash M.toCrypto message) recId signature with
        | none => false
        | some key => matchesAddress M.toCrypto address bech32Hrp (isCompressed header) key
  | _ => false

/-! ## The addresses of a key -/

/-- What is assumed of the libraries: base64 is read back, and recovery inverts signing. -/
structure MessageLibrary (M : MessageExternals) : Prop where
  encodings : StandardEncodings M.toCrypto
  secret_length : ∀ {secret : Bytes} {key : Secp256K1PublicKey},
    M.publicKeyOf secret = some key → secret.length = 32
  base64_round_trip : ∀ bytes, M.base64Decode (M.base64Encode bytes) = some bytes
  signature_length : ∀ digest secret, (M.signEcdsaRecoverable digest secret).2.length = 64
  recover_sign : ∀ {secret : Bytes} {key : Secp256K1PublicKey} (digest : Bytes),
    M.publicKeyOf secret = some key → M.recoverEcdsa digest (M.signEcdsaRecoverable digest secret).1
        (M.signEcdsaRecoverable digest secret).2 = some key

section Addresses

variable {C : Crypto} {address : String}

variable {version : UInt8} {hrp : String}

theorem startsWith_one_iff :
    AccountId.startsWith address "1" = true ↔ address.toList.head? = some '1' :=
  AccountId.startsWith_singleton_iff

theorem zero_mem_versionBytes (h : address.toList.head? = some '1') :
    (0x00 : UInt8) ∈ versionBytes address := by
  rw [versionBytes, if_pos (startsWith_one_iff.mpr h)]
  exact List.mem_cons_self

theorem testnet_mem_versionBytes (h : address.toList.head? ≠ some '1') :
    (0x6f : UInt8) ∈ versionBytes address := by
  rw [versionBytes, if_neg fun hstart => h (startsWith_one_iff.mp hstart)]
  split <;> decide

theorem mem_versionBytes (hC : StandardEncodings C)
    (hversion : version = 0x00 ∨ version = 0x6f) {payload : Bytes} (hpayload : payload.length = 20)
    (haddress : address = base58checkEncode C version payload ∨
      address = toLowercase (base58checkEncode C version payload)) :
    version ∈ versionBytes address := by
  rcases hversion with rfl | rfl
  · refine zero_mem_versionBytes ?_
    rcases haddress with rfl | rfl
    · exact head_base58check_zero hC hpayload
    · exact head_toLowercase_zero hC hpayload
  · refine testnet_mem_versionBytes fun hhead => ?_
    have hlower : (toLowercase (base58checkEncode C 0x6f payload)).toList.head? ≠ some '1' :=
      (toLowercase_nonzero hC (by decide) hpayload).1
    rcases haddress with rfl | rfl
    · refine hlower ?_
      rw [toLowercase, String.toList_ofList, List.head?_map, hhead]
      rfl
    · exact hlower hhead

theorem hrps_eq (hhrp : hrp ∈ ["bc", "tb", "bcrt"]) (program : Bytes)
    (bech32Hrp : String) : hrps (Bech32.encode hrp 0 program) bech32Hrp = [hrp] := by
  obtain ⟨_, hrest⟩ := Bech32.toList_encode hrp 0 program
  unfold hrps AccountId.startsWith
  rw [hrest]
  simp only [List.mem_cons, List.not_mem_nil, or_false] at hhrp
  rcases hhrp with rfl | rfl | rfl
  · simp
  · simp
  · simp

theorem matchesAddress_of_mem (hC : StandardEncodings C)
    (hversion : version = 0x00 ∨ version = 0x6f) (hhrp : hrp ∈ ["bc", "tb", "bcrt"])
    {key : Secp256K1PublicKey} (haddress : address ∈ keyAddresses C version hrp key)
    (bech32Hrp : String) : matchesAddress C address bech32Hrp true key = true := by
  have hlength := length_hash160 hC (compressPublicKey key)
  rw [keyAddresses, List.mem_cons, List.mem_pair, ← or_assoc] at haddress
  rw [matchesAddress, Bool.or_eq_true]
  rcases haddress with haddress | haddress
  · refine .inl (List.any_eq_true.mpr ⟨version, mem_versionBytes hC hversion hlength haddress, ?_⟩)
    rw [Bool.or_eq_true, beq_iff_eq, beq_iff_eq]
    exact haddress.imp Eq.symm Eq.symm
  · refine .inr ?_
    rw [haddress, bech32Address, hrps_eq hhrp]
    simp [serialize]

theorem versionBytes_subset (h : version ∈ versionBytes address) :
    version ∈ ([0x00, 0x6f] : List UInt8) := by
  unfold versionBytes at h
  split at h
  · rw [List.mem_singleton.mp h]
    decide
  · split at h
    · rw [List.mem_singleton.mp h]
      decide
    · exact h

theorem encodes_of_matchesAddress {bech32Hrp : String} {compressed : Bool}
    {key : Secp256K1PublicKey} (h : matchesAddress C address bech32Hrp compressed key = true) :
    (∃ version ∈ ([0x00, 0x6f] : List UInt8),
      address = base58checkEncode C version (hash160 C (serialize compressed key)) ∨
        address = toLowercase
          (base58checkEncode C version (hash160 C (serialize compressed key)))) ∨
      ∃ hrp, address = Bech32.encode hrp 0 (hash160 C (serialize compressed key)) := by
  rw [matchesAddress, Bool.or_eq_true] at h
  rcases h with h | h
  · obtain ⟨version, hversion, haddress⟩ := List.any_eq_true.mp h
    rw [Bool.or_eq_true, beq_iff_eq, beq_iff_eq] at haddress
    exact .inl ⟨version, versionBytes_subset hversion, haddress.imp Eq.symm Eq.symm⟩
  · obtain ⟨-, hany⟩ := (Bool.and_eq_true _ _).mp h
    obtain ⟨hrp, -, haddress⟩ := List.any_eq_true.mp hany
    exact .inr ⟨hrp, (beq_iff_eq.mp haddress).symm⟩

end Addresses

/-! ## Signatures -/

section Signatures

variable {M : MessageExternals} (hM : MessageLibrary M)

theorem recoveryId_signed : ∀ recId : Fin 4,
    recoveryId (UInt8.ofNat (27 + recId.val + 4)) = some recId ∧
      isCompressed (UInt8.ofNat (27 + recId.val + 4)) = true := by
  decide

include hM

variable {secret : Bytes} {key : Secp256K1PublicKey}

variable {s : RpcState} {entry : KeyEntry}

theorem verify_signedText
    (hkey : M.publicKeyOf secret = some key) (message : String) {address bech32Hrp : String}
    (haddress : matchesAddress M.toCrypto address bech32Hrp true key = true) :
    verifyBitcoinMessageSignature M address (signedText M secret message) message bech32Hrp =
      true := by
  have hlength := hM.signature_length (messageHash M.toCrypto message) secret
  have hrecover := hM.recover_sign (messageHash M.toCrypto message) hkey
  obtain ⟨hid, hcompressed⟩ := recoveryId_signed
    (M.signEcdsaRecoverable (messageHash M.toCrypto message) secret).1
  unfold verifyBitcoinMessageSignature signedText
  rw [hM.base64_round_trip]
  dsimp only
  rw [if_neg (not_not.mpr hlength), hid]
  dsimp only
  rw [hrecover, hcompressed]
  exact haddress

theorem signmessage_eq (husable : s.ensureWalletUsable = .ok ()) {address : String}
    (hentry : s.keystore.get address = some entry)
    (hsecret : hexDecode entry.privateKeyHex = some secret)
    (hkey : M.publicKeyOf secret = some key) (message : String) :
    signmessage M s (some address) (some message) = .ok (signedText M secret message) := by
  have hbytes : entry.privateKeyBytes = .ok secret := by
    rw [KeyEntry.privateKeyBytes, hexBytes, hsecret]
    exact if_pos (hM.secret_length hkey)
  have hvalid : secretKeyFromSlice M.toProxyExternals secret = .ok secret := by
    rw [secretKeyFromSlice, hkey]
    rfl
  rw [signmessage, bind_of_eq_ok husable, bind_of_eq_ok (okOr_eq_ok.mpr rfl),
    bind_of_eq_ok (okOr_eq_ok.mpr rfl), bind_of_eq_ok (okOr_eq_ok.mpr hentry),
    bind_of_eq_ok (keyError_eq_ok.mpr hbytes), bind_of_eq_ok (keyError_eq_ok.mpr hvalid)]

theorem signs_and_verifies (husable : s.ensureWalletUsable = .ok ()) {version : UInt8}
    (hversion : version = 0x00 ∨ version = 0x6f) {hrp address : String}
    (hhrp : hrp ∈ ["bc", "tb", "bcrt"]) (hentry : s.keystore.get address = some entry)
    (hsecret : hexDecode entry.privateKeyHex = some secret) (hkey : M.publicKeyOf secret = some key)
    (haddress : address ∈ keyAddresses M.toCrypto version hrp key) (message : String) :
    ∃ signature, signmessage M s (some address) (some message) = .ok signature ∧
      ∀ bech32Hrp, verifyBitcoinMessageSignature M address signature message bech32Hrp = true :=
  ⟨_, signmessage_eq hM husable hentry hsecret hkey message, fun bech32Hrp =>
    verify_signedText hM hkey message
      (matchesAddress_of_mem hM.encodings hversion hhrp haddress bech32Hrp)⟩

omit hM in
theorem exists_key_of_verify {address signature message bech32Hrp : String}
    (h : verifyBitcoinMessageSignature M address signature message bech32Hrp = true) :
    ∃ header data recId key, M.base64Decode signature = some (header :: data) ∧
      data.length = 64 ∧ recoveryId header = some recId ∧
      M.recoverEcdsa (messageHash M.toCrypto message) recId data = some key ∧
      matchesAddress M.toCrypto address bech32Hrp (isCompressed header) key = true := by
  unfold verifyBitcoinMessageSignature at h
  split at h
  · rename_i header data hdecode
    split at h
    · cases h
    · rename_i hlength
      cases hid : recoveryId header with
      | none =>
        rw [hid] at h
        cases h
      | some recId =>
        rw [hid] at h
        dsimp only at h
        cases hkey : M.recoverEcdsa (messageHash M.toCrypto message) recId data with
        | none =>
          rw [hkey] at h
          cases h
        | some key =>
          rw [hkey] at h
          exact ⟨header, data, recId, key, hdecode, not_not.mp hlength, hid, hkey, h⟩
  · cases h

theorem getnewaddress_signs {s : RpcState} (husable : s.ensureWalletUsable = .ok ())
    (addressType : Option String) (pair : KeyPair M.toProxyExternals) {address : String}
    (haddress : address ∈ keyAddresses M.toCrypto 0x00 s.bech32Hrp pair.publicKey)
    (message : String) :
    ∃ signature, signmessage M (getnewaddress M.toProxyExternals s addressType pair).2
        (some address) (some message) = .ok signature ∧
      ∀ bech32Hrp, verifyBitcoinMessageSignature M address signature message bech32Hrp = true := by
  have hget := get_getnewaddress husable addressType pair address
  rw [if_pos haddress] at hget
  refine signs_and_verifies hM ?_ (.inl rfl) (s.bech32Hrp_mem) hget
    (hexDecode_hexEncode pair.secret) pair.derived haddress message
  rw [getnewaddress_state husable, ensureWalletUsable_updateKeystore, husable]

theorem importprivkey_signs {s : RpcState} (husable : s.ensureWalletUsable = .ok ())
    {input : Option String} {pair : KeyPair M.toProxyExternals} {entry : KeyEntry}
    (hparse : parseImport M.toProxyExternals input = .ok (pair, entry)) {address : String}
    (haddress : address ∈ keyAddresses M.toCrypto (importVersion s) s.bech32Hrp pair.publicKey)
    (message : String) :
    ∃ signature, signmessage M (importprivkey M.toProxyExternals s input).2
        (some address) (some message) = .ok signature ∧
      ∀ bech32Hrp, verifyBitcoinMessageSignature M address signature message bech32Hrp = true := by
  have hget := get_importprivkey husable hparse address
  rw [if_pos haddress] at hget
  have hversion : importVersion s = 0x00 ∨ importVersion s = 0x6f := by
    unfold importVersion
    split
    · exact .inl rfl
    · exact .inr rfl
  refine signs_and_verifies hM ?_ hversion (s.bech32Hrp_mem) hget (parseImport_secret hparse)
    pair.derived haddress message
  rw [importprivkey_state husable hparse, ensureWalletUsable_updateKeystore, husable]

/-- The signature of a message is accepted for every address under which a new or an imported key
is stored; and what is accepted recovers to a key whose hash, in the compressed or the uncompressed
form, is encoded by the address, which may be in lower case. -/
theorem message_signatures_verify_and_bind :
    (∀ (s : RpcState) (addressType : Option String) (pair : KeyPair M.toProxyExternals)
        (address message : String),
      s.ensureWalletUsable = .ok () →
      address ∈ keyAddresses M.toCrypto 0x00 s.bech32Hrp pair.publicKey →
      ∃ signature, signmessage M (getnewaddress M.toProxyExternals s addressType pair).2
          (some address) (some message) = .ok signature ∧
        ∀ bech32Hrp, verifyBitcoinMessageSignature M address signature message bech32Hrp = true) ∧
    (∀ (s : RpcState) (input : Option String) (pair : KeyPair M.toProxyExternals)
        (entry : KeyEntry) (address message : String),
      s.ensureWalletUsable = .ok () →
      parseImport M.toProxyExternals input = .ok (pair, entry) →
      address ∈ keyAddresses M.toCrypto (importVersion s) s.bech32Hrp pair.publicKey →
      ∃ signature, signmessage M (importprivkey M.toProxyExternals s input).2
          (some address) (some message) = .ok signature ∧
        ∀ bech32Hrp, verifyBitcoinMessageSignature M address signature message bech32Hrp = true) ∧
    ∀ address signature message bech32Hrp : String,
      verifyBitcoinMessageSignature M address signature message bech32Hrp = true →
      ∃ header data recId key pubkey, M.base64Decode signature = some (header :: data) ∧
        recoveryId header = some recId ∧
        M.recoverEcdsa (messageHash M.toCrypto message) recId data = some key ∧
        (pubkey = compressPublicKey key ∨ pubkey = uncompressedPublicKey key) ∧
        ((∃ version ∈ ([0x00, 0x6f] : List UInt8),
            address = base58checkEncode M.toCrypto version (hash160 M.toCrypto pubkey) ∨ address =
                toLowercase (base58checkEncode M.toCrypto version (hash160 M.toCrypto pubkey))) ∨
          ∃ hrp, address = Bech32.encode hrp 0 (hash160 M.toCrypto pubkey)) := by
  refine ⟨?_, ?_, ?_⟩
  · intro s addressType pair address message husable haddress
    exact getnewaddress_signs hM husable addressType pair haddress message
  · intro s input pair entry address message husable hparse haddress
    exact importprivkey_signs hM husable hparse haddress message
  · intro address signature message bech32Hrp h
    obtain ⟨header, data, recId, key, hdecode, -, hid, hkey, hmatches⟩ := exists_key_of_verify h
    refine ⟨header, data, recId, key, serialize (isCompressed header) key, hdecode, hid, hkey, ?_,
      encodes_of_matchesAddress hmatches⟩
    unfold serialize
    split
    · exact .inl rfl
    · exact .inr rfl

end Signatures

/-- A signature that contains the secret, and hexadecimal digits in place of base64. -/
def MessageExternals.sample : MessageExternals :=
  { ProxyExternals.standard with
    base64Encode := fun bytes => String.ofList (hexEncode bytes)
    base64Decode := hexDecode
    signEcdsaRecoverable := fun _ secret => (1, (secret ++ List.replicate 64 0).take 64)
    recoverEcdsa := fun _ _ signature => ProxyExternals.standard.publicKeyOf (signature.take 32) }

theorem messageLibrary_sample : MessageLibrary .sample where
  encodings := standardEncodings_standard
  secret_length h := keyEncodings_exporting.secret_length h
  base64_round_trip := hexDecode_hexEncode
  signature_length _ secret := by
    simp [MessageExternals.sample]
  recover_sign {secret key} _ h := by
    have hlength : secret.length = 32 := keyEncodings_exporting.secret_length h
    change ProxyExternals.standard.publicKeyOf
      (((secret ++ List.replicate 64 0).take 64).take 32) = some key
    rw [List.take_take, List.take_left' (by simpa using hlength)]
    exact h

def sampleMessageKey : KeyPair MessageExternals.sample.toProxyExternals := .sample rfl

theorem message_signature_of_new_address : ∃ signature, signmessage .sample
        (getnewaddress MessageExternals.sample.toProxyExternals (freshWallet "bitinfinity-testnet")
          none sampleMessageKey).2
        (some (bech32Address .standard "tb" sampleMessageKey.publicKey)) (some "hello") =
          .ok signature ∧
      verifyBitcoinMessageSignature .sample
        (bech32Address .standard "tb" sampleMessageKey.publicKey) signature "hello" "tb" =
          true := by
  have haddress : bech32Address .standard "tb" sampleMessageKey.publicKey ∈
      keyAddresses MessageExternals.sample.toCrypto 0x00
        (freshWallet "bitinfinity-testnet").bech32Hrp sampleMessageKey.publicKey := by
    have hhrp : (freshWallet "bitinfinity-testnet").bech32Hrp = "tb" := by decide
    rw [hhrp, keyAddresses]
    simp [MessageExternals.sample, ProxyExternals.standard]
  obtain ⟨signature, hsign, hverify⟩ := (message_signatures_verify_and_bind
    messageLibrary_sample).1 _ none sampleMessageKey _ "hello" rfl haddress
  exact ⟨signature, hsign, hverify "tb"⟩

end BitInfinity.Proxy.Message
