import BitInfinity.Proxy.KeySurvival
import BitInfinity.Proxy.SenderAccounts
import BitInfinity.Proxy.SpendableAddresses

/-!
# Exporting a key and importing it again

The text that the proxy returns for a secret key, and what an empty wallet holds after it has
imported that text.  A new key is stored under a base58 address of version zero on every network;
an imported key has the version of the network.
-/

namespace BitInfinity.Proxy

open BitInfinity Foundation

/-! ## The calls -/

def RpcState.isTestnet (s : RpcState) : Bool :=
  !RpcState.containsText s.chainId.toList "mainnet".toList

def wifVersion (testnet : Bool) : UInt8 := if testnet then 0xEF else 0x80

def privkeyHexToWif (C : Crypto) (hexKey : String) (testnet : Bool) : String :=
  match hexDecode hexKey with
  | none => hexKey
  | some keyBytes =>
    let payload := wifVersion testnet :: keyBytes ++ [0x01]
    C.bs58Encode (payload ++ (C.sha256 (C.sha256 payload)).take 4)

def dumpprivkey (X : ProxyExternals) (s : RpcState) (address : Option String) : Response :=
  match s.ensureWalletUsable with
  | .error e => .error e
  | .ok () =>
    match address with
    | none => errResponse (-32602) "Missing address parameter"
    | some address =>
      match s.keystore.get address with
      | some entry => .ok (.text (privkeyHexToWif X.toCrypto entry.privateKeyHex s.isTestnet))
      | none => errResponse (-4) ("Private key not available for " ++ address)

/-! ## The text of a secret key -/

/-- What is assumed of the key and base58 crates for the text of a secret key: secret keys have
32 bytes, and base58 is read back. -/
structure KeyEncodings (X : ProxyExternals) : Prop extends StandardEncodings X.toCrypto where
  secret_length : ∀ {secret : Bytes} {key : Secp256K1PublicKey},
    X.publicKeyOf secret = some key → secret.length = 32
  bs58Encode_wif : ∀ data : Bytes, data.length = 38 → Base58.leadingZeros data = 0 →
    X.bs58Encode data = String.ofList (Base58.encode data)
  bs58Decode_wif : ∀ data : Bytes, data.length = 38 → Base58.leadingZeros data = 0 →
    X.bs58Decode (X.bs58Encode data) = some data

section Wif

variable {X : ProxyExternals} (hX : KeyEncodings X) {secret : Bytes} (hsecret : secret.length = 32)
  (testnet : Bool)

def wifBytes (C : Crypto) (secret : Bytes) (testnet : Bool) : Bytes :=
  (wifVersion testnet :: secret ++ [0x01]) ++
    (C.sha256 (C.sha256 (wifVersion testnet :: secret ++ [0x01]))).take 4

theorem privkeyHexToWif_hexEncode (C : Crypto) (secret : Bytes) (testnet : Bool) :
    privkeyHexToWif C (String.ofList (hexEncode secret)) testnet =
      C.bs58Encode (wifBytes C secret testnet) := by
  rw [privkeyHexToWif, hexDecode_hexEncode]
  rfl

theorem leadingZeros_wifBytes (C : Crypto) (secret : Bytes) (testnet : Bool) :
    Base58.leadingZeros (wifBytes C secret testnet) = 0 := by
  cases testnet <;> rfl

include hX hsecret

theorem length_wifBytes : (wifBytes X.toCrypto secret testnet).length = 38 := by
  simp [wifBytes, hsecret, hX.sha256_length]

theorem wifToPrivkey_wifBytes :
    wifToPrivkey X.toCrypto (X.bs58Encode (wifBytes X.toCrypto secret testnet)) = .ok secret := by
  have hlength := length_wifBytes hX hsecret testnet
  have hpayload : (wifVersion testnet :: secret ++ [0x01]).length = 34 := by simp [hsecret]
  have htake : (wifBytes X.toCrypto secret testnet).take 34 =
      wifVersion testnet :: secret ++ [0x01] := by
    rw [wifBytes, List.take_left' hpayload]
  have hdrop : (wifBytes X.toCrypto secret testnet).drop 34 =
      (X.sha256 (X.sha256 (wifVersion testnet :: secret ++ [0x01]))).take 4 := by
    rw [wifBytes, List.drop_left' hpayload]
  have hversion : (wifVersion testnet == 0x80 || wifVersion testnet == 0xEF) = true := by
    cases testnet <;> rfl
  have hkey : (secret ++ [0x01]).length = 33 ∧ (secret ++ [0x01]).getLast? = some 0x01 := by
    simp [hsecret]
  rw [wifToPrivkey, hX.bs58Decode_wif _ hlength (leadingZeros_wifBytes _ _ _),
    bind_of_eq_ok (okOr_eq_ok.mpr rfl), hlength,
    bind_of_eq_ok ((ensure_eq_ok (u := ())).mpr (by decide))]
  simp only [Nat.reduceSub, htake, hdrop]
  rw [bind_of_eq_ok ((ensure_eq_ok (u := ())).mpr (beq_self_eq_true _)), List.cons_append,
    List.headD_cons, bind_of_eq_ok ((ensure_eq_ok (u := ())).mpr hversion), List.drop_one,
    List.tail_cons, if_pos hkey, List.take_left' hsecret]

theorem importedPrivkeyHex_wifBytes :
    importedPrivkeyHex X.toCrypto (X.bs58Encode (wifBytes X.toCrypto secret testnet)) =
      .ok (String.ofList (hexEncode secret)) := by
  have hlength := length_wifBytes hX hsecret testnet
  have hzeros := leadingZeros_wifBytes X.toCrypto secret testnet
  have hbounds := @Base58.length_encode_of_nonzero (wifBytes X.toCrypto secret testnet)
    (by omega) hzeros 50 52 (by rw [hlength]; decide) (by rw [hlength]; decide)
  have hsize : (X.bs58Encode (wifBytes X.toCrypto secret testnet)).utf8ByteSize ≠ 64 := by
    rw [hX.bs58Encode_wif _ hlength hzeros, utf8ByteSize_base58 fun c => Base58.mem_encode]
    omega
  rw [importedPrivkeyHex, if_neg fun h => hsize h.1, wifToPrivkey_wifBytes hX hsecret]

end Wif

/-! ## What the wallets hold -/

theorem get_insertKey (ks : Keystore) (p2pkh bech32 address : String) (entry : KeyEntry) :
    (ks.insertKey p2pkh bech32 entry).get address =
      if address ∈ [p2pkh, toLowercase p2pkh, bech32] then some entry else ks.get address := by
  have hinsert : ∀ (ks : Keystore) (key : String), (ks.insert key entry).get address =
      if address = key then some entry else ks.get address := by
    intro ks key
    unfold Keystore.insert Keystore.get
    by_cases h : address = key
    · rw [if_pos h, h, Finmap.lookup_insert]
    · rw [if_neg h, Finmap.lookup_insert_of_ne _ h]
  unfold Keystore.insertKey
  rw [hinsert]
  split
  · next h => simp [h]
  · rename_i hbech32
    split
    · rw [hinsert, hinsert]
      by_cases hlower : address = toLowercase p2pkh <;> by_cases hp2pkh : address = p2pkh <;>
        simp [hlower, hp2pkh, hbech32]
    · rename_i hsame
      rw [hinsert, not_not.mp hsame]
      simp [hbech32]

section Wallets

variable {X : ProxyExternals} {s fresh : RpcState}

theorem ensureWalletUsable_updateKeystore (change : Keystore → Keystore) :
    (s.updateKeystore change).ensureWalletUsable = s.ensureWalletUsable := by
  simp [RpcState.ensureWalletUsable, RpcState.ensureWalletLoaded, RpcState.ensureWalletUnlocked,
    RpcState.isWalletUnlocked, RpcState.updateKeystore]

theorem isTestnet_updateKeystore (change : Keystore → Keystore) :
    (s.updateKeystore change).isTestnet = s.isTestnet := by
  unfold RpcState.isTestnet RpcState.updateKeystore RpcState.saveKeystore
  split
  · split <;> rfl
  · rfl

theorem importedPair_hexEncode (pair : KeyPair X) :
    importedPair X (String.ofList (hexEncode pair.secret)) = .ok pair := by
  obtain ⟨secret, publicKey, hderived⟩ := pair
  unfold importedPair
  rw [hexDecode_hexEncode]
  dsimp only
  split
  · rename_i hnone
    rw [hderived] at hnone
    cases hnone
  · rename_i found hfound
    obtain rfl : publicKey = found := Option.some_inj.mp (hderived.symm.trans hfound)
    rfl

theorem parseImport_wifBytes (hX : KeyEncodings X) (pair : KeyPair X) (testnet : Bool) :
    parseImport X (some (X.bs58Encode (wifBytes X.toCrypto pair.secret testnet))) =
      .ok (pair, pair.entry) := by
  have hsecret : pair.secret.length = 32 := hX.secret_length pair.derived
  rw [parseImport, bind_of_eq_ok (okOr_eq_ok.mpr rfl),
    bind_of_eq_ok (importedPrivkeyHex_wifBytes hX hsecret testnet),
    bind_of_eq_ok (importedPair_hexEncode pair)]
  rfl

variable (husable : s.ensureWalletUsable = .ok ())
include husable

variable {input : Option String} {entry : KeyEntry}

theorem getnewaddress_state (addressType : Option String) (pair : KeyPair X) :
    (getnewaddress X s addressType pair).2 =
      s.updateKeystore (·.insertKey (p2pkhAddress X.toCrypto 0x00 pair.publicKey)
        (bech32Address X.toCrypto s.bech32Hrp pair.publicKey) pair.entry) := by
  rw [getnewaddress, husable]

theorem get_getnewaddress (addressType : Option String) (pair : KeyPair X) (address : String) :
    (getnewaddress X s addressType pair).2.keystore.get address =
      if address ∈ keyAddresses X.toCrypto 0x00 s.bech32Hrp pair.publicKey then some pair.entry
      else s.keystore.get address := by
  rw [getnewaddress_state husable, updateKeystore_keystore]
  exact get_insertKey _ _ _ _ _

theorem dumpprivkey_getnewaddress (addressType : Option String) (pair : KeyPair X)
    {address : String}
    (haddress : address ∈ keyAddresses X.toCrypto 0x00 s.bech32Hrp pair.publicKey) :
    dumpprivkey X (getnewaddress X s addressType pair).2 (some address) =
      .ok (.text (X.bs58Encode (wifBytes X.toCrypto pair.secret s.isTestnet))) := by
  have hget := get_getnewaddress husable addressType pair address
  rw [if_pos haddress] at hget
  have hstate := getnewaddress_state husable addressType pair
  unfold dumpprivkey
  rw [hstate] at hget ⊢
  rw [ensureWalletUsable_updateKeystore, husable, isTestnet_updateKeystore]
  dsimp only
  rw [hget]
  dsimp only
  rw [KeyPair.entry, privkeyHexToWif_hexEncode]

theorem importprivkey_state {pair : KeyPair X} (hparse : parseImport X input = .ok (pair, entry)) :
    (importprivkey X s input).2 =
      s.updateKeystore (·.insertKey (p2pkhAddress X.toCrypto (importVersion s) pair.publicKey)
        (bech32Address X.toCrypto s.bech32Hrp pair.publicKey) entry) := by
  rw [importprivkey, husable]
  rw [hparse]

theorem get_importprivkey {pair : KeyPair X}
    (hparse : parseImport X input = .ok (pair, entry)) (address : String) :
    (importprivkey X s input).2.keystore.get address =
      if address ∈ keyAddresses X.toCrypto (importVersion s) s.bech32Hrp pair.publicKey then
        some entry
      else s.keystore.get address := by
  rw [importprivkey_state husable hparse, updateKeystore_keystore]
  exact get_insertKey _ _ _ _ _

end Wallets

/-! ## Export and import -/

/-- The text that is exported for a new key, under any of its addresses, gives an empty wallet that
secret key under those addresses and no other. -/
def Restores (X : ProxyExternals) (s fresh : RpcState) (addressType : Option String)
    (pair : KeyPair X) : Prop :=
  ∀ address ∈ keyAddresses X.toCrypto 0x00 s.bech32Hrp pair.publicKey, ∃ wif,
    dumpprivkey X (getnewaddress X s addressType pair).2 (some address) = .ok (.text wif) ∧
      ∀ other, ((importprivkey X fresh (some wif)).2.keystore.get other).map (·.privateKeyHex) =
        if other ∈ keyAddresses X.toCrypto 0x00 s.bech32Hrp pair.publicKey then
          some (String.ofList (hexEncode pair.secret))
        else none

section Restoring

variable {X : ProxyExternals} {s fresh : RpcState}

theorem p2pkh_not_mem_keyAddresses (hX : StandardEncodings X.toCrypto) (key : Secp256K1PublicKey)
    (hmainnet : s.onMainnet = false) :
    p2pkhAddress X.toCrypto 0x00 key ∉
      keyAddresses X.toCrypto (importVersion s) s.bech32Hrp key := by
  have hhrp := bech32Hrp_of_not_onMainnet hmainnet
  have hlength := length_hash160 hX (compressPublicKey key)
  have hversion : importVersion s = 0x6f := by
    rw [importVersion, if_neg (by rcases hhrp with h | h <;> rw [h] <;> decide)]
  have hhead : (p2pkhAddress X.toCrypto 0x00 key).toList.head? = some '1' :=
    head_base58check_zero hX hlength
  have hlower : (toLowercase (p2pkhAddress X.toCrypto 0x00 key)).toList.head? = some '1' :=
    head_toLowercase_zero hX hlength
  have htest : (toLowercase (p2pkhAddress X.toCrypto 0x6f key)).toList.head? ≠ some '1' :=
    (toLowercase_nonzero hX (by decide) hlength).1
  rw [hversion, keyAddresses, List.mem_cons, List.mem_pair]
  rintro (h | h | h)
  · rw [h] at hlower
    exact htest hlower
  · rw [h] at hhead
    exact htest hhead
  · rw [h] at hhead
    refine head_ne_of_bech32 ?_ _ hhead
    rcases hhrp with h | h <;> rw [h] <;> decide

section SameChain

variable (hX : KeyEncodings X) (husable : s.ensureWalletUsable = .ok ())
  (hfresh : fresh.ensureWalletUsable = .ok ()) (hchain : fresh.chainId = s.chainId)
  (hempty : fresh.keystore.keys = ∅) {addressType : Option String} {pair : KeyPair X}
include hX husable hfresh hchain hempty

theorem restores_of_onMainnet (hmainnet : s.onMainnet = true) :
    Restores X s fresh addressType pair := by
  have hhrp : fresh.bech32Hrp = s.bech32Hrp := by rw [RpcState.bech32Hrp, hchain]; rfl
  have hversion : importVersion fresh = 0x00 := by
    rw [importVersion, hhrp, if_pos (bech32Hrp_of_onMainnet hmainnet)]
  intro address haddress
  refine ⟨_, dumpprivkey_getnewaddress husable addressType pair haddress, fun other => ?_⟩
  rw [get_importprivkey hfresh (parseImport_wifBytes hX pair _), hversion, hhrp, Keystore.get,
    hempty, Finmap.lookup_empty]
  split <;> rfl

theorem onMainnet_of_restores (h : Restores X s fresh addressType pair) : s.onMainnet = true := by
  by_contra hmainnet
  have hhrp : fresh.bech32Hrp = s.bech32Hrp := by rw [RpcState.bech32Hrp, hchain]; rfl
  have hversion : importVersion fresh = importVersion s := by rw [importVersion, hhrp]; rfl
  have haddress : p2pkhAddress X.toCrypto 0x00 pair.publicKey ∈
      keyAddresses X.toCrypto 0x00 s.bech32Hrp pair.publicKey := List.mem_cons_self
  obtain ⟨_, hdump, hstored⟩ := h _ haddress
  rw [dumpprivkey_getnewaddress husable addressType pair haddress] at hdump
  cases hdump
  have hget := hstored (p2pkhAddress X.toCrypto 0x00 pair.publicKey)
  rw [get_importprivkey hfresh (parseImport_wifBytes hX pair _), hversion, hhrp, if_pos haddress,
    if_neg (p2pkh_not_mem_keyAddresses hX.toStandardEncodings pair.publicKey
      (Bool.eq_false_iff.mpr hmainnet)), Keystore.get, hempty, Finmap.lookup_empty] at hget
  cases hget

end SameChain

/-- A new key is stored under its three addresses; exported and imported into an empty wallet of the
same chain it is stored under the same ones exactly when the chain is a main network. -/
theorem export_import_restores_iff (hX : KeyEncodings X) (husable : s.ensureWalletUsable = .ok ())
    (hfresh : fresh.ensureWalletUsable = .ok ()) (hchain : fresh.chainId = s.chainId)
    (hempty : fresh.keystore.keys = ∅) (addressType : Option String) (pair : KeyPair X) :
    (∀ address, (getnewaddress X s addressType pair).2.keystore.get address =
      if address ∈ keyAddresses X.toCrypto 0x00 s.bech32Hrp pair.publicKey then some pair.entry
      else s.keystore.get address) ∧
    (Restores X s fresh addressType pair ↔
      RpcState.containsText s.chainId.toList "mainnet".toList = true) :=
  ⟨get_getnewaddress husable addressType pair,
    onMainnet_of_restores hX husable hfresh hchain hempty,
    restores_of_onMainnet hX husable hfresh hchain hempty⟩

end Restoring

/-- The standard encodings, with base58 texts of secret keys read back as well. -/
def ProxyExternals.exporting : ProxyExternals :=
  { ProxyExternals.standard with
    bs58Decode := fun text =>
      some (Base58.decode (if text.toList.length ≤ 50 then 25 else 38) text.toList) }

theorem keyEncodings_exporting : KeyEncodings .exporting where
  sha256_length := standardEncodings_standard.sha256_length
  ripemd160_length := standardEncodings_standard.ripemd160_length
  zeros_checksum := standardEncodings_standard.zeros_checksum
  bs58Encode_eq _ _ := rfl
  bs58Decode_encode data hdata := by
    have hle := Base58.length_encode_le data
    change some (Base58.decode (if (String.ofList (Base58.encode data)).toList.length ≤ 50 then 25
      else 38) (String.ofList (Base58.encode data)).toList) = some data
    rw [String.toList_ofList, if_pos (by omega), ← hdata, Base58.decode_encode]
  secret_length {secret key} h := by
    change (if h : (secret ++ secret).length = 64 then _ else none) = some key at h
    split at h
    · rename_i hlength
      rw [List.length_append] at hlength
      omega
    · cases h
  bs58Encode_wif _ _ _ := rfl
  bs58Decode_wif data hdata hzeros := by
    have hbounds := @Base58.length_encode_of_nonzero data (by omega) hzeros 50 52
      (by rw [hdata]; decide) (by rw [hdata]; decide)
    change some (Base58.decode (if (String.ofList (Base58.encode data)).toList.length ≤ 50 then 25
      else 38) (String.ofList (Base58.encode data)).toList) = some data
    rw [String.toList_ofList, if_neg (by omega), ← hdata, Base58.decode_encode]

def sampleExported : KeyPair .exporting := .sample rfl

theorem export_import_restores_mainnet :
    Restores .exporting (freshWallet "bitinfinity-mainnet") (freshWallet "bitinfinity-mainnet") none
      sampleExported :=
  (export_import_restores_iff keyEncodings_exporting rfl rfl rfl rfl none sampleExported).2.mpr
    (by decide)

/-- On a test network the imported key is not found under the legacy address of the export. -/
theorem export_import_loses_address :
    ¬ Restores .exporting (freshWallet "bitinfinity-testnet") (freshWallet "bitinfinity-testnet")
      none sampleExported := by
  intro h
  have hmainnet := onMainnet_of_restores keyEncodings_exporting rfl rfl rfl rfl h
  revert hmainnet
  decide

end BitInfinity.Proxy
