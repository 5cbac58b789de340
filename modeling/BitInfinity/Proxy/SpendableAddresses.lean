import BitInfinity.Bitcoin.DerivedAddresses
import BitInfinity.Proxy.Wallet

/-!
# Which wallet addresses can spend

The wallet picks the human readable part and the version byte of its addresses from the chain
id.  The runtime derives the addresses of a key with the parameters of the Bitcoin main network
on every chain, and registers a key only for an address that it derives.
-/

namespace BitInfinity.Proxy

open Foundation

/-- The runtime registers the key for a transaction that is signed under the address. -/
structure Spendable (C : Crypto) (key : Secp256K1PublicKey) (address : String) : Prop where
  accountType_eq : AccountId.getAccountType C address = .btcImplicitAccount
  derived : address ∈ deriveAllBitcoinAddresses C key

inductive AddressCall (X : ProxyExternals)
  | getnewaddress (addressType : Option String) (pair : KeyPair X)
  | importprivkey (input : Option String)

section Calls

variable {X : ProxyExternals} {s : RpcState}

variable {address : String}

/-- The address that is returned, and the addresses that are stored whatever the keystore held
before. -/
def AddressCall.Produces (X : ProxyExternals) (s : RpcState) :
    AddressCall X → Secp256K1PublicKey → String → Prop
  | .getnewaddress addressType pair, key, address =>
    key = pair.publicKey ∧ (Proxy.getnewaddress X s addressType pair).1 = .ok (.text address)
  | .importprivkey input, key, address =>
    ∃ pair entry, parseImport X input = .ok (pair, entry) ∧ key = pair.publicKey ∧
      ∀ ks, address ∈ (Proxy.importprivkey X { s with keystore := ks } input).2.keystore.keys

def RpcState.onMainnet (s : RpcState) : Bool :=
  RpcState.containsText s.chainId.toList "mainnet".toList

def AddressCall.isLegacy : AddressCall X → Bool
  | .getnewaddress (some addressType) _ => addressType == "legacy"
  | _ => false

theorem mem_insertKey {ks : Keystore} {p2pkh bech32 : String} {entry : KeyEntry} :
    address ∈ (ks.insertKey p2pkh bech32 entry).keys ↔
      address = bech32 ∨ address = toLowercase p2pkh ∨ address = p2pkh ∨ address ∈ ks.keys := by
  unfold Keystore.insertKey
  split
  · simp [Keystore.insert, Finmap.mem_insert]
  · rename_i h
    rw [not_not] at h
    simp only [Keystore.insert, Finmap.mem_insert, h]
    tauto

theorem updateKeystore_keystore (change : Keystore → Keystore) :
    (s.updateKeystore change).keystore = change s.keystore := by
  simp [RpcState.updateKeystore]

theorem produces_getnewaddress {addressType : Option String} {pair : KeyPair X}
    {key : Secp256K1PublicKey}
    (h : (AddressCall.getnewaddress addressType pair).Produces X s key address) :
    key = pair.publicKey ∧
      address = if addressType.getD "bech32" = "legacy" then p2pkhAddress X.toCrypto 0 key
        else bech32Address X.toCrypto s.bech32Hrp key := by
  obtain ⟨rfl, h⟩ := h
  refine ⟨rfl, ?_⟩
  unfold getnewaddress at h
  cases husable : s.ensureWalletUsable with
  | error e => simp [husable] at h
  | ok u =>
    simp only [husable, Except.ok.injEq, RpcResult.text.injEq] at h
    exact h.symm

theorem produces_importprivkey {input : Option String} {key : Secp256K1PublicKey} :
    (AddressCall.importprivkey input).Produces X s key address ↔ s.ensureWalletUsable = .ok () ∧
        ∃ pair entry, parseImport X input = .ok (pair, entry) ∧ key = pair.publicKey ∧
          (address = bech32Address X.toCrypto s.bech32Hrp key ∨
            address = toLowercase (p2pkhAddress X.toCrypto (importVersion s) key) ∨
            address = p2pkhAddress X.toCrypto (importVersion s) key) := by
  have hkeys : ∀ {pair entry} ks, s.ensureWalletUsable = .ok () →
      parseImport X input = .ok (pair, entry) →
      (importprivkey X { s with keystore := ks } input).2.keystore =
        ks.insertKey (p2pkhAddress X.toCrypto (importVersion s) pair.publicKey)
          (bech32Address X.toCrypto s.bech32Hrp pair.publicKey) entry := by
    intro pair entry ks husable hparse
    have husable' : RpcState.ensureWalletUsable { s with keystore := ks } = .ok () := husable
    simp only [importprivkey, husable', hparse, updateKeystore_keystore]
    rfl
  constructor
  · rintro ⟨pair, entry, hparse, rfl, hstored⟩
    have husable : s.ensureWalletUsable = .ok () := by
      cases h : s.ensureWalletUsable with
      | ok u => rfl
      | error e =>
        have h' : RpcState.ensureWalletUsable { s with keystore := ⟨∅, [], false⟩ } = .error e := h
        have hempty := hstored ⟨∅, [], false⟩
        simp only [importprivkey, h'] at hempty
        exact absurd hempty Finmap.notMem_empty
    have hempty := hstored ⟨∅, [], false⟩
    rw [hkeys _ husable hparse, mem_insertKey] at hempty
    refine ⟨husable, pair, entry, hparse, rfl, ?_⟩
    rcases hempty with h | h | h | h
    · exact .inl h
    · exact .inr (.inl h)
    · exact .inr (.inr h)
    · exact absurd h Finmap.notMem_empty
  · rintro ⟨husable, pair, entry, hparse, rfl, haddress⟩
    refine ⟨pair, entry, hparse, rfl, fun ks => ?_⟩
    rw [hkeys ks husable hparse, mem_insertKey]
    rcases haddress with h | h | h
    · exact .inl h
    · exact .inr (.inl h)
    · exact .inr (.inr (.inl h))

/-! ## Addresses of another network -/

theorem bech32Hrp_of_onMainnet (h : s.onMainnet = true) : s.bech32Hrp = "bc" := by
  have h' : RpcState.containsText s.chainId.toList "mainnet".toList = true := h
  rw [RpcState.bech32Hrp, if_pos h']

theorem bech32Hrp_of_not_onMainnet (h : s.onMainnet = false) :
    s.bech32Hrp = "bcrt" ∨ s.bech32Hrp = "tb" := by
  have h' : RpcState.containsText s.chainId.toList "mainnet".toList = false := h
  rw [RpcState.bech32Hrp, h']
  simp only [Bool.false_eq_true, if_false]
  split
  · exact .inl rfl
  · exact .inr rfl

variable {C : Crypto} {key : Secp256K1PublicKey}

theorem p2pkh_head (hC : StandardEncodings C) (key : Secp256K1PublicKey) :
    (deriveBitcoinAddressFromPubkey C key).toList.head? = some '1' ∧
      (toLowercase (deriveBitcoinAddressFromPubkey C key)).toList.head? = some '1' := by
  have hpayload := length_hash160 hC (compressPublicKey key)
  have htext : (deriveBitcoinAddressFromPubkey C key).toList =
      Base58.encode (checkedPayload C 0 (hash160 C (compressPublicKey key))) := by
    rw [deriveBitcoinAddressFromPubkey, base58checkEncode_eq hC 0 hpayload, String.toList_ofList]
  obtain ⟨rest, hrest⟩ : ∃ rest, (deriveBitcoinAddressFromPubkey C key).toList = '1' :: rest := by
    obtain ⟨k, hk⟩ := Nat.exists_eq_succ_of_ne_zero
      (Nat.ne_of_gt (leadingZeros_checkedPayload hC hpayload).1)
    rw [htext, Base58.encode, hk, List.replicate_succ, List.cons_append]
    exact ⟨_, rfl⟩
  rw [toLowercase, String.toList_ofList, hrest]
  exact ⟨rfl, rfl⟩

theorem not_spendable_of_testnet (hC : StandardEncodings C) {hrp : String}
    (hhrp : hrp = "bcrt" ∨ hrp = "tb") : ¬ Spendable C key (bech32Address C hrp key) := by
  intro hspend
  obtain ⟨_, htext⟩ := Bech32.toList_encode hrp 0 (hash160 C (compressPublicKey key))
  obtain ⟨_, hsegwit⟩ := Bech32.toList_encode "bc" 0 (hash160 C (compressPublicKey key))
  have hderived := (mem_deriveAllBitcoinAddresses C key).mp hspend.derived
  rw [← String.toList_inj, ← String.toList_inj, ← String.toList_inj] at hderived
  have hfirst : ∀ text : String, text.toList.head? = some '1' →
      (bech32Address C hrp key).toList ≠ text.toList := by
    intro text hhead heq
    rw [← heq, bech32Address, htext] at hhead
    rcases hhrp with rfl | rfl <;> simp at hhead
  rcases hderived with h | h | h
  · exact hfirst _ (p2pkh_head hC key).1 h
  · rw [bech32Address, htext, deriveBitcoinP2wpkhFromPubkey, hsegwit] at h
    have hthird := congrArg (fun l => l.take 3) h
    rcases hhrp with rfl | rfl <;> simp at hthird
  · exact hfirst _ (p2pkh_head hC key).2 h

/-! ## Addresses of the main network -/

theorem spendable_p2pkh (hC : StandardEncodings C) (key : Secp256K1PublicKey) :
    Spendable C key (p2pkhAddress C 0 key) where
  accountType_eq := (derivedBase58_valid hC key).2
  derived := (mem_deriveAllBitcoinAddresses C key).mpr (.inl rfl)

theorem spendable_legacy (hC : StandardEncodings C) (key : Secp256K1PublicKey) :
    Spendable C key (toLowercase (p2pkhAddress C 0 key)) where
  accountType_eq := (derivedLegacy_valid hC key).2
  derived := (mem_deriveAllBitcoinAddresses C key).mpr (.inr (.inr rfl))

theorem spendable_bech32 (hC : StandardEncodings C) (key : Secp256K1PublicKey) :
    Spendable C key (bech32Address C "bc" key) where
  accountType_eq := (derivedSegwit_valid hC key).2
  derived := (mem_deriveAllBitcoinAddresses C key).mpr (.inr (.inl rfl))

/-- The addresses of a successful call can spend exactly on the main network, or when the
legacy form was asked for. -/
theorem wallet_addresses_spendable_iff (hC : StandardEncodings X.toCrypto)
    {call : AddressCall X} (hproduces : ∃ key address, call.Produces X s key address) :
    (∀ key address, call.Produces X s key address → Spendable X.toCrypto key address) ↔
      s.onMainnet = true ∨ call.isLegacy = true := by
  cases hmain : s.onMainnet with
  | true =>
    refine iff_of_true (fun key address h => ?_) (.inl rfl)
    have hhrp := bech32Hrp_of_onMainnet hmain
    cases call with
    | getnewaddress =>
      obtain ⟨-, rfl⟩ := produces_getnewaddress h
      rw [hhrp]
      split
      · exact spendable_p2pkh hC key
      · exact spendable_bech32 hC key
    | importprivkey input =>
      obtain ⟨-, pair, entry, -, -, haddress⟩ := produces_importprivkey.mp h
      have hversion : importVersion s = 0 := by rw [importVersion, if_pos hhrp]
      rw [hversion, hhrp] at haddress
      rcases haddress with rfl | rfl | rfl
      · exact spendable_bech32 hC key
      · exact spendable_legacy hC key
      · exact spendable_p2pkh hC key
  | false =>
    have hhrp := bech32Hrp_of_not_onMainnet hmain
    obtain ⟨key, address, hcall⟩ := hproduces
    cases call with
    | getnewaddress addressType pair =>
      constructor
      · intro hall
        obtain ⟨-, haddress⟩ := produces_getnewaddress hcall
        have hspend := hall key address hcall
        rw [haddress] at hspend
        split at hspend
        · rename_i hlegacy
          cases addressType with
          | none => simp at hlegacy
          | some addressType => simpa [AddressCall.isLegacy] using hlegacy
        · exact absurd hspend (not_spendable_of_testnet hC hhrp)
      · intro hlegacy key' address' hcall'
        obtain ⟨-, rfl⟩ := produces_getnewaddress hcall'
        cases addressType with
        | none => simp [AddressCall.isLegacy] at hlegacy
        | some addressType =>
          have heq : addressType = "legacy" := by
            simpa [AddressCall.isLegacy] using hlegacy
          rw [heq]
          exact spendable_p2pkh hC key'
    | importprivkey input =>
      refine iff_of_false (fun hall => ?_) (by simp [AddressCall.isLegacy])
      obtain ⟨husable, pair, entry, hparse, rfl, -⟩ := produces_importprivkey.mp hcall
      have hbech32 : (AddressCall.importprivkey input).Produces X s pair.publicKey
          (bech32Address X.toCrypto s.bech32Hrp pair.publicKey) :=
        produces_importprivkey.mpr ⟨husable, pair, entry, hparse, rfl, .inl rfl⟩
      exact not_spendable_of_testnet hC hhrp (hall _ _ hbech32)

end Calls

def ProxyExternals.standard : ProxyExternals :=
  { Crypto.standard with publicKeyOf := ProxyExternals.sample.publicKeyOf }

def sampleSpender : KeyPair .standard := .sample rfl

def freshWallet (chainId : String) : RpcState := .new chainId .absent (fun _ => none) 0

theorem mainnet_address_spendable : Spendable .standard sampleSpender.publicKey
      (bech32Address .standard "bc" sampleSpender.publicKey) := by
  have hproduces : (AddressCall.getnewaddress none sampleSpender).Produces .standard
      (freshWallet "bitinfinity-mainnet") sampleSpender.publicKey
      (bech32Address .standard "bc" sampleSpender.publicKey) := ⟨rfl, rfl⟩
  exact (wallet_addresses_spendable_iff standardEncodings_standard ⟨_, _, hproduces⟩).mpr
    (.inl (by decide)) _ _ hproduces

/-- On a test network the default address of a new key is none that the runtime derives. -/
theorem testnet_address_not_spendable :
    ∃ address, (getnewaddress .standard (freshWallet "bitinfinity-testnet") none
        sampleSpender).1 = .ok (.text address) ∧
      ¬ Spendable .standard sampleSpender.publicKey address :=
  ⟨_, rfl, not_spendable_of_testnet standardEncodings_standard (by decide)⟩

end BitInfinity.Proxy
