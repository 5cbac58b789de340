import BitInfinity.Proxy.AcknowledgedAddresses
import BitInfinity.Proxy.Encryption

/-!
# Keys under concurrent calls

The keys whose addresses were returned stay in the wallet file when the calls that reopen,
lock or re-encrypt the wallet run alone.  Calls that store keys may overlap with one another
and with `encryptwallet`.
-/

namespace BitInfinity.Proxy

open BitInfinity Foundation

/-! ## Keys in a keystore -/

def keyAddresses (C : Crypto) (version : UInt8) (hrp : String) (publicKey : Secp256K1PublicKey) :
    List String :=
  [p2pkhAddress C version publicKey, toLowercase (p2pkhAddress C version publicKey),
    bech32Address C hrp publicKey]

/-- The private key of the entry is one for the address. -/
def KeyFor (X : ProxyExternals) (entry : KeyEntry) (address : String) : Prop :=
  ∃ secret publicKey version hrp, hexDecode entry.privateKeyHex = some secret ∧
    X.publicKeyOf secret = some publicKey ∧
    address ∈ keyAddresses X.toCrypto version hrp publicKey

def Keystore.HoldsKey (X : ProxyExternals) (ks : Keystore) (address : String) : Prop :=
  ∃ entry, ks.get address = some entry ∧ KeyFor X entry address

variable {X : ProxyExternals} {ks : Keystore} {address address' : String} {entry : KeyEntry}

theorem Keystore.HoldsKey.insert (h : ks.HoldsKey X address) (hentry : KeyFor X entry address') :
    (ks.insert address' entry).HoldsKey X address := by
  obtain ⟨stored, hget, hkey⟩ := h
  by_cases haddress : address = address'
  · subst haddress
    exact ⟨entry, Finmap.lookup_insert _, hentry⟩
  · exact ⟨stored, (Finmap.lookup_insert_of_ne _ haddress).trans hget, hkey⟩

theorem Keystore.holdsKey_insert (hentry : KeyFor X entry address) :
    (ks.insert address entry).HoldsKey X address :=
  ⟨entry, Finmap.lookup_insert _, hentry⟩

section InsertKey

variable {version : UInt8} {hrp : String} {publicKey : Secp256K1PublicKey} {secret : Bytes}

variable {p2pkh bech32 : String}

theorem keyFor_of_secret (hsecret : hexDecode entry.privateKeyHex = some secret)
    (hpublic : X.publicKeyOf secret = some publicKey)
    (haddress : address ∈ keyAddresses X.toCrypto version hrp publicKey) : KeyFor X entry address :=
  ⟨secret, publicKey, version, hrp, hsecret, hpublic, haddress⟩

theorem Keystore.HoldsKey.insertKey (h : ks.HoldsKey X address)
    (hp2pkh : KeyFor X entry p2pkh) (hlower : KeyFor X entry (toLowercase p2pkh))
    (hbech32 : KeyFor X entry bech32) : (ks.insertKey p2pkh bech32 entry).HoldsKey X address := by
  unfold Keystore.insertKey
  split
  · exact ((h.insert hp2pkh).insert hlower).insert hbech32
  · exact (h.insert hp2pkh).insert hbech32

theorem Keystore.holdsKey_insertKey (hp2pkh : KeyFor X entry p2pkh)
    (hlower : KeyFor X entry (toLowercase p2pkh)) (hbech32 : KeyFor X entry bech32)
    (haddress : address = p2pkh ∨ address = bech32) :
    (ks.insertKey p2pkh bech32 entry).HoldsKey X address := by
  unfold Keystore.insertKey
  rcases haddress with rfl | rfl
  · have hfirst : (ks.insert address entry).HoldsKey X address := Keystore.holdsKey_insert hp2pkh
    split
    · exact (hfirst.insert hlower).insert hbech32
    · exact hfirst.insert hbech32
  · exact Keystore.holdsKey_insert hbech32

end InsertKey

variable {pair : KeyPair X}

/-- The update loses no key, keeps the mark of the keystore and stores a key for the address
that it acknowledges. -/
structure KeystoreUpdate.Sound (X : ProxyExternals) (u : KeystoreUpdate) : Prop where
  mark : u.KeepsMark
  keeps : ∀ ks address, ks.HoldsKey X address → (u.change ks).HoldsKey X address
  stores : ∀ ks address, u.acknowledged = some address → (u.change ks).HoldsKey X address

theorem KeystoreUpdate.sound_insertKey {version : UInt8} {hrp : String}
    (hentry : hexDecode entry.privateKeyHex = some pair.secret)
    (haddress : address = p2pkhAddress X.toCrypto version pair.publicKey ∨
      address = bech32Address X.toCrypto hrp pair.publicKey) :
    KeystoreUpdate.Sound X ⟨.text address,
      (·.insertKey (p2pkhAddress X.toCrypto version pair.publicKey)
        (bech32Address X.toCrypto hrp pair.publicKey) entry)⟩ := by
  have hkey : ∀ a ∈ keyAddresses X.toCrypto version hrp pair.publicKey, KeyFor X entry a :=
    fun a ha => keyFor_of_secret hentry pair.derived ha
  have hp2pkh := hkey (p2pkhAddress X.toCrypto version pair.publicKey) (by simp [keyAddresses])
  have hlower := hkey (toLowercase (p2pkhAddress X.toCrypto version pair.publicKey))
    (by simp [keyAddresses])
  have hbech32 := hkey (bech32Address X.toCrypto hrp pair.publicKey) (by simp [keyAddresses])
  refine ⟨fun ks => insertKey_encrypted, ?_, ?_⟩
  · intro ks a h
    exact h.insertKey hp2pkh hlower hbech32
  · intro ks a h
    cases h
    exact Keystore.holdsKey_insertKey hp2pkh hlower hbech32 haddress

theorem importedPair_secret {privkeyHex : String}
    (h : importedPair X privkeyHex = .ok pair) : hexDecode privkeyHex = some pair.secret := by
  unfold importedPair at h
  split at h
  · cases h
  · rename_i secret hsecret
    split at h
    · cases h
    · cases h
      exact hsecret

theorem parseImport_secret {input : Option String} {entry : KeyEntry}
    (h : parseImport X input = .ok (pair, entry)) :
    hexDecode entry.privateKeyHex = some pair.secret := by
  simp only [parseImport, bind_eq_ok] at h
  obtain ⟨_, -, _, -, _, hpair, hresult⟩ := h
  cases hresult
  exact importedPair_secret hpair

theorem keyUpdate_sound {s : RpcState} {c : WalletCall X} {u : KeystoreUpdate}
    (h : c.keyUpdate s = some (.ok u)) : u.Sound X := by
  cases c with
  | getnewaddress =>
    cases h
    refine KeystoreUpdate.sound_insertKey (hexDecode_hexEncode _) ?_
    split
    · exact .inl rfl
    · exact .inr rfl
  | getrawchangeaddress pair =>
    cases h
    exact KeystoreUpdate.sound_insertKey (hexDecode_hexEncode _) (.inr rfl)
  | importprivkey input =>
    simp only [WalletCall.keyUpdate, Option.some.injEq] at h
    cases hparse : parseImport X input with
    | error e =>
      rw [hparse] at h
      cases h
    | ok parsed =>
      rw [hparse] at h
      cases h
      exact KeystoreUpdate.sound_insertKey (parseImport_secret hparse) (.inl rfl)
  | _ => cases h

/-! ## The invariant -/

/-- Calls that store keys may run at the same time, also next to `encryptwallet`. -/
def Activity.mayOverlap : Activity → Activity → Bool
  | .storing, .storing => true
  | .storing, .encrypting => true
  | .encrypting, .storing => true
  | _, _ => false

theorem Activity.mayOverlap_comm (a b : Activity) : a.mayOverlap b = b.mayOverlap a := by
  cases a <;> cases b <;> rfl

variable {ι : Type}

def WalletThread.entering : WalletThread X → Option Activity
  | .entered c => some c.activity
  | _ => none

/-- A call begins only next to running calls that it may overlap with. -/
def BeginsApart (σ : WalletShared ι) (t : WalletThread X) : Prop :=
  ∀ b ∈ t.entering, ∀ j, ∀ a ∈ σ.running j, a.mayOverlap b = true

/-- The keystore is open: in the clear, or with its passphrase cached, or in the hands of the
call that is about to cache it. -/
def WalletShared.Open (σ : WalletShared ι) : Prop :=
  σ.state.keystore.encrypted = true → σ.state.walletPassphrase = none →
    ∃ writer, σ.keystoreLock = .exclusive writer

/-- Memory agrees with the file while no call reopens the wallet. -/
structure Settled (X : ProxyExternals) (σ : WalletShared ι) : Prop where
  keys : σ.Open → ∀ address ∈ σ.acknowledged, σ.state.keystore.HoldsKey X address
  unlocked : σ.state.walletUnlockUntil ≠ none → σ.Open
  cached : σ.state.keystore.encrypted = true → ∀ passphrase,
    σ.state.walletPassphrase = some passphrase → σ.current = some passphrase

structure Survival (X : ProxyExternals) (σ : WalletShared ι) : Prop where
  filed : ∀ address ∈ σ.acknowledged, σ.state.file.contents.HoldsKey X address
  opens : ∀ passphrase ks, σ.state.file = .encrypted passphrase ks → σ.current = some passphrase
  clear : σ.state.keystore.encrypted = false → σ.state.walletPassphrase = none
  apart : ∀ i j a b, i ≠ j → σ.running i = some a → σ.running j = some b → a.mayOverlap b = true
  owner : ∀ i, σ.keystoreLock = .exclusive i → σ.running i ≠ none
  settled : (∀ i, σ.running i ≠ some .reopening) → Settled X σ

/-- A call that reopens the wallet runs, and no call holds the keystore for writing. -/
def Reopens (i : ι) (σ : WalletShared ι) : Prop :=
  σ.running i = some .reopening ∧ ∀ writer, σ.keystoreLock ≠ .exclusive writer

def SurvivalAssertion (i : ι) (σ : WalletShared ι) : WalletThread X → Prop
  | .entered c => σ.running i = none ∧ (c.activity = .storing → c.addsKey = true)
  | .checkUnlocked _ => σ.running i = some .storing ∧ σ.keystoreLock ≠ .exclusive i
  | .store u => σ.running i = some .storing ∧ u.Sound X ∧ σ.Open
  | .save u =>
    σ.running i = some .storing ∧ σ.keystoreLock = .exclusive i ∧
      (σ.state.keystore.encrypted = true → σ.state.walletPassphrase ≠ none) ∧
      ∀ address, u.acknowledged = some address → σ.state.keystore.HoldsKey X address
  | .saveEncrypted u passphrase =>
    σ.running i = some .storing ∧ σ.keystoreLock = .exclusive i ∧
      (σ.state.keystore.encrypted = true ∧ σ.state.walletPassphrase = some passphrase) ∧
      ∀ address, u.acknowledged = some address → σ.state.keystore.HoldsKey X address
  | .encryptRead _ => σ.running i = some .encrypting ∧ σ.keystoreLock ≠ .exclusive i
  | .encryptWrite _ =>
    σ.running i = some .encrypting ∧ σ.keystoreLock.Reads i ∧ σ.state.keystore.encrypted = false
  | .encryptMark passphrase =>
    σ.running i = some .encrypting ∧ σ.state.keystore.encrypted = false ∧
      σ.current = some passphrase
  | .encryptCache passphrase =>
    σ.running i = some .encrypting ∧ σ.keystoreLock = .exclusive i ∧
      σ.state.keystore.encrypted = true ∧ σ.current = some passphrase
  | .encryptLock passphrase =>
    σ.running i = some .encrypting ∧ σ.keystoreLock = .exclusive i ∧
      σ.state.keystore.encrypted = true ∧ σ.state.walletPassphrase = some passphrase
  | .openRead _ _ => Reopens i σ ∧ Settled X σ
  | .openLoad _ _ => Reopens i σ ∧ Settled X σ
  | .openStore passphrase _ decrypted =>
    Reopens i σ ∧ Keystore.loadEncrypted passphrase σ.state.file = .ok decrypted
  | .openUnlock passphrase _ =>
    Reopens i σ ∧ Keystore.loadEncrypted passphrase σ.state.file = .ok σ.state.keystore
  | .openCache passphrase =>
    Reopens i σ ∧ Keystore.loadEncrypted passphrase σ.state.file = .ok σ.state.keystore
  | .lockRead => Reopens i σ ∧ Settled X σ
  | .lockPassphrase => Reopens i σ ∧ Settled X σ ∧ σ.state.keystore.encrypted = true
  | .lockKeystore passphrase =>
    Reopens i σ ∧ Settled X σ ∧ σ.state.keystore.encrypted = true ∧
      σ.state.walletPassphrase = some passphrase
  | .lockSave passphrase =>
    Reopens i σ ∧ Settled X σ ∧ σ.state.keystore.encrypted = true ∧
      σ.state.walletPassphrase = some passphrase
  | .lockClear => Reopens i σ ∧ σ.state.keystore.encrypted = true
  | .lockExpire => Reopens i σ ∧ σ.state.keystore.encrypted = true
  | .lockForget =>
    Reopens i σ ∧ σ.state.keystore.encrypted = true ∧ σ.state.walletUnlockUntil = none
  | .changeLoad _ _ => Reopens i σ ∧ Settled X σ
  | .changeSave _ decrypted =>
    Reopens i σ ∧ ∃ old, Keystore.loadEncrypted old σ.state.file = .ok decrypted
  | .changeStore new decrypted =>
    Reopens i σ ∧ Keystore.loadEncrypted new σ.state.file = .ok decrypted ∧ σ.current = some new
  | .changeCache new =>
    σ.running i = some .reopening ∧ σ.keystoreLock = .exclusive i ∧
      Keystore.loadEncrypted new σ.state.file = .ok σ.state.keystore ∧ σ.current = some new
  | .done _ => σ.running i = none

/-! ## Single moves -/

section Moves

variable {i j : ι} {σ σ' : WalletShared ι} {a : Activity} {t t' u : WalletThread X} {clock : Nat}

variable {passphrase : String}

theorem Settled.of_open (h : Settled X σ) (hstate : σ'.state = { σ.state with clock := clock })
    (hopen : σ'.Open ↔ σ.Open) (hack : σ'.acknowledged = σ.acknowledged)
    (hcurrent : σ'.current = σ.current) : Settled X σ' := by
  refine ⟨?_, ?_, ?_⟩
  · rw [hopen, hack, hstate]
    exact h.keys
  · rw [hopen, hstate]
    exact h.unlocked
  · rw [hstate, hcurrent]
    exact h.cached

theorem Settled.congr (h : Settled X σ) (hstate : σ'.state = { σ.state with clock := clock })
    (hlock : σ'.keystoreLock = σ.keystoreLock) (hack : σ'.acknowledged = σ.acknowledged)
    (hcurrent : σ'.current = σ.current) : Settled X σ' := by
  refine h.of_open hstate ?_ hack hcurrent
  unfold WalletShared.Open
  rw [hstate, hlock]

theorem Settled.relock (h : Settled X σ) (hstate : σ'.state = σ.state)
    (hold : ∀ writer, σ.keystoreLock ≠ .exclusive writer)
    (hnew : ∀ writer, σ'.keystoreLock ≠ .exclusive writer) (hack : σ'.acknowledged = σ.acknowledged)
    (hcurrent : σ'.current = σ.current) : Settled X σ' := by
  refine h.of_open hstate ?_ hack hcurrent
  unfold WalletShared.Open
  rw [hstate]
  constructor
  · intro hopen hencrypted hnone
    obtain ⟨writer, hwriter⟩ := hopen hencrypted hnone
    exact absurd hwriter (hnew writer)
  · intro hopen hencrypted hnone
    obtain ⟨writer, hwriter⟩ := hopen hencrypted hnone
    exact absurd hwriter (hold writer)

theorem loadEncrypted_holdsKey {file : WalletFile}
    (h : Keystore.loadEncrypted passphrase file = .ok ks) :
    ks.HoldsKey X address ↔ file.contents.HoldsKey X address := by
  obtain ⟨_, rfl, rfl⟩ := Keystore.loadEncrypted_eq_ok.mp h
  exact Iff.rfl

theorem Survival.current_of_loadEncrypted (h : Survival X σ)
    (hload : Keystore.loadEncrypted passphrase σ.state.file = .ok ks) :
    σ.current = some passphrase := by
  obtain ⟨stored, hfile, -⟩ := Keystore.loadEncrypted_eq_ok.mp hload
  exact h.opens passphrase stored hfile

theorem Survival.alone (h : Survival X σ) (hi : σ.running i = some .reopening) (hne : j ≠ i) :
    σ.running j = none := by
  cases hj : σ.running j with
  | none => rfl
  | some b =>
    have hapart := h.apart i j _ _ hne.symm hi hj
    cases b <;> cases hapart

theorem Survival.not_exclusive_of_idle (h : Survival X σ) (hi : σ.running i = none) :
    σ.keystoreLock ≠ .exclusive i :=
  fun hlock => h.owner i hlock hi

theorem SurvivalAssertion.congr (hB : SurvivalAssertion j σ u)
    (hrunning : σ'.running j = σ.running j) (hstate : σ'.state = { σ.state with clock := clock })
    (hlock : σ'.keystoreLock = σ.keystoreLock) (hack : σ'.acknowledged = σ.acknowledged)
    (hcurrent : σ'.current = σ.current) : SurvivalAssertion j σ' u := by
  have hsettled : Settled X σ → Settled X σ' := fun h => h.congr hstate hlock hack hcurrent
  have hreopens : Reopens j σ → Reopens j σ' := by
    unfold Reopens
    rw [hrunning, hlock]
    exact id
  cases u with
  | openRead | openLoad | lockRead | changeLoad => exact ⟨hreopens hB.1, hsettled hB.2⟩
  | lockPassphrase | lockKeystore _ | lockSave _ =>
    exact ⟨hreopens hB.1, hsettled hB.2.1, hstate ▸ hB.2.2⟩
  | _ =>
    simp only [SurvivalAssertion, WalletShared.Open, Reopens, hrunning, hstate, hlock,
      hcurrent] at hB ⊢
    exact hB

theorem SurvivalAssertion.idle (hB : SurvivalAssertion j σ u) (hnone : σ.running j = none)
    (hnone' : σ'.running j = none) : SurvivalAssertion j σ' u := by
  cases u with
  | entered c => exact ⟨hnone', hB.2⟩
  | done r => exact hnone'
  | _ => simp only [SurvivalAssertion, Reopens, hnone, reduceCtorEq, false_and] at hB

theorem SurvivalAssertion.transfer (hB : SurvivalAssertion j σ u)
    (hrunning : σ'.running j = σ.running j) (hreopening : σ.running j ≠ some .reopening)
    (hwrites : σ.keystoreLock ≠ .exclusive j) (hwrites' : σ'.keystoreLock ≠ .exclusive j)
    (hopen : σ.Open → σ'.Open)
    (hencrypting : σ.running j = some .encrypting → ¬ σ.keystoreLock.Reads j ∧
      σ'.state.keystore.encrypted = σ.state.keystore.encrypted ∧ σ'.current = σ.current) :
    SurvivalAssertion j σ' u := by
  cases u with
  | entered c => exact ⟨hrunning.trans hB.1, hB.2⟩
  | checkUnlocked c | encryptRead passphrase => exact ⟨hrunning.trans hB.1, hwrites'⟩
  | store u => exact ⟨hrunning.trans hB.1, hB.2.1, hopen hB.2.2⟩
  | save u | saveEncrypted | encryptCache passphrase | encryptLock passphrase =>
    exact absurd hB.2.1 hwrites
  | encryptWrite passphrase => exact absurd hB.2.1 (hencrypting hB.1).1
  | encryptMark passphrase =>
    obtain ⟨-, hencrypted, hcurrent⟩ := hencrypting hB.1
    exact ⟨hrunning.trans hB.1, hencrypted.trans hB.2.1, hcurrent.trans hB.2.2⟩
  | done r => exact hrunning.trans hB
  | changeCache new => exact absurd hB.1 hreopening
  | _ => exact absurd hB.1.1 hreopening

theorem Survival.not_reopening (h : Survival X σ) (hi : σ.running i = some a)
    (ha : a ≠ .reopening) (hne : j ≠ i) : σ.running j ≠ some .reopening := by
  intro hj
  have hapart := h.apart i j _ _ hne.symm hi hj
  cases a <;> cases hapart

variable [DecidableEq ι]

theorem Survival.settled_of_running (h : Survival X σ) (hi : σ.running i = some a)
    (ha : a ≠ .reopening) : Settled X σ := by
  refine h.settled fun j hj => ?_
  by_cases hij : i = j
  · subst hij
    rw [hi] at hj
    exact ha (Option.some.inj hj)
  · have hapart := h.apart i j _ _ hij hi hj
    cases a <;> cases hapart

theorem Survival.enter (h : Survival X σ)
    (hapart : ∀ j b, σ.running j = some b → b.mayOverlap a = true) : Survival X (σ.enter i a) where
  filed := h.filed
  opens := h.opens
  clear := h.clear
  apart := by
    intro k l b c hne hk hl
    simp only [WalletShared.enter, Function.update_apply] at hk hl
    split at hk
    · split at hl
      · next hki hli => exact absurd (hki.trans hli.symm) hne
      · cases hk
        rw [Activity.mayOverlap_comm]
        exact hapart l c hl
    · split at hl
      · cases hl
        exact hapart k b hk
      · exact h.apart k l b c hne hk hl
  owner := by
    intro k hlock
    by_cases hk : k = i
    · simp [WalletShared.enter, hk]
    · simpa [WalletShared.enter, hk] using h.owner k hlock
  settled := by
    intro hquiet
    refine (h.settled fun k hk => ?_).congr rfl rfl rfl rfl
    have hki : k ≠ i := by
      rintro rfl
      have hoverlap := hapart k _ hk
      cases a <;> cases hoverlap
    refine hquiet k ?_
    simpa [WalletShared.enter, hki] using hk

theorem Survival.apart_leave (h : Survival X σ) (k l : ι) (b c : Activity) (hne : k ≠ l)
    (hk : (σ.leave i).running k = some b) (hl : (σ.leave i).running l = some c) :
    b.mayOverlap c = true := by
  simp only [WalletShared.leave, Function.update_apply] at hk hl
  split at hk
  · cases hk
  · split at hl
    · cases hl
    · exact h.apart k l b c hne hk hl

theorem Survival.owner_leave (h : Survival X σ) (hlock : σ.keystoreLock ≠ .exclusive i) (k : ι)
    (hk : σ.keystoreLock = .exclusive k) : (σ.leave i).running k ≠ none := by
  have hki : k ≠ i := by
    rintro rfl
    exact hlock hk
  simpa [WalletShared.leave, hki] using h.owner k hk

theorem Survival.leave (h : Survival X σ) (hlock : σ.keystoreLock ≠ .exclusive i)
    (hsettled : Settled X σ) : Survival X (σ.leave i) where
  filed := h.filed
  opens := h.opens
  clear := h.clear
  apart := h.apart_leave
  owner := h.owner_leave hlock
  settled := fun _ => hsettled.congr rfl rfl rfl rfl

theorem begin_survival {c : WalletCall X} (h : Survival X σ)
    (hA : SurvivalAssertion i σ (.entered c))
    (hapart : ∀ j b, σ.running j = some b → b.mayOverlap c.activity = true)
    (hbegin : WalletThread.begin σ.state c = some t) (hdone : t.isDone = false) :
    SurvivalAssertion i (σ.enter i c.activity) t := by
  have hlock := h.not_exclusive_of_idle hA.1
  have hreopen : c.activity = .reopening →
      Reopens i (σ.enter i c.activity) ∧ Settled X (σ.enter i c.activity) := by
    intro hc
    have hidle : ∀ j, σ.running j = none := by
      intro j
      cases hj : σ.running j with
      | none => rfl
      | some b =>
        have hoverlap := hapart j b hj
        rw [hc] at hoverlap
        cases b <;> cases hoverlap
    refine ⟨⟨by simp [WalletShared.enter, hc], ?_⟩, ?_⟩
    · exact fun writer hwriter => h.owner writer hwriter (hidle writer)
    · exact (h.settled fun j hj => by simp [hidle j] at hj).congr rfl rfl rfl rfl
  have hrunning : (σ.enter i c.activity).running i = some c.activity := by
    simp [WalletShared.enter]
  cases c with
  | getnewaddress | getrawchangeaddress pair | importprivkey input =>
    cases hbegin
    exact ⟨hrunning, hlock⟩
  | importaddress address | importpubkey pubkeyHex =>
    exact absurd (hA.2 rfl) (by simp [WalletCall.addsKey])
  | encryptwallet passphrase =>
    cases passphrase with
    | none =>
      cases hbegin
      cases hdone
    | some passphrase =>
      cases hbegin
      exact ⟨hrunning, hlock⟩
  | walletpassphrase passphrase timeout =>
    cases passphrase with
    | none =>
      cases hbegin
      cases hdone
    | some passphrase =>
      cases hbegin
      exact hreopen rfl
  | walletlock =>
    cases hbegin
    exact hreopen rfl
  | walletpassphrasechange old new =>
    cases old with
    | none =>
      cases hbegin
      cases hdone
    | some old =>
      cases new with
      | none =>
        cases hbegin
        cases hdone
      | some new =>
        cases hbegin
        exact hreopen rfl
  | _ => cases hbegin

theorem Survival.leaveSaved {up : KeystoreUpdate} {file : WalletFile} {lock : RwLock ι}
    (h : Survival X σ) (hi : σ.running i = some .storing) (hlock : σ.keystoreLock = .exclusive i)
    (hopen : σ.state.keystore.encrypted = true → σ.state.walletPassphrase ≠ none)
    (hnew : ∀ address, up.acknowledged = some address → σ.state.keystore.HoldsKey X address)
    (hcontents : file.contents.keys = σ.state.keystore.keys)
    (hopens : ∀ passphrase ks, file = .encrypted passphrase ks → σ.current = some passphrase) :
    Survival X { σ.leaveSaved i up with
      passphraseLock := lock, state := { σ.state with file := file } } := by
  have hsettled := h.settled_of_running hi nofun
  have hall : ∀ address ∈ σ.acknowledged ++ up.acknowledged.toList,
      σ.state.keystore.HoldsKey X address := by
    intro address hmem
    rcases List.mem_append.mp hmem with hold | hack
    · exact hsettled.keys (fun hencrypted hnone => absurd hnone (hopen hencrypted)) address hold
    · exact hnew address (Option.mem_toList.mp hack)
  refine ⟨?_, hopens, h.clear, h.apart_leave, ?_, fun _ => ⟨?_, ?_, hsettled.cached⟩⟩
  · intro address hmem
    obtain ⟨entry, hget, hkey⟩ := hall address hmem
    refine ⟨entry, ?_, hkey⟩
    rw [Keystore.get, hcontents]
    exact hget
  · exact fun k hk => absurd hk (RwLock.releaseWrite_ne_exclusive hlock)
  · exact fun _ => hall
  · exact fun _ hencrypted hnone => absurd hnone (hopen hencrypted)

theorem survival_own (h : Survival X σ) (hA : SurvivalAssertion i σ t) (hcond : BeginsApart σ t)
    (hstep : WalletStep i σ t σ' t') : Survival X σ' ∧ SurvivalAssertion i σ' t' := by
  have hleft : (σ.leave i).running i = none := by simp [WalletShared.leave]
  have hloud : σ.running i = some .reopening → ∀ {P : Prop},
      (∀ k, σ.running k ≠ some .reopening) → P := fun hi _ hquiet => absurd hi (hquiet i)
  cases hstep with
  | refused => exact ⟨h, hA.1⟩
  | entered hbegin hdone =>
    have hapart := hcond _ rfl
    exact ⟨h.enter hapart, begin_survival h hA hapart hbegin hdone⟩
  | denied | encryptRefused => exact ⟨h.leave hA.2 (h.settled_of_running hA.1 (by simp)), hleft⟩
  | checked hunlocked hupdate =>
    have hsettled := h.settled_of_running hA.1 (by simp)
    obtain ⟨_, hexpiry, -⟩ := isWalletUnlocked_eq_true.mp hunlocked
    exact ⟨h, hA.1, keyUpdate_sound hupdate, hsettled.unlocked (by simp [hexpiry])⟩
  | stored hfree =>
    obtain ⟨hi, hsound, hopen⟩ := hA
    have hsettled := h.settled_of_running hi (by simp)
    have hcached : σ.state.keystore.encrypted = true → σ.state.walletPassphrase ≠ none := by
      intro hencrypted hnone
      obtain ⟨writer, hwriter⟩ := hopen hencrypted hnone
      exact absurd (hfree.symm.trans hwriter) RwLock.free_ne_exclusive
    refine ⟨⟨h.filed, h.opens, ?_, h.apart, ?_, fun _ => ⟨?_, ?_, ?_⟩⟩, hi, rfl, ?_, ?_⟩
    · exact fun hplain => h.clear ((hsound.mark _).symm.trans hplain)
    · rintro k ⟨⟩
      simp [hi]
    · exact fun _ address hmem => hsound.keeps _ _ (hsettled.keys hopen address hmem)
    · exact fun _ _ _ => ⟨i, rfl⟩
    · exact fun hencrypted => hsettled.cached ((hsound.mark _).symm.trans hencrypted)
    · exact fun hencrypted => hcached ((hsound.mark _).symm.trans hencrypted)
    · exact hsound.stores _
  | savedPlain =>
    obtain ⟨hi, hlock, hcached, hnew⟩ := hA
    exact ⟨h.leaveSaved hi hlock hcached hnew rfl (fun _ _ hfile => by cases hfile), hleft⟩
  | keyed hencrypted hcached =>
    have hsettled := h.settled_of_running hA.1 (by simp)
    refine ⟨{ h with settled := ?_ }, hA.1, hA.2.1, ⟨hencrypted, hcached⟩, hA.2.2.2⟩
    exact fun _ => hsettled.congr rfl rfl rfl rfl
  | unsaved hencrypted hnone => exact absurd hnone (hA.2.2.1 hencrypted)
  | @savedEncrypted _ passphrase =>
    obtain ⟨hi, hlock, ⟨hencrypted, hcached⟩, hnew⟩ := hA
    refine ⟨h.leaveSaved hi hlock ?_ hnew rfl ?_, hleft⟩
    · exact fun _ => by simp [hcached]
    · rintro passphrase' ks ⟨⟩
      exact (h.settled_of_running hi (by simp)).cached hencrypted passphrase hcached
  | encryptRead hshared hplain =>
    have hsettled := h.settled_of_running hA.1 (by simp)
    refine ⟨⟨h.filed, h.opens, h.clear, h.apart, by simp, fun _ => ?_⟩, ?_⟩
    · exact hsettled.relock rfl (by simp [hshared]) (by simp) rfl rfl
    · exact ⟨hA.1, Finset.mem_insert_self _ _, hplain⟩
  | encryptWritten =>
    obtain ⟨hi, hreads, hplain⟩ := hA
    have hsettled := h.settled_of_running hi (by simp)
    have hkeys := hsettled.keys fun hencrypted => by simp [hplain] at hencrypted
    have hshared : ∀ writer, σ.keystoreLock.releaseRead i ≠ .exclusive writer :=
      fun writer => RwLock.releaseRead_ne_exclusive hreads.ne_exclusive
    refine ⟨⟨hkeys, ?_, h.clear, h.apart, ?_, fun _ => ⟨fun _ => hkeys, ?_, ?_⟩⟩, ?_⟩
    · rintro passphrase' ks ⟨⟩
      rfl
    · exact fun k hk => absurd hk (hshared k)
    · exact fun _ hencrypted => by simp [hplain] at hencrypted
    · exact fun hencrypted => by simp [hplain] at hencrypted
    · exact ⟨hi, hplain, rfl⟩
  | encryptMarked =>
    obtain ⟨hi, hplain, hcurrent⟩ := hA
    have hsettled := h.settled_of_running hi (by simp)
    have hkeys := hsettled.keys fun hencrypted => by simp [hplain] at hencrypted
    refine ⟨⟨h.filed, h.opens, by simp, h.apart, ?_, fun _ => ⟨fun _ => hkeys, ?_, ?_⟩⟩, ?_⟩
    · rintro k ⟨⟩
      simp [hi]
    · exact fun _ _ _ => ⟨i, rfl⟩
    · intro _ passphrase hcached
      simp [h.clear hplain] at hcached
    · exact ⟨hi, rfl, rfl, hcurrent⟩
  | encryptCached =>
    obtain ⟨hi, hlock, hencrypted, hcurrent⟩ := hA
    have hsettled := h.settled_of_running hi (by simp)
    have hkeys := hsettled.keys fun _ _ => ⟨i, hlock⟩
    refine ⟨⟨h.filed, h.opens, ?_, h.apart, h.owner, fun _ => ⟨fun _ => hkeys, ?_, ?_⟩⟩, ?_⟩
    · exact fun hplain => by simp [hencrypted] at hplain
    · exact fun _ _ hnone => by cases hnone
    · rintro - passphrase' ⟨⟩
      exact hcurrent
    · exact ⟨hi, hlock, hencrypted, rfl⟩
  | encryptLocked =>
    obtain ⟨hi, hlock, hencrypted, hcached⟩ := hA
    have hsettled := h.settled_of_running hi (by simp)
    have hkeys := hsettled.keys fun _ hnone => by simp [hcached] at hnone
    refine ⟨⟨h.filed, h.opens, h.clear, h.apart_leave, ?_, fun _ => ⟨fun _ => hkeys, ?_, ?_⟩⟩,
      hleft⟩
    · exact fun k hk => absurd hk (RwLock.releaseWrite_ne_exclusive hlock)
    · exact fun hne => absurd rfl hne
    · exact hsettled.cached
  | openRefused | openFailed | lockRefused | changeFailed => exact ⟨h.leave (hA.1.2 i) hA.2, hleft⟩
  | openRead _ => exact ⟨h, hA⟩
  | openLoaded hload => exact ⟨h, hA.1, hload⟩
  | openStored _ =>
    refine ⟨{ h with clear := ?_, settled := hloud hA.1.1 }, hA⟩
    exact fun hplain => by simp [loadEncrypted_encrypted hA.2] at hplain
  | openUnlocked => exact ⟨{ h with settled := hloud hA.1.1 }, hA⟩
  | openCached =>
    obtain ⟨⟨hi, hlock⟩, hload⟩ := hA
    refine ⟨⟨h.filed, h.opens, ?_, h.apart_leave, h.owner_leave (hlock i),
      fun _ => ⟨?_, ?_, ?_⟩⟩, hleft⟩
    · exact fun hplain => by simp [loadEncrypted_encrypted hload] at hplain
    · exact fun _ address hmem => (loadEncrypted_holdsKey hload).mpr (h.filed address hmem)
    · exact fun _ _ hnone => by cases hnone
    · rintro - passphrase' ⟨⟩
      exact h.current_of_loadEncrypted hload
  | lockRead hencrypted => exact ⟨h, hA.1, hA.2, hencrypted⟩
  | lockKeyed hcached =>
    refine ⟨{ h with settled := hloud hA.1.1 }, hA.1, ?_, hA.2.2, hcached⟩
    exact hA.2.1.congr rfl rfl rfl rfl
  | lockUnkeyed _ => exact ⟨h, hA.1, hA.2.2⟩
  | lockKeystore _ =>
    obtain ⟨⟨hi, hlock⟩, hsettled, hrest⟩ := hA
    refine ⟨{ h with owner := by simp, settled := hloud hi }, ⟨hi, by simp⟩, ?_, hrest⟩
    exact hsettled.relock rfl hlock (by simp) rfl rfl
  | lockSaved =>
    obtain ⟨⟨hi, hlock⟩, hsettled, hencrypted, hcached⟩ := hA
    have hkeys := hsettled.keys fun _ hnone => by simp [hcached] at hnone
    have hshared : ∀ writer, σ.keystoreLock.releaseRead i ≠ .exclusive writer :=
      fun writer => RwLock.releaseRead_ne_exclusive (hlock writer)
    refine ⟨⟨hkeys, ?_, h.clear, h.apart, ?_, hloud hi⟩, ⟨hi, hshared⟩, hencrypted⟩
    · rintro passphrase' ks ⟨⟩
      exact hsettled.cached hencrypted _ hcached
    · exact fun k hk => absurd hk (hshared k)
  | lockCleared _ =>
    refine ⟨{ h with clear := ?_, settled := hloud hA.1.1 }, hA.1, rfl⟩
    exact fun hplain => by cases hplain
  | lockExpired => exact ⟨{ h with settled := hloud hA.1.1 }, hA.1, hA.2, rfl⟩
  | lockForgot =>
    obtain ⟨⟨hi, hlock⟩, hencrypted, hexpired⟩ := hA
    refine ⟨⟨h.filed, h.opens, fun _ => rfl, h.apart_leave, h.owner_leave (hlock i),
      fun _ => ⟨?_, ?_, by simp⟩⟩, hleft⟩
    · intro hopen
      obtain ⟨writer, hwriter⟩ := hopen hencrypted rfl
      exact absurd hwriter (hlock writer)
    · exact fun hne => absurd hexpired hne
  | changeLoaded hload => exact ⟨h, hA.1, _, hload⟩
  | changeSaved =>
    obtain ⟨⟨hi, hlock⟩, _, hload⟩ := hA
    refine ⟨{ h with filed := ?_, opens := ?_, settled := hloud hi }, ⟨hi, hlock⟩, ?_, rfl⟩
    · exact fun address hmem => (loadEncrypted_holdsKey hload).mpr (h.filed address hmem)
    · rintro passphrase' ks ⟨⟩
      rfl
    · exact loadEncrypted_saveEncrypted (loadEncrypted_encrypted hload)
  | changeStored _ =>
    obtain ⟨⟨hi, hlock⟩, hload, hcurrent⟩ := hA
    refine ⟨{ h with clear := ?_, owner := ?_, settled := hloud hi }, hi, rfl, hload, hcurrent⟩
    · exact fun hplain => by simp [loadEncrypted_encrypted hload] at hplain
    · rintro k ⟨⟩
      simp [hi]
  | changeCached =>
    obtain ⟨hi, hlock, hload, hcurrent⟩ := hA
    refine ⟨⟨h.filed, h.opens, ?_, h.apart_leave, ?_, fun _ => ⟨?_, ?_, ?_⟩⟩, hleft⟩
    · exact fun hplain => by simp [loadEncrypted_encrypted hload] at hplain
    · exact fun k hk => absurd hk (RwLock.releaseWrite_ne_exclusive hlock)
    · exact fun _ address hmem => (loadEncrypted_holdsKey hload).mpr (h.filed address hmem)
    · exact fun _ _ hnone => by cases hnone
    · rintro - passphrase' ⟨⟩
      exact hcurrent

theorem survival_other (hne : j ≠ i) (h : Survival X σ) (hA : SurvivalAssertion i σ t)
    (hB : SurvivalAssertion j σ u) (hstep : WalletStep i σ t σ' t') : SurvivalAssertion j σ' u := by
  have hrunning := hstep.running_other hne
  -- A call that reopens the wallet runs alone.
  by_cases hreopens : σ.running i = some .reopening
  · have hnone := h.alone hreopens hne
    exact hB.idle hnone (hrunning.trans hnone)
  have hexclusive : (.exclusive i : RwLock ι) ≠ .exclusive j := RwLock.exclusive_ne hne
  have hencrypts : σ.running i = some .encrypting → σ.running j ≠ some .encrypting := by
    intro hi hj
    have hapart := h.apart i j _ _ hne.symm hi hj
    cases hapart
  cases hstep with
  | refused => exact hB
  | entered | denied | encryptRefused => exact hB.congr hrunning rfl rfl rfl rfl
  | checked => exact hB
  | stored hfree =>
    refine hB.transfer rfl (h.not_reopening hA.1 nofun hne) (hfree ▸ RwLock.free_ne_exclusive)
      hexclusive ?_ ?_
    · exact fun _ _ _ => ⟨i, rfl⟩
    · intro _
      refine ⟨?_, hA.2.1.mark _, rfl⟩
      rw [hfree]
      exact nofun
  | savedPlain hplain =>
    refine hB.transfer hrunning (h.not_reopening hA.1 nofun hne) (hA.2.1 ▸ hexclusive)
      (RwLock.releaseWrite_ne_exclusive hA.2.1) ?_ ?_
    · exact fun _ hencrypted => by simp [hplain] at hencrypted
    · exact fun _ => ⟨hA.2.1 ▸ id, rfl, rfl⟩
  | keyed => exact hB.congr rfl rfl rfl rfl rfl
  | unsaved hencrypted hnone => exact absurd hnone (hA.2.2.1 hencrypted)
  | savedEncrypted =>
    refine hB.transfer hrunning (h.not_reopening hA.1 nofun hne) (hA.2.1 ▸ hexclusive)
      (RwLock.releaseWrite_ne_exclusive hA.2.1) ?_ ?_
    · exact fun _ _ hnone => by simp [hA.2.2.1.2] at hnone
    · exact fun _ => ⟨hA.2.1 ▸ id, rfl, rfl⟩
  | encryptRead hshared _ =>
    refine hB.transfer rfl (h.not_reopening hA.1 nofun hne) (by simp [hshared]) nofun ?_
      (absurd · (hencrypts hA.1))
    intro hopen hencrypted hnone
    obtain ⟨_, hwriter⟩ := hopen hencrypted hnone
    simp [hshared] at hwriter
  | encryptWritten =>
    refine hB.transfer rfl (h.not_reopening hA.1 nofun hne) hA.2.1.ne_exclusive
      (RwLock.releaseRead_ne_exclusive hA.2.1.ne_exclusive) ?_ (absurd · (hencrypts hA.1))
    exact fun _ hencrypted => by simp [hA.2.2] at hencrypted
  | encryptMarked hfree =>
    refine hB.transfer rfl (h.not_reopening hA.1 nofun hne) (hfree ▸ RwLock.free_ne_exclusive)
      hexclusive ?_ (absurd · (hencrypts hA.1))
    exact fun _ _ _ => ⟨i, rfl⟩
  | encryptCached =>
    refine hB.transfer rfl (h.not_reopening hA.1 nofun hne) (hA.2.1 ▸ hexclusive)
      (hA.2.1 ▸ hexclusive) ?_ (absurd · (hencrypts hA.1))
    exact fun _ _ hnone => nomatch hnone
  | encryptLocked =>
    refine hB.transfer hrunning (h.not_reopening hA.1 nofun hne) (hA.2.1 ▸ hexclusive)
      (RwLock.releaseWrite_ne_exclusive hA.2.1) ?_ (absurd · (hencrypts hA.1))
    exact fun _ _ hnone => by simp [hA.2.2.2] at hnone
  | changeCached => exact absurd hA.1 hreopens
  | _ => exact absurd hA.1.1 hreopens

end Moves

/-! ## Runs -/

/-- The keystore in the file, for someone who knows the passphrase. -/
def WalletFile.opensTo (passphrase : Option String) : WalletFile → Option Keystore
  | .plain ks => some ks
  | .encrypted key ks => if passphrase = some key then some ks else none
  | _ => none

theorem start_survival (chainId : String) (file : WalletFile)
    (txCache : String → Option TxCacheEntry) (clock : Nat) :
    Survival X (.start (.new chainId file txCache clock) : WalletShared ι) where
  filed := nofun
  opens := by
    rintro passphrase ks (rfl : file = _)
    rfl
  clear := fun _ => rfl
  apart := nofun
  owner := nofun
  settled := fun _ => by
    refine ⟨nofun, ?_, nofun⟩
    intro hunlocked hencrypted
    refine absurd ?_ hunlocked
    exact if_pos hencrypted

theorem Survival.opensTo {σ : WalletShared ι} (h : Survival X σ) (hmem : address ∈ σ.acknowledged) :
    ∃ ks, σ.state.file.opensTo σ.current = some ks ∧ ks.HoldsKey X address := by
  have hkey := h.filed address hmem
  cases hfile : σ.state.file with
  | plain ks =>
    rw [hfile] at hkey
    exact ⟨ks, rfl, hkey⟩
  | encrypted passphrase ks =>
    rw [hfile] at hkey
    exact ⟨ks, if_pos (h.opens passphrase ks hfile), hkey⟩
  | _ =>
    rw [hfile] at hkey
    obtain ⟨_, hget, -⟩ := hkey
    cases hget

/-- When a call that reopens the wallet overlaps with no other call, and `encryptwallet` with no
second one, every key whose address was returned is in the wallet file, and the current
passphrase opens it. -/
theorem returned_keys_survive [DecidableEq ι] {chainId : String} {file : WalletFile}
    {txCache : String → Option TxCacheEntry} {clock : Nat} {calls : ι → WalletCall X}
    {labels : List (Option ι)} {q : WalletPool X ι}
    (hcalls : ∀ i, (calls i).activity = .storing → (calls i).addsKey = true)
    (hrun : Run (Pool.Step (fun i σ t σ' t' => WalletMove X i σ t σ' t' ∧ BeginsApart σ t)
      WalletShared.Waits) (WalletPool.start (.new chainId file txCache clock) calls) labels q) :
    ∀ address ∈ q.shared.acknowledged, ∃ ks,
      q.shared.state.file.opensTo q.shared.current = some ks ∧ ks.HoldsKey X address := by
  have hall := Pool.invariant (Survival X) SurvivalAssertion
    (fun i σ t σ' t' hI hA hmove => survival_own hI hA hmove.2 hmove.1.step)
    (fun i j σ t σ' t' u hne hI hA hB hmove => survival_other hne hI hA hB hmove.1.step)
    (fun σ σ' hI hwait => by
      obtain ⟨_, rfl⟩ := hwait
      exact ⟨{ hI with settled := fun hquiet => (hI.settled hquiet).congr rfl rfl rfl rfl },
        fun i t hA => hA.congr rfl rfl rfl rfl rfl⟩)
    hrun ⟨start_survival chainId file txCache clock, fun i => ⟨rfl, hcalls i⟩⟩
  intro address hmem
  exact hall.1.opensTo hmem

instance [Fintype ι] (σ : WalletShared ι) (t : WalletThread X) : Decidable (BeginsApart σ t) :=
  inferInstanceAs (Decidable (∀ b ∈ t.entering, ∀ j, ∀ a ∈ σ.running j, a.mayOverlap b = true))

def sampleLocking : WalletPool .sample (Fin 4) :=
  .start (.new "mainnet" .absent (fun _ => none) 0) fun
    | 0 => .getnewaddress none samplePair
    | 1 => .encryptwallet (some "open")
    | _ => .walletlock

/-- The key is stored while the wallet is encrypted; then the wallet is locked. -/
theorem returned_key_survives_lock :
    ∃ q labels, Run (Pool.Step (fun i σ t σ' t' => WalletMove .sample i σ t σ' t' ∧
        BeginsApart σ t) WalletShared.Waits) sampleLocking labels q ∧
      (q.threads 2).isOk = true ∧ ∃ address ∈ q.shared.acknowledged, ∃ ks,
        q.shared.state.file.opensTo q.shared.current = some ks ∧ ks.HoldsKey .sample address := by
  obtain ⟨q, hrun, htest⟩ : ∃ q, Run (Pool.Step (fun i σ t σ' t' =>
      WalletMove .sample i σ t σ' t' ∧ BeginsApart σ t) WalletShared.Waits) sampleLocking _ q ∧ _ :=
    Pool.exists_run_of_schedule WalletThread.next (fun _ => BeginsApart)
      [0, 0, 1, 1, 1, 0, 0, 1, 1, 1, 2, 2, 2, 2, 2, 2, 2, 2]
      (fun q => (q.threads 2).isOk && q.shared.acknowledged.length == 1) (by decide +kernel)
  obtain ⟨hok, hlength⟩ : _ ∧ _ := by simpa using htest
  obtain ⟨address, hack⟩ := List.length_eq_one_iff.mp hlength
  refine ⟨q, _, hrun, hok, address, by simp [hack], ?_⟩
  refine returned_keys_survive ?_ hrun address (by simp [hack])
  decide

/-- Two calls of `walletlock` overlap: the second one saves the keystore that the first one has
emptied. -/
theorem returned_key_lost_by_locks :
    ∃ q labels, Run (Pool.Step (WalletMove .sample) WalletShared.Waits) sampleLocking labels q ∧
      (∀ i, (q.threads i).isOk = true) ∧ ∃ address ∈ q.shared.acknowledged, ∃ ks,
        q.shared.state.file.opensTo q.shared.current = some ks ∧ ks.get address = none := by
  obtain ⟨q, hrun, htest⟩ : ∃ q, Run (Pool.Step (fun i σ t σ' t' =>
      WalletMove .sample i σ t σ' t' ∧ True) WalletShared.Waits) sampleLocking _ q ∧ _ :=
    Pool.exists_run_of_schedule WalletThread.next (fun _ _ _ => True)
      [0, 0, 0, 0, 1, 1, 1, 1, 1, 1, 2, 2, 3, 3, 2, 2, 2, 2, 3, 3, 3, 3, 3, 3, 2, 2]
      (fun q => decide (∀ i, (q.threads i).isOk = true) && q.shared.acknowledged.any fun address =>
        (q.shared.state.file.opensTo q.shared.current).any fun ks => (ks.get address).isNone)
      (by decide +kernel)
  simp only [Bool.and_eq_true, decide_eq_true_eq, List.any_eq_true, Option.any_eq_true,
    Option.isNone_iff_eq_none] at htest
  exact ⟨q, _, by simpa using hrun, htest⟩

end BitInfinity.Proxy
