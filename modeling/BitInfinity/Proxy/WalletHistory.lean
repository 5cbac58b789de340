import BitInfinity.Foundation.Run
import BitInfinity.Proxy.Wallet

/-!
# Histories of a wallet

Complete calls one after the other, with time passing and the proxy restarting between them.
What a call can do to the wallet is said once, by `WalletEffect`; the invariants of a history
are read off it.
-/

namespace BitInfinity.Proxy

open BitInfinity Foundation

/-! ## What one call can do -/

namespace WalletCall

variable {X : ProxyExternals}

def addsKey : WalletCall X → Bool
  | .getnewaddress _ _ => true
  | .getrawchangeaddress _ => true
  | .importprivkey _ => true
  | _ => false

def watched (X : ProxyExternals) (s : RpcState) : WalletCall X → Option String
  | .importaddress address => address
  | .importpubkey pubkeyHex =>
    (parsePubkey pubkeyHex).toOption.map (watchAddress X.toCrypto s.bech32Hrp)
  | _ => none

def loads : WalletCall X → Bool
  | .loadwallet _ => true
  | .createwallet name => name.getD "bitinfinity" ≠ ""
  | _ => false

end WalletCall

inductive WalletEffect (X : ProxyExternals) (s : RpcState) :
    WalletCall X → Response → RpcState → Prop
  | refused {c e} : c.loads = false → WalletEffect X s c (.error e) s
  | addedKey {c p2pkh bech32 address entry} :
      c.addsKey = true → s.ensureWalletUsable = .ok () → address = p2pkh ∨ address = bech32 →
      WalletEffect X s c (.ok (.text address)) (s.updateKeystore (·.insertKey p2pkh bech32 entry))
  | watched {c address} : c.watched X s = some address → s.walletLoaded = true →
      WalletEffect X s c (.ok .null) (s.updateKeystore (·.addWatchOnly address))
  | encrypted {passphrase text} : s.walletLoaded = true → s.keystore.encrypted = false →
      WalletEffect X s (.encryptwallet (some passphrase)) (.ok (.text text)) { s with
          file := s.keystore.saveEncrypted passphrase
          keystore := { s.keystore with encrypted := true }
          walletPassphrase := some passphrase
          walletUnlockUntil := none }
  | opened {passphrase timeout decrypted} : s.walletLoaded = true → s.keystore.encrypted = true →
      Keystore.loadEncrypted passphrase s.file = .ok decrypted →
      WalletEffect X s (.walletpassphrase (some passphrase) timeout) (.ok .null) { s with
          keystore := decrypted
          walletUnlockUntil := some (s.clock + timeout.getD 600)
          walletPassphrase := some passphrase }
  | locked : s.walletLoaded = true → s.keystore.encrypted = true →
      WalletEffect X s .walletlock (.ok .null) { s with
          file := match s.walletPassphrase with
            | some passphrase => s.keystore.saveEncrypted passphrase
            | none => s.file
          keystore := .emptyEncrypted
          walletUnlockUntil := none
          walletPassphrase := none }
  | rekeyed {old new decrypted} :
      s.walletLoaded = true → Keystore.loadEncrypted old s.file = .ok decrypted →
      WalletEffect X s (.walletpassphrasechange (some old) (some new)) (.ok .null) { s with
          file := decrypted.saveEncrypted new
          keystore := decrypted
          walletPassphrase := some new }
  | loaded {c name result} : c.loads = true →
      WalletEffect X s c (.ok result) { s with walletName := name, walletLoaded := true }
  | unloaded {name} : WalletEffect X s (.unloadwallet name) (.ok (.warning ""))
        { s with walletLoaded := false, walletUnlockUntil := none, walletPassphrase := none }

section Effects

variable {X : ProxyExternals} {s : RpcState}

theorem ensureWalletLoaded_eq_ok : s.ensureWalletLoaded = .ok () ↔ s.walletLoaded = true :=
  ensure_eq_ok

theorem ensureWalletUsable_eq_ok :
    s.ensureWalletUsable = .ok () ↔ s.walletLoaded = true ∧ s.isWalletUnlocked = true := by
  unfold RpcState.ensureWalletUsable
  rw [bind_eq_ok]
  constructor
  · rintro ⟨⟨⟩, hloaded, hunlocked⟩
    exact ⟨ensure_eq_ok.mp hloaded, ensure_eq_ok.mp hunlocked⟩
  · rintro ⟨hloaded, hunlocked⟩
    exact ⟨(), ensure_eq_ok.mpr hloaded, ensure_eq_ok.mpr hunlocked⟩

theorem unloadwallet_effect (name : Option String) :
    WalletEffect X s (.unloadwallet name) (unloadwallet s name).1 (unloadwallet s name).2 := by
  unfold unloadwallet
  cases hname : requestedName name with
  | none => exact .unloaded
  | some requested =>
    dsimp only
    split
    · exact .unloaded
    · exact .refused rfl

theorem createwallet_effect (name : Option String) :
    WalletEffect X s (.createwallet name) (createwallet s name).1 (createwallet s name).2 := by
  unfold createwallet
  dsimp only
  split
  · next hempty => exact .refused (by simp [WalletCall.loads, hempty])
  · next hname => exact .loaded (by simp [WalletCall.loads, hname])

theorem walletHandler_effect (X : ProxyExternals) (s : RpcState) (c : WalletCall X) :
    WalletEffect X s c (walletHandler X s c).1 (walletHandler X s c).2 := by
  cases c with
  | getnewaddress addressType pair =>
    simp only [walletHandler, getnewaddress]
    split
    · exact .refused rfl
    · rename_i husable
      refine .addedKey rfl husable ?_
      split
      · exact .inl rfl
      · exact .inr rfl
  | getrawchangeaddress pair =>
    simp only [walletHandler, getrawchangeaddress]
    split
    · exact .refused rfl
    · next husable => exact .addedKey rfl husable (.inr rfl)
  | importprivkey input =>
    simp only [walletHandler, importprivkey]
    split
    · exact .refused rfl
    · rename_i husable
      split
      · exact .refused rfl
      · exact .addedKey rfl husable (.inl rfl)
  | importaddress address =>
    simp only [walletHandler, importaddress]
    split
    · exact .refused rfl
    · rename_i hloaded
      split
      · exact .refused rfl
      · exact .watched rfl (ensureWalletLoaded_eq_ok.mp hloaded)
  | importpubkey pubkeyHex =>
    simp only [walletHandler, importpubkey]
    split
    · exact .refused rfl
    · rename_i hloaded
      split
      · exact .refused rfl
      · rename_i pubkey hparse
        refine .watched ?_ (ensureWalletLoaded_eq_ok.mp hloaded)
        rw [WalletCall.watched, hparse]
        rfl
  | encryptwallet passphrase =>
    simp only [walletHandler, encryptwallet]
    split
    · exact .refused rfl
    · rename_i hloaded
      split
      · exact .refused rfl
      · split
        · exact .refused rfl
        · rename_i hplain
          exact .encrypted (ensureWalletLoaded_eq_ok.mp hloaded) (Bool.eq_false_iff.mpr hplain)
  | walletpassphrase passphrase timeout =>
    simp only [walletHandler, walletpassphrase]
    split
    · exact .refused rfl
    · rename_i hloaded
      split
      · exact .refused rfl
      · split
        · exact .refused rfl
        · rename_i hencrypted
          split
          · exact .refused rfl
          · rename_i hopen
            exact .opened (ensureWalletLoaded_eq_ok.mp hloaded) (by simpa using hencrypted) hopen
  | walletlock =>
    simp only [walletHandler, walletlock]
    split
    · exact .refused rfl
    · rename_i hloaded
      split
      · exact .refused rfl
      · rename_i hencrypted
        exact .locked (ensureWalletLoaded_eq_ok.mp hloaded) (by simpa using hencrypted)
  | walletpassphrasechange old new =>
    simp only [walletHandler, walletpassphrasechange]
    split
    · exact .refused rfl
    · rename_i hloaded
      split
      · exact .refused rfl
      · exact .refused rfl
      · split
        · exact .refused rfl
        · next hopen => exact .rekeyed (ensureWalletLoaded_eq_ok.mp hloaded) hopen
  | loadwallet name => exact .loaded rfl
  | unloadwallet name => exact unloadwallet_effect name
  | createwallet name => exact createwallet_effect name

end Effects

/-! ## Events -/

inductive WalletEvent (X : ProxyExternals)
  | call (c : WalletCall X)
  | wait (seconds : Nat)
  | restart

/-- The address that the reply to a call acknowledges to be in the wallet. -/
def acknowledged (X : ProxyExternals) (s : RpcState) (c : WalletCall X) : Option String :=
  match c, (walletHandler X s c).1 with
  | .getnewaddress _ _, .ok (.text address) => some address
  | .importprivkey _, .ok (.text address) => some address
  | .importaddress _, .ok _ => c.watched X s
  | .importpubkey _, .ok _ => c.watched X s
  | _, _ => none

def RpcState.restart (s : RpcState) : RpcState := .new s.chainId s.file s.txCache s.clock

/-- The state of the proxy, and the addresses acknowledged so far. -/
structure WalletHistory where
  state : RpcState
  acknowledged : List String

namespace WalletHistory

def start (chainId : String) (file : WalletFile) (txCache : String → Option TxCacheEntry)
    (clock : Nat) : WalletHistory :=
  ⟨.new chainId file txCache clock, []⟩

def next (X : ProxyExternals) (h : WalletHistory) : WalletEvent X → WalletHistory
  | .call c =>
    { state := (walletHandler X h.state c).2
      acknowledged := h.acknowledged ++ (Proxy.acknowledged X h.state c).toList }
  | .wait seconds => { h with state := { h.state with clock := h.state.clock + seconds } }
  | .restart => { h with state := h.state.restart }

def Step (X : ProxyExternals) (h : WalletHistory) (e : WalletEvent X) (h' : WalletHistory) : Prop :=
  h.next X e = h'

end WalletHistory

/-! ## An unencrypted wallet that stays loaded stays unlocked -/

section Unencrypted

variable {X : ProxyExternals} {start : Nat} {s s' : RpcState} {c : WalletCall X} {r : Response}

variable {change : Keystore → Keystore}

variable {ks : Keystore} {file : WalletFile}

/-- In the window of the first unlock a loaded and unencrypted wallet is unlocked. -/
def UsableUntil (start : Nat) (s : RpcState) : Prop :=
  s.clock < start + RpcState.initialUnlockSeconds → s.walletLoaded = true →
    s.keystore.encrypted = false → s.isWalletUnlocked = true

/-- Within the window an unencrypted wallet is not loaded again after it was unloaded. -/
def KeepsLoaded (start : Nat) (s : RpcState) : WalletEvent X → Prop
  | .call c =>
    c.loads = true → s.clock < start + RpcState.initialUnlockSeconds →
      s.keystore.encrypted = false → s.walletLoaded = true
  | _ => True

/-- A loaded and unencrypted wallet has an unlock that lasts for the window. -/
structure UnlockKept (start : Nat) (s : RpcState) : Prop where
  started : start ≤ s.clock
  loaded : s.walletLoaded = true → s.keystore.encrypted = false →
    s.clock < start + RpcState.initialUnlockSeconds → ∃ expiry, s.walletUnlockUntil = some expiry ∧
        start + RpcState.initialUnlockSeconds ≤ expiry

theorem isWalletUnlocked_eq_true :
    s.isWalletUnlocked = true ↔ ∃ expiry, s.walletUnlockUntil = some expiry ∧ s.clock < expiry := by
  unfold RpcState.isWalletUnlocked
  cases s.walletUnlockUntil with
  | none => simp
  | some expiry => simp

theorem UnlockKept.usableUntil (h : UnlockKept start s) : UsableUntil start s := by
  intro hclock hloaded hplain
  obtain ⟨expiry, hexpiry, _⟩ := h.loaded hloaded hplain hclock
  exact isWalletUnlocked_eq_true.mpr ⟨expiry, hexpiry, by omega⟩

@[simp] theorem updateKeystore_encrypted :
    (s.updateKeystore change).keystore.encrypted = (change s.keystore).encrypted := by
  simp [RpcState.updateKeystore]

@[simp] theorem insertKey_encrypted {p2pkh bech32 : String} {entry : KeyEntry} :
    (ks.insertKey p2pkh bech32 entry).encrypted = ks.encrypted := by
  unfold Keystore.insertKey
  split <;> simp

@[simp] theorem updateKeystore_walletUnlockUntil :
    (s.updateKeystore change).walletUnlockUntil = s.walletUnlockUntil := by
  simp [RpcState.updateKeystore]

@[simp] theorem updateKeystore_walletLoaded :
    (s.updateKeystore change).walletLoaded = s.walletLoaded := by
  simp [RpcState.updateKeystore]

@[simp] theorem updateKeystore_clock : (s.updateKeystore change).clock = s.clock := by
  simp [RpcState.updateKeystore]

theorem UnlockKept.of_same (h : UnlockKept start s) (hclock : s'.clock = s.clock)
    (hloaded : s'.walletLoaded = s.walletLoaded)
    (hencrypted : s'.keystore.encrypted = s.keystore.encrypted)
    (hunlock : s'.walletUnlockUntil = s.walletUnlockUntil) : UnlockKept start s' where
  started := by
    rw [hclock]
    exact h.started
  loaded := by
    rw [hclock, hloaded, hencrypted, hunlock]
    exact h.loaded

theorem UnlockKept.of_encrypted (h : UnlockKept start s) (hclock : s'.clock = s.clock)
    (hencrypted : s'.keystore.encrypted = true) : UnlockKept start s' where
  started := by
    rw [hclock]
    exact h.started
  loaded := by
    intro _ hplain
    rw [hencrypted] at hplain
    cases hplain

theorem loadEncrypted_encrypted {passphrase : String}
    (h : Keystore.loadEncrypted passphrase file = .ok ks) : ks.encrypted = true := by
  obtain ⟨_, -, rfl⟩ := Keystore.loadEncrypted_eq_ok.mp h
  rfl

theorem WalletEffect.unlockKept (heffect : WalletEffect X s c r s')
    (hcond : KeepsLoaded start s (.call c)) (h : UnlockKept start s) : UnlockKept start s' := by
  cases heffect with
  | refused _ => exact h
  | addedKey | watched => exact h.of_same (by simp) (by simp) (by simp) (by simp)
  | encrypted | locked => exact h.of_encrypted rfl rfl
  | opened _ _ hopen | rekeyed _ hopen => exact h.of_encrypted rfl (loadEncrypted_encrypted hopen)
  | loaded hloads =>
    refine ⟨h.started, ?_⟩
    intro _ hplain hclock
    have hloaded : s.walletLoaded = true := hcond hloads hclock hplain
    exact h.loaded hloaded hplain hclock
  | unloaded => exact ⟨h.started, fun hloaded => by cases hloaded⟩

theorem new_unlockKept {chainId : String} {txCache : String → Option TxCacheEntry} {clock : Nat}
    (hstart : start ≤ clock) : UnlockKept start (.new chainId file txCache clock) where
  started := hstart
  loaded := by
    intro _ hplain _
    have hnew : (RpcState.new chainId file txCache clock).walletUnlockUntil =
        some (clock + RpcState.initialUnlockSeconds) := by
      unfold RpcState.new at hplain ⊢
      simp only at hplain ⊢
      simp [hplain]
    exact ⟨_, hnew, by omega⟩

def LockedWhenUnloaded (s : RpcState) : Prop := s.walletLoaded = false → s.walletUnlockUntil = none

theorem WalletEffect.lockedWhenUnloaded (heffect : WalletEffect X s c r s')
    (h : LockedWhenUnloaded s) : LockedWhenUnloaded s' := by
  cases heffect with
  | refused _ => exact h
  | addedKey | watched =>
    intro hunloaded
    simp only [updateKeystore_walletLoaded, updateKeystore_walletUnlockUntil] at hunloaded ⊢
    exact h hunloaded
  | encrypted | locked | unloaded => exact fun _ => rfl
  | opened hloaded =>
    intro hunloaded
    rw [show s.walletLoaded = false from hunloaded] at hloaded
    cases hloaded
  | rekeyed => exact h
  | loaded _ =>
    intro hunloaded
    cases hunloaded

theorem keepsLoaded_of_usableUntil (heffect : WalletEffect X s c r s')
    (hlocked : LockedWhenUnloaded s) (husable : UsableUntil start s') :
    KeepsLoaded start s (.call c) := by
  intro hloads hclock hplain
  by_contra hunloaded
  have hnone : s.walletUnlockUntil = none := hlocked (Bool.eq_false_iff.mpr hunloaded)
  cases heffect with
  | refused hnot => simp [hloads] at hnot
  | loaded _ =>
    have hunlocked := husable hclock rfl hplain
    obtain ⟨_, hexpiry, -⟩ := isWalletUnlocked_eq_true.mp hunlocked
    exact absurd (hnone.symm.trans hexpiry) (by simp)
  | addedKey hadds => cases c <;> simp [WalletCall.addsKey, WalletCall.loads] at hadds hloads
  | watched hwatch _ => cases c <;> simp [WalletCall.watched, WalletCall.loads] at hwatch hloads
  | _ => cases hloads

variable {h h' : WalletHistory} {e : WalletEvent X}

theorem WalletHistory.Step.unlockKept (hstep : h.Step X e h') (hcond : KeepsLoaded start h.state e)
    (hkept : UnlockKept start h.state) : UnlockKept start h'.state := by
  subst hstep
  cases e with
  | call c => exact (walletHandler_effect X h.state c).unlockKept hcond hkept
  | wait seconds =>
    refine ⟨hkept.started.trans (Nat.le_add_right _ _), ?_⟩
    intro hloaded hplain hclock
    have hbefore : h.state.clock < start + RpcState.initialUnlockSeconds :=
      lt_of_le_of_lt (Nat.le_add_right _ _) hclock
    exact hkept.loaded hloaded hplain hbefore
  | restart => exact new_unlockKept hkept.started

theorem WalletHistory.Step.lockedWhenUnloaded (hstep : h.Step X e h')
    (hlocked : LockedWhenUnloaded h.state) : LockedWhenUnloaded h'.state := by
  subst hstep
  cases e with
  | call c => exact (walletHandler_effect X h.state c).lockedWhenUnloaded hlocked
  | wait seconds => exact hlocked
  | restart => exact fun hunloaded => by cases hunloaded

/-- A history keeps a loaded and unencrypted wallet unlocked for the window of its first
unlock exactly when, within the window, no call loads the wallet after it was unloaded. -/
theorem unencrypted_wallet_usable_iff (X : ProxyExternals) (chainId : String) (file : WalletFile)
    (txCache : String → Option TxCacheEntry) (clock : Nat) (events : List (WalletEvent X))
    (h : WalletHistory) :
    RunThrough (WalletHistory.Step X) (fun a => UsableUntil clock a.state)
        (.start chainId file txCache clock) events h ↔
      Run (fun a e b => WalletHistory.Step X a e b ∧ KeepsLoaded clock a.state e)
        (.start chainId file txCache clock) events h := by
  constructor
  · rintro ⟨-, hrun⟩
    refine (hrun.mono_of_invariant (fun a => LockedWhenUnloaded a.state) ?_ ?_).1
    · exact fun hunloaded => by cases hunloaded
    · rintro a e b hlocked ⟨hstep, husable⟩
      refine ⟨⟨hstep, ?_⟩, hstep.lockedWhenUnloaded hlocked⟩
      cases e with
      | call c =>
        subst hstep
        exact keepsLoaded_of_usableUntil (walletHandler_effect X a.state c) hlocked husable
      | wait seconds => trivial
      | restart => trivial
  · intro hrun
    refine ⟨(new_unlockKept le_rfl).usableUntil, ?_⟩
    refine (hrun.mono_of_invariant (fun a => UnlockKept clock a.state) (new_unlockKept le_rfl) ?_).1
    rintro a e b hkept ⟨hstep, hcond⟩
    have hkept' := hstep.unlockKept hcond hkept
    exact ⟨⟨hstep, hkept'.usableUntil⟩, hkept'⟩

/-- Unloading and loading an unencrypted wallet leaves it locked. -/
theorem reloaded_wallet_locked :
    let h := ((WalletHistory.start "mainnet" .absent (fun _ => none) 0).next .sample
      (.call (.unloadwallet none))).next .sample (.call (.loadwallet none))
    h.state.clock = 0 ∧ h.state.walletLoaded = true ∧ h.state.keystore.encrypted = false ∧
      h.state.isWalletUnlocked = false :=
  ⟨rfl, rfl, rfl, rfl⟩

end Unencrypted

end BitInfinity.Proxy
