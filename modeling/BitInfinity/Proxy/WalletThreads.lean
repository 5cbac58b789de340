import BitInfinity.Foundation.Interleaving
import BitInfinity.Proxy.WalletHistory

/-!
# Wallet calls as threads

The calls that use the keystore, one lock acquisition or file operation at a time.  A thread
holds a lock over as many moves as the handler holds its guard; a guard that is dropped before
the next await is taken and given back in one move.  A thread that runs alone does what the
handler of its call does.
-/

namespace BitInfinity.Proxy

open BitInfinity Foundation

variable {X : ProxyExternals} {ι : Type} [DecidableEq ι]

/-! ## Requests that change the keystore -/

/-- A change of the keystore that will be saved, and the reply to it. -/
structure KeystoreUpdate where
  reply : RpcResult
  change : Keystore → Keystore

def KeystoreUpdate.acknowledged (u : KeystoreUpdate) : Option String :=
  match u.reply with
  | .text address => some address
  | _ => none

def KeystoreUpdate.answer (s : RpcState) : Except RpcError KeystoreUpdate → Response × RpcState
  | .error e => (.error e, s)
  | .ok u => (.ok u.reply, s.updateKeystore u.change)

/-- What a call that adds a key stores, once its checks have passed. -/
def WalletCall.keyUpdate (s : RpcState) : WalletCall X → Option (Except RpcError KeystoreUpdate)
  | .getnewaddress addressType pair =>
    let p2pkh := p2pkhAddress X.toCrypto 0x00 pair.publicKey
    let bech32 := bech32Address X.toCrypto s.bech32Hrp pair.publicKey
    let address := if addressType.getD "bech32" = "legacy" then p2pkh else bech32
    some (.ok ⟨.text address, (·.insertKey p2pkh bech32 pair.entry)⟩)
  | .getrawchangeaddress pair =>
    let p2pkh := p2pkhAddress X.toCrypto 0x00 pair.publicKey
    let bech32 := bech32Address X.toCrypto s.bech32Hrp pair.publicKey
    some (.ok ⟨.text bech32, (·.insertKey p2pkh bech32 pair.entry)⟩)
  | .importprivkey input =>
    some ((parseImport X input).map fun (pair, entry) =>
      let p2pkh := p2pkhAddress X.toCrypto (importVersion s) pair.publicKey
      let bech32 := bech32Address X.toCrypto s.bech32Hrp pair.publicKey
      ⟨.text p2pkh, (·.insertKey p2pkh bech32 entry)⟩)
  | _ => none

/-! ## Threads -/

/-- Where a thread is in the handler of its call: the move that comes next, and what the
handler keeps in its variables. -/
inductive WalletThread (X : ProxyExternals)
  | entered (c : WalletCall X)
  | checkUnlocked (c : WalletCall X)
  | store (u : KeystoreUpdate)
  | save (u : KeystoreUpdate)
  | saveEncrypted (u : KeystoreUpdate) (passphrase : String)
  | encryptRead (passphrase : String)
  | encryptWrite (passphrase : String)
  | encryptMark (passphrase : String)
  | encryptCache (passphrase : String)
  | encryptLock (passphrase : String)
  | openRead (passphrase : String) (timeout : Nat)
  | openLoad (passphrase : String) (timeout : Nat)
  | openStore (passphrase : String) (timeout : Nat) (decrypted : Keystore)
  | openUnlock (passphrase : String) (expiry : Nat)
  | openCache (passphrase : String)
  | lockRead
  | lockPassphrase
  | lockKeystore (passphrase : String)
  | lockSave (passphrase : String)
  | lockClear
  | lockExpire
  | lockForget
  | changeLoad (old new : String)
  | changeSave (new : String) (decrypted : Keystore)
  | changeStore (new : String) (decrypted : Keystore)
  | changeCache (new : String)
  | done (r : Response)

/-- What a running call does to the wallet. -/
inductive Activity
  | storing
  | encrypting
  | reopening
  deriving DecidableEq, Repr

def WalletCall.activity : WalletCall X → Activity
  | .encryptwallet _ => .encrypting
  | .walletpassphrase _ _ => .reopening
  | .walletlock => .reopening
  | .walletpassphrasechange _ _ => .reopening
  | _ => .storing

/-- The state of the proxy with its locks.  The last three fields only record the run. -/
structure WalletShared (ι : Type) where
  state : RpcState
  keystoreLock : RwLock ι
  passphraseLock : RwLock ι
  unlockLock : RwLock ι
  /-- The addresses of stored keys that calls have returned. -/
  acknowledged : List String
  /-- The passphrase that the wallet was last encrypted with by `encryptwallet` or
  `walletpassphrasechange`; after that write neither call can fail. -/
  current : Option String
  /-- The calls that have begun and have not returned. -/
  running : ι → Option Activity

namespace WalletShared

def enter (σ : WalletShared ι) (i : ι) (a : Activity) : WalletShared ι :=
  { σ with running := Function.update σ.running i (some a) }

def leave (σ : WalletShared ι) (i : ι) : WalletShared ι :=
  { σ with running := Function.update σ.running i none }

def leaveKeystore (σ : WalletShared ι) (i : ι) : WalletShared ι :=
  { σ.leave i with keystoreLock := σ.keystoreLock.releaseWrite i }

def leaveSaved (σ : WalletShared ι) (i : ι) (u : KeystoreUpdate) : WalletShared ι :=
  { σ.leaveKeystore i with acknowledged := σ.acknowledged ++ u.acknowledged.toList }

end WalletShared

namespace WalletThread

/-- The first point of a handler after the check that the wallet is loaded. -/
def begin (s : RpcState) : WalletCall X → Option (WalletThread X)
  | .getnewaddress addressType pair => some (.checkUnlocked (.getnewaddress addressType pair))
  | .getrawchangeaddress pair => some (.checkUnlocked (.getrawchangeaddress pair))
  | .importprivkey input => some (.checkUnlocked (.importprivkey input))
  | .importaddress none => some (.done (errResponse (-32602) "Missing address parameter"))
  | .importaddress (some address) => some (.store ⟨.null, (·.addWatchOnly address)⟩)
  | .importpubkey pubkeyHex =>
    match parsePubkey pubkeyHex with
    | .error e => some (.done (.error e))
    | .ok pubkey => some (.store
        ⟨.null, (·.addWatchOnly (watchAddress X.toCrypto s.bech32Hrp pubkey))⟩)
  | .encryptwallet none => some (.done (errResponse (-32602) "Missing passphrase parameter"))
  | .encryptwallet (some passphrase) => some (.encryptRead passphrase)
  | .walletpassphrase none _ => some (.done (errResponse (-32602) "Missing passphrase parameter"))
  | .walletpassphrase (some passphrase) timeout => some (.openRead passphrase (timeout.getD 600))
  | .walletlock => some .lockRead
  | .walletpassphrasechange none _ => some (.done (errResponse (-32602) "Missing old passphrase"))
  | .walletpassphrasechange (some _) none =>
    some (.done (errResponse (-32602) "Missing new passphrase"))
  | .walletpassphrasechange (some old) (some new) => some (.changeLoad old new)
  -- the calls that only load or unload the wallet take no part in the interleavings
  | .loadwallet _ => none
  | .unloadwallet _ => none
  | .createwallet _ => none

def isDone : WalletThread X → Bool
  | .done _ => true
  | _ => false

def isOk : WalletThread X → Bool
  | .done (.ok _) => true
  | _ => false

theorem eq_done_of_isOk {t : WalletThread X} (h : t.isOk = true) :
    ∃ result, t = .done (.ok result) := by
  cases t with
  | done r =>
    cases r with
    | error e => cases h
    | ok result => exact ⟨result, rfl⟩
  | _ => cases h

def next (i : ι) (σ : WalletShared ι) : WalletThread X → Option (WalletShared ι × WalletThread X)
  | .entered c => do
    if σ.state.walletLoaded then
      let t ← begin σ.state c
      some (if t.isDone then σ else σ.enter i c.activity, t)
    else some (σ, .done (.error RpcState.notLoaded))
  | .checkUnlocked c => do
    let _ ← σ.unlockLock.acquireRead i
    if σ.state.isWalletUnlocked then
      match ← c.keyUpdate σ.state with
      | .error e => some (σ.leave i, .done (.error e))
      | .ok u => some (σ, .store u)
    else some (σ.leave i, .done (.error RpcState.locked))
  | .store u => do
    let lock ← σ.keystoreLock.acquireWrite i
    some ({ σ with
      keystoreLock := lock
      state := { σ.state with keystore := u.change σ.state.keystore } }, .save u)
  | .save u =>
    if σ.state.keystore.encrypted then do
      let lock ← σ.passphraseLock.acquireRead i
      match σ.state.walletPassphrase with
      | some passphrase => some ({ σ with passphraseLock := lock }, .saveEncrypted u passphrase)
      | none => some (σ.leaveSaved i u, .done (.ok u.reply))
    else
      some ({ σ.leaveSaved i u with
        state := { σ.state with file := σ.state.keystore.save } }, .done (.ok u.reply))
  | .saveEncrypted u passphrase =>
    some ({ σ.leaveSaved i u with
      passphraseLock := σ.passphraseLock.releaseRead i
      state := { σ.state with file := σ.state.keystore.saveEncrypted passphrase } },
      .done (.ok u.reply))
  | .encryptRead passphrase => do
    let lock ← σ.keystoreLock.acquireRead i
    if σ.state.keystore.encrypted then
      some (σ.leave i, .done (errResponse (-15)
        "Error: running with an encrypted wallet, but encryptwallet was called."))
    else some ({ σ with keystoreLock := lock }, .encryptWrite passphrase)
  | .encryptWrite passphrase =>
    some ({ σ with
      keystoreLock := σ.keystoreLock.releaseRead i
      state := { σ.state with file := σ.state.keystore.saveEncrypted passphrase }
      current := some passphrase }, .encryptMark passphrase)
  | .encryptMark passphrase => do
    let lock ← σ.keystoreLock.acquireWrite i
    some ({ σ with
      keystoreLock := lock
      state := { σ.state with keystore := { σ.state.keystore with encrypted := true } } },
      .encryptCache passphrase)
  | .encryptCache passphrase => do
    let _ ← σ.passphraseLock.acquireWrite i
    some ({ σ with state := { σ.state with walletPassphrase := some passphrase } },
      .encryptLock passphrase)
  | .encryptLock _ => do
    let _ ← σ.unlockLock.acquireWrite i
    some ({ σ.leaveKeystore i with state := { σ.state with walletUnlockUntil := none } },
      .done (.ok (.text ("wallet encrypted; The keypool has been flushed and a new HD seed " ++
        "was set. You need to make a new backup."))))
  | .openRead passphrase timeout => do
    let _ ← σ.keystoreLock.acquireRead i
    if !σ.state.keystore.encrypted then
      some (σ.leave i, .done (errResponse (-15)
        "Error: running with an unencrypted wallet, but walletpassphrase was called."))
    else some (σ, .openLoad passphrase timeout)
  | .openLoad passphrase timeout =>
    match Keystore.loadEncrypted passphrase σ.state.file with
    | .error e => some (σ.leave i, .done (errResponse (-14) ("Error: " ++ e)))
    | .ok decrypted => some (σ, .openStore passphrase timeout decrypted)
  | .openStore passphrase timeout decrypted => do
    let _ ← σ.keystoreLock.acquireWrite i
    some ({ σ with state := { σ.state with keystore := decrypted } },
      .openUnlock passphrase (σ.state.clock + timeout))
  | .openUnlock passphrase expiry => do
    let _ ← σ.unlockLock.acquireWrite i
    some ({ σ with state := { σ.state with walletUnlockUntil := some expiry } },
      .openCache passphrase)
  | .openCache passphrase => do
    let _ ← σ.passphraseLock.acquireWrite i
    some ({ σ.leave i with state := { σ.state with walletPassphrase := some passphrase } },
      .done (.ok .null))
  | .lockRead => do
    let _ ← σ.keystoreLock.acquireRead i
    if !σ.state.keystore.encrypted then
      some (σ.leave i, .done (errResponse (-15)
        "Error: running with an unencrypted wallet, but walletlock was called."))
    else some (σ, .lockPassphrase)
  | .lockPassphrase => do
    let lock ← σ.passphraseLock.acquireRead i
    match σ.state.walletPassphrase with
    | some passphrase => some ({ σ with passphraseLock := lock }, .lockKeystore passphrase)
    | none => some (σ, .lockClear)
  | .lockKeystore passphrase => do
    let lock ← σ.keystoreLock.acquireRead i
    some ({ σ with keystoreLock := lock }, .lockSave passphrase)
  | .lockSave passphrase =>
    some ({ σ with
      keystoreLock := σ.keystoreLock.releaseRead i
      passphraseLock := σ.passphraseLock.releaseRead i
      state := { σ.state with file := σ.state.keystore.saveEncrypted passphrase } }, .lockClear)
  | .lockClear => do
    let _ ← σ.keystoreLock.acquireWrite i
    some ({ σ with state := { σ.state with keystore := .emptyEncrypted } }, .lockExpire)
  | .lockExpire => do
    let lock ← σ.unlockLock.acquireWrite i
    some ({ σ with
      unlockLock := lock
      state := { σ.state with walletUnlockUntil := none } }, .lockForget)
  | .lockForget => do
    let _ ← σ.passphraseLock.acquireWrite i
    some ({ σ.leave i with
      unlockLock := σ.unlockLock.releaseWrite i
      state := { σ.state with walletPassphrase := none } }, .done (.ok .null))
  | .changeLoad old new =>
    match Keystore.loadEncrypted old σ.state.file with
    | .error e => some (σ.leave i, .done (errResponse (-14) ("Error: " ++ e)))
    | .ok decrypted => some (σ, .changeSave new decrypted)
  | .changeSave new decrypted =>
    some ({ σ with
      state := { σ.state with file := decrypted.saveEncrypted new }
      current := some new }, .changeStore new decrypted)
  | .changeStore new decrypted => do
    let lock ← σ.keystoreLock.acquireWrite i
    some ({ σ with
      keystoreLock := lock
      state := { σ.state with keystore := decrypted } }, .changeCache new)
  | .changeCache new => do
    let _ ← σ.passphraseLock.acquireWrite i
    some ({ σ.leaveKeystore i with
      state := { σ.state with walletPassphrase := some new } }, .done (.ok .null))
  | .done _ => none

end WalletThread

def WalletMove (X : ProxyExternals) (i : ι) (σ : WalletShared ι) (t : WalletThread X)
    (σ' : WalletShared ι) (t' : WalletThread X) : Prop :=
  t.next i σ = some (σ', t')

def WalletShared.Waits (σ σ' : WalletShared ι) : Prop :=
  ∃ seconds, σ' = { σ with state := { σ.state with clock := σ.state.clock + seconds } }

abbrev WalletPool (X : ProxyExternals) (ι : Type) := Pool ι (WalletShared ι) (WalletThread X)

def WalletShared.start (s : RpcState) : WalletShared ι where
  state := s
  keystoreLock := .free
  passphraseLock := .free
  unlockLock := .free
  acknowledged := []
  current := match s.file with
    | .encrypted passphrase _ => some passphrase
    | _ => none
  running _ := none

def WalletPool.start (s : RpcState) (calls : ι → WalletCall X) : WalletPool X ι :=
  ⟨.start s, fun i => .entered (calls i)⟩

/-! ## What one move can do -/

inductive WalletStep (i : ι) (σ : WalletShared ι) :
    WalletThread X → WalletShared ι → WalletThread X → Prop
  | refused {c e} : WalletStep i σ (.entered c) σ (.done (.error e))
  | entered {c t} : WalletThread.begin σ.state c = some t → t.isDone = false →
      WalletStep i σ (.entered c) (σ.enter i c.activity) t
  | denied {c e} : WalletStep i σ (.checkUnlocked c) (σ.leave i) (.done (.error e))
  | checked {c u} : σ.state.isWalletUnlocked = true → c.keyUpdate σ.state = some (.ok u) →
      WalletStep i σ (.checkUnlocked c) σ (.store u)
  | stored {u} : σ.keystoreLock = .free → WalletStep i σ (.store u) { σ with
          keystoreLock := .exclusive i
          state := { σ.state with keystore := u.change σ.state.keystore } } (.save u)
  | savedPlain {u} : σ.state.keystore.encrypted = false → WalletStep i σ (.save u)
        { σ.leaveSaved i u with state := { σ.state with file := σ.state.keystore.save } }
        (.done (.ok u.reply))
  | keyed {u passphrase lock} :
      σ.state.keystore.encrypted = true → σ.state.walletPassphrase = some passphrase →
      WalletStep i σ (.save u) { σ with passphraseLock := lock } (.saveEncrypted u passphrase)
  | unsaved {u} : σ.state.keystore.encrypted = true → σ.state.walletPassphrase = none →
      WalletStep i σ (.save u) (σ.leaveSaved i u) (.done (.ok u.reply))
  | savedEncrypted {u passphrase} :
      WalletStep i σ (.saveEncrypted u passphrase) { σ.leaveSaved i u with
          passphraseLock := σ.passphraseLock.releaseRead i
          state := { σ.state with file := σ.state.keystore.saveEncrypted passphrase } }
        (.done (.ok u.reply))
  | encryptRefused {passphrase e} :
      WalletStep i σ (.encryptRead passphrase) (σ.leave i) (.done (.error e))
  | encryptRead {passphrase readers} :
      σ.keystoreLock = .shared readers → σ.state.keystore.encrypted = false →
      WalletStep i σ (.encryptRead passphrase)
        { σ with keystoreLock := .shared (insert i readers) } (.encryptWrite passphrase)
  | encryptWritten {passphrase} : WalletStep i σ (.encryptWrite passphrase) { σ with
          keystoreLock := σ.keystoreLock.releaseRead i
          state := { σ.state with file := σ.state.keystore.saveEncrypted passphrase }
          current := some passphrase } (.encryptMark passphrase)
  | encryptMarked {passphrase} : σ.keystoreLock = .free →
      WalletStep i σ (.encryptMark passphrase) { σ with
          keystoreLock := .exclusive i
          state := { σ.state with keystore := { σ.state.keystore with encrypted := true } } }
        (.encryptCache passphrase)
  | encryptCached {passphrase} : WalletStep i σ (.encryptCache passphrase)
        { σ with state := { σ.state with walletPassphrase := some passphrase } }
        (.encryptLock passphrase)
  | encryptLocked {passphrase result} : WalletStep i σ (.encryptLock passphrase)
        { σ.leaveKeystore i with state := { σ.state with walletUnlockUntil := none } }
        (.done (.ok result))
  | openRefused {passphrase timeout e} :
      WalletStep i σ (.openRead passphrase timeout) (σ.leave i) (.done (.error e))
  | openRead {passphrase timeout} : σ.state.keystore.encrypted = true →
      WalletStep i σ (.openRead passphrase timeout) σ (.openLoad passphrase timeout)
  | openFailed {passphrase timeout e} :
      WalletStep i σ (.openLoad passphrase timeout) (σ.leave i) (.done (.error e))
  | openLoaded {passphrase timeout decrypted} :
      Keystore.loadEncrypted passphrase σ.state.file = .ok decrypted →
      WalletStep i σ (.openLoad passphrase timeout) σ (.openStore passphrase timeout decrypted)
  | openStored {passphrase timeout decrypted} : σ.keystoreLock = .free →
      WalletStep i σ (.openStore passphrase timeout decrypted)
        { σ with state := { σ.state with keystore := decrypted } }
        (.openUnlock passphrase (σ.state.clock + timeout))
  | openUnlocked {passphrase expiry} : WalletStep i σ (.openUnlock passphrase expiry)
        { σ with state := { σ.state with walletUnlockUntil := some expiry } }
        (.openCache passphrase)
  | openCached {passphrase} : WalletStep i σ (.openCache passphrase)
        { σ.leave i with state := { σ.state with walletPassphrase := some passphrase } }
        (.done (.ok .null))
  | lockRefused {e} : WalletStep i σ .lockRead (σ.leave i) (.done (.error e))
  | lockRead : σ.state.keystore.encrypted = true → WalletStep i σ .lockRead σ .lockPassphrase
  | lockKeyed {passphrase lock} : σ.state.walletPassphrase = some passphrase →
      WalletStep i σ .lockPassphrase { σ with passphraseLock := lock } (.lockKeystore passphrase)
  | lockUnkeyed : σ.state.walletPassphrase = none → WalletStep i σ .lockPassphrase σ .lockClear
  | lockKeystore {passphrase readers} : σ.keystoreLock = .shared readers →
      WalletStep i σ (.lockKeystore passphrase)
        { σ with keystoreLock := .shared (insert i readers) } (.lockSave passphrase)
  | lockSaved {passphrase} : WalletStep i σ (.lockSave passphrase) { σ with
          keystoreLock := σ.keystoreLock.releaseRead i
          passphraseLock := σ.passphraseLock.releaseRead i
          state := { σ.state with file := σ.state.keystore.saveEncrypted passphrase } } .lockClear
  | lockCleared : σ.keystoreLock = .free → WalletStep i σ .lockClear
        { σ with state := { σ.state with keystore := .emptyEncrypted } } .lockExpire
  | lockExpired {lock} : WalletStep i σ .lockExpire
        { σ with unlockLock := lock, state := { σ.state with walletUnlockUntil := none } }
        .lockForget
  | lockForgot : WalletStep i σ .lockForget { σ.leave i with
          unlockLock := σ.unlockLock.releaseWrite i
          state := { σ.state with walletPassphrase := none } } (.done (.ok .null))
  | changeFailed {old new e} : WalletStep i σ (.changeLoad old new) (σ.leave i) (.done (.error e))
  | changeLoaded {old new decrypted} : Keystore.loadEncrypted old σ.state.file = .ok decrypted →
      WalletStep i σ (.changeLoad old new) σ (.changeSave new decrypted)
  | changeSaved {new decrypted} : WalletStep i σ (.changeSave new decrypted) { σ with
          state := { σ.state with file := decrypted.saveEncrypted new }
          current := some new } (.changeStore new decrypted)
  | changeStored {new decrypted} : σ.keystoreLock = .free →
      WalletStep i σ (.changeStore new decrypted) { σ with
          keystoreLock := .exclusive i
          state := { σ.state with keystore := decrypted } } (.changeCache new)
  | changeCached {new} : WalletStep i σ (.changeCache new)
        { σ.leaveKeystore i with state := { σ.state with walletPassphrase := some new } }
        (.done (.ok .null))

theorem WalletStep.running_other {i j : ι} {σ σ' : WalletShared ι} {t t' : WalletThread X}
    (h : WalletStep i σ t σ' t') (hne : j ≠ i) : σ'.running j = σ.running j := by
  cases h <;> simp [WalletShared.enter, WalletShared.leave, WalletShared.leaveKeystore,
    WalletShared.leaveSaved, hne]

section Inversion

variable {i : ι} {σ σ' : WalletShared ι} {t' : WalletThread X}

theorem begin_done {s : RpcState} {c : WalletCall X} {r : Response}
    (h : WalletThread.begin s c = some (.done r)) : ∃ e, r = .error e := by
  unfold WalletThread.begin at h
  split at h
  all_goals try split at h
  all_goals cases h
  all_goals exact ⟨_, rfl⟩

theorem next_entered_step {c : WalletCall X}
    (h : (WalletThread.entered c).next i σ = some (σ', t')) :
    WalletStep i σ (.entered c) σ' t' := by
  simp only [WalletThread.next] at h
  split at h
  · obtain ⟨t, hbegin, ht⟩ := Option.bind_eq_some_iff.mp h
    obtain ⟨rfl, rfl⟩ : _ ∧ t = t' := by simpa using ht
    cases hdone : t.isDone with
    | false => exact .entered hbegin hdone
    | true =>
      cases t with
      | done r =>
        obtain ⟨e, rfl⟩ := begin_done hbegin
        exact .refused
      | _ => cases hdone
  · cases h
    exact .refused

theorem WalletMove.step {t : WalletThread X} (h : WalletMove X i σ t σ' t') :
    WalletStep i σ t σ' t' := by
  unfold WalletMove at h
  cases t with
  | entered c => exact next_entered_step h
  | checkUnlocked c =>
    obtain ⟨-, -, h⟩ := Option.bind_eq_some_iff.mp h
    split at h
    · rename_i hunlocked
      obtain ⟨update, hupdate, h⟩ := Option.bind_eq_some_iff.mp h
      cases update with
      | error e =>
        cases h
        exact .denied
      | ok u =>
        cases h
        exact .checked hunlocked hupdate
    · cases h
      exact .denied
  | save u =>
    simp only [WalletThread.next] at h
    split at h
    · rename_i hencrypted
      obtain ⟨lock, -, h⟩ := Option.bind_eq_some_iff.mp h
      split at h
      · rename_i hcached
        cases h
        exact .keyed hencrypted hcached
      · rename_i hcached
        cases h
        exact .unsaved hencrypted hcached
    · rename_i hplain
      cases h
      exact .savedPlain (Bool.eq_false_iff.mpr hplain)
  | encryptRead passphrase =>
    obtain ⟨readers, hshared, h⟩ := RwLock.of_bind_acquireRead h
    split at h
    · cases h
      exact .encryptRefused
    · rename_i hplain
      cases h
      exact .encryptRead hshared (Bool.eq_false_iff.mpr hplain)
  | lockKeystore passphrase =>
    obtain ⟨readers, hshared, h⟩ := RwLock.of_bind_acquireRead h
    cases h
    exact .lockKeystore hshared
  | openRead | lockRead =>
    obtain ⟨-, -, h⟩ := Option.bind_eq_some_iff.mp h
    split at h
    · cases h
      constructor
    · rename_i hencrypted
      cases h
      constructor
      simpa using hencrypted
  | openLoad | changeLoad =>
    simp only [WalletThread.next] at h
    split at h
    · cases h
      constructor
    · rename_i hopen
      cases h
      constructor
      exact hopen
  | lockPassphrase =>
    obtain ⟨lock, -, h⟩ := Option.bind_eq_some_iff.mp h
    split at h
    · rename_i hcached
      cases h
      exact .lockKeyed hcached
    · rename_i hcached
      cases h
      exact .lockUnkeyed hcached
  -- the other points have one move, perhaps with a lock that it takes
  | store | encryptMark | openStore | lockClear | changeStore =>
    obtain ⟨hfree, h⟩ := RwLock.of_bind_acquireWrite h
    cases h
    constructor
    exact hfree
  | encryptCache | encryptLock | openUnlock | openCache | lockExpire | lockForget | changeCache =>
    obtain ⟨lock, -, h⟩ := Option.bind_eq_some_iff.mp h
    cases h
    constructor
  | saveEncrypted | encryptWrite | lockSave | changeSave =>
    cases h
    constructor
  | done r => cases h

end Inversion

/-! ## A thread on its own -/

def WalletShared.Free (σ : WalletShared ι) : Prop :=
  σ.keystoreLock = .free ∧ σ.passphraseLock = .free ∧ σ.unlockLock = .free

/-- Alone in the pool the thread comes to the reply and the state, and leaves the locks free. -/
def WalletThread.Ends (t : WalletThread X) (i : ι) (σ : WalletShared ι) (reply : Response)
    (after : RpcState) : Prop :=
  ∀ threads : ι → WalletThread X, ∃ σ' labels, Run (Pool.Step (WalletMove X) WalletShared.Waits)
      ⟨σ, Function.update threads i t⟩ labels ⟨σ', Function.update threads i (.done reply)⟩ ∧
    σ'.state = after ∧ σ'.Free

section Alone

variable {i : ι} {s : RpcState} {acknowledged : List String} {current : Option String}
  {running : ι → Option Activity} {σ σ' : WalletShared ι} {r : Response}

variable {c : WalletCall X} {update : Except RpcError KeystoreUpdate}

theorem WalletThread.Ends.done (hkeystore : σ.keystoreLock = .free)
    (hpassphrase : σ.passphraseLock = .free) (hunlock : σ.unlockLock = .free) :
    (.done r : WalletThread X).Ends i σ r σ.state :=
  fun _ => ⟨σ, [], .refl, rfl, hkeystore, hpassphrase, hunlock⟩

theorem WalletThread.Ends.move {t t' : WalletThread X} {after : RpcState}
    (hnext : t.next i σ = some (σ', t')) (h : t'.Ends i σ' r after) : t.Ends i σ r after := by
  intro threads
  obtain ⟨σ₁, _, hrun, hends⟩ := h threads
  have hown : WalletMove X i σ (Function.update threads i t i) σ' t' := by
    rwa [Function.update_self]
  have hstep : Pool.Step (WalletMove X) WalletShared.Waits
      ⟨σ, Function.update threads i t⟩ (some i) _ := .thread hown
  rw [Function.update_idem] at hstep
  exact ⟨σ₁, _, (Run.single hstep).trans hrun, hends⟩

theorem WalletThread.store_ends {u : KeystoreUpdate} :
    (.store u : WalletThread X).Ends i
      ⟨s, .free, .free, .free, acknowledged, current, running⟩ (.ok u.reply)
      (s.updateKeystore u.change) := by
  refine .move rfl ?_
  simp only [RpcState.updateKeystore, RpcState.saveKeystore]
  generalize u.change s.keystore = ks
  obtain ⟨_, _, encrypted⟩ := ks
  obtain ⟨_, _, ks, _, _, passphrase, _, _, _, _⟩ := s
  have hrelease : (RwLock.exclusive i).releaseWrite i = .free := RwLock.releaseWrite_exclusive
  cases encrypted with
  | false => exact .move rfl (.done hrelease rfl rfl)
  | true =>
    cases passphrase with
    | none => exact .move rfl (.done hrelease rfl rfl)
    | some passphrase =>
      refine .move rfl (.move rfl (.done hrelease ?_ rfl))
      exact RwLock.releaseRead_acquired

theorem WalletThread.checkUnlocked_ends (hc : c.keyUpdate s = some update) :
    (WalletThread.checkUnlocked c).Ends i ⟨s, .free, .free, .free, acknowledged, current, running⟩
      (KeystoreUpdate.answer s (do s.ensureWalletUnlocked; update)).1
      (KeystoreUpdate.answer s (do s.ensureWalletUnlocked; update)).2 := by
  unfold RpcState.ensureWalletUnlocked
  set σ : WalletShared ι := ⟨s, .free, .free, .free, acknowledged, current, running⟩ with hσ
  cases hunlocked : s.isWalletUnlocked with
  | false =>
    have hnext : (checkUnlocked c).next i σ = some (σ.leave i, .done (.error RpcState.locked)) := by
      simp [next, hσ, hunlocked, RwLock.acquireRead, RwLock.free]
    exact .move hnext (.done rfl rfl rfl)
  | true =>
    cases update with
    | error e =>
      have hnext : (checkUnlocked c).next i σ = some (σ.leave i, .done (.error e)) := by
        simp [next, hσ, hunlocked, hc, RwLock.acquireRead, RwLock.free]
      exact .move hnext (.done rfl rfl rfl)
    | ok u =>
      have hnext : (checkUnlocked c).next i σ = some (σ, .store u) := by
        simp [next, hσ, hunlocked, hc, RwLock.acquireRead, RwLock.free]
      exact .move hnext store_ends

theorem walletHandler_of_keyUpdate
    (hloaded : s.walletLoaded = true) (hc : c.keyUpdate s = some update) :
    walletHandler X s c = KeystoreUpdate.answer s (do s.ensureWalletUnlocked; update) := by
  have husable : s.ensureWalletUsable = s.ensureWalletUnlocked := by
    simp [RpcState.ensureWalletUsable, RpcState.ensureWalletLoaded, hloaded, ensure]
  cases c with
  | getnewaddress =>
    cases hc
    simp only [walletHandler, getnewaddress, husable]
    cases s.ensureWalletUnlocked <;> rfl
  | getrawchangeaddress pair =>
    cases hc
    simp only [walletHandler, getrawchangeaddress, husable]
    cases s.ensureWalletUnlocked <;> rfl
  | importprivkey input =>
    cases hc
    simp only [walletHandler, importprivkey, husable]
    cases s.ensureWalletUnlocked with
    | error e => rfl
    | ok _ => cases parseImport X input <;> rfl
  | _ => cases hc

variable {passphrase new : String} {timeout : Nat} {e : String} {decrypted : Keystore}

variable {pubkeyHex : Option String}

theorem WalletThread.next_entered {c : WalletCall X} {t : WalletThread X}
    (hloaded : σ.state.walletLoaded = true) (ht : begin σ.state c = some t) :
    (entered c).next i σ = some (if t.isDone then σ else σ.enter i c.activity, t) := by
  simp [next, hloaded, ht]

theorem WalletThread.begin_importpubkey_error {e : RpcError}
    (h : parsePubkey pubkeyHex = .error e) :
    begin s (.importpubkey pubkeyHex : WalletCall X) = some (.done (.error e)) := by
  simp [begin, h]

theorem WalletThread.begin_importpubkey_ok {pubkey : Bytes}
    (h : parsePubkey pubkeyHex = .ok pubkey) :
    begin s (.importpubkey pubkeyHex : WalletCall X) = some (.store
      ⟨.null, (·.addWatchOnly (watchAddress X.toCrypto s.bech32Hrp pubkey))⟩) := by
  simp [begin, h]

theorem WalletThread.next_openLoad_error
    (h : Keystore.loadEncrypted passphrase σ.state.file = .error e) :
    (openLoad passphrase timeout : WalletThread X).next i σ =
      some (σ.leave i, .done (errResponse (-14) ("Error: " ++ e))) := by
  simp only [next, h]

theorem WalletThread.next_openLoad_ok
    (h : Keystore.loadEncrypted passphrase σ.state.file = .ok decrypted) :
    (openLoad passphrase timeout : WalletThread X).next i σ =
      some (σ, .openStore passphrase timeout decrypted) := by
  simp only [next, h]

theorem WalletThread.next_changeLoad_error
    (h : Keystore.loadEncrypted passphrase σ.state.file = .error e) :
    (changeLoad passphrase new : WalletThread X).next i σ =
      some (σ.leave i, .done (errResponse (-14) ("Error: " ++ e))) := by
  simp only [next, h]

theorem WalletThread.next_changeLoad_ok
    (h : Keystore.loadEncrypted passphrase σ.state.file = .ok decrypted) :
    (changeLoad passphrase new : WalletThread X).next i σ =
      some (σ, .changeSave new decrypted) := by
  simp only [next, h]

end Alone

/-- A call that runs alone answers as its handler does and leaves the state that its handler
leaves, with the locks free. -/
theorem alone_eq_walletHandler (i : ι) (c : WalletCall X) (σ : WalletShared ι)
    (hc : WalletThread.begin σ.state c ≠ none) (hfree : σ.Free) :
    (WalletThread.entered c).Ends i σ (walletHandler X σ.state c).1
      (walletHandler X σ.state c).2 := by
  obtain ⟨s, _, _, _, _, _, _⟩ := σ
  obtain ⟨rfl, rfl, rfl⟩ := hfree
  obtain ⟨_, _, ⟨_, _, encrypted⟩, _, _, passphrase,
    name, loaded, file, _⟩ := s
  have hrelease : (RwLock.exclusive i).releaseWrite i = .free := RwLock.releaseWrite_exclusive
  cases loaded with
  | false => cases c <;> first | exact absurd rfl hc | exact .move rfl (.done rfl rfl rfl)
  | true =>
    cases c with
    | loadwallet name | unloadwallet name | createwallet name => exact absurd rfl hc
    | importaddress address =>
      cases address with
      | none => exact .move rfl (.done rfl rfl rfl)
      | some address => exact .move rfl WalletThread.store_ends
    | encryptwallet passphrase =>
      cases passphrase with
      | none => exact .move rfl (.done rfl rfl rfl)
      | some passphrase =>
        cases encrypted with
        | true => exact .move rfl (.move rfl (.done rfl rfl rfl))
        | false =>
          refine .move rfl (.move rfl (.move rfl ?_))
          rw [RwLock.releaseRead_acquired]
          exact .move rfl (.move rfl (.move rfl (.done hrelease rfl rfl)))
    | walletlock =>
      cases encrypted with
      | false => exact .move rfl (.move rfl (.done rfl rfl rfl))
      | true =>
        cases passphrase with
        | none =>
          exact .move rfl (.move rfl (.move rfl (.move rfl (.move rfl (.move rfl
            (.done rfl rfl hrelease))))))
        | some passphrase =>
          refine .move rfl (.move rfl (.move rfl (.move rfl (.move rfl ?_))))
          simp only [RwLock.releaseRead_acquired]
          exact .move rfl (.move rfl (.move rfl (.done rfl rfl hrelease)))
    | walletpassphrase passphrase timeout =>
      cases passphrase with
      | none => exact .move rfl (.done rfl rfl rfl)
      | some passphrase =>
        cases encrypted with
        | false => exact .move rfl (.move rfl (.done rfl rfl rfl))
        | true =>
          refine .move rfl (.move rfl ?_)
          simp only [walletHandler, walletpassphrase]
          cases hload : Keystore.loadEncrypted passphrase file with
          | error e => exact .move (WalletThread.next_openLoad_error hload) (.done rfl rfl rfl)
          | ok decrypted =>
            exact .move (WalletThread.next_openLoad_ok hload)
              (.move rfl (.move rfl (.move rfl (.done rfl rfl rfl))))
    | walletpassphrasechange old new =>
      cases old with
      | none => exact .move rfl (.done rfl rfl rfl)
      | some old =>
        cases new with
        | none => exact .move rfl (.done rfl rfl rfl)
        | some new =>
          refine .move rfl ?_
          simp only [walletHandler, walletpassphrasechange]
          cases hload : Keystore.loadEncrypted old file with
          | error e => exact .move (WalletThread.next_changeLoad_error hload) (.done rfl rfl rfl)
          | ok decrypted =>
            exact .move (WalletThread.next_changeLoad_ok hload)
              (.move rfl (.move rfl (.move rfl (.done hrelease rfl rfl))))
    | importpubkey pubkeyHex =>
      simp only [walletHandler, importpubkey]
      cases hparse : parsePubkey pubkeyHex with
      | error e =>
        exact .move (WalletThread.next_entered rfl (WalletThread.begin_importpubkey_error hparse))
          (.done rfl rfl rfl)
      | ok pubkey =>
        exact .move (WalletThread.next_entered rfl (WalletThread.begin_importpubkey_ok hparse))
          WalletThread.store_ends
    | _ =>
      rw [walletHandler_of_keyUpdate rfl rfl]
      exact .move rfl (WalletThread.checkUnlocked_ends rfl)

/-- The state after the handlers of the calls have run one after the other. -/
def stateAfter (calls : ι → WalletCall X) (s : RpcState) (order : List ι) : RpcState :=
  order.foldl (fun s i => (walletHandler X s (calls i)).2) s

/-- Complete calls, in any order of their threads, are one of the interleavings: the pool comes
to the state that the handlers come to, and each thread to the answer of its handler. -/
theorem complete_calls_interleave (s : RpcState) (calls : ι → WalletCall X)
    (hcalls : ∀ i s, WalletThread.begin s (calls i) ≠ none) (order : List ι)
    (hnodup : order.Nodup) :
    ∃ σ threads labels, Run (Pool.Step (WalletMove X) WalletShared.Waits)
        (WalletPool.start s calls) labels ⟨σ, threads⟩ ∧
      σ.state = stateAfter calls s order ∧ σ.Free ∧
      (∀ i ∉ order, threads i = .entered (calls i)) ∧
      ∀ before i, before ++ [i] <+: order →
        threads i = .done (walletHandler X (stateAfter calls s before) (calls i)).1 := by
  induction order using List.reverseRecOn with
  | nil => exact ⟨_, _, [], .refl, rfl, ⟨rfl, rfl, rfl⟩, fun _ _ => rfl, by simp⟩
  | append_singleton order i ih =>
    obtain ⟨hnodup, -, hfresh⟩ := List.nodup_append'.mp hnodup
    obtain ⟨σ, threads, labels, hrun, hstate, hfree, hwaiting, hdone⟩ := ih hnodup
    have hi : i ∉ order := by simpa using hfresh
    obtain ⟨σ', _, hmoves, hstate', hfree'⟩ :=
      alone_eq_walletHandler i (calls i) σ (hcalls i _) hfree threads
    rw [← hwaiting i hi, Function.update_eq_self] at hmoves
    refine ⟨σ', _, _, hrun.trans hmoves, ?_, hfree', ?_, ?_⟩
    · simp [stateAfter, hstate', hstate]
    · intro j hj
      obtain ⟨hj, hne⟩ : j ∉ order ∧ j ≠ i := by simpa using hj
      rw [Function.update_of_ne hne, hwaiting j hj]
    · intro before j hbefore
      rcases List.prefix_concat_iff.mp hbefore with heq | hold
      · obtain ⟨rfl, rfl⟩ : before = order ∧ j = i := by simpa using heq
        rw [Function.update_self, hstate]
      · have hmem : j ∈ order := hold.subset (by simp)
        rw [Function.update_of_ne (ne_of_mem_of_not_mem hmem hi), hdone before j hold]

theorem complete_calls_interleave_two :
    ∃ s q labels, Run (Pool.Step (WalletMove .sample) WalletShared.Waits)
        (WalletPool.start s fun _ : Bool => .importaddress (some "bc1q")) labels q ∧
      (q.threads false).isOk = true ∧ (q.threads true).isOk = true := by
  obtain ⟨_, threads, labels, hrun, -, -, -, hdone⟩ := complete_calls_interleave (X := .sample)
    (.new "mainnet" .absent (fun _ => none) 0) (fun _ => .importaddress (some "bc1q"))
    (fun _ _ => Option.some_ne_none _) [false, true] (by decide)
  refine ⟨_, _, labels, hrun, ?_⟩
  simp only [hdone [] false (by decide), hdone [false] true (by decide)]
  exact ⟨rfl, rfl⟩

end BitInfinity.Proxy
