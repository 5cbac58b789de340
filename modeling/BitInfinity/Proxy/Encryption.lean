import BitInfinity.Proxy.WalletThreads

/-!
# Encryption of a wallet in use

One `encryptwallet` call among calls that store keys and addresses.  The handler writes the
encrypted file under a read lock and marks the keystore as encrypted later, under a write
lock.  Between the two a call that saves the keystore writes it in the clear again.
-/

namespace BitInfinity.Proxy

open BitInfinity Foundation

/-! ## The file and the window -/

def WalletFile.isEncrypted : WalletFile → Bool
  | .encrypted _ _ => true
  | _ => false

def WalletFile.exposesKeys : WalletFile → Bool
  | .plain ks => ks.keys ≠ ∅
  | _ => false

theorem WalletFile.exposesKeys_of_isEncrypted {file : WalletFile} (h : file.isEncrypted = true) :
    file.exposesKeys = false := by
  cases file with
  | encrypted => rfl
  | _ => cases h

variable {X : ProxyExternals} {ι : Type} [DecidableEq ι]

def WalletThread.isStore : WalletThread X → Bool
  | .store _ => true
  | _ => false

/-- No call takes the keystore to change it while the file is encrypted and the keystore is
not yet marked as encrypted. -/
def StoresMarked (σ : WalletShared ι) (t : WalletThread X) : Prop :=
  t.isStore = true → σ.state.file.isEncrypted = true → σ.state.keystore.encrypted = true

instance (σ : WalletShared ι) (t : WalletThread X) : Decidable (StoresMarked σ t) :=
  inferInstanceAs (Decidable (_ → _ → _))

/-! ## Assertions -/

def KeystoreUpdate.KeepsMark (u : KeystoreUpdate) : Prop :=
  ∀ ks, (u.change ks).encrypted = ks.encrypted

/-- What thread `i` relies on, when thread `e` runs `encryptwallet`. -/
def EncryptionAssertion (e i : ι) (σ : WalletShared ι) : WalletThread X → Prop
  | .entered c => c.activity = if i = e then .encrypting else .storing
  | .checkUnlocked _ => i ≠ e
  | .store u => i ≠ e ∧ u.KeepsMark
  | .save _ =>
    i ≠ e ∧ σ.keystoreLock = .exclusive i ∧
      (σ.state.file.isEncrypted = true → σ.state.keystore.encrypted = true)
  | .saveEncrypted _ _ => i ≠ e ∧ σ.keystoreLock = .exclusive i ∧ σ.state.keystore.encrypted = true
  | .encryptRead _ => i = e
  | .encryptWrite _ => i = e ∧ σ.keystoreLock.Reads i ∧ σ.state.keystore.encrypted = false
  | .encryptMark _ => i = e ∧ σ.state.keystore.encrypted = false ∧ σ.state.file.isEncrypted = true
  | .encryptCache _ =>
    i = e ∧ σ.keystoreLock = .exclusive i ∧ σ.state.keystore.encrypted = true ∧
      σ.state.file.isEncrypted = true
  | .encryptLock _ =>
    i = e ∧ σ.keystoreLock = .exclusive i ∧ σ.state.keystore.encrypted = true ∧
      σ.state.walletPassphrase ≠ none ∧ σ.state.file.isEncrypted = true
  | .done (.ok _) =>
    i = e → σ.state.keystore.encrypted = true ∧ σ.state.walletPassphrase ≠ none ∧
      σ.state.file.isEncrypted = true
  | .done (.error _) => True
  | _ => False

section Moves

variable {e i j : ι} {σ σ' : WalletShared ι} {t t' u : WalletThread X}

variable {s : RpcState} {c : WalletCall X}

theorem keyUpdate_keepsMark {u : KeystoreUpdate}
    (h : c.keyUpdate s = some (.ok u)) : u.KeepsMark := by
  intro ks
  cases c with
  | getnewaddress | getrawchangeaddress pair =>
    cases h
    exact insertKey_encrypted
  | importprivkey input =>
    simp only [WalletCall.keyUpdate, Option.some.injEq] at h
    cases hparse : parseImport X input with
    | error e =>
      rw [hparse] at h
      cases h
    | ok parsed =>
      rw [hparse] at h
      cases h
      exact insertKey_encrypted
  | _ => cases h

theorem begin_assertion (hc : c.activity = if i = e then .encrypting else .storing)
    (hbegin : WalletThread.begin s c = some t) (hdone : t.isDone = false) :
    EncryptionAssertion e i σ t := by
  unfold WalletThread.begin at hbegin
  split at hbegin
  all_goals try split at hbegin
  all_goals cases hbegin
  all_goals by_cases hi : i = e
  all_goals simp_all [WalletCall.activity, EncryptionAssertion, WalletThread.isDone,
    KeystoreUpdate.KeepsMark]

theorem encryption_own (hA : EncryptionAssertion e i σ t) (hstep : WalletStep i σ t σ' t')
    (hcond : StoresMarked σ t) : EncryptionAssertion e i σ' t' := by
  cases hstep with
  | refused | denied | encryptRefused => trivial
  | entered hbegin hdone => exact begin_assertion hA hbegin hdone
  | checked _ hupdate => exact ⟨hA, keyUpdate_keepsMark hupdate⟩
  | stored =>
    refine ⟨hA.1, rfl, ?_⟩
    intro hfile
    exact (hA.2 _).trans (hcond rfl hfile)
  | savedPlain _ | unsaved | savedEncrypted => exact fun hi => absurd hi hA.1
  | keyed hencrypted _ => exact ⟨hA.1, hA.2.1, hencrypted⟩
  | encryptRead _ hplain => exact ⟨hA, Finset.mem_insert_self _ _, hplain⟩
  | encryptWritten => exact ⟨hA.1, hA.2.2, rfl⟩
  | encryptMarked => exact ⟨hA.1, rfl, rfl, hA.2.2⟩
  | encryptCached => exact ⟨hA.1, hA.2.1, hA.2.2.1, nofun, hA.2.2.2⟩
  | encryptLocked => exact fun _ => ⟨hA.2.2.1, hA.2.2.2.1, hA.2.2.2.2⟩
  | _ => exact hA.elim

theorem EncryptionAssertion.congr (hB : EncryptionAssertion e j σ u) (hstate : σ'.state = σ.state)
    (hlock : σ'.keystoreLock = σ.keystoreLock) : EncryptionAssertion e j σ' u := by
  unfold EncryptionAssertion at hB ⊢
  rw [hstate, hlock]
  exact hB

/-- A move that changes the state meets no other thread that holds the keystore; it must keep
what `encryptwallet` relies on before it marks the keystore and after it has returned. -/
theorem EncryptionAssertion.transfer (hB : EncryptionAssertion e j σ u)
    (hwrites : σ.keystoreLock ≠ .exclusive j) (hreads : j = e → ¬ σ.keystoreLock.Reads j)
    (hmark : j = e → σ.state.keystore.encrypted = false → σ.state.file.isEncrypted = true →
      σ'.state.keystore.encrypted = false ∧ σ'.state.file.isEncrypted = true)
    (hdone : j = e → σ.state.keystore.encrypted = true → σ.state.walletPassphrase ≠ none →
      σ.state.file.isEncrypted = true → σ'.state.keystore.encrypted = true ∧
        σ'.state.walletPassphrase ≠ none ∧ σ'.state.file.isEncrypted = true) :
    EncryptionAssertion e j σ' u := by
  cases u with
  | save u | saveEncrypted | encryptCache passphrase | encryptLock passphrase =>
    exact absurd hB.2.1 hwrites
  | encryptWrite passphrase => exact absurd hB.2.1 (hreads hB.1)
  | encryptMark passphrase => exact ⟨hB.1, hmark hB.1 hB.2.1 hB.2.2⟩
  | done r =>
    cases r with
    | error _ => trivial
    | ok _ => exact fun hj => hdone hj (hB hj).1 (hB hj).2.1 (hB hj).2.2
  | _ => exact hB

theorem encryption_other (hne : j ≠ i) (hA : EncryptionAssertion e i σ t)
    (hB : EncryptionAssertion e j σ u) (hstep : WalletStep i σ t σ' t')
    (hcond : StoresMarked σ t) : EncryptionAssertion e j σ' u := by
  have hwriter : σ.keystoreLock = .exclusive i →
      σ.keystoreLock ≠ .exclusive j ∧ (j = e → ¬ σ.keystoreLock.Reads j) := by
    intro hlock
    rw [hlock]
    exact ⟨RwLock.exclusive_ne hne, fun _ h => h⟩
  -- Only the thread of `encryptwallet` relies on more than the lock.
  have hsole : i = e → σ.keystoreLock ≠ .exclusive j → EncryptionAssertion e j σ' u := by
    intro hi hlock
    have hj : j ≠ e := fun h => hne (h.trans hi.symm)
    exact hB.transfer hlock (absurd · hj) (absurd · hj) (absurd · hj)
  cases hstep with
  | refused => exact hB
  | entered | denied | keyed | encryptRefused => exact hB.congr rfl rfl
  | checked => exact hB
  | stored hfree =>
    refine hB.transfer (hfree ▸ RwLock.free_ne_exclusive) (fun _ h => ?_) ?_ ?_
    · rw [hfree] at h
      cases h
    · intro _ hplain hfile
      rw [hcond rfl hfile] at hplain
      cases hplain
    · intro _ hencrypted hcached hfile
      exact ⟨(hA.2 _).trans hencrypted, hcached, hfile⟩
  | savedPlain hplain =>
    refine hB.transfer (hwriter hA.2.1).1 (hwriter hA.2.1).2 ?_ ?_
    · intro _ _ hfile
      rw [hA.2.2 hfile] at hplain
      cases hplain
    · intro _ hencrypted
      rw [hplain] at hencrypted
      cases hencrypted
  | unsaved hencrypted _ =>
    refine hB.transfer (hwriter hA.2.1).1 (hwriter hA.2.1).2 ?_ ?_
    · intro _ hplain
      rw [hencrypted] at hplain
      cases hplain
    · exact fun _ hencrypted hcached hfile => ⟨hencrypted, hcached, hfile⟩
  | savedEncrypted =>
    refine hB.transfer (hwriter hA.2.1).1 (hwriter hA.2.1).2 ?_ ?_
    · intro _ hplain
      rw [hA.2.2] at hplain
      cases hplain
    · exact fun _ hencrypted hcached _ => ⟨hencrypted, hcached, rfl⟩
  | encryptRead hshared _ => exact hsole hA (by rw [hshared]; nofun)
  | encryptWritten => exact hsole hA.1 hA.2.1.ne_exclusive
  | encryptMarked hfree => exact hsole hA.1 (hfree ▸ RwLock.free_ne_exclusive)
  | encryptCached | encryptLocked => exact hsole hA.1 (hwriter hA.2.1).1
  | _ => exact hA.elim

end Moves

/-! ## Runs -/

/-- Once `encryptwallet` has returned, no private key is in the file in the clear, provided
that no call takes the keystore between the write of the encrypted file and the mark. -/
theorem encryption_kept {s : RpcState} {calls : ι → WalletCall X} {e : ι} {labels : List (Option ι)}
    {q : WalletPool X ι} {result : RpcResult} (hencrypt : (calls e).activity = .encrypting)
    (hothers : ∀ i, i ≠ e → (calls i).activity = .storing)
    (hrun : Run (Pool.Step (fun i σ t σ' t' => WalletMove X i σ t σ' t' ∧ StoresMarked σ t)
      WalletShared.Waits) (WalletPool.start s calls) labels q)
    (hdone : q.threads e = .done (.ok result)) : q.shared.state.file.exposesKeys = false := by
  have hall := Pool.invariant (fun _ => True) (EncryptionAssertion e)
    (fun i σ t σ' t' _ hA hmove => ⟨trivial, encryption_own hA hmove.1.step hmove.2⟩)
    (fun i j σ t σ' t' u hne _ hA hB hmove => encryption_other hne hA hB hmove.1.step hmove.2)
    (fun σ σ' _ hwait => by
      obtain ⟨_, rfl⟩ := hwait
      exact ⟨trivial, fun i t hA => by cases t <;> exact hA⟩)
    hrun ⟨trivial, fun i => by
      by_cases hi : i = e
      · subst hi
        simpa [WalletPool.start, EncryptionAssertion] using hencrypt
      · simpa [WalletPool.start, EncryptionAssertion, hi] using hothers i hi⟩
  have hE := hall.2 e
  rw [hdone] at hE
  exact WalletFile.exposesKeys_of_isEncrypted (hE rfl).2.2

/-! ## A call between the write and the mark -/

def samplePair : KeyPair .sample := .sample rfl

def sampleEncrypting : WalletPool .sample Bool :=
  .start (.new "mainnet" .absent (fun _ => none) 0) fun
    | true => .encryptwallet (some "open")
    | false => .getnewaddress none samplePair

/-- A key that is stored first, and encrypted then. -/
theorem encryption_kept_after_store :
    ∃ q labels, Run (Pool.Step (fun i σ t σ' t' => WalletMove .sample i σ t σ' t' ∧
        StoresMarked σ t) WalletShared.Waits) sampleEncrypting labels q ∧
      (q.threads true).isOk = true ∧ q.shared.acknowledged.length = 1 ∧
      q.shared.state.file.exposesKeys = false := by
  obtain ⟨q, hrun, htest⟩ : ∃ q, Run (Pool.Step (fun i σ t σ' t' => WalletMove .sample i σ t σ' t' ∧
      StoresMarked σ t) WalletShared.Waits) sampleEncrypting _ q ∧ _ :=
    Pool.exists_run_of_schedule WalletThread.next (fun _ => StoresMarked)
      [false, false, false, false, true, true, true, true, true, true]
      (fun q => (q.threads true).isOk && q.shared.acknowledged.length == 1) (by decide +kernel)
  obtain ⟨hok, hlength⟩ : _ ∧ _ := by simpa using htest
  obtain ⟨_, hdone⟩ := WalletThread.eq_done_of_isOk hok
  refine ⟨q, _, hrun, hok, hlength, ?_⟩
  refine encryption_kept (e := true) rfl ?_ hrun hdone
  intro i hi
  obtain rfl : i = false := by simpa using hi
  rfl

/-- A key that is stored between the write of the encrypted file and the mark is in the file in
the clear after `encryptwallet` has returned. -/
theorem encryption_undone :
    ∃ q labels, Run (Pool.Step (WalletMove .sample) WalletShared.Waits) sampleEncrypting labels q ∧
      (q.threads true).isOk = true ∧ q.shared.state.file.exposesKeys = true := by
  obtain ⟨q, hrun, htest⟩ : ∃ q, Run (Pool.Step (fun i σ t σ' t' => WalletMove .sample i σ t σ' t' ∧
      True) WalletShared.Waits) sampleEncrypting _ q ∧ _ :=
    Pool.exists_run_of_schedule WalletThread.next (fun _ _ _ => True)
      [false, false, true, true, true, false, false, true, true, true]
      (fun q => (q.threads true).isOk && q.shared.state.file.exposesKeys) (by decide +kernel)
  obtain ⟨hok, hexposed⟩ : _ ∧ _ := by simpa using htest
  exact ⟨q, _, by simpa using hrun, hok, hexposed⟩

end BitInfinity.Proxy
