import BitInfinity.Runtime.Payable
import BitInfinity.Runtime.ValidatorAccounts

/-!
# Runs that differ in the record of one account

The transaction loop reads the record of an account only for its payable transactions, and the
sweep only for the accounts of the index.  Where they do not read it, they run alike whatever
the bytes are.
-/

namespace BitInfinity

open Foundation

variable {E : Externals} {as : ApplyState} {t : Trie E} {p q : ProcessingState E}
  {tx : SignedTransaction} {account : Account} {cost : TransactionCost} {key : AccessKey}
  {result : VerificationResult} (a : AccountId) (bytes : Option Bytes)

/-- The state with other bytes in place of the record of the account. -/
def Trie.withRecord (t : Trie E) (a : AccountId) (bytes : Option Bytes) : Trie E :=
  t.setEntry a ((t.entries a).setContractData patoshiRecordDataKey bytes)

def ProcessingState.withRecord (p : ProcessingState E) (a : AccountId) (bytes : Option Bytes) :
    ProcessingState E :=
  { p with trie := p.trie.withRecord a bytes, committed := p.committed.withRecord a bytes }

/-! ## Reading and writing other things -/

theorem Trie.withRecord_entries_of_ne {id : AccountId} (h : id ≠ a) :
    (t.withRecord a bytes).entries id = t.entries id :=
  Trie.setEntry_entries_of_ne _ _ _ _ h

theorem Trie.withRecord_apply {α : Type} (f : Entry → α) (id : AccountId)
    (h : ∀ e : Entry, f (e.setContractData patoshiRecordDataKey bytes) = f e) :
    f ((t.withRecord a bytes).entries id) = f (t.entries id) :=
  Trie.setEntry_entries_apply _ _ _ f _ (h _)

/-- Changes of entries that leave the record alone, or are made to other accounts, commute with
the replacement. -/
theorem Trie.setEntry_withRecord (f : Entry → Entry) {id : AccountId}
    (h : id = a → ∀ e : Entry, f (e.setContractData patoshiRecordDataKey bytes) =
      (f e).setContractData patoshiRecordDataKey bytes) :
    (t.withRecord a bytes).setEntry id (f ((t.withRecord a bytes).entries id)) =
      (t.setEntry id (f (t.entries id))).withRecord a bytes := by
  unfold Trie.withRecord
  by_cases hid : id = a
  · subst hid
    simp [h rfl]
  · rw [Trie.setEntry_entries_of_ne _ _ _ _ hid, Trie.setEntry_entries_of_ne _ _ _ _ (.symm hid)]
    simp only [Trie.setEntry]
    rw [Function.update_comm hid]

section Operations

variable (t) (id : AccountId) (publicKey : PublicKey)

@[simp] theorem Trie.withRecord_getAccessKey :
    (t.withRecord a bytes).getAccessKey id publicKey = t.getAccessKey id publicKey :=
  Trie.withRecord_apply a bytes (fun e => e.getAccessKey publicKey) id fun _ => rfl

@[simp] theorem Trie.withRecord_getGasKeyNonce (index : NonceIndex) :
    (t.withRecord a bytes).getGasKeyNonce id publicKey index =
      t.getGasKeyNonce id publicKey index :=
  Trie.withRecord_apply a bytes (fun e => e.gasKeyNonces publicKey index) id fun _ => rfl

@[simp] theorem Trie.withRecord_getAccount :
    (t.withRecord a bytes).getAccount id = t.getAccount id :=
  Trie.withRecord_apply a bytes Entry.account id fun _ => rfl

@[simp] theorem Trie.setAccount_withRecord (account : Account) :
    (t.withRecord a bytes).setAccount id account = (t.setAccount id account).withRecord a bytes :=
  Trie.setEntry_withRecord a bytes (·.setAccount (some account)) fun _ _ => rfl

@[simp] theorem Trie.setAccessKey_withRecord (key : AccessKey) :
    (t.withRecord a bytes).setAccessKey id publicKey key =
      (t.setAccessKey id publicKey key).withRecord a bytes :=
  Trie.setEntry_withRecord a bytes (·.setAccessKey publicKey key) fun _ _ => rfl

@[simp] theorem Trie.setGasKeyNonce_withRecord (index : NonceIndex) (nonce : Nonce) :
    (t.withRecord a bytes).setGasKeyNonce id publicKey index nonce =
      (t.setGasKeyNonce id publicKey index nonce).withRecord a bytes :=
  Trie.setEntry_withRecord a bytes (·.setGasKeyNonce publicKey index (some nonce)) fun _ _ => rfl

theorem setPatoshiRecord_withRecord (record : PatoshiRecord) (h : id ≠ a) :
    setPatoshiRecord (t.withRecord a bytes) id record =
      (setPatoshiRecord t id record).withRecord a bytes :=
  Trie.setEntry_withRecord a bytes (·.setContractData patoshiRecordDataKey (some record.encode))
    fun hid => absurd hid h

theorem autoRegisterAccessKeyIfNeeded_withRecord :
    autoRegisterAccessKeyIfNeeded (t.withRecord a bytes) id publicKey =
      (autoRegisterAccessKeyIfNeeded t id publicKey).withRecord a bytes := by
  unfold autoRegisterAccessKeyIfNeeded
  rw [Trie.withRecord_getAccessKey]
  cases t.getAccessKey id publicKey <;> simp

end Operations

/-! ## The transaction loop -/

theorem start_withRecord : .start (t.withRecord a bytes) =
      (ProcessingState.start t).withRecord a bytes := by
  have hcache : .prefetch (t.withRecord a bytes) = TxCache.prefetch t := by
    simp only [TxCache.prefetch, TxCache.mk.injEq]
    exact ⟨by ext; simp, by ext; simp, by ext; simp⟩
  simp only [ProcessingState.start, ProcessingState.withRecord, hcache]

theorem validationError_eq_none {live : Bool} : validationError E as tx live = none ↔
    live = true ∧ validateTransaction E as.config tx as.protocolVersion = .ok () := by
  unfold validationError
  cases live with
  | false => simp
  | true => cases validateTransaction E as.config tx as.protocolVersion <;> simp

theorem resolveAccessKey_withRecord : resolveAccessKey as (p.withRecord a bytes) tx =
    ((resolveAccessKey as p tx).1, (resolveAccessKey as p tx).2.withRecord a bytes) := by
  unfold resolveAccessKey
  simp only [ProcessingState.withRecord, Trie.withRecord_getAccessKey, Trie.setAccessKey_withRecord,
    autoRegisterAccessKeyIfNeeded_withRecord]
  cases p.cache.accessKeys tx.transaction.signerId tx.transaction.publicKey with
  | some key => rfl
  | none =>
    dsimp only
    split_ifs
    · cases recoveredKey E tx with
      | none => rfl
      | some recovered =>
        dsimp only
        split_ifs <;> rfl
    · rfl

theorem applyCharge_withRecord (tx : Transaction) :
    applyCharge (p.withRecord a bytes) tx account key result =
      (applyCharge p tx account key result).withRecord a bytes := by
  unfold applyCharge
  cases result.gasKeyNonceUpdate <;> simp [ProcessingState.withRecord]

theorem settle_withRecord {gas : Gas} {tokens : Balance} {fate : TransactionEnd} :
    settle (p.withRecord a bytes) tx account key result gas tokens fate =
      (settle p tx account key result gas tokens fate).map (·.withRecord a bytes) := by
  have hcharged : charged (p.withRecord a bytes) tx account key result gas tokens fate =
      (charged p tx account key result gas tokens fate).withRecord a bytes :=
    congrArg (ProcessingState.finishWith · tx fate) (@applyCharge_withRecord E
      { p with txBurntAmount := p.txBurntAmount + tokens, totalGas := p.totalGas + gas } account key
      result a bytes tx.transaction)
  have hburnt : (p.withRecord a bytes).txBurntAmount = p.txBurntAmount := rfl
  have hgas : (p.withRecord a bytes).totalGas = p.totalGas := rfl
  rw [settle_eq, settle_eq, hcharged, hburnt, hgas]
  split_ifs <;> rfl

theorem emitReceipt_withRecord (receipt : Receipt) :
    emitReceipt (p.withRecord a bytes) receipt = (emitReceipt p receipt).withRecord a bytes := by
  unfold emitReceipt
  split_ifs <;> rfl

theorem applyVerdict_withRecord {verdict : TxVerdict}
    (h : ∀ result, verdict = .success result → tx.transaction.signerId ≠ a) :
    applyVerdict as (p.withRecord a bytes) tx account cost verdict key =
      (applyVerdict as p tx account cost verdict key).map (·.withRecord a bytes) := by
  cases verdict with
  | failed e => rfl
  | depositFailed result error =>
    unfold applyVerdict
    dsimp only
    cases okOr (checkedAdd 64 cost.gasBurnt cost.gasRemaining)
      (RuntimeError.unexpectedIntegerOverflow "IntegerOverflowError") with
    | error e => rfl
    | ok totalGas => exact settle_withRecord a bytes
  | success result =>
    have hne := h result rfl
    have hguard : guardTransaction as (p.withRecord a bytes).trie tx.transaction account result =
        guardTransaction as p.trie tx.transaction account result := by
      unfold guardTransaction getPatoshiRecord ProcessingState.withRecord
      rw [Trie.withRecord_entries_of_ne a bytes hne]
    have hschedule : ∀ scheduled, scheduleUnlock (p.withRecord a bytes) tx.transaction.signerId
        scheduled = (scheduleUnlock p tx.transaction.signerId scheduled).withRecord a bytes := by
      rintro (_ | record)
      · rfl
      · simp only [scheduleUnlock, ProcessingState.withRecord,
          setPatoshiRecord_withRecord _ _ _ _ _ hne]
    unfold applyVerdict
    dsimp only
    rw [hguard]
    cases guardTransaction as p.trie tx.transaction account result with
    | error e => rfl
    | ok answer =>
      cases answer with
      | error e => rfl
      | ok scheduled =>
        simp only [ok_bind, hschedule, acceptTransaction, emitReceipt_withRecord, settle_withRecord]

/-- A transaction that does not make the loop read the record of the account is processed alike
whatever the record is. -/
theorem processTransaction_withRecord {item : SignedTransaction × Bool}
    (h : item.1.transaction.signerId = a → item.2 = true →
      ∀ account cost key, ¬ Payable as p item.1 account cost key) :
    processTransaction as (p.withRecord a bytes) item =
      (processTransaction as p item).map (·.withRecord a bytes) := by
  obtain ⟨tx, live⟩ := item
  unfold processTransaction
  dsimp only
  cases hvalid : validationError E as tx live with
  | some e => rfl
  | none =>
    cases hcost : txCost E.toCrypto as.config tx.transaction as.gasPrice with
    | error e => rfl
    | ok cost =>
      rw [show (p.withRecord a bytes).cache = p.cache from rfl]
      cases haccount : p.cache.accounts tx.transaction.signerId with
      | none => rfl
      | some account =>
        simp only [chargeTransaction, loadAccessKey_recoverAccessKey, resolveAccessKey_withRecord]
        rcases hresolve : resolveAccessKey as p tx with ⟨e | key, q⟩
        · rfl
        · dsimp only
          refine applyVerdict_withRecord a bytes fun result hverdict hsigner => ?_
          obtain ⟨rfl, hok⟩ := validationError_eq_none.mp hvalid
          exact h hsigner rfl account cost key (payable_iff.mpr
            ⟨q, ⟨hok, hcost, haccount, hresolve⟩, result, _, Prod.ext hverdict rfl⟩)

/-! ## The sweep -/

variable {epochHeight : EpochHeight}

theorem sweepAccount_withRecord {s : Trie E × Balance} {id : AccountId} (h : id ≠ a) :
    sweepAccount epochHeight (s.1.withRecord a bytes, s.2) id =
      (sweepAccount epochHeight s id).map fun s => (s.1.withRecord a bytes, s.2) := by
  obtain ⟨t, _⟩ := s
  unfold sweepAccount getPatoshiRecord
  dsimp only
  rw [Trie.withRecord_entries_of_ne a bytes h, map_bind]
  congr 1
  funext record
  cases record with
  | none => rfl
  | some record =>
    simp only [Trie.withRecord_getAccount, Trie.setAccount_withRecord]
    split_ifs
    · rfl
    · rw [map_bind]
      congr 1
      funext account
      rcases computePatoshiSweep account.amount account.locked record.genesisBalance with
        ⟨sweepAmount, rest⟩
      dsimp only
      split_ifs
      · rfl
      · simp only [map_bind]
        rfl

theorem getPatoshiIndex_withRecord :
    getPatoshiIndex (t.withRecord a bytes) = getPatoshiIndex t := by
  have hkey : patoshiIndexDataKey ≠ patoshiRecordDataKey := by decide +kernel
  unfold getPatoshiIndex
  rw [Trie.withRecord_apply a bytes (·.contractData patoshiIndexDataKey)]
  intro e
  simp [Entry.setContractData, hkey]

theorem creditFoundation_withRecord {swept : Balance} :
    creditFoundation (t.withRecord a bytes) swept =
      (creditFoundation t swept).map (·.withRecord a bytes) := by
  unfold creditFoundation
  simp only [Trie.withRecord_getAccount, Trie.setAccount_withRecord, apply_ite (Except.map _),
    map_bind]
  rfl

/-- A sweep that does not come to the account runs alike whatever its record is. -/
theorem sweepPatoshiExcess_withRecord (h : ∀ accounts s, getPatoshiIndex t = .ok accounts →
      (s, a) ∉ foldTrace (sweepAccount epochHeight) (t, 0) accounts) :
    sweepPatoshiExcess (t.withRecord a bytes) epochHeight =
      (sweepPatoshiExcess t epochHeight).map (·.withRecord a bytes) := by
  unfold sweepPatoshiExcess
  rw [getPatoshiIndex_withRecord, map_bind]
  cases hindex : getPatoshiIndex t with
  | error e => rfl
  | ok accounts =>
    have hfold := foldlM_comm (fun s : Trie E × Balance => (s.1.withRecord a bytes, s.2))
      fun s id hmem => sweepAccount_withRecord a bytes fun hid => h accounts s hindex (hid ▸ hmem)
    simp only [Except.mapError, ok_bind, hfold, map_bind]
    cases accounts.foldlM (sweepAccount epochHeight) (t, 0) with
    | error e => rfl
    | ok s => exact creditFoundation_withRecord a bytes

end BitInfinity
