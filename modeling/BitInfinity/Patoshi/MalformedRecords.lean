import BitInfinity.Ledger.Transactions
import BitInfinity.Ledger.Validators
import BitInfinity.Patoshi.Isolation
import BitInfinity.Patoshi.Unlock

/-!
# Record bytes that do not decode

The record of an account and the index of the foundation are contract data, which a contract of
the account may write.  Bytes that do not decode stop whoever reads them with a storage error, and
make no difference to whoever does not.
-/

namespace BitInfinity

open Foundation

section Malformed

variable {E : Externals} {as : ApplyState} {t : Trie E} {e : Entry}

/-! ## Malformed bytes -/

def Entry.MalformedRecord (e : Entry) : Prop :=
  ∃ bytes, e.contractData patoshiRecordDataKey = some bytes ∧ PatoshiRecord.decode bytes = none

/-- The bytes of the index are not a list of texts, or one of these is no account id. -/
def MalformedIndex (t : Trie E) : Prop :=
  ∃ bytes, (t.entries foundationAccountId).contractData patoshiIndexDataKey = some bytes ∧
    ∀ accounts, decodeAll (readVec readString) bytes = some accounts →
      ∃ id ∈ accounts, ∃ error, AccountId.validate E.toCrypto id = .error error

def RuntimeError.isDecodeFailure : RuntimeError → Bool
  | .storageError .failedToDeserialize => true
  | .storageError (.invalidAccountInPatoshiIndex _ _) => true
  | _ => false

def HaltedByContractData {α : Type} (outcome : Except RuntimeError α) : Prop :=
  ∃ error, outcome = .error error ∧ error.isDecodeFailure = true

section Halted

variable {α β : Type}

@[simp] theorem not_halted_ok (a : α) : ¬ HaltedByContractData (.ok a) := by
  rintro ⟨_, herror, -⟩
  cases herror

@[simp] theorem halted_bind {x : Except RuntimeError α} {f : α → Except RuntimeError β} :
    HaltedByContractData (x >>= f) ↔
      HaltedByContractData x ∨ ∃ a, x = .ok a ∧ HaltedByContractData (f a) := by
  cases x with
  | error e => simp [HaltedByContractData]
  | ok a => simp

@[simp] theorem halted_okOr {value : Option α} {error : RuntimeError} :
    HaltedByContractData (okOr value error) ↔ value = none ∧ error.isDecodeFailure = true := by
  cases value with
  | none => simp [HaltedByContractData, okOr]
  | some a => simp [okOr]

@[simp] theorem halted_mapError {ε : Type} {x : Except ε α} {f : ε → RuntimeError} :
    HaltedByContractData (x.mapError f) ↔ ∃ e, x = .error e ∧ (f e).isDecodeFailure = true := by
  cases x with
  | error e => simp [HaltedByContractData, Except.mapError]
  | ok a => simp [Except.mapError]

end Halted

variable {p : ProcessingState E} {tx : SignedTransaction} {account : Account} {key : AccessKey}
  {result : VerificationResult} {epochHeight : EpochHeight}

variable {q p' : ProcessingState E} {gas : Gas} {tokens : Balance} {fate : TransactionEnd}
  {item : SignedTransaction × Bool} {txs : List (SignedTransaction × Bool)}
  {receipt : ActionReceipt} {senderId a : AccountId} {signed : SignedDelegateAction}
  {s : Trie E × Balance}

/-- The transaction can pay in this state, and the record of its signer does not decode. -/
def ReadsMalformed (as : ApplyState) (p : ProcessingState E) (item : SignedTransaction × Bool) :
    Prop :=
  item.2 = true ∧ (p.trie.entries item.1.transaction.signerId).MalformedRecord ∧
    ∃ account cost key, Payable as p item.1 account cost key

theorem Entry.patoshiRecord_eq_error {error : StorageError} :
    e.patoshiRecord = .error error ↔ e.MalformedRecord ∧ error = .failedToDeserialize := by
  unfold Entry.patoshiRecord Entry.MalformedRecord
  cases e.contractData patoshiRecordDataKey with
  | none => simp
  | some bytes =>
    cases hdecode : PatoshiRecord.decode bytes with
    | some record => simp [hdecode]
    | none => simp [hdecode, eq_comm]

theorem Entry.MalformedRecord.patoshiRecord_eq (h : e.MalformedRecord) :
    e.patoshiRecord = .error .failedToDeserialize :=
  Entry.patoshiRecord_eq_error.mpr ⟨h, rfl⟩

theorem Entry.malformedRecord_congr {e' : Entry} (h : e.patoshiRecord = e'.patoshiRecord) :
    e.MalformedRecord ↔ e'.MalformedRecord := by
  have hiff : ∀ e : Entry, e.MalformedRecord ↔ e.patoshiRecord = .error .failedToDeserialize := by
    intro e
    simp [Entry.patoshiRecord_eq_error]
  rw [hiff, hiff, h]

theorem Entry.not_malformedRecord_of_ok {record : Option PatoshiRecord}
    (h : e.patoshiRecord = .ok record) : ¬ e.MalformedRecord := by
  intro hmalformed
  rw [hmalformed.patoshiRecord_eq] at h
  cases h

/-! ## Transactions -/

theorem Loaded.guardTransaction_eq_error {cost : TransactionCost}
    {key' : AccessKey} {error : RuntimeError} (h : Loaded as p tx account cost key q)
    (hverdict : h.verdict = (.success result, key')) :
    guardTransaction as q.trie tx.transaction account result = .error error ↔
      (q.trie.entries tx.transaction.signerId).MalformedRecord ∧
        error = .storageError .failedToDeserialize := by
  have hsum := newAccountAmount_add_locked_lt (transactionVerdict_success hverdict).2
  cases hrecord : getPatoshiRecord q.trie tx.transaction.signerId with
  | error e =>
    obtain ⟨hmalformed, rfl⟩ := Entry.patoshiRecord_eq_error.mp hrecord
    simp [guardTransaction, hrecord, Except.mapError, hmalformed, eq_comm]
  | ok found =>
    have hfine := Entry.not_malformedRecord_of_ok hrecord
    cases found with
    | none => simp [guardTransaction, hrecord, Except.mapError, hfine]
    | some record => simp [guardTransaction_of_record hrecord hsum, hfine]

theorem settle_not_halted :
    ¬ HaltedByContractData (settle p tx account key result gas tokens fate) := by
  rintro ⟨_, herror, hdecode⟩
  rw [settle_eq] at herror
  split_ifs at herror
  cases herror
  cases hdecode

theorem processTransaction_halted_iff :
    HaltedByContractData (processTransaction as q item) ↔ ReadsMalformed as q item := by
  have hresolved : ∀ {account cost key q'}, Loaded as q item.1 account cost key q' →
      ((q'.trie.entries item.1.transaction.signerId).MalformedRecord ↔
        (q.trie.entries item.1.transaction.signerId).MalformedRecord) :=
    fun hl => Entry.malformedRecord_congr (getPatoshiRecord_resolveAccessKey hl.resolve_eq _)
  constructor
  · rintro ⟨error, herror, hdecode⟩
    rcases processTransaction_cases as q item with
      ⟨e, he⟩ | ⟨recovered, -, -, he⟩ | ⟨account, cost, key, q', hlive, hl⟩
    · rw [he] at herror
      cases herror
    · rw [he] at herror
      cases herror
    · obtain ⟨tx, live⟩ := item
      obtain rfl : live = true := hlive
      rw [hl.processTransaction_eq] at herror
      rcases hverdict : hl.verdict with ⟨result | ⟨result, e⟩ | e, key'⟩
      · rw [hverdict] at herror
        rcases bind_eq_error.mp herror with hguard | ⟨answer, -, haccept⟩
        · have hmalformed := ((hl.guardTransaction_eq_error hverdict).mp hguard).1
          exact ⟨rfl, (hresolved hl).mp hmalformed, account, cost, key,
            payable_iff.mpr ⟨q', hl, result, key', hverdict⟩⟩
        · cases answer with
          | error e => cases haccept
          | ok scheduled => exact absurd ⟨error, haccept, hdecode⟩ settle_not_halted
      · rw [hverdict] at herror
        rcases bind_eq_error.mp herror with hgas | ⟨totalGas, -, hsettle⟩
        · obtain ⟨-, rfl⟩ := okOr_eq_error.mp hgas
          cases hdecode
        · exact absurd ⟨error, hsettle, hdecode⟩ settle_not_halted
      · rw [hverdict] at herror
        cases herror
  · rintro ⟨hlive, hmalformed, account, cost, key, hpayable⟩
    obtain ⟨tx, live⟩ := item
    obtain rfl : live = true := hlive
    obtain ⟨q', hl, result, key', hverdict⟩ := payable_iff.mp hpayable
    have hguard := (hl.guardTransaction_eq_error hverdict).mpr ⟨(hresolved hl).mpr hmalformed, rfl⟩
    refine ⟨.storageError .failedToDeserialize, ?_, rfl⟩
    rw [hl.processTransaction_eq, hverdict]
    simp only [applyVerdict, hguard, error_bind]

theorem patoshiRecord_schedule_isOk {tx : Transaction} {scheduled : Option PatoshiRecord}
    (h : guardTransaction as t tx account result = .ok (.ok scheduled)) :
    ∃ record, ((t.entries tx.signerId).schedule scheduled).patoshiRecord = .ok record := by
  rcases guardTransaction_eq_ok h with ⟨hnone, rfl⟩ | ⟨record, hrecord, -, rfl⟩
  · exact ⟨none, hnone⟩
  · have hrange := Entry.patoshiRecord_inRange hrecord
    unfold maybeSchedulePatoshiUnlock
    split_ifs
    · exact ⟨some record, hrecord⟩
    · exact ⟨some record, hrecord⟩
    · exact ⟨_, Entry.patoshiRecord_setContractData (hrange.scheduled _)⟩

theorem settle_patoshiRecord (h : settle p tx account key result gas tokens fate = .ok p')
    (a : AccountId) : getPatoshiRecord p'.trie a = getPatoshiRecord p.trie a := by
  rcases settle_cases h with rfl | rfl
  · rfl
  · exact getPatoshiRecord_charged p gas tokens fate a

theorem TxStep.malformedRecord_iff (h : TxStep as p item p') (a : AccountId) :
    (p'.trie.entries a).MalformedRecord ↔ (p.trie.entries a).MalformedRecord := by
  cases h with
  | rejected e => rfl
  | @foreignKey =>
    apply Entry.malformedRecord_congr
    apply Entry.patoshiRecord_congr
    unfold autoRegisterAccessKeyIfNeeded
    split
    · rfl
    · exact Trie.setEntry_entries_apply _ _ _ Entry.contractData _ rfl
  | failed hlive hl =>
    exact Entry.malformedRecord_congr (getPatoshiRecord_resolveAccessKey hl.resolve_eq a)
  | depositFailed hlive hl hverdict hsettle =>
    apply Entry.malformedRecord_congr
    exact (settle_patoshiRecord hsettle a).trans (getPatoshiRecord_resolveAccessKey hl.resolve_eq a)
  | @accepted account cost key key' q _ result scheduled hlive hl hverdict hguard haccept =>
    have hq := Entry.malformedRecord_congr (getPatoshiRecord_resolveAccessKey hl.resolve_eq a)
    have hp' := Entry.malformedRecord_congr (settle_patoshiRecord haccept a)
    rw [emitReceipt_trie, scheduleUnlock_trie] at hp'
    rw [hp', ← hq]
    by_cases ha : a = item.1.transaction.signerId
    · -- The guard has read the record of the signer.
      subst ha
      obtain ⟨record, hrecord⟩ := patoshiRecord_schedule_isOk hguard
      have hread : ∃ record, (q.trie.entries item.1.transaction.signerId).patoshiRecord =
          .ok record := by
        rcases guardTransaction_eq_ok hguard with ⟨hnone, -⟩ | ⟨record, hsome, -⟩
        · exact ⟨none, hnone⟩
        · exact ⟨some record, hsome⟩
      obtain ⟨_, hbefore⟩ := hread
      rw [Trie.setEntry_entries_self]
      exact iff_of_false (Entry.not_malformedRecord_of_ok hrecord)
        (Entry.not_malformedRecord_of_ok hbefore)
    · rw [Trie.setEntry_entries_of_ne (h := ha)]

/-- No transaction reads a malformed record in the state before it. -/
def ChunkDecodes (as : ApplyState) (t : Trie E) (txs : List (SignedTransaction × Bool)) : Prop :=
  ∀ before item after p, txs = before ++ item :: after →
    processTransactions as t before = .ok p → ¬ ReadsMalformed as p item

theorem processTransactions_halted_iff :
    ¬ HaltedByContractData (processTransactions as t txs) ↔ ChunkDecodes as t txs := by
  constructor
  · rintro hruns before item after p rfl hbefore hreads
    obtain ⟨error, herror, hdecode⟩ := processTransaction_halted_iff.mpr hreads
    exact hruns ⟨error, foldlM_eq_error_iff.mpr
      ⟨p, item, mem_foldTrace_iff.mpr ⟨before, after, rfl, hbefore⟩, herror⟩, hdecode⟩
  · rintro hdecodes ⟨error, herror, hdecode⟩
    obtain ⟨p, item, hmem, hstep⟩ := foldlM_eq_error_iff.mp herror
    obtain ⟨before, after, heq, hbefore⟩ := mem_foldTrace_iff.mp hmem
    exact hdecodes before item after p heq hbefore
      (processTransaction_halted_iff.mp ⟨error, hstep, hdecode⟩)

/-- The bytes do not stop the loop, and it runs alike with any others in place of a malformed
record. -/
def ChunkIsolated (as : ApplyState) (t : Trie E) (txs : List (SignedTransaction × Bool)) : Prop :=
  ¬ HaltedByContractData (processTransactions as t txs) ∧ ∀ a bytes, (t.entries a).MalformedRecord →
      processTransactions as (t.withRecord a bytes) txs =
        (processTransactions as t txs).map (·.withRecord a bytes)

theorem chunkIsolated_iff : ChunkIsolated as t txs ↔ ChunkDecodes as t txs := by
  refine ⟨fun h => processTransactions_halted_iff.mp h.1, fun h =>
    ⟨processTransactions_halted_iff.mpr h, fun a bytes hmalformed => ?_⟩⟩
  -- The record stays malformed, so no transaction of the account can pay.
  have hkept : ∀ (q : ProcessingState E) item,
      (q, item) ∈ foldTrace (processTransaction as) (.start t) txs →
        (q.trie.entries a).MalformedRecord := by
    refine foldTrace_invariant (fun q : ProcessingState E => (q.trie.entries a).MalformedRecord)
      hmalformed ?_
    intro q item q' hmem hq hstep
    exact ((processTransaction_txStep hstep).malformedRecord_iff a).mpr hq
  unfold processTransactions
  rw [start_withRecord]
  refine foldlM_comm (ProcessingState.withRecord · a bytes) fun q item hmem => ?_
  obtain ⟨before, after, heq, hbefore⟩ := mem_foldTrace_iff.mp hmem
  refine processTransaction_withRecord a bytes fun hsigner hlive account cost key hpayable => ?_
  exact h before item after q heq hbefore
    ⟨hlive, hsigner ▸ hkept q item hmem, account, cost, key, hpayable⟩

/-! ## Delegate actions and the sweep -/

theorem halted_patoshiRecord :
    HaltedByContractData (e.patoshiRecord.mapError .storageError) ↔
      e.MalformedRecord := by
  simp [Entry.patoshiRecord_eq_error, RuntimeError.isDecodeFailure]

theorem applyDelegateAction_halted_iff {result : ActionResult} :
    HaltedByContractData (applyDelegateAction E as receipt e senderId signed result) ↔
      e.MalformedRecord := by
  unfold applyDelegateAction
  rw [halted_bind, halted_patoshiRecord, or_iff_left]
  rintro ⟨record, -, hhalts⟩
  -- What follows the record can only overflow.
  split at hhalts
  · exact not_halted_ok _ hhalts
  · split at hhalts
    · exact not_halted_ok _ hhalts
    · simp [RuntimeError.isDecodeFailure] at hhalts

/-- The record of the sender does not stop its delegate action, which runs alike with any other
bytes in place of a malformed record. -/
def DelegateIsolated (as : ApplyState) (t : Trie E) (receipt : ActionReceipt)
    (senderId : AccountId) (signed : SignedDelegateAction) (result : ActionResult) : Prop :=
  ¬ HaltedByContractData
      (applyDelegateAction E as receipt (t.entries senderId) senderId signed result) ∧
    ∀ a bytes, (t.entries a).MalformedRecord →
      applyDelegateAction E as receipt ((t.withRecord a bytes).entries senderId) senderId signed
        result = applyDelegateAction E as receipt (t.entries senderId) senderId signed result

theorem delegateIsolated_iff {result : ActionResult} :
    DelegateIsolated as t receipt senderId signed result ↔
      ¬ (t.entries senderId).MalformedRecord := by
  unfold DelegateIsolated
  rw [applyDelegateAction_halted_iff, and_iff_left_of_imp]
  intro hfine a bytes hmalformed
  have hne : senderId ≠ a := fun h => hfine (h ▸ hmalformed)
  rw [Trie.withRecord_entries_of_ne a bytes hne]

theorem sweepAccount_halted_iff :
    HaltedByContractData (sweepAccount epochHeight s a) ↔ (s.1.entries a).MalformedRecord := by
  unfold sweepAccount
  rw [halted_bind, getPatoshiRecord, halted_patoshiRecord, or_iff_left]
  rintro ⟨_, -, hhalts⟩
  split at hhalts
  · exact not_halted_ok _ hhalts
  · split at hhalts
    · exact not_halted_ok _ hhalts
    · simp only [halted_bind, halted_okOr, RuntimeError.isDecodeFailure, Bool.false_eq_true,
        and_false, false_or] at hhalts
      obtain ⟨_, -, hhalts⟩ := hhalts
      split at hhalts
      · exact not_halted_ok _ hhalts
      · simp [RuntimeError.isDecodeFailure] at hhalts

theorem sweepAccount_contractData {s' : Trie E × Balance}
    (h : sweepAccount epochHeight s a = .ok s') (b : AccountId) :
    (s'.1.entries b).contractData = (s.1.entries b).contractData := by
  rcases sweepAccount_cases h with rfl | ⟨record, acc, swept, -, -, rfl⟩
  · rfl
  · exact Trie.setEntry_entries_apply _ _ _ Entry.contractData _ rfl

theorem exists_parseIndexedAccount_eq_error {id : String} :
    (∃ e, parseIndexedAccount E id = .error e) ↔
      ∃ error, AccountId.validate E.toCrypto id = .error error := by
  unfold parseIndexedAccount
  cases AccountId.validate E.toCrypto id with
  | error error => simp
  | ok u => simp

theorem isDecodeFailure_of_parseIndexedAccount {ids : List String} {e : StorageError}
    (h : ids.mapM (parseIndexedAccount E) = .error e) :
    (RuntimeError.storageError e).isDecodeFailure = true := by
  induction ids with
  | nil => cases h
  | cons id ids ih =>
    rw [List.mapM_cons, bind_eq_error] at h
    rcases h with hid | ⟨id', -, hrest⟩
    · unfold parseIndexedAccount at hid
      split at hid
      · cases hid
      · cases hid
        rfl
    · rcases bind_eq_error.mp hrest with hids | ⟨ids', -, hpure⟩
      · exact ih hids
      · cases hpure

theorem halted_getPatoshiIndex :
    HaltedByContractData ((getPatoshiIndex t).mapError .storageError) ↔
      MalformedIndex t := by
  rw [halted_mapError]
  unfold getPatoshiIndex MalformedIndex
  cases hdata : (t.entries foundationAccountId).contractData patoshiIndexDataKey with
  | none => simp
  | some bytes =>
    simp only [Option.some.injEq, exists_eq_left']
    cases hdecode : decodeAll (readVec readString) bytes with
    | none => simp [okOr, RuntimeError.isDecodeFailure]
    | some ids =>
      simp only [okOr, ok_bind, Option.some.injEq, forall_eq']
      have hiff : (∃ e, ids.mapM (parseIndexedAccount E) = .error e) ↔
          ∃ id ∈ ids, ∃ error, AccountId.validate E.toCrypto id = .error error := by
        rw [exists_mapM_eq_error]
        simp only [exists_parseIndexedAccount_eq_error]
      rw [← hiff]
      constructor
      · rintro ⟨e, he, -⟩
        exact ⟨e, he⟩
      · rintro ⟨e, he⟩
        exact ⟨e, he, isDecodeFailure_of_parseIndexedAccount he⟩

theorem not_halted_creditFoundation {swept : Balance} :
    ¬ HaltedByContractData (creditFoundation t swept) := by
  unfold creditFoundation
  split
  · exact not_halted_ok _
  · simp [RuntimeError.isDecodeFailure]

/-- The index decodes, and so does the record of each of its accounts in the state before the
sweep comes to it. -/
def SweepDecodes (t : Trie E) (epochHeight : EpochHeight) : Prop :=
  ¬ MalformedIndex t ∧ ∀ before a after s, getPatoshiIndex t = .ok (before ++ a :: after) →
    before.foldlM (sweepAccount epochHeight) (t, 0) = .ok s → ¬ (s.1.entries a).MalformedRecord

theorem foldlM_sweepAccount_halted_iff {accounts : List AccountId} :
    HaltedByContractData (accounts.foldlM (sweepAccount epochHeight) (t, 0)) ↔
      ∃ s a, (s, a) ∈ foldTrace (sweepAccount epochHeight) (t, 0) accounts ∧
        (s.1.entries a).MalformedRecord := by
  constructor
  · rintro ⟨error, herror, hdecode⟩
    obtain ⟨s, a, hmem, hstep⟩ := foldlM_eq_error_iff.mp herror
    exact ⟨s, a, hmem, sweepAccount_halted_iff.mp ⟨error, hstep, hdecode⟩⟩
  · rintro ⟨s, a, hmem, hmalformed⟩
    obtain ⟨error, hstep, hdecode⟩ := sweepAccount_halted_iff.mpr hmalformed
    exact ⟨error, foldlM_eq_error_iff.mpr ⟨s, a, hmem, hstep⟩, hdecode⟩

theorem sweepPatoshiExcess_halted_iff :
    ¬ HaltedByContractData (sweepPatoshiExcess t epochHeight) ↔ SweepDecodes t epochHeight := by
  unfold sweepPatoshiExcess SweepDecodes
  rw [halted_bind, halted_getPatoshiIndex, not_or]
  apply and_congr_right'
  constructor
  · intro hruns before a after s hindex hbefore hmalformed
    refine hruns ⟨_, mapError_eq_ok.mpr hindex, halted_bind.mpr (.inl ?_)⟩
    exact foldlM_sweepAccount_halted_iff.mpr
      ⟨s, a, mem_foldTrace_iff.mpr ⟨before, after, rfl, hbefore⟩, hmalformed⟩
  · rintro hdecodes ⟨accounts, hindex, hhalts⟩
    rcases halted_bind.mp hhalts with hfold | ⟨s, -, hcredit⟩
    · obtain ⟨s, a, hmem, hmalformed⟩ := foldlM_sweepAccount_halted_iff.mp hfold
      obtain ⟨before, after, rfl, hbefore⟩ := mem_foldTrace_iff.mp hmem
      exact hdecodes before a after s (mapError_eq_ok.mp hindex) hbefore hmalformed
    · exact absurd hcredit not_halted_creditFoundation

/-- The bytes do not stop the sweep, and it runs alike with any others in place of a malformed
record. -/
def SweepIsolated (t : Trie E) (epochHeight : EpochHeight) : Prop :=
  ¬ HaltedByContractData (sweepPatoshiExcess t epochHeight) ∧
    ∀ a bytes, (t.entries a).MalformedRecord →
      sweepPatoshiExcess (t.withRecord a bytes) epochHeight =
        (sweepPatoshiExcess t epochHeight).map (·.withRecord a bytes)

theorem sweepIsolated_iff : SweepIsolated t epochHeight ↔ SweepDecodes t epochHeight := by
  refine ⟨fun h => sweepPatoshiExcess_halted_iff.mp h.1, fun h =>
    ⟨sweepPatoshiExcess_halted_iff.mpr h, fun a bytes hmalformed => ?_⟩⟩
  refine sweepPatoshiExcess_withRecord a bytes fun accounts s hindex hmem => ?_
  have hkept : (s.1.entries a).MalformedRecord := by
    refine foldTrace_invariant (fun s : Trie E × Balance => (s.1.entries a).MalformedRecord)
      hmalformed (fun s id s' hmem hs hstep => ?_) s a hmem
    exact (Entry.malformedRecord_congr
      (Entry.patoshiRecord_congr (sweepAccount_contractData hstep a))).mpr hs
  obtain ⟨before, after, rfl, hbefore⟩ := mem_foldTrace_iff.mp hmem
  exact h.2 before a after s hindex hbefore hkept

/-- Contract data halts none of the three readers, and a malformed record makes no difference but
to its own account, exactly when the bytes that they read decode. -/
theorem contract_data_never_halts_iff (as : ApplyState) (t : Trie E)
    (txs : List (SignedTransaction × Bool)) (receipt : ActionReceipt) (senderId : AccountId)
    (signed : SignedDelegateAction) (result : ActionResult) (epochHeight : EpochHeight) :
    (ChunkIsolated as t txs ↔ ChunkDecodes as t txs) ∧
    (DelegateIsolated as t receipt senderId signed result ↔
      ¬ (t.entries senderId).MalformedRecord) ∧
    (SweepIsolated t epochHeight ↔ SweepDecodes t epochHeight) :=
  ⟨chunkIsolated_iff, delegateIsolated_iff, sweepIsolated_iff⟩

end Malformed

/-! ## A contract that writes one byte under each key -/

def sampleMalformedTrie : Trie .sample :=
  ((Trie.empty.setAccount sampleAddress ⟨10000, 0, .localCode [], 100⟩).setContractData
    sampleAddress patoshiRecordDataKey [0]).setContractData foundationAccountId
      patoshiIndexDataKey [0]

theorem contract_data_halts_chunk : HaltedByContractData
      (processTransactions (.sample 5 0) sampleMalformedTrie [(sampleUnlock, true)]) ∧
    (∀ receipt signed result, HaltedByContractData
      (applyDelegateAction .sample (.sample 5 0) receipt
        (sampleMalformedTrie.entries sampleAddress) sampleAddress signed result)) ∧
    HaltedByContractData (sweepPatoshiExcess sampleMalformedTrie 0) := by
  have hhalts : ∀ {α : Type} (outcome : Except RuntimeError α), (match outcome with
        | .error error => error.isDecodeFailure
        | .ok _ => false) = true → HaltedByContractData outcome := by
    intro α outcome h
    cases outcome with
    | error error => exact ⟨error, rfl, h⟩
    | ok a => cases h
  refine ⟨hhalts _ (by decide +kernel), fun receipt signed result => ?_,
    hhalts _ (by decide +kernel)⟩
  exact applyDelegateAction_halted_iff.mpr ⟨[0], by decide +kernel, by decide +kernel⟩

end BitInfinity
