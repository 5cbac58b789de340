import BitInfinity.Runtime.Payable

/-!
# Scheduling the unlock of a Patoshi account

The unlock is scheduled by a transfer of nothing to the foundation account.  Its fees are paid
from the locked account, and the guard compares what is left with the genesis balance: an
account that holds exactly its genesis balance cannot pay for its own unlock.
-/

namespace BitInfinity

open Foundation

def PatoshiRecord.scheduledAt (record : PatoshiRecord) (epoch : EpochHeight) : PatoshiRecord :=
  { record with unlockEpoch := some (epoch + patoshiUnlockDelayEpochs) }

section Unlock

variable {E : Externals} {as : ApplyState} {t : Trie E} {tx : SignedTransaction}
  {account : Account} {cost : TransactionCost} {key key' : AccessKey} {q : ProcessingState E}
  {result : VerificationResult} {record : PatoshiRecord}

/-- The transaction is accepted and the record has its unlock scheduled afterwards. -/
def UnlockScheduled (as : ApplyState) (t : Trie E) (tx : SignedTransaction)
    (record : PatoshiRecord) : Prop :=
  ∃ p receiptId gas tokens, processTransactions as t [(tx, true)] = .ok p ∧
    p.log = [(tx, .success receiptId gas tokens)] ∧
    getPatoshiRecord p.trie tx.transaction.signerId = .ok (some (record.scheduledAt as.epochHeight))

theorem processTransactions_singleton (item : SignedTransaction × Bool) :
    processTransactions as t [item] = processTransaction as (.start t) item := by
  unfold processTransactions
  rw [List.foldlM_cons]
  cases processTransaction as (.start t) item <;> rfl

theorem getPatoshiRecord_resolveAccessKey {p : ProcessingState E}
    (h : resolveAccessKey as p tx = (.ok key, q)) (a : AccountId) :
    getPatoshiRecord q.trie a = getPatoshiRecord p.trie a := by
  rcases resolveAccessKey_eq_ok h with ⟨-, rfl⟩ | ⟨-, -, -, rfl⟩
  · rfl
  · apply Entry.patoshiRecord_congr
    rw [Trie.setAccessKey, Trie.setEntry_entries]
    split
    · next ha => rw [ha]; rfl
    · rfl

theorem maybeSchedulePatoshiUnlock_of_trigger {epoch : EpochHeight} {receiverId : AccountId}
    {actions : List Action} (hlocked : isPatoshiLocked record epoch = true)
    (hnone : record.unlockEpoch = none)
    (htrigger : isPatoshiUnlockTrigger receiverId actions = true) :
    maybeSchedulePatoshiUnlock record receiverId actions epoch = some { record with
        unlockEpoch := some (saturatingAdd 64 epoch patoshiUnlockDelayEpochs) } := by
  simp [maybeSchedulePatoshiUnlock, hlocked, hnone, htrigger]

theorem patoshiGuard_of_trigger {tx : Transaction} {total : Balance}
    (hlocked : isPatoshiLocked record as.epochHeight = true) (hnone : record.unlockEpoch = none)
    (htrigger : isPatoshiUnlockTrigger tx.receiverId tx.actions = true) :
    patoshiGuard as tx record total = if record.genesisBalance ≤ total then
        .ok (some { record with
          unlockEpoch := some (saturatingAdd 64 as.epochHeight patoshiUnlockDelayEpochs) })
      else
        .error (patoshiValidationError "patoshi_below_genesis_floor" as.protocolVersion) := by
  obtain ⟨hreceiver, hactions⟩ := isPatoshiUnlockTrigger_iff.mp htrigger
  unfold patoshiGuard
  rw [maybeSchedulePatoshiUnlock_of_trigger hlocked hnone htrigger]
  simp only [validateLockedPatoshiTransaction, hlocked, hactions, hreceiver, List.forM,
    validateLockedPatoshiAction]
  by_cases hfloor : record.genesisBalance ≤ total
  · simp [hfloor, ensure, pure, Except.pure]
  · simp [hfloor, ensure, pure, Except.pure]

theorem newAccountAmount_add_locked_lt
    (h : checkStorageStake account result.newAccountAmount as.config = .ok ()) :
    result.newAccountAmount + account.locked < 2 ^ 128 := by
  obtain ⟨_, -, h⟩ := bind_eq_ok.mp h
  obtain ⟨_, havailable, -⟩ := bind_eq_ok.mp h
  rw [okOr_eq_ok, checkedAdd_eq_some] at havailable
  exact havailable.1

theorem processTransactions_of_trigger
    (hl : Loaded as (.start t) tx account cost key q)
    (hverdict : hl.verdict = (.success result, key'))
    (hrecord : getPatoshiRecord t tx.transaction.signerId = .ok (some record))
    (hlocked : isPatoshiLocked record as.epochHeight = true) (hnone : record.unlockEpoch = none)
    (htrigger : isPatoshiUnlockTrigger tx.transaction.receiverId tx.transaction.actions = true) :
    processTransactions as t [(tx, true)] =
      if record.genesisBalance ≤ result.newAccountAmount + account.locked then
        acceptTransaction as (scheduleUnlock q tx.transaction.signerId (some { record with
          unlockEpoch := some (saturatingAdd 64 as.epochHeight patoshiUnlockDelayEpochs) })) tx
          account key' result
      else
        .ok (q.fail tx (patoshiValidationError "patoshi_below_genesis_floor"
          as.protocolVersion)) := by
  have hq : getPatoshiRecord q.trie tx.transaction.signerId = .ok (some record) := by
    rw [getPatoshiRecord_resolveAccessKey hl.resolve_eq]
    exact hrecord
  have hsum := newAccountAmount_add_locked_lt (transactionVerdict_success hverdict).2
  rw [processTransactions_singleton, hl.processTransaction_eq, hverdict]
  unfold applyVerdict
  dsimp only
  rw [guardTransaction_of_record hq hsum, patoshiGuard_of_trigger hlocked hnone htrigger]
  split <;> rfl

theorem acceptTransaction_of_start (hl : Loaded as (.start t) tx account cost key q)
    (hverdict : hl.verdict = (.success result, key')) (scheduled : Option PatoshiRecord) :
    ∃ receiptId, acceptTransaction as (scheduleUnlock q tx.transaction.signerId scheduled) tx
        account key' result =
      .ok (charged (emitReceipt (scheduleUnlock q tx.transaction.signerId scheduled)
        (receiptFromTx E as tx.transaction result)) tx account key' result result.gasBurnt
        result.burntAmount (.success receiptId result.gasBurnt result.burntAmount)) := by
  obtain ⟨hverified, -⟩ := transactionVerdict_success hverdict
  obtain ⟨hgas, hburnt⟩ := txCost_bounds hl.cost_eq
  have hq : q.txBurntAmount = 0 ∧ q.totalGas = 0 := by
    rcases resolveAccessKey_eq_ok hl.resolve_eq with ⟨-, rfl⟩ | ⟨-, -, -, rfl⟩ <;> exact ⟨rfl, rfl⟩
  refine ⟨(receiptFromTx E as tx.transaction result).receiptId, ?_⟩
  unfold acceptTransaction
  rw [settle_eq, if_pos, if_pos]
  · rw [emitReceipt_totalGas, scheduleUnlock_totalGas, hq.2, zero_add, hverified.gasBurnt_eq]
    exact hgas
  · rw [emitReceipt_txBurntAmount, scheduleUnlock_txBurntAmount, hq.1, zero_add,
      hverified.burntAmount_eq]
    exact hburnt

theorem getPatoshiRecord_charged (p : ProcessingState E) (gas : Gas) (tokens : Balance)
    (fate : TransactionEnd) (a : AccountId) :
    getPatoshiRecord (charged p tx account key result gas tokens fate).trie a =
      getPatoshiRecord p.trie a := by
  apply Entry.patoshiRecord_congr
  have htrie : (charged p tx account key result gas tokens fate).trie = _ :=
    applyCharge_trie _ tx.transaction account key result
  rw [htrie, Trie.setEntry_entries]
  split
  · next ha => rw [ha]; simp
  · rfl

theorem PatoshiRecord.InRange.scheduled (h : record.InRange) (epoch : EpochHeight) :
    PatoshiRecord.InRange { record with
      unlockEpoch := some (saturatingAdd 64 epoch patoshiUnlockDelayEpochs) } := by
  refine ⟨h.genesisBalance_lt, ?_⟩
  rintro e he
  obtain rfl : saturatingAdd 64 epoch patoshiUnlockDelayEpochs = e := by simpa using he
  unfold saturatingAdd EpochHeight
  omega

/-- A correctly signed and payable unlock trigger schedules the unlock exactly when the fees are
covered by what the account holds above its genesis balance, and the epoch can be represented. -/
theorem unlock_scheduled_iff (hpayable : Payable as (.start t) tx account cost key)
    (hrecord : getPatoshiRecord t tx.transaction.signerId = .ok (some record))
    (hlocked : isPatoshiLocked record as.epochHeight = true) (hnone : record.unlockEpoch = none)
    (htrigger : isPatoshiUnlockTrigger tx.transaction.receiverId tx.transaction.actions = true) :
    UnlockScheduled as t tx record ↔
      record.genesisBalance ≤ account.total - chargedAmount tx.transaction cost ∧
        as.epochHeight + patoshiUnlockDelayEpochs < 2 ^ 64 := by
  obtain ⟨q, hl, result, key', hverdict⟩ := payable_iff.mp hpayable
  obtain ⟨hverified, -⟩ := transactionVerdict_success hverdict
  have hamount : result.newAccountAmount + account.locked =
      account.total - chargedAmount tx.transaction cost := by
    have hle := hverified.paid_le
    rw [hverified.amount_eq, Account.total]
    unfold Balance at *
    omega
  have hrun := processTransactions_of_trigger hl hverdict hrecord hlocked hnone htrigger
  have hlog : q.log = [] := by
    rcases resolveAccessKey_eq_ok hl.resolve_eq with ⟨-, rfl⟩ | ⟨-, -, -, rfl⟩ <;> rfl
  rw [hamount] at hrun
  by_cases hpays : record.genesisBalance ≤ account.total - chargedAmount tx.transaction cost
  · obtain ⟨receiptId, haccept⟩ := acceptTransaction_of_start hl hverdict (some { record with
        unlockEpoch := some (saturatingAdd 64 as.epochHeight patoshiUnlockDelayEpochs) })
    rw [if_pos hpays, haccept] at hrun
    have hstored : ∀ fate gas tokens, getPatoshiRecord (charged
          (emitReceipt (scheduleUnlock q tx.transaction.signerId (some { record with
            unlockEpoch := some (saturatingAdd 64 as.epochHeight patoshiUnlockDelayEpochs) }))
            (receiptFromTx E as tx.transaction result)) tx account key' result gas tokens fate).trie
          tx.transaction.signerId =
        .ok (some { record with
          unlockEpoch := some (saturatingAdd 64 as.epochHeight patoshiUnlockDelayEpochs) }) := by
      intro fate gas tokens
      rw [getPatoshiRecord_charged, emitReceipt_trie]
      simp only [scheduleUnlock, getPatoshiRecord, setPatoshiRecord, Trie.setContractData,
        Trie.setEntry_entries_self]
      exact Entry.patoshiRecord_setContractData
        ((Entry.patoshiRecord_inRange hrecord).scheduled as.epochHeight)
    constructor
    · rintro ⟨p, id, gas, tokens, hp, -, hscheduled⟩
      rw [hrun] at hp
      cases hp
      rw [hstored] at hscheduled
      have hepoch : saturatingAdd 64 as.epochHeight patoshiUnlockDelayEpochs =
          as.epochHeight + patoshiUnlockDelayEpochs := by
        simpa [PatoshiRecord.scheduledAt] using hscheduled
      refine ⟨hpays, ?_⟩
      unfold saturatingAdd EpochHeight at *
      omega
    · rintro ⟨-, hepoch⟩
      refine ⟨_, receiptId, result.gasBurnt, result.burntAmount, hrun, ?_, ?_⟩
      · simp [charged, ProcessingState.finishWith, applyCharge, hlog]
      · rw [hstored, saturatingAdd_eq hepoch]
        rfl
  · rw [if_neg hpays] at hrun
    constructor
    · rintro ⟨p, id, gas, tokens, hp, hend, -⟩
      rw [hrun] at hp
      cases hp
      simp [ProcessingState.fail, ProcessingState.finishWith, hlog] at hend
    · rintro ⟨h, -⟩
      exact absurd h hpays

end Unlock

/-! ## A locked account at its floor -/

def sampleRecord : PatoshiRecord := ⟨1000, true, none⟩

def soleAccountTrie (id : AccountId) (acc : Account) : Trie .sample :=
  setPatoshiRecord (Trie.empty.setAccount id acc) id sampleRecord

def samplePatoshiTrie (amount : Balance) : Trie .sample :=
  soleAccountTrie sampleAddress ⟨amount, 0, .none, 100⟩

def sampleUnlock : SignedTransaction :=
  sampleTransaction sampleAddress foundationAccountId 4000001 [.basic (.transfer 0)]

def sampleCost : TransactionCost := ⟨2, 2, 1, 2, 4, 0, 4⟩

theorem sampleUnlock_payable {amount : Balance} (hle : 4 ≤ amount)
    (hstake : checkStorageStake ⟨amount, 0, .none, 100⟩ (amount - 4) .sample =
      .ok ()) :
    Payable (.sample 5 0) (.start (samplePatoshiTrie amount)) sampleUnlock
      ⟨amount, 0, .none, 100⟩ sampleCost ⟨3000000, .fullAccess⟩ where
  valid := rfl
  cost_eq := rfl
  account_eq := rfl
  key_eq := by
    have hrec : recoveredKey .sample sampleUnlock =
        some sampleUnlock.transaction.publicKey := by decide +kernel
    have hkey : firstUseKey (.sample 5 0) none sampleUnlock =
        ⟨3000000, .fullAccess⟩ := by decide +kernel
    have hcache : (ProcessingState.start (samplePatoshiTrie amount)).cache.accessKeys
        sampleUnlock.transaction.signerId sampleUnlock.transaction.publicKey = none := rfl
    have hstored : (ProcessingState.start (samplePatoshiTrie amount)).trie.getAccessKey
        sampleUnlock.transaction.signerId sampleUnlock.transaction.publicKey = none := rfl
    simp only [signingKey, hcache, hstored, hrec, hkey, if_true]
  keyPays := ⟨rfl, by decide +kernel, none, rfl⟩
  permitted := rfl
  amount_le := hle
  stake := hstake

/-- With four units above the floor the fees are covered. -/
theorem unlock_scheduled_above_floor :
    UnlockScheduled (.sample 5 0) (samplePatoshiTrie 1004) sampleUnlock sampleRecord :=
  (unlock_scheduled_iff (sampleUnlock_payable (by decide) rfl) rfl rfl rfl rfl).mpr
    ⟨by decide, by decide⟩

/-- An account that holds exactly its genesis balance can pay for the trigger, which is
rejected nevertheless. -/
theorem unlock_blocked_at_floor : ∃ account cost key,
      Payable (.sample 5 0) (.start (samplePatoshiTrie 1000))
        sampleUnlock account cost key ∧
      getPatoshiRecord (samplePatoshiTrie 1000) sampleUnlock.transaction.signerId =
        .ok (some sampleRecord) ∧
      isPatoshiLocked sampleRecord (ApplyState.sample 5 0).epochHeight = true ∧
      sampleRecord.unlockEpoch = none ∧
      isPatoshiUnlockTrigger sampleUnlock.transaction.receiverId
        sampleUnlock.transaction.actions = true ∧
      account.total = sampleRecord.genesisBalance ∧
      ¬ UnlockScheduled (.sample 5 0) (samplePatoshiTrie 1000) sampleUnlock
        sampleRecord := by
  refine ⟨_, _, _, sampleUnlock_payable (by decide) rfl, rfl, rfl, rfl, rfl, rfl, ?_⟩
  rintro ⟨p, _, _, _, hp, hlog, -⟩
  have hrejected : (processTransactions (.sample 5 0) (samplePatoshiTrie 1000)
      [(sampleUnlock, true)]).toOption.map ProcessingState.log =
      some [(sampleUnlock, .failed (patoshiValidationError "patoshi_below_genesis_floor" 84))] := by
    decide +kernel
  rw [hp] at hrejected
  simp [Except.toOption, hlog] at hrejected

end BitInfinity
