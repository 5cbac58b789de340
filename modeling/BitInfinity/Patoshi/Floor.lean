import BitInfinity.Patoshi.Lock

/-!
# The floor of the Patoshi accounts

Over whole runs of the chain a locked account keeps its genesis balance.  The exception are
accounts with a deterministic id, on which anyone may install a contract.
-/

namespace BitInfinity

open Foundation

section Floor

variable {E : Externals} {V : ContractRunner} {s s' : ChainState E} {event : ChainEvent}
  {events : List ChainEvent} {a : AccountId} {record : PatoshiRecord}

/-- The account holds this record and is locked by it at the current epoch. -/
def ChainState.LockedAt (s : ChainState E) (a : AccountId) (record : PatoshiRecord) : Prop :=
  getPatoshiRecord s.trie a = .ok (some record) ∧ isPatoshiLocked record s.epochHeight = true

def ChainState.IsLocked (s : ChainState E) (a : AccountId) : Prop := ∃ record, s.LockedAt a record

/-- No contract, no gas keys, no receipt under way, and the floor holds. -/
structure CleanlyLocked (s : ChainState E) (a : AccountId) (record : PatoshiRecord) : Prop where
  floor : ∃ acc, s.trie.getAccount a = some acc ∧ acc.contract = .none ∧
    record.genesisBalance ≤ acc.total
  noGasKeys : ∀ publicKey key, s.trie.getAccessKey a publicKey = some key → key.gasKeyInfo = none
  noReceipts : ∀ receipt, s.Outstanding receipt → receipt.predecessorId ≠ a

/-- The account exists, has no contract, and holds its genesis balance. -/
def FloorHolds (s : ChainState E) (a : AccountId) (genesisBalance : Balance) : Prop :=
  ∃ acc record, s.trie.getAccount a = some acc ∧ acc.contract = .none ∧ s.LockedAt a record ∧
    record.genesisBalance = genesisBalance ∧ genesisBalance ≤ acc.total

theorem isPatoshiLocked_of_le {epoch epoch' : EpochHeight} (hle : epoch ≤ epoch')
    (h : isPatoshiLocked record epoch' = true) : isPatoshiLocked record epoch = true := by
  unfold isPatoshiLocked at *
  simp only [Bool.and_eq_true] at *
  refine ⟨h.1, ?_⟩
  cases hunlock : record.unlockEpoch with
  | none => rfl
  | some u =>
    have hu := h.2
    simp only [hunlock, decide_eq_true_eq] at hu ⊢
    exact lt_of_le_of_lt hle hu

theorem chainStep_epochHeight_le (h : chainStep E V s event = some s') :
    s.epochHeight ≤ s'.epochHeight := by
  cases event with
  | transactions =>
    simp only [chainStep, Option.ite_none_right_eq_some, applyTransactions] at h
    obtain ⟨-, h⟩ := h
    split at h <;> cases h
    exact le_rfl
  | receipt =>
    simp only [chainStep, Option.ite_none_right_eq_some] at h
    obtain ⟨-, h⟩ := h
    unfold applyReceipt at h
    split at h
    · cases h
    · split at h <;> cases h
      exact le_rfl
  | yieldTimeout =>
    simp only [chainStep, Option.ite_none_right_eq_some, Option.some.injEq] at h
    obtain ⟨-, rfl⟩ := h
    exact le_rfl
  | validatorAccounts update =>
    simp only [chainStep] at h
    split at h <;> cases h
    exact le_rfl
  | nextBlock =>
    simp only [chainStep, Option.ite_none_right_eq_some, Option.some.injEq, Bool.and_eq_true,
      decide_eq_true_eq] at h
    obtain ⟨⟨-, hle⟩, rfl⟩ := h
    exact hle

theorem chainStep_floor {genesisBalance : Balance} {acc : Account}
    (h : chainStep E V s event = some s') (hdet : AccountId.isNearDeterministic a = false)
    (hinv : LockInv s a acc record) (hlocked : isPatoshiLocked record s.epochHeight = true)
    (hlocked' : s'.IsLocked a) (hgenesis : record.genesisBalance = genesisBalance)
    (hfloor : genesisBalance ≤ acc.total) :
    ∃ acc' record', LockInv s' a acc' record' ∧
      isPatoshiLocked record' s'.epochHeight = true ∧ record'.genesisBalance = genesisBalance ∧
      genesisBalance ≤ acc'.total := by
  obtain ⟨record', hevolves, hrecord, hgood⟩ := chainStep_lock h hdet hinv hlocked
  obtain ⟨_, hrecord'', hlocked''⟩ := hlocked'
  rw [hrecord] at hrecord''
  cases hrecord''
  obtain ⟨acc', hinv', hfloor'⟩ :=
    hgood (isPatoshiLocked_of_le (chainStep_epochHeight_le h) hlocked'')
  have hgenesis' : record'.genesisBalance = genesisBalance := by
    rcases hevolves with rfl | ⟨-, -, rfl⟩ <;> exact hgenesis
  exact ⟨acc', record', hinv', hlocked'', hgenesis', hgenesis ▸ hfloor' (hgenesis ▸ hfloor)⟩

/-- From a state in which all locked accounts are clean, an account that stays locked keeps its
floor, unless its id is a deterministic one. -/
theorem patoshi_floor_kept (hclean : ∀ b record, s.LockedAt b record → CleanlyLocked s b record)
    (hdet : AccountId.isNearDeterministic a = false) (hlocked : s.LockedAt a record)
    (hrun : RunThrough (fun x event y => chainStep E V x event = some y) (·.IsLocked a) s events
      s') : FloorHolds s' a record.genesisBalance := by
  have hstart := hclean a record hlocked
  obtain ⟨acc, hacc, hcontract, hfloor⟩ := hstart.floor
  obtain ⟨acc', record', hinv, hlocked', hgenesis, hfloor'⟩ := Run.invariant
    (fun _ x => ∃ acc' record', LockInv x a acc' record' ∧
      isPatoshiLocked record' x.epochHeight = true ∧
      record'.genesisBalance = record.genesisBalance ∧ record.genesisBalance ≤ acc'.total)
    hrun.2
    ⟨acc, record, ⟨⟨hacc, hcontract, hlocked.1⟩, fun receipt hout hpred =>
      absurd hpred (hstart.noReceipts receipt hout)⟩, hlocked.2, rfl, hfloor⟩
    (fun _ _ _ _ _ ⟨_, _, hinv, hl, hg, hf⟩ ⟨hstep, hl'⟩ =>
      chainStep_floor hstep hdet hinv hl hl' hg hf)
  exact ⟨acc', record', hinv.keeps.account_eq, hinv.keeps.contract_eq,
    ⟨hinv.keeps.record_eq, hlocked'⟩, hgenesis, hfloor'⟩

end Floor

/-! ## A run, and an account with a deterministic id -/

def observeAccount (s : ChainState .sample) (id : AccountId) :
    Option Account × Option (Option PatoshiRecord) × EpochHeight :=
  (s.trie.getAccount id, (getPatoshiRecord s.trie id).toOption, s.epochHeight)

section SoleAccount

variable {id : AccountId} {acc : Account} {globals : Globals} {pending : List Receipt}

theorem soleAccountTrie_record (id : AccountId) (acc : Account) :
    getPatoshiRecord (soleAccountTrie id acc) id = .ok (some sampleRecord) := by
  rw [getPatoshiRecord, soleAccountTrie, setPatoshiRecord, Trie.setContractData,
    Trie.setEntry_entries_self]
  exact Entry.patoshiRecord_setContractData ⟨by decide, fun e he => by cases he⟩

theorem soleAccountTrie_lockedAt :
    (ChainState.sample { soleAccountTrie id acc with globals } pending).LockedAt id sampleRecord :=
  ⟨soleAccountTrie_record id acc, rfl⟩

theorem soleAccountTrie_clean (hcontract : acc.contract = .none)
    (hfloor : sampleRecord.genesisBalance ≤ acc.total)
    (hpending : ∀ receipt ∈ pending, receipt.predecessorId ≠ id) (b : AccountId)
    (record : PatoshiRecord)
    (h : (ChainState.sample { soleAccountTrie id acc with globals } pending).LockedAt b record) :
    CleanlyLocked (.sample { soleAccountTrie id acc with globals } pending) b record := by
  have hsome : getPatoshiRecord (soleAccountTrie id acc) b = .ok (some record) := h.1
  have hb : b = id := by
    by_contra hb
    have hnone : getPatoshiRecord (soleAccountTrie id acc) b = .ok none := by
      simp [soleAccountTrie, setPatoshiRecord, getPatoshiRecord, Trie.setContractData,
        Trie.setAccount, hb, Entry.patoshiRecord, Trie.empty, Entry.empty]
    rw [hnone] at hsome
    cases hsome
  subst hb
  rw [soleAccountTrie_record] at hsome
  cases hsome
  refine ⟨⟨acc, ?_, hcontract, hfloor⟩, ?_, ?_⟩
  · change (soleAccountTrie b acc).getAccount b = some acc
    simp [soleAccountTrie, setPatoshiRecord, Trie.getAccount_setAccount]
  · intro publicKey key hkey
    have hnone : (soleAccountTrie b acc).getAccessKey b publicKey = none := by
      rw [soleAccountTrie, setPatoshiRecord, Trie.getAccessKey_setContractData,
        Trie.getAccessKey_setAccount]
      rfl
    cases hnone.symm.trans hkey
  · rintro receipt (hmem | ⟨c, hash, v, hv | hv, -⟩)
    · exact hpending receipt hmem
    · cases hv
    · cases hv

end SoleAccount

theorem lockedAt_of_observe {s : ChainState .sample} {id : AccountId}
    {acc : Option Account} {record : PatoshiRecord} {epoch : EpochHeight}
    (h : observeAccount s id = (acc, some (some record), epoch))
    (hlocked : isPatoshiLocked record epoch = true) : s.LockedAt id record := by
  obtain ⟨-, hrecord, hepoch⟩ : s.trie.getAccount id = acc ∧
      (getPatoshiRecord s.trie id).toOption = some (some record) ∧ s.epochHeight = epoch := by
    simpa [observeAccount] using h
  refine ⟨?_, hepoch ▸ hlocked⟩
  cases hget : getPatoshiRecord s.trie id with
  | error e => simp [hget, Except.toOption] at hrecord
  | ok stored => simpa [hget, Except.toOption] using hrecord

theorem sampleUnlock_observed : ∃ s', chainStep .sample .sample
        (.sample (samplePatoshiTrie 1004) [])
        (.transactions (.sample 5 0) [(sampleUnlock, true)]) = some s' ∧
      observeAccount s' sampleAddress =
        (some ⟨1000, 0, .none, 100⟩, some (some (sampleRecord.scheduledAt 0)), 0) :=
  Option.map_eq_some_iff.mp (by decide +kernel)

/-- An unlock trigger is accepted and the floor holds after it. -/
theorem patoshi_floor_kept_after_trigger : ∃ s', chainStep .sample .sample
        (.sample (samplePatoshiTrie 1004) [])
        (.transactions (.sample 5 0) [(sampleUnlock, true)]) = some s' ∧
      FloorHolds s' sampleAddress sampleRecord.genesisBalance := by
  obtain ⟨s', hstep, hs'⟩ := sampleUnlock_observed
  exact ⟨s', hstep, patoshi_floor_kept (soleAccountTrie_clean rfl (by decide) (by simp))
    (by decide +kernel) soleAccountTrie_lockedAt
    ⟨⟨_, soleAccountTrie_lockedAt⟩, .single ⟨hstep, _, lockedAt_of_observe hs' (by decide)⟩⟩⟩

def sampleStateInit : DeterministicAccountStateInit := ⟨.codeHash [1], []⟩

def sampleDeterministicId (init : DeterministicAccountStateInit) : AccountId :=
  deriveNearDeterministicAccountId .sample init

def sampleStateInitReceipt (init : DeterministicAccountStateInit) : Receipt where
  predecessorId := "alice.near"
  receiverId := sampleDeterministicId init
  receiptId := []
  receipt := .action
    { signerId := "alice.near"
      refundTo := none
      signerPublicKey := Receipt.emptyKey
      gasPrice := 0
      outputDataReceivers := []
      inputDataIds := []
      actions := [.basic (.deterministicStateInit init 0)] }

def sampleDeterministicState (init : DeterministicAccountStateInit) : ChainState .sample :=
  .sample { soleAccountTrie (sampleDeterministicId init) ⟨1000, 0, .none, 100⟩ with
    globals := ⟨fun _ => some [], fun _ => 0⟩ } [sampleStateInitReceipt init]

/-- A locked account with a deterministic id gets a contract from a stranger. -/
theorem patoshi_contract_installed :
    (∀ b record, (sampleDeterministicState sampleStateInit).LockedAt b record →
      CleanlyLocked (sampleDeterministicState sampleStateInit) b record) ∧
    (sampleDeterministicState sampleStateInit).LockedAt (sampleDeterministicId sampleStateInit)
      sampleRecord ∧
    ∃ s', RunThrough
        (fun x event y => chainStep .sample .sample x event = some y)
        (·.IsLocked (sampleDeterministicId sampleStateInit))
        (sampleDeterministicState sampleStateInit)
        [.receipt (.sample 5 0) (sampleStateInitReceipt sampleStateInit)] s' ∧
      ¬ FloorHolds s' (sampleDeterministicId sampleStateInit) sampleRecord.genesisBalance := by
  have hpending : ∀ receipt ∈ [sampleStateInitReceipt sampleStateInit],
      receipt.predecessorId ≠ sampleDeterministicId sampleStateInit := by decide +kernel
  have hobserve : (chainStep .sample .sample
      (sampleDeterministicState sampleStateInit)
      (.receipt (.sample 5 0) (sampleStateInitReceipt sampleStateInit))).map
        (observeAccount · (sampleDeterministicId sampleStateInit)) =
      some (some ⟨1000, 0, .globalCode [1], 132⟩, some (some sampleRecord), 0) := by
    decide +kernel
  obtain ⟨s', hstep, hs'⟩ := Option.map_eq_some_iff.mp hobserve
  refine ⟨soleAccountTrie_clean rfl (by decide) hpending, soleAccountTrie_lockedAt, s',
    ⟨⟨_, soleAccountTrie_lockedAt⟩, .single ⟨hstep, _, lockedAt_of_observe hs' (by decide)⟩⟩, ?_⟩
  rintro ⟨_, record, hacc, hcontract, -⟩
  have hacc' : s'.trie.getAccount (sampleDeterministicId sampleStateInit) =
      some ⟨1000, 0, .globalCode [1], 132⟩ := congrArg Prod.fst hs'
  rw [hacc] at hacc'
  cases hacc'
  cases hcontract

end BitInfinity
