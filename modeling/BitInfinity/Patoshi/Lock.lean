import BitInfinity.Ledger.Passive
import BitInfinity.Patoshi.Unlock

/-!
# The life of a locked Patoshi account

While its record is locked, an account without a contract issues nothing but transfers and
stakes, keeps its balance above the floor, and its record changes only when the unlock is
scheduled.
-/

namespace BitInfinity

open Foundation

/-! ## One step -/

/-- The account exists, has no contract, and holds this record. -/
structure Keeps (e : Entry) (acc : Account) (record : PatoshiRecord) : Prop where
  account_eq : e.account = some acc
  contract_eq : acc.contract = .none
  record_eq : e.patoshiRecord = .ok (some record)

/-- How a step changes the record: only an accepted trigger schedules the unlock. -/
inductive RecordStep (record : PatoshiRecord) (epochHeight : EpochHeight) (event : EntryEvent) :
    PatoshiRecord → Prop
  | same : RecordStep record epochHeight event record
  | scheduled (as : ApplyState) (tx : Transaction) (hevent : event = .accept as tx ∨
        event = .drop as tx) (hnone : record.unlockEpoch = none)
      (htrigger : isPatoshiUnlockTrigger tx.receiverId tx.actions = true) :
      RecordStep record epochHeight event { record with
        unlockEpoch := some (saturatingAdd 64 epochHeight patoshiUnlockDelayEpochs) }

section Step

variable {E : Externals} {V : ContractRunner} {config : StorageUsageConfig} {a : AccountId}
  {e e' : Entry} {event : EntryEvent} {acc : Account} {record : PatoshiRecord}
  {epochHeight : EpochHeight}

variable {as : ApplyState} {tx : Transaction} {acc' : Account}

theorem GuardPasses.of_locked {total : Balance} {scheduled : Option PatoshiRecord}
    (h : GuardPasses as e tx total scheduled) (hrecord : e.patoshiRecord = .ok (some record))
    (hlocked : isPatoshiLocked record as.epochHeight = true) :
    (∀ action ∈ tx.actions, action.Calm) ∧ record.genesisBalance ≤ total ∧
      scheduled = maybeSchedulePatoshiUnlock record tx.receiverId tx.actions as.epochHeight := by
  rcases h with ⟨hnone, -⟩ | ⟨record', hrecord', hvalid, hscheduled⟩
  · rw [hrecord] at hnone
    cases hnone
  · obtain rfl : record' = record := by
      rw [hrecord] at hrecord'
      cases hrecord'
      rfl
    obtain ⟨hactions, hfloor⟩ := (validateLockedPatoshiTransaction_eq_ok hlocked).mp hvalid
    refine ⟨fun action hmem => ?_, hfloor, hscheduled⟩
    rcases validateLockedPatoshiAction_eq_ok.mp (hactions action hmem) with
      ⟨stake, publicKey, rfl, -⟩ | ⟨deposit, rfl, -⟩
    · exact .inr ⟨stake, publicKey, rfl⟩
    · exact .inl ⟨deposit, rfl⟩

theorem Keeps.schedule (h : Keeps e acc record)
    (hevent : event = .accept as tx ∨ event = .drop as tx) :
    ∃ record', Keeps (e.schedule (maybeSchedulePatoshiUnlock record tx.receiverId tx.actions
        as.epochHeight)) acc record' ∧ RecordStep record as.epochHeight event record' := by
  unfold maybeSchedulePatoshiUnlock
  split_ifs with hlocked htrigger
  · exact ⟨record, h, .same⟩
  · exact ⟨record, h, .same⟩
  · have hnone : record.unlockEpoch = none := by
      cases hunlock : record.unlockEpoch with
      | none => rfl
      | some u => simp [hunlock] at hlocked
    refine ⟨_, ⟨h.account_eq, h.contract_eq, ?_⟩,
      .scheduled as tx hevent hnone (by simpa using htrigger)⟩
    exact Entry.patoshiRecord_setContractData
      ((Entry.patoshiRecord_inRange h.record_eq).scheduled as.epochHeight)

theorem Keeps.of_contractData (h : Keeps e acc record)
    (hdata : e'.contractData = e.contractData) (hacc : e'.account = some acc')
    (hcontract : acc'.contract = acc.contract) : Keeps e' acc' record :=
  ⟨hacc, hcontract.trans h.contract_eq, (Entry.patoshiRecord_congr hdata).trans h.record_eq⟩

theorem Keeps.account_inj (h : Keeps e acc record) (hacc : e.account = some acc') : acc' = acc :=
  Option.some.inj (hacc.symm.trans h.account_eq)

theorem Entry.TouchesKey.contractData (h : e.TouchesKey e') : e'.contractData = e.contractData := by
  cases h <;> rfl

theorem EntryStep.keeps (hstep : EntryStep E V config a e event e')
    (hdet : AccountId.isNearDeterministic a = false) (hkeeps : Keeps e acc record)
    (hlocked : isPatoshiLocked record epochHeight = true) (hpassive : event.Passive epochHeight) :
    event.Calm ∧ ∃ acc' record', Keeps e' acc' record' ∧
      RecordStep record epochHeight event record' ∧
      (record.genesisBalance ≤ acc.total → record.genesisBalance ≤ acc'.total) := by
  cases hstep with
  | receive amount hacc hkey hle =>
    obtain rfl := hkeeps.account_inj hacc
    refine ⟨trivial, _, record, hkeeps.of_contractData hkey.contractData rfl rfl, .same, ?_⟩
    exact fun hfloor => hfloor.trans (Nat.add_le_add_right hle _)
  | restake amount locked hacc hle =>
    obtain rfl := hkeeps.account_inj hacc
    exact ⟨trivial, _, record, hkeeps.of_contractData rfl rfl rfl, .same,
      fun hfloor => hfloor.trans hle⟩
  | sweep amount hacc hrecord hfloor =>
    obtain rfl := hkeeps.account_inj hacc
    rw [hkeeps.record_eq] at hrecord
    cases hrecord
    exact ⟨trivial, _, record, hkeeps.of_contractData rfl rfl rfl, .same, hfloor⟩
  | register =>
    exact ⟨trivial, acc, record, hkeeps.of_contractData rfl hkeeps.account_eq rfl, .same, id⟩
  | accept as tx hsigner hacc hkey hverified hguard =>
    obtain rfl := hkeeps.account_inj hacc
    obtain rfl : as.epochHeight = epochHeight := hpassive
    obtain ⟨hcalm, hfloor, rfl⟩ := hguard.of_locked hkeeps.record_eq hlocked
    obtain ⟨record', hkeeps', hrecord⟩ := hkeeps.schedule (.inl rfl)
    exact ⟨hcalm, _, record', hkeeps'.of_contractData (Entry.charge_contractData ..)
      (Entry.charge_account ..) rfl, hrecord, fun _ => hfloor⟩
  | drop as tx hsigner hacc hkey hguard =>
    obtain rfl : as.epochHeight = epochHeight := hpassive
    obtain ⟨hcalm, -, rfl⟩ := hguard.of_locked hkeeps.record_eq hlocked
    obtain ⟨record', hkeeps', hrecord⟩ := hkeeps.schedule (.inr rfl)
    exact ⟨hcalm, acc, record', hkeeps', hrecord, id⟩
  | payGas tx hsigner hacc hkey hverified =>
    obtain rfl := hkeeps.account_inj hacc
    refine ⟨trivial, _, record, hkeeps.of_contractData (Entry.charge_contractData ..)
      (Entry.charge_account ..) rfl, .same, fun hfloor => ?_⟩
    simpa [Account.total, VerificationResult.applyAccount, hverified.amount_eq] using hfloor
  | delegate epoch actions nonce hacc hrecord hunlocked =>
    obtain rfl : epoch = epochHeight := hpassive
    rw [hkeeps.record_eq] at hrecord
    cases hrecord
    simp [hlocked] at hunlocked
  | create amount hnone | createWithKey amount publicKey nonce hnone htype
  | createWithCode amount hash usage code hnone => simp [hkeeps.account_eq] at hnone
  | call hacc hcontract =>
    obtain rfl := hkeeps.account_inj hacc
    exact absurd hkeeps.contract_eq hcontract
  | stateInit acc' data code hdet' => simp [hdet] at hdet'
  | _ => exact hpassive.elim

/-- An emitted unlock trigger of the account finds a locked record without a schedule. -/
def SchedulesUnlock (as : ApplyState) (p' : ProcessingState E) (tx : Transaction)
    (a : AccountId) (e : Entry) : Prop :=
  tx.signerId = a ∧ isPatoshiUnlockTrigger tx.receiverId tx.actions = true ∧ Emitted as p' tx ∧
    ∃ record, e.patoshiRecord = .ok (some record) ∧
      isPatoshiLocked record as.epochHeight = true ∧ record.unlockEpoch = none

/-- A transaction changes no data of an account, except to schedule an unlock. -/
theorem EntryStep.contractData_of_tx {p p' : ProcessingState E} {item : SignedTransaction × Bool}
    (hstep : EntryStep E V config a e event e') (hcause : TxCause as p item p' a event)
    (hnot : ¬ SchedulesUnlock as p' item.1.transaction a e) : e'.contractData = e.contractData := by
  have hnone : ∀ total scheduled, GuardPasses as e item.1.transaction total scheduled →
      item.1.transaction.signerId = a → Emitted as p' item.1.transaction → scheduled = none := by
    rintro total scheduled (⟨-, rfl⟩ | ⟨record, hrecord, -, rfl⟩) hsigner hemitted
    · rfl
    · unfold maybeSchedulePatoshiUnlock
      split_ifs with hlocked htrigger
      · rfl
      · rfl
      · simp only [Bool.or_eq_true, Bool.not_eq_true', not_or, Bool.not_eq_false,
          Bool.not_eq_true, Option.isSome_eq_false_iff, Option.isNone_iff_eq_none] at hlocked
        exact absurd ⟨hsigner, by simpa using htrigger, hemitted, record, hrecord, hlocked⟩ hnot
  cases hstep with
  | receive amount hacc hkey => exact hkey.contractData
  | register => rfl
  | accept as' tx hsigner hacc hkey hverified hguard =>
    obtain ⟨rfl, rfl, hsigner, hemitted⟩ := hcause
    obtain rfl := hnone _ _ hguard hsigner hemitted
    exact Entry.charge_contractData ..
  | drop as' tx hsigner hacc hkey hguard =>
    obtain ⟨rfl, rfl, hsigner, hemitted⟩ := hcause
    obtain rfl := hnone _ _ hguard hsigner hemitted
    rfl
  | payGas => exact Entry.charge_contractData ..
  | _ => exact hcause.elim

end Step

/-! ## One step of the chain -/

section ChainStep

variable {E : Externals} {V : ContractRunner} {s s' : ChainState E} {event : ChainEvent}
  {a : AccountId} {acc : Account} {record : PatoshiRecord}

variable {step : EntryEvent} {as : ApplyState} {tx : Transaction}

/-- The account is kept, and all it has issued is calm. -/
structure LockInv (s : ChainState E) (a : AccountId) (acc : Account) (record : PatoshiRecord) :
    Prop where
  keeps : Keeps (s.trie.entries a) acc record
  calm : ∀ receipt, s.Outstanding receipt → receipt.predecessorId = a → receipt.Calm

/-- The chunk turns an unlock trigger of the account into a receipt. -/
def UnlockAccepted (s : ChainState E) (event : ChainEvent) (a : AccountId) : Prop :=
  ∃ as txs p item p', event = .transactions as txs ∧ s.accepts as = true ∧
    (p, item) ∈ transactionTrace as s.trie txs ∧ processTransaction as p item = .ok p' ∧
    item.1.transaction.signerId = a ∧
    isPatoshiUnlockTrigger item.1.transaction.receiverId item.1.transaction.actions = true ∧
    Emitted as p' item.1.transaction

/-- The record is unchanged, or its unlock was scheduled by an accepted trigger. -/
def RecordEvolves (accepted : Prop) (epochHeight : EpochHeight) (record record' : PatoshiRecord) :
    Prop :=
  record' = record ∨ (accepted ∧ record.unlockEpoch = none ∧ record' = { record with
    unlockEpoch := some (saturatingAdd 64 epochHeight patoshiUnlockDelayEpochs) })

theorem LockInv.passive (hinv : LockInv s a acc record)
    (h : ChainCause s event s' a step) : step.Passive s.epochHeight := by
  refine h.passive fun receipt hout hreceiver hmay => ?_
  rcases hmay with hpred | ⟨hnone, -⟩
  · exact hinv.calm receipt hout (hpred.trans hreceiver)
  · simp [hinv.keeps.account_eq] at hnone

theorem ChainCause.of_accept
    (h : ChainCause s event s' a step) (hstep : step = .accept as tx ∨ step = .drop as tx) :
    ∃ as' txs p item p', event = .transactions as' txs ∧ s.accepts as' = true ∧
      (p, item) ∈ transactionTrace as' s.trie txs ∧ processTransaction as' p item = .ok p' ∧
      tx = item.1.transaction ∧ item.1.transaction.signerId = a ∧ Emitted as' p' tx := by
  unfold ChainCause at h
  split at h
  · obtain ⟨has, p, item, p', hmem, hprocess, hcause⟩ := h
    refine ⟨_, _, p, item, p', rfl, has, hmem, hprocess, ?_⟩
    rcases hstep with rfl | rfl
    · exact hcause.2
    · exact hcause.2
  · obtain ⟨-, _, r, _, -, -, -, -, -, hreceive | ⟨-, _, -, hcause⟩⟩ := h
    · rcases hstep with rfl | rfl <;> cases hreceive
    · rcases hstep with rfl | rfl <;> exact hcause.elim
  · rcases hstep with rfl | rfl <;> exact h.elim
  · exact h.elim

theorem ChainCause.unlockAccepted
    (h : ChainCause s event s' a step) (hstep : step = .accept as tx ∨ step = .drop as tx)
    (htrigger : isPatoshiUnlockTrigger tx.receiverId tx.actions = true) :
    UnlockAccepted s event a := by
  obtain ⟨as', txs, p, item, p', hevent, has, hmem, hprocess, rfl, hsigner, hemitted⟩ :=
    h.of_accept hstep
  exact ⟨as', txs, p, item, p', hevent, has, hmem, hprocess, hsigner, htrigger, hemitted⟩

theorem ChainCause.record_of_unlocked {config : StorageUsageConfig} {e e' : Entry}
    (h : ChainCause s event s' a step) (haccepted : UnlockAccepted s event a)
    (hstep : EntryStep E V config a e step e') (hrecord : e.patoshiRecord = .ok (some record))
    (hunlocked : isPatoshiLocked record s.epochHeight = false) :
    e'.patoshiRecord = .ok (some record) := by
  obtain ⟨_, _, -, -, -, rfl, has, -⟩ := haccepted
  obtain ⟨-, p, _, _, -, -, hcause⟩ := h
  refine (Entry.patoshiRecord_congr (hstep.contractData_of_tx hcause ?_)).trans hrecord
  rintro ⟨-, -, -, _, hrecord', hlocked, -⟩
  rw [hrecord] at hrecord'
  cases hrecord'
  rw [ChainState.epochHeight_of_accepts has, hunlocked] at hlocked
  cases hlocked

theorem chainStep_lock (h : chainStep E V s event = some s')
    (hdet : AccountId.isNearDeterministic a = false) (hinv : LockInv s a acc record)
    (hlocked : isPatoshiLocked record s.epochHeight = true) :
    ∃ record', RecordEvolves (UnlockAccepted s event a) s.epochHeight record record' ∧
      getPatoshiRecord s'.trie a = .ok (some record') ∧
      (isPatoshiLocked record' s.epochHeight = true → ∃ acc', LockInv s' a acc' record' ∧
        (record.genesisBalance ≤ acc.total → record.genesisBalance ≤ acc'.total)) := by
  obtain ⟨_, hconfig⟩ := event.exists_usesConfig
  obtain ⟨_, _, -, houtstanding, hev⟩ := chainStep_effect h hconfig a
  -- The invariant within the step: as long as the record is locked, everything is calm.
  obtain ⟨_, ⟨record', hevolves, hrecord, hgood⟩, -, hissued⟩ := hev.induct
    (fun past e => ∃ record',
      RecordEvolves (UnlockAccepted s event a) s.epochHeight record record' ∧
      e.patoshiRecord = .ok (some record') ∧
      (isPatoshiLocked record' s.epochHeight = true → (∀ step ∈ past, step.Calm) ∧
        ∃ acc', Keeps e acc' record' ∧
          (record.genesisBalance ≤ acc.total → record.genesisBalance ≤ acc'.total)))
    ⟨record, .inl rfl, hinv.keeps.record_eq, fun _ => ⟨by simp, acc, hinv.keeps, id⟩⟩ (by
      rintro past e₁ step e₂ hcause ⟨record', hevolves, hrecord, hgood⟩ hstep
      cases hlocked' : isPatoshiLocked record' s.epochHeight with
      | true =>
        obtain ⟨hcalm, acc', hkeeps, hfloor⟩ := hgood hlocked'
        obtain ⟨hstepCalm, acc'', record'', hkeeps'', hrstep, hfloor'⟩ :=
          hstep.keeps hdet hkeeps hlocked' (hinv.passive hcause)
        have hgenesis : record'.genesisBalance = record.genesisBalance := by
          rcases hevolves with rfl | ⟨-, -, rfl⟩ <;> rfl
        rw [hgenesis] at hfloor'
        refine ⟨record'', ?_, hkeeps''.record_eq, fun _ => ⟨?_, acc'', hkeeps'', hfloor' ∘ hfloor⟩⟩
        · cases hrstep with
          | same => exact hevolves
          | scheduled as tx hevent hnone htrigger =>
            rcases hevolves with rfl | ⟨-, -, rfl⟩
            · exact .inr ⟨hcause.unlockAccepted hevent htrigger, hnone, rfl⟩
            · simp at hnone
        · intro x hx
          rcases List.mem_append.mp hx with hold | hnew
          · exact hcalm x hold
          · exact List.mem_singleton.mp hnew ▸ hstepCalm
      | false =>
        rcases hevolves with rfl | ⟨haccepted, hnone, hrecord'⟩
        · simp [hlocked] at hlocked'
        · exact ⟨record', .inr ⟨haccepted, hnone, hrecord'⟩,
            hcause.record_of_unlocked haccepted hstep hrecord hlocked', by simp [hlocked']⟩)
  refine ⟨record', hevolves, hrecord, fun hlocked' => ?_⟩
  obtain ⟨hcalm, acc', hkeeps, hfloor⟩ := hgood hlocked'
  refine ⟨acc', ⟨hkeeps, fun receipt hout hpred => ?_⟩, hfloor⟩
  rcases houtstanding receipt hout with hold | hnew
  · exact hinv.calm receipt hold hpred
  · rcases hissued receipt hnew.1 hpred with htransfer | ⟨step, hstep, hissues⟩
    · exact htransfer.calm
    · exact (hcalm step hstep).receipt hissues

end ChainStep

end BitInfinity
