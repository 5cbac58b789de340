import BitInfinity.Patoshi.Floor

/-!
# The unlock as a state machine

From genesis on the record of a locked account changes at most once: an accepted unlock trigger
schedules the unlock fourteen epochs ahead, and until then the account stays locked.
-/

namespace BitInfinity

open Foundation

section Machine

variable {E : Externals} {V : ContractRunner} {s s₁ s₂ s' : ChainState E} {event : ChainEvent}
  {events events₁ events₂ : List ChainEvent} {a : AccountId} {acc : Account}
  {record record₁ : PatoshiRecord}

structure LockedGenesis (s : ChainState E) (a : AccountId) (record : PatoshiRecord) : Prop where
  record_eq : getPatoshiRecord s.trie a = .ok (some record)
  isLocked : record.isLocked = true
  unlockEpoch : record.unlockEpoch = none
  account : ∃ acc, s.trie.getAccount a = some acc ∧ acc.contract = .none
  noReceipts : ∀ receipt, s.Outstanding receipt → receipt.predecessorId ≠ a

/-- A step from a state in which the account is locked, at an epoch that leaves room for the
delay. -/
def LockedStep (E : Externals) (V : ContractRunner) (a : AccountId) (s : ChainState E)
    (event : ChainEvent) (s' : ChainState E) : Prop :=
  chainStep E V s event = some s' ∧ s.IsLocked a ∧ s.epochHeight < 2 ^ 64 - 14

/-- The record after a run is the one before it, or had its unlock scheduled on the way. -/
def UnlockTransition (E : Externals) (V : ContractRunner) (a : AccountId) (s : ChainState E)
    (events : List ChainEvent) (s' : ChainState E) (record record' : PatoshiRecord) : Prop :=
  record' = record ∨ (record.unlockEpoch = none ∧ ∃ x event y,
    RunMakes (LockedStep E V a) s events s' x event y ∧ UnlockAccepted x event a ∧
    record' = record.scheduledAt x.epochHeight)

theorem isPatoshiLocked_scheduledAt (h : record.isLocked = true) (epoch : EpochHeight) :
    isPatoshiLocked (record.scheduledAt epoch) epoch = true := by
  simp [isPatoshiLocked, PatoshiRecord.scheduledAt, h, patoshiUnlockDelayEpochs]

theorem lockedStep_record (h : LockedStep E V a s event s')
    (hdet : AccountId.isNearDeterministic a = false) (hinv : LockInv s a acc record) :
    ∃ acc' record', LockInv s' a acc' record' ∧ (record' = record ∨
      (record.unlockEpoch = none ∧ UnlockAccepted s event a ∧
        record' = record.scheduledAt s.epochHeight)) := by
  obtain ⟨hstep, ⟨stored, hstored, hlocked⟩, _⟩ := h
  obtain rfl : stored = record := by
    have hrecord : getPatoshiRecord s.trie a = .ok (some record) := hinv.keeps.record_eq
    rw [hstored] at hrecord
    cases hrecord
    rfl
  obtain ⟨record', hevolves, -, hgood⟩ := chainStep_lock hstep hdet hinv hlocked
  have hscheduled : saturatingAdd 64 s.epochHeight patoshiUnlockDelayEpochs =
      s.epochHeight + patoshiUnlockDelayEpochs := by
    apply saturatingAdd_eq
    unfold EpochHeight patoshiUnlockDelayEpochs at *
    omega
  rcases hevolves with rfl | ⟨haccepted, hnone, hrecord'⟩
  · obtain ⟨acc', hinv', -⟩ := hgood hlocked
    exact ⟨acc', record', hinv', .inl rfl⟩
  · rw [hscheduled] at hrecord'
    subst hrecord'
    have hisLocked : stored.isLocked = true := by
      simp only [isPatoshiLocked, Bool.and_eq_true] at hlocked
      exact hlocked.1
    obtain ⟨acc', hinv', -⟩ := hgood (isPatoshiLocked_scheduledAt hisLocked s.epochHeight)
    exact ⟨acc', _, hinv', .inr ⟨hnone, haccepted, rfl⟩⟩

theorem lockedRun_record (hrun : Run (LockedStep E V a) s events s')
    (hdet : AccountId.isNearDeterministic a = false) (hinv : LockInv s a acc record) :
    ∃ acc' record', LockInv s' a acc' record' ∧
      UnlockTransition E V a s events s' record record' := by
  refine Run.invariant (fun past x => ∃ acc' record', LockInv x a acc' record' ∧
    UnlockTransition E V a s past x record record') hrun ⟨acc, record, hinv, .inl rfl⟩ ?_
  rintro past x event y hpast ⟨acc₁, record₁, hinv₁, htransition⟩ hstep
  obtain ⟨acc₂, record₂, hinv₂, hrecord⟩ := lockedStep_record hstep hdet hinv₁
  refine ⟨acc₂, record₂, hinv₂, ?_⟩
  rcases htransition with rfl | ⟨hnone, u, event', v, hmakes, haccepted, rfl⟩
  · rcases hrecord with rfl | ⟨hnone, haccepted, rfl⟩
    · exact .inl rfl
    · exact .inr ⟨hnone, x, event, y, .last hpast hstep, haccepted, rfl⟩
  · -- The unlock has been scheduled, so it cannot be scheduled again.
    rcases hrecord with rfl | ⟨hnone', -, -⟩
    · exact .inr ⟨hnone, u, event', v, hmakes.snoc hstep, haccepted, rfl⟩
    · simp [PatoshiRecord.scheduledAt] at hnone'

theorem UnlockTransition.fields {record' : PatoshiRecord}
    (h : UnlockTransition E V a s events s' record record') :
    record'.genesisBalance = record.genesisBalance ∧ record'.isLocked = record.isLocked := by
  rcases h with rfl | ⟨-, x, event, y, -, -, rfl⟩
  · exact ⟨rfl, rfl⟩
  · exact ⟨rfl, rfl⟩

/-- Between any two states of a run from genesis the record makes at most one transition, which
an accepted trigger causes; its other fields never change, and it is locked at every epoch
before the scheduled one. -/
theorem unlock_state_machine (hgenesis : LockedGenesis s a record)
    (hdet : AccountId.isNearDeterministic a = false) (hrun₁ : Run (LockedStep E V a) s events₁ s₁)
    (hrun₂ : Run (LockedStep E V a) s₁ events₂ s₂) :
    ∃ record₁ record₂, getPatoshiRecord s₁.trie a = .ok (some record₁) ∧
      getPatoshiRecord s₂.trie a = .ok (some record₂) ∧
      UnlockTransition E V a s events₁ s₁ record record₁ ∧
      UnlockTransition E V a s₁ events₂ s₂ record₁ record₂ ∧
      record₂.genesisBalance = record.genesisBalance ∧ record₂.isLocked = true ∧
      ∀ epoch, (∀ unlock, record₂.unlockEpoch = some unlock → epoch < unlock) →
        isPatoshiLocked record₂ epoch = true := by
  obtain ⟨acc, hacc, hcontract⟩ := hgenesis.account
  have hinv : LockInv s a acc record := ⟨⟨hacc, hcontract, hgenesis.record_eq⟩,
    fun receipt hout hpred => absurd hpred (hgenesis.noReceipts receipt hout)⟩
  obtain ⟨_, record₁, hinv₁, htransition₁⟩ := lockedRun_record hrun₁ hdet hinv
  obtain ⟨_, record₂, hinv₂, htransition₂⟩ := lockedRun_record hrun₂ hdet hinv₁
  have hlocked : record₂.isLocked = true := by
    rw [htransition₂.fields.2, htransition₁.fields.2, hgenesis.isLocked]
  refine ⟨record₁, record₂, hinv₁.keeps.record_eq, hinv₂.keeps.record_eq, htransition₁,
    htransition₂, htransition₂.fields.1.trans htransition₁.fields.1, hlocked, ?_⟩
  intro epoch hepoch
  unfold isPatoshiLocked
  cases hunlock : record₂.unlockEpoch with
  | none => simp [hlocked]
  | some unlock => simpa [hlocked] using hepoch unlock hunlock

end Machine

/-! ## The trigger, and a record rewritten by a state init -/

theorem soleAccountTrie_genesis {id : AccountId} {acc : Account} {globals : Globals}
    {pending : List Receipt} (hcontract : acc.contract = .none)
    (hfloor : sampleRecord.genesisBalance ≤ acc.total)
    (hpending : ∀ receipt ∈ pending, receipt.predecessorId ≠ id) :
    LockedGenesis (.sample { soleAccountTrie id acc with globals } pending) id
      sampleRecord := by
  have hclean := @soleAccountTrie_clean id acc globals pending hcontract hfloor hpending id
    sampleRecord soleAccountTrie_lockedAt
  obtain ⟨acc', hacc, hcontract', -⟩ := hclean.floor
  exact ⟨soleAccountTrie_record id acc, rfl, rfl, ⟨acc', hacc, hcontract'⟩, hclean.noReceipts⟩

/-- The accepted trigger moves the record from no unlock to an unlock at epoch fourteen. -/
theorem unlock_state_machine_trigger :
    ∃ s' record', chainStep .sample .sample
        (.sample (samplePatoshiTrie 1004) [])
        (.transactions (.sample 5 0) [(sampleUnlock, true)]) = some s' ∧
      getPatoshiRecord s'.trie sampleAddress = .ok (some record') ∧
      record'.unlockEpoch = some 14 ∧ record'.isLocked = true := by
  obtain ⟨s', hstep, hs'⟩ := sampleUnlock_observed
  have hafter := (lockedAt_of_observe hs' (by decide)).1
  obtain ⟨_, record₂, -, hrecord₂, -, -, -, hlocked, -⟩ := unlock_state_machine
    (soleAccountTrie_genesis rfl (by decide) (by simp)) (by decide +kernel) .refl
    (.single ⟨hstep, ⟨_, soleAccountTrie_lockedAt⟩, by decide⟩)
  obtain rfl : sampleRecord.scheduledAt 0 = record₂ := by
    rw [hafter] at hrecord₂
    cases hrecord₂
    rfl
  exact ⟨s', _, hstep, hafter, rfl, hlocked⟩

/-- The state init of a deterministic id writes any contract data, the record included. -/
def sampleRewriteInit : DeterministicAccountStateInit :=
  ⟨.codeHash [1], [(patoshiRecordDataKey, PatoshiRecord.encode ⟨0, true, none⟩)]⟩

/-- A stranger replaces the genesis balance of a locked account. -/
theorem unlock_record_rewritten : LockedGenesis (sampleDeterministicState sampleRewriteInit)
      (sampleDeterministicId sampleRewriteInit) sampleRecord ∧
    ∃ s', Run (LockedStep .sample .sample
          (sampleDeterministicId sampleRewriteInit)) (sampleDeterministicState sampleRewriteInit)
        [.receipt (.sample 5 0) (sampleStateInitReceipt sampleRewriteInit)] s' ∧
      ∃ record', getPatoshiRecord s'.trie (sampleDeterministicId sampleRewriteInit) =
          .ok (some record') ∧ record'.genesisBalance ≠ sampleRecord.genesisBalance := by
  have hpending : ∀ receipt ∈ [sampleStateInitReceipt sampleRewriteInit],
      receipt.predecessorId ≠ sampleDeterministicId sampleRewriteInit := by decide +kernel
  have hobserve : (chainStep .sample .sample
      (sampleDeterministicState sampleRewriteInit)
      (.receipt (.sample 5 0) (sampleStateInitReceipt sampleRewriteInit))).map
        (observeAccount · (sampleDeterministicId sampleRewriteInit)) =
      some (some ⟨1000, 0, .globalCode [1], 212⟩, some (some ⟨0, true, none⟩), 0) := by
    decide +kernel
  obtain ⟨s', hstep, hs'⟩ := Option.map_eq_some_iff.mp hobserve
  exact ⟨soleAccountTrie_genesis rfl (by decide) hpending, s',
    .single ⟨hstep, ⟨_, soleAccountTrie_lockedAt⟩, by decide⟩, _,
    (lockedAt_of_observe hs' (by decide)).1, by decide⟩

end BitInfinity
