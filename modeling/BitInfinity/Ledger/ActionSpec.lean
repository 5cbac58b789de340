import BitInfinity.Ledger.EntryStep

/-!
# What successful actions do

One lemma for each action: the entry, the account and the new receipts that it leaves.
-/

namespace BitInfinity

open Foundation

section Actions

variable {E : Externals} {V : ContractRunner} {as : ApplyState} {receipt : Receipt}
  {r : ActionReceipt} {promiseResults : List (Option Bytes)} {st st' : ActionState}
  {result next : ActionResult} {acc acc' : Account} {e e' : Entry} {id : AccountId}

/-! ## Contracts -/

variable {globals : Globals} {config : StorageUsageConfig} {deposit : Balance}
  {publicKey : PublicKey}

variable {code : Bytes} {identifier : GlobalContractIdentifier}

theorem actionDeployContract_eq_ok (h : actionDeployContract E e acc id code = .ok (e', acc')) :
    ∃ hash, e' = e.setContractCode (some code) ∧ acc' = { acc with
        contract := .localCode hash
        storageUsage := acc.storageUsage - contractStorageUsage e acc + code.length } := by
  obtain ⟨_, husage, h⟩ := bind_eq_ok.mp h
  obtain ⟨-, rfl⟩ := checkedAdd_eq_some.mp (okOr_eq_ok.mp husage)
  cases h
  exact ⟨_, rfl, rfl⟩

theorem contractStorageUsage_ofIdentifier
    (h : acc.contract = .ofIdentifier identifier) :
    contractStorageUsage e acc = identifier.len := by
  unfold contractStorageUsage
  rw [h]
  cases identifier <;> rfl

theorem useGlobalContract_eq_ok
    (h : useGlobalContract globals e acc id identifier = .ok (some (e', acc'))) :
    ∃ code, e' = e.setContractCode code ∧ acc' = { acc with
        contract := .ofIdentifier identifier
        storageUsage := acc.storageUsage - contractStorageUsage e acc + identifier.len } := by
  unfold useGlobalContract at h
  split at h
  · cases h
  · obtain ⟨_, husage, h⟩ := bind_eq_ok.mp h
    obtain ⟨-, rfl⟩ := checkedAdd_eq_some.mp (okOr_eq_ok.mp husage)
    cases h
    refine ⟨if acc.contract.isLocal then none else e.contractCode, ?_, rfl⟩
    split <;> rfl

theorem AccountContract.ofIdentifier_ne_none (identifier : GlobalContractIdentifier) :
    AccountContract.ofIdentifier identifier ≠ .none := by
  cases identifier <;> simp [AccountContract.ofIdentifier]

theorem actionDeployGlobalContract_eq_ok {globals' : Globals} {mode : GlobalContractDeployMode}
    (h : actionDeployGlobalContract E as globals acc result id code mode =
      .ok (next, globals', acc')) (hok : next.isOk = true) :
    ∃ amount, acc' = { acc with amount } ∧ ∃ distribution, next.newReceipts = result.newReceipts ++
        [.newGlobalContractDistribution id distribution] := by
  unfold actionDeployGlobalContract at h
  dsimp only at h
  split at h
  · cases h
    simp at hok
  · obtain ⟨_, -, h⟩ := bind_eq_ok.mp h
    obtain ⟨⟨_, _⟩, hinit, h⟩ := bind_eq_ok.mp h
    cases h
    refine ⟨_, rfl, ?_⟩
    unfold initiateDistribution at hinit
    split at hinit
    · obtain ⟨_, -, hinit⟩ := bind_eq_ok.mp hinit
      cases hinit
      exact ⟨_, rfl⟩
    · cases hinit
      exact ⟨_, rfl⟩

theorem applyWrites_eq (e : Entry) (writes : List (Bytes × Option Bytes)) :
    applyWrites e writes = { e with contractData := (applyWrites e writes).contractData } := by
  induction writes generalizing e with
  | nil => rfl
  | cons write writes ih => exact ih (e.setContractData write.1 write.2)

theorem applyWrites_setAccount (e : Entry) (account : Option Account)
    (writes : List (Bytes × Option Bytes)) :
    applyWrites (e.setAccount account) writes = (applyWrites e writes).setAccount account := by
  induction writes generalizing e with
  | nil => rfl
  | cons write writes ih => exact ih (e.setContractData write.1 write.2)

theorem writeStateInitData_eq_ok {usage usage' : StorageUsage} {data : List (Bytes × Bytes)}
    (h : writeStateInitData config e usage data = .ok (e', usage')) :
    e' = { e with contractData := e'.contractData } ∧
      ∀ base, DataCovered config e.contractData base usage →
        DataCovered config e'.contractData base usage' := by
  unfold writeStateInitData at h
  induction data generalizing e usage with
  | nil =>
    cases h
    exact ⟨rfl, fun _ => id⟩
  | cons item data ih =>
    obtain ⟨⟨_, _⟩, hstep, hrest⟩ := foldlM_cons_eq_ok.mp h
    obtain ⟨_, hbytes, hstep⟩ := bind_eq_ok.mp hstep
    obtain ⟨_, hsum, hstep⟩ := bind_eq_ok.mp hstep
    obtain ⟨-, rfl⟩ := checkedAdd_eq_some.mp (okOr_eq_ok.mp hbytes)
    obtain ⟨-, rfl⟩ := checkedAdd_eq_some.mp (okOr_eq_ok.mp hsum)
    cases hstep
    obtain ⟨hentry, hcovered⟩ := ih hrest
    exact ⟨hentry, fun base h => hcovered base (h.write (Nat.le_add_right _ _))⟩

theorem deployDeterministicAccount_eq_ok
    {init : DeterministicAccountStateInit} (hnone : acc.contract = .none)
    (h : deployDeterministicAccount config globals e acc id init = .ok (some (e', acc'))) :
    ∃ code data usage, e' = { e with contractData := data, contractCode := code } ∧
      acc' = { acc with
        contract := .ofIdentifier init.code, storageUsage := usage } ∧
      ∀ base, DataCovered config e.contractData base acc.storageUsage →
        DataCovered config data (base + init.code.len) usage := by
  obtain ⟨used, hused, h⟩ := bind_eq_ok.mp h
  cases used with
  | none => cases h
  | some pair =>
    obtain ⟨_, _⟩ := pair
    obtain ⟨code, rfl, rfl⟩ := useGlobalContract_eq_ok hused
    obtain ⟨⟨_, usage⟩, hwrite, h⟩ := bind_eq_ok.mp h
    obtain ⟨hentry, hcovered⟩ := writeStateInitData_eq_ok hwrite
    cases h
    rw [contractStorageUsage, hnone, Nat.sub_zero] at hcovered
    exact ⟨code, e'.contractData, usage, hentry, rfl, fun base h =>
      hcovered _ (h.add init.code.len)⟩

theorem useDepositForStorage_eq_ok {config : RuntimeConfig} {refund : Balance}
    (h : useDepositForStorage config acc deposit = .ok (.ok (acc', refund))) :
    ∃ amount, acc' = { acc with amount } ∧ acc.amount ≤ amount := by
  unfold useDepositForStorage at h
  split at h
  · cases h
    exact ⟨_, rfl, le_rfl⟩
  · split at h
    · obtain ⟨amount, hamount, h⟩ := bind_eq_ok.mp h
      obtain ⟨-, rfl⟩ := checkedAdd_eq_some.mp (okOr_eq_ok.mp hamount)
      cases h
      exact ⟨_, rfl, Nat.le_add_right _ _⟩
    · cases h
  · cases h

theorem actionFunctionCall_eq_ok {call : FunctionCallAction} {index : Nat}
    (h : actionFunctionCall V as receipt r promiseResults st acc result call index =
      .ok (next, st')) (hok : next.isOk = true) :
    acc.contract ≠ .none ∧ ∃ outcome : VMOutcome,
      V { receipt, actionReceipt := r, account := acc, state := st, call, actionIndex := index,
          promiseResults, applyState := as } = .ok outcome ∧ outcome.aborted = none ∧
      st' = { st with
        entry := applyWrites st.entry outcome.writes
        yieldStatus := outcome.yieldStatus
        account := some { acc with
          amount := outcome.balance, storageUsage := outcome.storageUsage } } ∧
      next.newReceipts = result.newReceipts ++
        outcome.actionReceipts.map (PromiseReceipt.toReceipt receipt.receiverId r) ++
        outcome.dataReceipts.map (PromiseData.toReceipt receipt.receiverId) := by
  simp only [actionFunctionCall, bind_eq_ok] at h
  obtain ⟨_, -, outcome, hrun, _, -, _, -, _, -, h⟩ := h
  cases haborted : outcome.aborted with
  | some error =>
    simp only [haborted] at h
    cases h
    simp at hok
  | none =>
    simp only [haborted] at h
    cases h
    unfold executeFunctionCall at hrun
    split at hrun
    · -- Without a contract the call is aborted before it starts.
      cases hrun
      simp [VMOutcome.nop] at haborted
    · next hcontract => exact ⟨hcontract, outcome, hrun, haborted, rfl, rfl⟩

/-! ## Stake -/

theorem actionStake_eq_ok {stake : Balance}
    (h : actionStake as acc result id stake publicKey = (next, acc')) (hok : next.isOk = true) :
    ∃ amount locked, acc' = { acc with amount, locked } ∧ amount + locked = acc.total ∧
      next.newReceipts = result.newReceipts := by
  unfold actionStake at h
  dsimp only at h
  split at h
  · rename_i newBalance hsub
    obtain ⟨_, rfl⟩ := checkedSub_eq_some.mp hsub
    split_ifs at h with hunstake hminimum hincrease
    · cases h
      simp at hok
    · cases h
      simp at hok
    · cases h
      refine ⟨_, _, rfl, ?_, rfl⟩
      unfold Account.total Balance at *
      omega
    · cases h
      exact ⟨acc.amount, acc.locked, rfl, rfl, rfl⟩
  · cases h
    simp at hok

/-! ## Keys -/

theorem setGasKeyNonces_setAccount (e : Entry) (publicKey : PublicKey) (count : Nat)
    (nonce : Option Nonce) (account account' : Option Account) :
    (setGasKeyNonces e publicKey count nonce).setAccount account =
      (setGasKeyNonces (e.setAccount account') publicKey count nonce).setAccount account := by
  unfold setGasKeyNonces
  induction List.range count generalizing e with
  | nil => rfl
  | cons i indices ih => exact ih (e.setGasKeyNonce publicKey i nonce)

theorem Entry.TouchesKey.setAccount (h : e.TouchesKey e') (account : Option Account) :
    (e.setAccount account).TouchesKey (e'.setAccount account) := by
  cases h with
  | refl => exact .refl
  | update key' hkey hshape hnonce => exact .update key' hkey hshape hnonce

theorem tryRefundGasKeyBalance_eq_ok
    (h : tryRefundGasKeyBalance e id publicKey deposit = .ok (some e')) : e.TouchesKey e' := by
  unfold tryRefundGasKeyBalance at h
  split at h
  · cases h
  · rename_i key hkey
    split at h
    · cases h
    · obtain ⟨balance, -, h⟩ := bind_eq_ok.mp h
      cases h
      exact .update _ hkey (key.sameShape_setGasKeyBalance balance) le_rfl

theorem tryRefundAllowance_touches (e : Entry) (publicKey : PublicKey) (deposit : Balance) :
    e.TouchesKey (tryRefundAllowance e publicKey deposit) := by
  unfold tryRefundAllowance
  split
  · rename_i nonce permission hkey
    split
    · rename_i allowance hallowance
      dsimp only
      split
      · have hshape := @AccessKey.sameShape_setAllowance ⟨nonce, .functionCall permission⟩ _
          hallowance nonce
        exact .update _ hkey (hshape _) le_rfl
      · exact .refl
    · exact .refl
  · exact .refl

theorem actionTransferToGasKey_eq_ok
    (h : actionTransferToGasKey id e result publicKey deposit = .ok (next, e'))
    (hok : next.isOk = true) : e.TouchesKey e' ∧ next = result := by
  unfold actionTransferToGasKey at h
  split at h
  · cases h
    simp at hok
  · rename_i key hkey
    split at h
    · cases h
      simp at hok
    · obtain ⟨balance, -, h⟩ := bind_eq_ok.mp h
      cases h
      exact ⟨.update _ hkey (key.sameShape_setGasKeyBalance balance) le_rfl, rfl⟩

theorem actionWithdrawFromGasKey_eq_ok {amount : Balance}
    (h : actionWithdrawFromGasKey id e acc result publicKey amount = .ok (next, e', acc'))
    (hok : next.isOk = true) :
    e.TouchesKey e' ∧ next = result ∧ acc' = { acc with amount := acc.amount + amount } := by
  unfold actionWithdrawFromGasKey at h
  split at h
  · cases h
    simp at hok
  · rename_i key hkey
    split at h
    · cases h
      simp at hok
    · split at h
      · cases h
        simp at hok
      · obtain ⟨_, hadd, h⟩ := bind_eq_ok.mp h
        obtain ⟨-, rfl⟩ := checkedAdd_eq_some.mp (okOr_eq_ok.mp hadd)
        cases h
        exact ⟨.update _ hkey (key.sameShape_setGasKeyBalance _) le_rfl, rfl, rfl⟩

theorem addKeyStorage_eq_ok {cost : StorageUsage} (h : addKeyStorage id acc cost = .ok acc') :
    acc' = { acc with storageUsage := acc.storageUsage + cost } := by
  obtain ⟨_, husage, h⟩ := bind_eq_ok.mp h
  obtain ⟨-, rfl⟩ := checkedAdd_eq_some.mp (okOr_eq_ok.mp husage)
  cases h
  rfl

theorem actionAddKey_eq_ok {key : AccessKey} {height : BlockHeight}
    (h : actionAddKey config id e acc result publicKey key height = .ok (next, e', acc'))
    (hok : next.isOk = true) : e.getAccessKey publicKey = none ∧ next = result ∧
    acc' = { acc with
      storageUsage := acc.storageUsage + keyStorageCost config publicKey key } ∧
    ((key.gasKeyInfo = none ∧
        e' = e.setAccessKey publicKey (key.setNonce (initialNonceValue height))) ∨
      ∃ info, key.gasKeyInfo = some info ∧
        e' = setGasKeyNonces (e.setAccessKey publicKey (key.setNonce 0)) publicKey
          info.numNonces (some (initialNonceValue height))) := by
  unfold actionAddKey at h
  split at h
  · cases h
    simp at hok
  · rename_i habsent
    obtain ⟨_, hadded, h⟩ := bind_eq_ok.mp h
    cases h
    refine ⟨by simpa using habsent, rfl, ?_⟩
    unfold addNewKey at hadded
    unfold keyStorageCost
    split at hadded
    · rename_i info hinfo
      obtain ⟨acc₁, hstorage, hadded⟩ := bind_eq_ok.mp hadded
      cases hadded
      exact ⟨addKeyStorage_eq_ok hstorage, .inr ⟨info, hinfo, rfl⟩⟩
    · rename_i hinfo
      obtain ⟨acc₁, hstorage, hadded⟩ := bind_eq_ok.mp hadded
      cases hadded
      exact ⟨addKeyStorage_eq_ok hstorage, .inl ⟨hinfo, rfl⟩⟩

theorem actionDeleteKey_eq_ok
    (h : actionDeleteKey config id e acc result publicKey = .ok (next, e', acc'))
    (hok : next.isOk = true) :
    ∃ key, e.getAccessKey publicKey = some key ∧ next.newReceipts = result.newReceipts ∧
    acc' = { acc with
      storageUsage := acc.storageUsage - keyStorageCost config publicKey key } ∧
    ((key.gasKeyInfo = none ∧ e' = e.removeAccessKey publicKey) ∨
      ∃ info, key.gasKeyInfo = some info ∧
        e' = (setGasKeyNonces e publicKey info.numNonces none).removeAccessKey publicKey) := by
  unfold actionDeleteKey at h
  split at h
  · rename_i key hkey
    refine ⟨key, hkey, ?_⟩
    unfold keyStorageCost
    split at h
    · rename_i info hinfo
      unfold deleteGasKey at h
      split at h
      · cases h
        simp at hok
      · obtain ⟨_, -, h⟩ := bind_eq_ok.mp h
        cases h
        exact ⟨rfl, rfl, .inr ⟨info, hinfo, rfl⟩⟩
    · rename_i hinfo
      cases h
      exact ⟨rfl, rfl, .inl ⟨hinfo, rfl⟩⟩
  · cases h
    simp at hok

theorem applyDelegateAction_eq_ok {signed : SignedDelegateAction}
    (h : applyDelegateAction E as r e id signed result = .ok (next, e')) (hok : next.isOk = true) :
    ∃ record key, e.patoshiRecord = .ok record ∧
      record.any (isPatoshiLocked · as.epochHeight) = false ∧
      e.getAccessKey signed.delegateAction.publicKey = some key ∧
      key.nonce < signed.delegateAction.nonce ∧
      e' = e.setAccessKey signed.delegateAction.publicKey
        (key.setNonce signed.delegateAction.nonce) ∧
      next.newReceipts = result.newReceipts ++ [delegateReceipt r id signed.delegateAction] := by
  obtain ⟨record, hrecord, h⟩ := bind_eq_ok.mp h
  split at h
  · cases h
    simp at hok
  · rename_i hunlocked
    split at h
    · cases h
      simp at hok
    · rename_i e₁ hcheck
      simp only [bind_eq_ok] at h
      obtain ⟨_, -, _, -, _, -, _, -, _, -, ⟨⟩⟩ := h
      simp only [checkDelegateAction, validateDelegateActionKey, bind_eq_ok] at hcheck
      obtain ⟨_, -, _, -, _, -, key, hkey, _, hnonce, _, -, _, -, ⟨⟩⟩ := hcheck
      exact ⟨record, key, mapError_eq_ok.mp hrecord, by simpa using hunlocked,
        okOr_eq_ok.mp hkey, by simpa using hnonce, rfl, rfl⟩

end Actions

end BitInfinity
