import BitInfinity.Ledger.ActionSpec
import BitInfinity.Ledger.Evolution

/-!
# Actions and the life of their receiver

Every action that succeeds is one step in the life of the receiver of its receipt.
-/

namespace BitInfinity

open Foundation

def ActsForSelf (receipt : Receipt) (st : ActionState) : Prop := st.actorId = receipt.receiverId

/-- The steps of the receiver that an action can cause; `acts` says that the actor is the
receiver. -/
def ActionCause (as : ApplyState) (acts : Prop) (action : Action) : EntryEvent → Prop
  | .receive => True
  | .create => True
  | .createWithKey => True
  | .createWithCode => True
  | .call => ∃ call, action = .basic (.functionCall call)
  | .stateInit => True
  | .delegate epochHeight actions => epochHeight = as.epochHeight ∧
      ∃ signed, action = .delegate signed ∧ actions = signed.delegateAction.actions.map .basic
  | .restake => ∃ stake publicKey, action = .basic (.stake stake publicKey)
  | .setContract => acts ∧ ((∃ code, action = .basic (.deployContract code)) ∨
        ∃ id, action = .basic (.useGlobalContract id))
  | .addKey publicKey nonce => acts ∧
      nonce = initialNonceValue as.blockHeight ∧ ∃ key, action = .basic (.addKey publicKey key)
  | .addGasKey publicKey nonce => acts ∧
      nonce = initialNonceValue as.blockHeight ∧ ∃ key, action = .basic (.addKey publicKey key)
  | .deleteKey publicKey => acts ∧ action = .basic (.deleteKey publicKey)
  | .burn => acts ∧ ∃ code mode, action = .basic (.deployGlobalContract code mode)
  | .delete => acts ∧ ∃ beneficiaryId, action = .basic (.deleteAccount beneficiaryId)
  | _ => False

/-- The receipt is a transfer, or the account `a` issues it in a step of this kind. -/
def Issued (a : AccountId) (event : EntryEvent) (receipt : Receipt) : Prop :=
  receipt.IsTransfer ∨ receipt.predecessorId = a ∧ event.Issues receipt

/-- How an action may change the actor of its receipt. -/
inductive ActorStep (E : Externals) (receipt : Receipt) (r : ActionReceipt) (st : ActionState) :
    ActionState → Prop
  | same {st'} (hactor : st'.actorId = st.actorId)
      (haccount : st'.account ≠ none) : ActorStep E receipt r st st'
  /-- A Bitcoin account is created by the only action of a receipt. -/
  | created {st'} (hnone : st.account = none) (haccount : st'.account ≠ none)
      (hsole : isBitcoinAddress E.toCrypto receipt.receiverId = true → r.actions.length = 1) :
      ActorStep E receipt r st st'
  | deleted {st'} (hself : ActsForSelf receipt st)
      (hentry : st'.entry = .empty) (hactor : st'.actorId = receipt.predecessorId) :
      ActorStep E receipt r st st'

/-- The effect of an action that succeeded: one step of the receiver. -/
structure ActionEffect (E : Externals) (V : ContractRunner) (as : ApplyState)
    (receipt : Receipt) (r : ActionReceipt) (st : ActionState) (action : Action)
    (result next : ActionResult) (st' : ActionState) (event : EntryEvent) : Prop where
  step : EntryStep E V as.config.storageUsageConfig receipt.receiverId st.view event st'.view
  cause : ActionCause as (ActsForSelf receipt st) action event
  issues : ∀ new ∈ next.newReceipts, new ∈ result.newReceipts ∨ Issued receipt.receiverId event new
  actor : ActorStep E receipt r st st'

section Effects

variable {E : Externals} {V : ContractRunner} {as : ApplyState} {receipt : Receipt}
  {r : ActionReceipt} {promiseResults : List (Option Bytes)} {st st' : ActionState}
  {result next : ActionResult} {acc : Account}

variable {deposit : Balance} {publicKey : PublicKey}

variable {index : Nat} {acc' : Account} {changed : Entry × Account} {action : Action}

theorem withAccount_eq_ok {α : Type} {f : Account → Except RuntimeError α} {x : α} :
    withAccount st f = .ok x ↔ ∃ account, st.account = some account ∧ f account = .ok x := by
  unfold withAccount
  cases st.account <;> simp

theorem Receipt.isTransfer_newRefund (receiverId : AccountId) (refund : Balance)
    (signerId : AccountId) (publicKey : PublicKey) :
    (Receipt.newRefund receiverId refund signerId publicKey).IsTransfer := by
  intro actions hactions
  cases hactions
  exact ⟨refund, rfl⟩

/-! ## Creation -/

theorem createAccount_effect
    (hcheck : checkAction E as receipt r st (.basic .createAccount) = .ok ())
    (h : actionCreateAccount as.config st result receipt.receiverId receipt.predecessorId =
      (next, st')) (hok : next.isOk = true) :
    ActionEffect E V as receipt r st (.basic .createAccount) result next st' .create := by
  obtain ⟨_, hexists, -⟩ := bind_eq_ok.mp hcheck
  obtain ⟨_, hnone, himplicit⟩ := bind_eq_ok.mp hexists
  have hnone : st.account = none := by simpa using hnone
  have hcreated : (next, st') = (result, { st with
      actorId := receipt.receiverId, account := some (newAccount as.config 0) }) := by
    rw [← h]
    unfold actionCreateAccount at h ⊢
    split_ifs at h ⊢
    · cases h
      simp at hok
    · rfl
    · cases h
      simp at hok
    · rfl
  cases hcreated
  refine ⟨.create 0 hnone, trivial, fun new hnew => .inl hnew, .created hnone (by simp) ?_⟩
  -- Bitcoin accounts are implicit ones, which this action does not create.
  intro hbtc
  have htype := isBitcoinAddress_iff.mp hbtc
  simp [accountIsImplicit, htype] at himplicit

theorem implicitAccountCreation_effect (hnone : st.account = none)
    (hsole : isBitcoinAddress E.toCrypto receipt.receiverId = true → r.actions.length = 1)
    (h : actionImplicitAccountCreationTransfer E as st receipt.receiverId deposit = .ok st') :
    ∃ event, ActionEffect E V as receipt r st (.basic (.transfer deposit)) result result st'
      event := by
  have hissues : ∀ event : EntryEvent, ∀ new ∈ result.newReceipts,
      new ∈ result.newReceipts ∨ Issued receipt.receiverId event new := fun _ _ => .inl
  unfold actionImplicitAccountCreationTransfer at h
  cases htype : AccountId.getAccountType E.toCrypto receipt.receiverId with
  | nearImplicitAccount =>
    simp only [htype] at h
    cases h
    have hstep := @EntryStep.createWithKey E V as.config.storageUsageConfig receipt.receiverId
      st.view deposit (E.publicKeyFromNearImplicitAccount receipt.receiverId)
      (initialNonceValue as.blockHeight) hnone htype
    refine ⟨.createWithKey, ?_, trivial, hissues _, .created hnone (by simp) hsole⟩
    convert hstep using 1
    simp [ActionState.view, newAccount, keyStorageCost, accessKeyStorageUsage,
      AccessKey.fullAccess, AccessKey.gasKeyInfo, Entry.setAccessKey, Entry.setAccount,
      AccessKey.setNonce, AccessKey.borshLen, Nat.add_assoc]
  | ethImplicitAccount =>
    simp only [htype] at h
    cases h
    exact ⟨.createWithCode, .createWithCode deposit _ _ E.walletContractMagicBytes hnone htype
      (Nat.le_add_right _ _), trivial, hissues _,
      .created hnone (by simp) hsole⟩
  | nearDeterministicAccount | btcImplicitAccount =>
    simp only [htype] at h
    cases h
    exact ⟨.create, .create deposit hnone, trivial, hissues _, .created hnone (by simp) hsole⟩
  | namedAccount =>
    simp only [htype] at h
    cases h

theorem length_eq_one_of_eligible (h : implicitAccountCreationEligible E as receipt r = true)
    (hbtc : isBitcoinAddress E.toCrypto receipt.receiverId = true) : r.actions.length = 1 := by
  have htype := isBitcoinAddress_iff.mp hbtc
  simp only [implicitAccountCreationEligible, htype, Bool.and_eq_true, Bool.or_eq_true] at h
  rcases h.2 with hlength | ⟨-, hdet⟩
  · simpa using hlength
  · simp at hdet

/-! ## Transfers -/

theorem transfer_effect
    (hcheck : checkAction E as receipt r st (.basic (.transfer deposit)) = .ok ())
    (h : actionTransferOrImplicitAccountCreation E as receipt r st deposit
      (AccountId.isSystem receipt.predecessorId) = .ok st') :
    ∃ event, ActionEffect E V as receipt r st (.basic (.transfer deposit)) result result st'
      event := by
  unfold actionTransferOrImplicitAccountCreation at h
  split at h
  · rename_i acc hacc
    have hissues : ∀ new ∈ result.newReceipts,
      new ∈ result.newReceipts ∨ Issued receipt.receiverId .receive new :=
      fun _ => .inl
    obtain ⟨refunded, hrefund, h⟩ := bind_eq_ok.mp h
    cases refunded with
    | some entry =>
      cases h
      have htouch : st.entry.TouchesKey entry := by
        unfold refundGasKey at hrefund
        split at hrefund
        · exact tryRefundGasKeyBalance_eq_ok hrefund
        · cases hrefund
      exact ⟨.receive, .touch hacc (htouch.setAccount st.account), trivial, hissues,
        .same rfl (by simp [hacc])⟩
    | none =>
      obtain ⟨_, htransfer, h⟩ := bind_eq_ok.mp h
      obtain ⟨_, hamount, htransfer⟩ := bind_eq_ok.mp htransfer
      obtain ⟨-, rfl⟩ := checkedAdd_eq_some.mp (okOr_eq_ok.mp hamount)
      cases htransfer
      cases h
      have htouch : st.entry.TouchesKey (if (AccountId.isSystem receipt.predecessorId &&
          r.signerId == receipt.receiverId) = true
          then tryRefundAllowance st.entry r.signerPublicKey deposit else st.entry) := by
        split
        · exact tryRefundAllowance_touches _ _ _
        · exact .refl
      have hstep := @EntryStep.receive E V as.config.storageUsageConfig receipt.receiverId
        _ _ acc _ hacc (htouch.setAccount st.account) (Nat.le_add_right _ deposit)
      exact ⟨.receive, hstep, trivial, hissues, .same rfl (by simp)⟩
  · rename_i hnone
    obtain ⟨_, hexists, -⟩ := bind_eq_ok.mp hcheck
    simp only [checkAccountExistence, hnone, Option.isNone_none, if_true,
      checkTransferToNonexistingAccount, ensure_eq_ok, Bool.and_eq_true] at hexists
    exact implicitAccountCreation_effect hnone (length_eq_one_of_eligible hexists.1) h

/-! ## Contracts -/

theorem stateInit_effect {init : DeterministicAccountStateInit}
    (hdet : AccountId.isNearDeterministic receipt.receiverId = true)
    (h : actionDeterministicStateInit as receipt st result init deposit = .ok (next, st'))
    (hok : next.isOk = true) :
    ∃ event, ActionEffect E V as receipt r st (.basic (.deterministicStateInit init deposit))
      result next st' event := by
  obtain ⟨deployed, hdeployed, h⟩ := bind_eq_ok.mp h
  cases deployed with
  | none =>
    cases h
    simp at hok
  | some pair =>
    obtain ⟨_, _⟩ := pair
    obtain ⟨topped, htopped, h⟩ := bind_eq_ok.mp h
    cases topped with
    | error missing =>
      cases h
      simp at hok
    | ok pair =>
      obtain ⟨_, refund⟩ := pair
      obtain ⟨_, rfl, hamount⟩ := useDepositForStorage_eq_ok htopped
      cases h
      have hissues : ∀ event : EntryEvent, ∀ new ∈ (if 0 < refund then
          result.newReceipts ++ [.newBalanceRefund receipt.balanceRefundReceiver refund]
          else result.newReceipts),
          new ∈ result.newReceipts ∨ Issued receipt.receiverId event new := by
        intro event new hnew
        split at hnew
        · rcases List.mem_append.mp hnew with hold | hrefund
          · exact .inl hold
          · rw [List.mem_singleton.mp hrefund]
            exact .inr (.inl (Receipt.isTransfer_newRefund _ _ _ _))
        · exact .inl hnew
      unfold deployIfNeeded at hdeployed
      split at hdeployed
      · rename_i hnone
        obtain ⟨code, data, _, rfl, rfl, husage⟩ :=
          deployDeterministicAccount_eq_ok hnone hdeployed
        refine ⟨.stateInit, .stateInit _ data code hdet
          (AccountContract.ofIdentifier_ne_none init.code) ?_ ?_, trivial, hissues _,
          .same rfl (by simp)⟩
        · intro old hold
          have hold : st.account = some old := hold
          simpa [hold] using hnone
        · have hbase : (st.view.account.map Account.storageUsage).getD
              as.config.storageUsageConfig.numBytesAccount =
              (st.account.getD (newAccount as.config 0)).storageUsage := by
            rw [ActionState.view]
            cases st.account <;> rfl
          rw [contractStorageUsage_ofIdentifier rfl, hbase]
          exact husage
      · rename_i hcontract
        cases hdeployed
        cases hacc : st.account with
        | none => simp [hacc, newAccount] at hcontract
        | some acc =>
          simp only [hacc, Option.getD_some] at hamount ⊢
          exact ⟨.receive, .credit hacc hamount, trivial, hissues _, .same rfl (by simp)⟩

theorem call_effect {call : FunctionCallAction} (hacc : st.account = some acc)
    (h : actionFunctionCall V as receipt r promiseResults st acc result call index =
      .ok (next, st')) (hok : next.isOk = true) :
    ActionEffect E V as receipt r st (.basic (.functionCall call)) result next st' .call := by
  obtain ⟨hcontract, outcome, hrun, haborted, rfl, hnew⟩ := actionFunctionCall_eq_ok h hok
  have hstep := @EntryStep.call E V as.config.storageUsageConfig receipt.receiverId st.view acc
    _ outcome hacc hcontract rfl rfl hrun haborted
  refine ⟨?_, ⟨call, rfl⟩, ?_, .same rfl (by simp)⟩
  · convert hstep using 1
    rw [ActionState.view, ActionState.view, applyWrites_setAccount, applyWrites_eq]
    rfl
  · intro new hmem
    rw [hnew, List.mem_append, List.mem_append] at hmem
    rcases hmem with (hold | haction) | hdata
    · exact .inl hold
    · obtain ⟨_, -, rfl⟩ := List.mem_map.mp haction
      exact .inr (.inr ⟨rfl, trivial⟩)
    · obtain ⟨_, -, rfl⟩ := List.mem_map.mp hdata
      exact .inr (.inr ⟨rfl, trivial⟩)

theorem deployGlobalContract_effect {code : Bytes} {mode : GlobalContractDeployMode}
    {globals : Globals} (hacc : st.account = some acc) (hself : ActsForSelf receipt st)
    (h : actionDeployGlobalContract E as st.globals acc result receipt.receiverId code mode =
      .ok (next, globals, acc')) (hok : next.isOk = true) :
    ActionEffect E V as receipt r st (.basic (.deployGlobalContract code mode)) result next
      { st with globals, account := some acc' } .burn := by
  obtain ⟨amount, rfl, _, hnew⟩ := actionDeployGlobalContract_eq_ok h hok
  refine ⟨.burn amount hacc, ⟨hself, code, mode, rfl⟩, ?_, .same rfl (by simp)⟩
  intro new hmem
  rw [hnew, List.mem_append] at hmem
  rcases hmem with hold | hdistribution
  · exact .inl hold
  · rw [List.mem_singleton.mp hdistribution]
    exact .inr (.inl fun actions hactions => by cases hactions)

/-! ## Keys, stake and deletion -/

theorem stake_effect {stake : Balance} (hacc : st.account = some acc)
    (h : actionStake as acc result receipt.receiverId stake publicKey = (next, acc'))
    (hok : next.isOk = true) :
    ActionEffect E V as receipt r st (.basic (.stake stake publicKey)) result next
      { st with account := some acc' } .restake := by
  obtain ⟨amount, locked, rfl, htotal, hnew⟩ := actionStake_eq_ok h hok
  exact ⟨.restake amount locked hacc htotal.ge, ⟨stake, publicKey, rfl⟩,
    fun new hmem => .inl (hnew ▸ hmem), .same rfl (by simp)⟩

theorem addKey_effect {key : AccessKey}
    (hacc : st.account = some acc) (hself : ActsForSelf receipt st)
    (h : actionAddKey as.config.storageUsageConfig receipt.receiverId st.entry acc result publicKey
      key as.blockHeight = .ok (next, changed)) (hok : next.isOk = true) :
    ∃ event, ActionEffect E V as receipt r st (.basic (.addKey publicKey key)) result next
      (st.withEntry changed) event := by
  obtain ⟨_, _⟩ := changed
  obtain ⟨habsent, rfl, rfl, ⟨hinfo, rfl⟩ | ⟨info, hinfo, rfl⟩⟩ := actionAddKey_eq_ok h hok
  · exact ⟨.addKey publicKey _, .addKey _ hacc habsent hinfo, ⟨hself, rfl, key, rfl⟩,
      fun new => .inl, .same rfl (by simp [ActionState.withEntry])⟩
  · have hstep := @EntryStep.addGasKey E V as.config.storageUsageConfig receipt.receiverId
      st.view acc publicKey key info (initialNonceValue as.blockHeight) hacc habsent hinfo
    refine ⟨.addGasKey publicKey _, ?_, ⟨hself, rfl, key, rfl⟩, fun new => .inl,
      .same rfl (by simp [ActionState.withEntry])⟩
    convert hstep using 1
    exact setGasKeyNonces_setAccount ..

theorem deleteKey_effect (hacc : st.account = some acc) (hself : ActsForSelf receipt st)
    (h : actionDeleteKey as.config.storageUsageConfig receipt.receiverId st.entry acc result
      publicKey = .ok (next, changed)) (hok : next.isOk = true) :
    ∃ event, ActionEffect E V as receipt r st (.basic (.deleteKey publicKey)) result next
      (st.withEntry changed) event := by
  obtain ⟨_, _⟩ := changed
  obtain ⟨key, hkey, hnew, rfl, ⟨hinfo, rfl⟩ | ⟨info, hinfo, rfl⟩⟩ := actionDeleteKey_eq_ok h hok
  · exact ⟨.deleteKey publicKey, .deleteKey hacc hkey hinfo, ⟨hself, rfl⟩,
      fun new hmem => .inl (hnew ▸ hmem), .same rfl (by simp [ActionState.withEntry])⟩
  · have hstep := @EntryStep.deleteGasKey E V as.config.storageUsageConfig receipt.receiverId
      st.view acc publicKey key info hacc hkey hinfo
    refine ⟨.deleteKey publicKey, ?_, ⟨hself, rfl⟩, fun new hmem => .inl (hnew ▸ hmem),
      .same rfl (by simp [ActionState.withEntry])⟩
    convert hstep using 1
    exact congrArg (Entry.removeAccessKey · publicKey)
      (setGasKeyNonces_setAccount st.entry publicKey info.numNonces none _ st.account)

theorem deleteAccount_effect {beneficiaryId : AccountId} (hacc : st.account = some acc)
    (hself : ActsForSelf receipt st)
    (h : actionDeleteAccount st acc receipt result beneficiaryId = .ok (next, st'))
    (hok : next.isOk = true) :
    ActionEffect E V as receipt r st (.basic (.deleteAccount beneficiaryId)) result next st'
      .delete := by
  unfold actionDeleteAccount at h
  dsimp only at h
  split_ifs at h with hlarge hgas hamount
  · cases h
    simp at hok
  · cases h
    simp at hok
  · obtain ⟨tokens, -, h⟩ := bind_eq_ok.mp h
    cases h
    refine ⟨.delete hacc, ⟨hself, beneficiaryId, rfl⟩, ?_, .deleted hself rfl rfl⟩
    intro new hnew
    rcases List.mem_append.mp hnew with hold | hrefund
    · exact .inl hold
    · rw [List.mem_singleton.mp hrefund]
      exact .inr (.inl (Receipt.isTransfer_newRefund _ _ _ _))
  · obtain ⟨tokens, -, h⟩ := bind_eq_ok.mp h
    cases h
    exact ⟨.delete hacc, ⟨hself, beneficiaryId, rfl⟩, fun new => .inl, .deleted hself rfl rfl⟩

/-! ## Any action -/

theorem account_isSome_of_check
    (hcheck : checkAccountExistence E.toCrypto as.config action st.account receipt.receiverId
      (implicitAccountCreationEligible E as receipt r) = .ok ())
    (h₁ : action ≠ .basic .createAccount) (h₂ : ∀ deposit, action ≠ .basic (.transfer deposit))
    (h₃ : ∀ init deposit, action ≠ .basic (.deterministicStateInit init deposit)) :
    ∃ acc, st.account = some acc := by
  unfold checkAccountExistence at hcheck
  split at hcheck
  · exact absurd rfl h₁
  · exact absurd rfl (h₂ _)
  · exact absurd rfl (h₃ _ _)
  · exact Option.isSome_iff_exists.mp (ensure_eq_ok.mp hcheck)

theorem actsForSelf_of_ensure {kind : ActionErrorKind} {u : Unit}
    (h : ensure (st.actorId == receipt.receiverId) kind = .ok u) : ActsForSelf receipt st :=
  beq_iff_eq.mp (ensure_eq_ok.mp h)

theorem dispatchAction_effect
    (hdet : ∀ init deposit, action = .basic (.deterministicStateInit init deposit) →
      AccountId.isNearDeterministic receipt.receiverId = true)
    (hcheck : checkAction E as receipt r st action = .ok ())
    (h : dispatchAction E V as receipt r promiseResults st result action index = .ok (next, st'))
    (hok : next.isOk = true) :
    ∃ event, ActionEffect E V as receipt r st action result next st' event := by
  obtain ⟨_, hexists, hperm⟩ := bind_eq_ok.mp hcheck
  cases action with
  | delegate signed =>
    obtain ⟨acc, hacc⟩ := account_isSome_of_check hexists (by simp) (by simp) (by simp)
    obtain ⟨⟨result', e'⟩, happly, h⟩ := bind_eq_ok.mp h
    cases h
    obtain ⟨record, key, hrecord, hunlocked, hkey, hnonce, rfl, hnew⟩ :=
      applyDelegateAction_eq_ok happly hok
    have hstep := @EntryStep.delegate E V as.config.storageUsageConfig receipt.receiverId
      st.view acc _ key record as.epochHeight (signed.delegateAction.actions.map .basic)
      signed.delegateAction.nonce hacc hrecord hunlocked hkey hnonce
    refine ⟨_, hstep, ⟨rfl, signed, rfl, rfl⟩, ?_, .same rfl (by simp [hacc])⟩
    intro new hmem
    rw [hnew, List.mem_append] at hmem
    rcases hmem with hold | hdelegate
    · exact .inl hold
    · rw [List.mem_singleton.mp hdelegate]
      exact .inr (.inr ⟨rfl, rfl⟩)
  | basic action =>
    cases action with
    | createAccount => exact ⟨.create, createAccount_effect hcheck (Except.ok.inj h) hok⟩
    | deployContract code =>
      obtain ⟨acc, hacc, h⟩ := withAccount_eq_ok.mp h
      obtain ⟨⟨e', acc'⟩, hdeploy, h⟩ := bind_eq_ok.mp h
      cases h
      obtain ⟨hash, rfl, rfl⟩ := actionDeployContract_eq_ok hdeploy
      have hself := actsForSelf_of_ensure hperm
      exact ⟨.setContract, .setContract (.localCode hash) _ (some code) hacc (by simp) rfl,
        ⟨hself, .inl ⟨code, rfl⟩⟩, fun new => .inl, .same rfl (by simp [ActionState.withEntry])⟩
    | functionCall call =>
      obtain ⟨acc, hacc, h⟩ := withAccount_eq_ok.mp h
      exact ⟨.call, call_effect hacc h hok⟩
    | transfer deposit =>
      obtain ⟨_, htransfer, h⟩ := bind_eq_ok.mp h
      cases h
      exact transfer_effect hcheck htransfer
    | stake =>
      obtain ⟨acc, hacc, h⟩ := withAccount_eq_ok.mp h
      cases h
      exact ⟨.restake, stake_effect hacc rfl hok⟩
    | addKey =>
      obtain ⟨acc, hacc, h⟩ := withAccount_eq_ok.mp h
      obtain ⟨⟨result', changed⟩, hadd, h⟩ := bind_eq_ok.mp h
      cases h
      exact addKey_effect hacc (actsForSelf_of_ensure hperm) hadd hok
    | deleteKey publicKey =>
      obtain ⟨acc, hacc, h⟩ := withAccount_eq_ok.mp h
      obtain ⟨⟨result', changed⟩, hdelete, h⟩ := bind_eq_ok.mp h
      cases h
      exact deleteKey_effect hacc (actsForSelf_of_ensure hperm) hdelete hok
    | deleteAccount beneficiaryId =>
      obtain ⟨acc, hacc, h⟩ := withAccount_eq_ok.mp h
      obtain ⟨_, hself, -⟩ := bind_eq_ok.mp hperm
      exact ⟨.delete, deleteAccount_effect hacc (actsForSelf_of_ensure hself) h hok⟩
    | deployGlobalContract =>
      obtain ⟨acc, hacc, h⟩ := withAccount_eq_ok.mp h
      obtain ⟨⟨result', _, acc'⟩, hdeploy, h⟩ := bind_eq_ok.mp h
      cases h
      exact ⟨.burn, deployGlobalContract_effect hacc (actsForSelf_of_ensure hperm) hdeploy hok⟩
    | useGlobalContract identifier =>
      obtain ⟨acc, hacc, h⟩ := withAccount_eq_ok.mp h
      obtain ⟨used, huse, h⟩ := bind_eq_ok.mp h
      cases used with
      | none =>
        cases h
        simp at hok
      | some changed =>
        obtain ⟨e', acc'⟩ := changed
        cases h
        obtain ⟨code, rfl, rfl⟩ := useGlobalContract_eq_ok huse
        have hself := actsForSelf_of_ensure hperm
        refine ⟨.setContract, .setContract _ _ code hacc
          (AccountContract.ofIdentifier_ne_none identifier) ?_,
          ⟨hself, .inr ⟨identifier, rfl⟩⟩, fun new => .inl,
          .same rfl (by simp [ActionState.withEntry])⟩
        have hlen : contractStorageUsage (st.view.setContractCode code) { acc with
            contract := .ofIdentifier identifier } = identifier.len :=
          contractStorageUsage_ofIdentifier rfl
        rw [hlen]
        rfl
    | deterministicStateInit init deposit => exact stateInit_effect (hdet init deposit rfl) h hok
    | transferToGasKey =>
      obtain ⟨acc, hacc⟩ := account_isSome_of_check hexists (by simp) (by simp) (by simp)
      obtain ⟨⟨result', e'⟩, htransfer, h⟩ := bind_eq_ok.mp h
      cases h
      obtain ⟨htouch, rfl⟩ := actionTransferToGasKey_eq_ok htransfer hok
      exact ⟨.receive, .touch hacc (htouch.setAccount st.account), trivial, fun new => .inl,
        .same rfl (by simp [hacc])⟩
    | withdrawFromGasKey publicKey amount =>
      obtain ⟨acc, hacc, h⟩ := withAccount_eq_ok.mp h
      obtain ⟨⟨result', e', acc'⟩, hwithdraw, h⟩ := bind_eq_ok.mp h
      cases h
      obtain ⟨htouch, rfl, rfl⟩ := actionWithdrawFromGasKey_eq_ok hwithdraw hok
      have hstep := @EntryStep.receive E V as.config.storageUsageConfig receipt.receiverId
        _ _ acc _ hacc (htouch.setAccount st.account) (Nat.le_add_right _ amount)
      exact ⟨.receive, hstep, trivial, fun new => .inl, .same rfl (by simp [ActionState.withEntry])⟩

end Effects

end BitInfinity
