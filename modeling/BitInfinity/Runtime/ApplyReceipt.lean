import BitInfinity.Runtime.Actions

/-!
# Executing an action receipt

Contract code runs in a virtual machine outside the model: a `ContractRunner` says how a call
ends.  Whatever it answers, it writes contract data of its own account only, and the receipts
it creates are issued by that account.
-/

namespace BitInfinity

open Foundation

/-! ## Function calls -/

structure VMContext where
  receipt : Receipt
  actionReceipt : ActionReceipt
  account : Account
  state : ActionState
  call : FunctionCallAction
  actionIndex : Nat
  promiseResults : List (Option Bytes)
  applyState : ApplyState

structure PromiseReceipt where
  receiverId : AccountId
  refundTo : Option AccountId
  outputDataReceivers : List DataReceiver
  inputDataIds : List CryptoHash
  actions : List NonDelegateAction
  isPromiseYield : Bool

structure PromiseData where
  dataId : CryptoHash
  data : Option Bytes
  isPromiseResume : Bool

structure VMOutcome where
  aborted : Option String
  burntGas : Gas
  usedGas : Gas
  balance : Balance
  storageUsage : StorageUsage
  returnData : ReturnData
  writes : List (Bytes × Option Bytes)
  yieldStatus : CryptoHash → Option PromiseYieldStatus
  actionReceipts : List PromiseReceipt
  dataReceipts : List PromiseData

abbrev ContractRunner := VMContext → Except RuntimeError VMOutcome

def VMOutcome.nop (error : String) : VMOutcome where
  aborted := some error
  burntGas := 0
  usedGas := 0
  balance := 0
  storageUsage := 0
  returnData := .none
  writes := []
  yieldStatus := fun _ => none
  actionReceipts := []
  dataReceipts := []

def executeFunctionCall (V : ContractRunner) (context : VMContext) :
    Except RuntimeError VMOutcome :=
  if context.account.contract = .none then .ok (.nop "CodeDoesNotExist")
  else V context

def PromiseReceipt.toReceipt (accountId : AccountId) (r : ActionReceipt) (p : PromiseReceipt) :
    Receipt :=
  let actionReceipt : ActionReceipt :=
    { signerId := r.signerId
      refundTo := p.refundTo
      signerPublicKey := r.signerPublicKey
      gasPrice := r.gasPrice
      outputDataReceivers := p.outputDataReceivers
      inputDataIds := p.inputDataIds
      actions := p.actions.map .basic }
  { predecessorId := accountId
    receiverId := p.receiverId
    receiptId := Receipt.defaultHash
    receipt := if p.isPromiseYield then .promiseYield actionReceipt else .action actionReceipt }

def PromiseData.toReceipt (accountId : AccountId) (p : PromiseData) : Receipt where
  predecessorId := accountId
  receiverId := accountId
  receiptId := Receipt.defaultHash
  receipt := if p.isPromiseResume then .promiseResume ⟨p.dataId, p.data⟩
    else .data ⟨p.dataId, p.data⟩

def applyWrites (e : Entry) (writes : List (Bytes × Option Bytes)) : Entry :=
  writes.foldl (fun e write => e.setContractData write.1 write.2) e

def actionFunctionCall (V : ContractRunner) (as : ApplyState) (receipt : Receipt)
    (r : ActionReceipt) (promiseResults : List (Option Bytes)) (st : ActionState)
    (account : Account) (result : ActionResult) (call : FunctionCallAction)
    (actionIndex : Nat) : Except RuntimeError (ActionResult × ActionState) := do
  let accountId := receipt.receiverId
  let overflow := .unexpectedIntegerOverflow "IntegerOverflowError"
  let _ ← okOr (checkedAdd 128 account.amount call.deposit)
    (.storageError (.accountBalanceOverflow accountId))
  let outcome ← executeFunctionCall V
    { receipt, actionReceipt := r, account, state := st, call, actionIndex, promiseResults,
      applyState := as }
  let gasBurnt ← okOr (checkedAdd 64 result.gasBurnt outcome.burntGas) overflow
  let gasBurntForFunctionCall ←
    okOr (checkedAdd 64 result.gasBurntForFunctionCall outcome.burntGas) overflow
  let gasUsed ← okOr (checkedAdd 64 result.gasUsed outcome.usedGas) overflow
  let result := { result with gasBurnt, gasBurntForFunctionCall, gasUsed }
  match outcome.aborted with
  | some error => .ok (result.reject (.functionCallError error), st)
  | none =>
    .ok ({ result with
        result := .ok outcome.returnData
        newReceipts := result.newReceipts ++
          outcome.actionReceipts.map (PromiseReceipt.toReceipt accountId r) ++
          outcome.dataReceipts.map (PromiseData.toReceipt accountId) },
      { st with
        entry := applyWrites st.entry outcome.writes
        yieldStatus := outcome.yieldStatus
        account := some { account with
          amount := outcome.balance
          storageUsage := outcome.storageUsage } })

/-! ## One action -/

section Apply

variable (E : Externals) (V : ContractRunner) (as : ApplyState)

def withAccount {α : Type} (st : ActionState) (f : Account → Except RuntimeError α) :
    Except RuntimeError α :=
  match st.account with
  | some account => f account
  | none => .error (.panicked "account exists, checked above")

def ActionState.withEntry (st : ActionState) (changed : Entry × Account) : ActionState :=
  { st with entry := changed.1, account := some changed.2 }

def dispatchAction (receipt : Receipt) (r : ActionReceipt)
    (promiseResults : List (Option Bytes)) (st : ActionState) (result : ActionResult)
    (action : Action) (actionIndex : Nat) :
    Except RuntimeError (ActionResult × ActionState) :=
  let accountId := receipt.receiverId
  match action with
  | .basic .createAccount =>
    .ok (actionCreateAccount as.config st result accountId receipt.predecessorId)
  | .basic (.deployContract code) => withAccount st fun account => do
    let changed ← actionDeployContract E st.entry account accountId code
    .ok (result, st.withEntry changed)
  | .basic (.deployGlobalContract code mode) => withAccount st fun account => do
    let (result, globals, account) ←
      actionDeployGlobalContract E as st.globals account result accountId code mode
    .ok (result, { st with globals, account := some account })
  | .basic (.useGlobalContract identifier) => withAccount st fun account => do
    match ← useGlobalContract st.globals st.entry account accountId identifier with
    | some changed => .ok (result, st.withEntry changed)
    | none => .ok (result.reject (.globalContractDoesNotExist identifier), st)
  | .basic (.deterministicStateInit init deposit) =>
    actionDeterministicStateInit as receipt st result init deposit
  | .basic (.functionCall call) => withAccount st fun account =>
    actionFunctionCall V as receipt r promiseResults st account result call actionIndex
  | .basic (.transfer deposit) => do
    let st ← actionTransferOrImplicitAccountCreation E as receipt r st deposit
      (AccountId.isSystem receipt.predecessorId)
    .ok (result, st)
  | .basic (.stake stake publicKey) => withAccount st fun account =>
    let (result, account) := actionStake as account result accountId stake publicKey
    .ok (result, { st with account := some account })
  | .basic (.addKey publicKey key) => withAccount st fun account => do
    let (result, changed) ← actionAddKey as.config.storageUsageConfig accountId st.entry
      account result publicKey key as.blockHeight
    .ok (result, st.withEntry changed)
  | .basic (.deleteKey publicKey) => withAccount st fun account => do
    let (result, changed) ← actionDeleteKey as.config.storageUsageConfig accountId st.entry
      account result publicKey
    .ok (result, st.withEntry changed)
  | .basic (.deleteAccount beneficiaryId) => withAccount st fun account =>
    actionDeleteAccount st account receipt result beneficiaryId
  | .delegate signed => do
    let (result, entry) ← applyDelegateAction E as r st.entry accountId signed result
    .ok (result, { st with entry })
  | .basic (.transferToGasKey publicKey deposit) => do
    let (result, entry) ← actionTransferToGasKey accountId st.entry result publicKey deposit
    .ok (result, { st with entry })
  | .basic (.withdrawFromGasKey publicKey amount) => withAccount st fun account => do
    let (result, changed) ← actionWithdrawFromGasKey accountId st.entry account result
      publicKey amount
    .ok (result, st.withEntry changed)

def implicitAccountCreationEligible (receipt : Receipt) (r : ActionReceipt) : Bool :=
  let isRefund := AccountId.isSystem receipt.predecessorId
  let multiActionEligible :=
    ProtocolFeature.fixDeterministicAccountIdCreation.enabled as.protocolVersion &&
      as.config.deterministicAccountIds &&
      AccountId.getAccountType E.toCrypto receipt.receiverId == .nearDeterministicAccount
  !isRefund && (r.actions.length == 1 || multiActionEligible)

def checkAction (receipt : Receipt) (r : ActionReceipt) (st : ActionState) (action : Action) :
    Except ActionErrorKind Unit := do
  checkAccountExistence E.toCrypto as.config action st.account receipt.receiverId
    (implicitAccountCreationEligible E as receipt r)
  checkActorPermissions action st.account st.actorId receipt.receiverId

def applyAction (receipt : Receipt) (r : ActionReceipt) (promiseResults : List (Option Bytes))
    (st : ActionState) (action : Action) (actionIndex : Nat) :
    Except RuntimeError (ActionResult × ActionState) :=
  let execFees := execFee E.toCrypto as.config action receipt.receiverId
  let result := { ActionResult.default with gasUsed := execFees, gasBurnt := execFees }
  match checkAction E as receipt r st action with
  | .error kind => .ok (result.reject kind, st)
  | .ok () => dispatchAction E V as receipt r promiseResults st result action actionIndex

/-! ## All actions of a receipt -/

def ActionResult.merge (r next : ActionResult) : Except RuntimeError ActionResult := do
  ensure (next.gasBurntForFunctionCall ≤ next.gasBurnt) (.panicked "gas burnt for calls")
  ensure (next.gasBurnt ≤ next.gasUsed) (.panicked "Gas burnt <= Gas used")
  let overflow := .unexpectedIntegerOverflow "IntegerOverflowError"
  let gasBurnt ← okOr (checkedAdd 64 r.gasBurnt next.gasBurnt) overflow
  let gasBurntForFunctionCall ←
    okOr (checkedAdd 64 r.gasBurntForFunctionCall next.gasBurntForFunctionCall) overflow
  let gasUsed ← okOr (checkedAdd 64 r.gasUsed next.gasUsed) overflow
  match next.result with
  | .ok returnData => do
    let returnData := match returnData with
      | .receiptIndex index => .receiptIndex (index + r.newReceipts.length)
      | data => data
    let tokensBurnt ← okOr (checkedAdd 128 r.tokensBurnt next.tokensBurnt) overflow
    .ok { gasBurnt, gasBurntForFunctionCall, gasUsed, tokensBurnt
          result := .ok returnData
          newReceipts := r.newReceipts ++ next.newReceipts
          validatorProposals := r.validatorProposals ++ next.validatorProposals }
  | .error e =>
    .ok { gasBurnt, gasBurntForFunctionCall, gasUsed
          result := .error e
          newReceipts := []
          validatorProposals := []
          tokensBurnt := 0 }

/-- New receipts must be valid, otherwise the action that created them has failed. -/
def validateNewReceipts (result : ActionResult) : ActionResult :=
  match result.result with
  | .error _ => result
  | .ok _ =>
    match result.newReceipts.forM fun receipt =>
        validateReceipt E as.config.limitConfig as.protocolVersion receipt .newReceipt with
    | .ok () => result
    | .error e => result.reject (.newReceiptValidationError e)

/-- The loop over the actions, from an index on; it stops at the first action that fails. -/
def applyActions (receipt : Receipt) (r : ActionReceipt) (promiseResults : List (Option Bytes)) :
    Nat → List Action → ActionResult → ActionState →
      Except RuntimeError (ActionResult × ActionState)
  | _, [], result, st => .ok (result, st)
  | index, action :: rest, result, st => do
    let (next, st) ← applyAction E V as receipt r promiseResults st action index
    let result ← result.merge (validateNewReceipts E as next)
    match result.result with
    | .error e => .ok ({ result with result := .error { e with index := some index } }, st)
    | .ok _ => applyActions receipt r promiseResults (index + 1) rest result st

def checkReceiptStorage (accountId : AccountId) (result : ActionResult) (st : ActionState) :
    Except RuntimeError ActionResult :=
  match result.result, st.account with
  | .ok _, some account =>
    match checkStorageStake account account.amount as.config with
    | .ok () => .ok result
    | .error (.lackBalanceForStorageStaking amount) =>
      result.merge (ActionResult.default.reject (.lackBalanceForState accountId amount))
    | .error (.storageError e) => .error (.storageError e)
  | _, _ => .ok result

/-! ## Refunds and rewards -/

def gasPenaltyForGasRefund (config : RuntimeConfig) (gasRefund : Gas) : Gas :=
  let relativeCost := gasRefund * config.gasRefundPenalty.1 / config.gasRefundPenalty.2
  min (max relativeCost config.minGasRefundPenalty) gasRefund

/-- The receipts that return the deposits of a failed receipt and the gas left over. -/
def refundUnspentGasAndDeposits (receipt : Receipt) (r : ActionReceipt)
    (result : ActionResult) : Except RuntimeError (List Receipt) := do
  let overflow := .unexpectedIntegerOverflow "IntegerOverflowError"
  let lift := fun {α : Type} (x : Except IntegerOverflowError α) => x.mapError fun _ => overflow
  let deposits ← lift (totalDeposit r.actions)
  let prepaidGas ← lift (do
    safeAddGas (← totalPrepaidGas r.actions)
      (← totalPrepaidSendFees E.toCrypto as.config r.actions))
  let prepaidExecGas ← lift (do
    safeAddGas (← totalPrepaidExecFees E.toCrypto as.config r.actions receipt.receiverId)
      (as.config.fee .newActionReceipt).execFee)
  let prepaid ← lift (safeAddGas prepaidGas prepaidExecGas)
  let depositRefund := if result.isOk then 0 else deposits
  let grossGasRefund ← okOr
    (checkedSub prepaid (if result.isOk then result.gasUsed else result.gasBurnt))
    (.panicked "gas refund")
  let netGasRefund := grossGasRefund - gasPenaltyForGasRefund as.config grossGasRefund
  let gasBalanceRefund ← lift (safeGasToBalance r.gasPrice netGasRefund)
  .ok ((if 0 < depositRefund then
      [.newBalanceRefund receipt.balanceRefundReceiver depositRefund] else []) ++
    if 0 < gasBalanceRefund then
      [.newGasRefund r.signerId gasBalanceRefund r.signerPublicKey] else [])

def refundReceipts (receipt : Receipt) (r : ActionReceipt) (result : ActionResult) :
    Except RuntimeError (List Receipt) :=
  if AccountId.isSystem receipt.predecessorId then .ok []
  else refundUnspentGasAndDeposits E as receipt r result

/-- A share of the gas burnt by contract code goes to the account of the contract. -/
def receiverReward (r : ActionReceipt) (result : ActionResult) : Except RuntimeError Balance := do
  let scaled ← okOr (checkedMul 64 result.gasBurntForFunctionCall as.config.burntGasReward.1)
    (.panicked "burnt gas reward")
  (safeGasToBalance r.gasPrice (scaled / as.config.burntGasReward.2)).mapError fun _ =>
    .unexpectedIntegerOverflow "IntegerOverflowError"

def creditReward {E : Externals} (t : Trie E) (accountId : AccountId) (reward : Balance) :
    Except RuntimeError (Trie E) :=
  if 0 < reward then
    match t.getAccount accountId with
    | some account => do
      let amount ← (safeAddBalance account.amount reward).mapError fun _ =>
        .unexpectedIntegerOverflow "IntegerOverflowError"
      .ok (t.setAccount accountId { account with amount })
    | none => .ok t
  else .ok t

/-! ## The receipt -/

/-- Results of the promises that the receipt waited for; they are taken out of the state. -/
def collectPromiseResults {E : Externals} (m : Mailbox E) :
    List CryptoHash → Except RuntimeError (List (Option Bytes) × Mailbox E)
  | [] => .ok ([], m)
  | dataId :: rest => do
    let data ← okOr (m.receivedData dataId) (.storageError .receivedDataMissing)
    let m := { m with receivedData := Function.update m.receivedData dataId none }
    let (results, m) ← collectPromiseResults m rest
    .ok (data :: results, m)

def ReceiptEnum.addOutputDataReceivers (receivers : List DataReceiver) : ReceiptEnum → ReceiptEnum
  | .action r => .action { r with outputDataReceivers := r.outputDataReceivers ++ receivers }
  | .promiseYield r =>
    .promiseYield { r with outputDataReceivers := r.outputDataReceivers ++ receivers }
  | other => other

def Receipt.addOutputDataReceivers (receivers : List DataReceiver) (receipt : Receipt) : Receipt :=
  { receipt with receipt := receipt.receipt.addOutputDataReceivers receivers }

def dataReceiptFor (accountId : AccountId) (data : Option Bytes) (receiver : DataReceiver) :
    Receipt where
  predecessorId := accountId
  receiverId := receiver.receiverId
  receiptId := Receipt.defaultHash
  receipt := .data ⟨receiver.dataId, data⟩

/-- The outgoing receipts, with the result of the receipt sent to those that wait for it. -/
def sendOutputData (accountId : AccountId) (receivers : List DataReceiver)
    (result : Except ActionError ReturnData) (receipts : List Receipt) : List Receipt :=
  if receivers.isEmpty then
    receipts
  else
    match result with
    | .ok (.receiptIndex index) => receipts.modify index (.addOutputDataReceivers receivers)
    | .ok (.value data) => receipts ++ receivers.map (dataReceiptFor accountId (some data))
    | .ok .none => receipts ++ receivers.map (dataReceiptFor accountId (some []))
    | .error _ => receipts ++ receivers.map (dataReceiptFor accountId none)

def assignReceiptIds (parent : CryptoHash) (receipts : List Receipt) : List Receipt :=
  receipts.mapIdx fun index receipt =>
    { receipt with receiptId := E.createReceiptIdFromReceiptId parent as.blockHeight index }

structure ReceiptOutcome where
  /-- The receipt whose identifier the outcome is stored under. -/
  receipt : Receipt
  status : Except ActionError ReturnData
  newReceipts : List Receipt
  validatorProposals : List ValidatorStake
  gasBurnt : Gas

def initialActionState {E : Externals} (t : Trie E) (receipt : Receipt) : ActionState where
  entry := t.entries receipt.receiverId
  globals := t.globals
  yieldStatus := (t.mailboxes receipt.receiverId).promiseYieldStatus
  account := t.getAccount receipt.receiverId
  actorId := receipt.predecessorId

def initialActionResult : ActionResult :=
  let execFees := (as.config.fee .newActionReceipt).execFee
  { ActionResult.default with gasUsed := execFees, gasBurnt := execFees }

/-- The entry to be stored: the account is written back unless it does not exist. -/
def ActionState.finalEntry (st : ActionState) : Entry :=
  match st.account with
  | some account => st.entry.setAccount (some account)
  | none => st.entry

/-- The trie after the actions: their changes, or none of them when the receipt failed. -/
def commitOrRollback {E : Externals} (t : Trie E) (accountId : AccountId) (result : ActionResult)
    (st : ActionState) : Trie E :=
  if result.isOk then
    let t := { t.setEntry accountId st.finalEntry with globals := st.globals }
    t.setMailbox accountId { t.mailboxes accountId with promiseYieldStatus := st.yieldStatus }
  else t

def applyActionReceipt (t : Trie E) (receipt : Receipt) (r : ActionReceipt) :
    Except RuntimeError (Trie E × ReceiptOutcome) := do
  let accountId := receipt.receiverId
  let (promiseResults, mailbox) ← collectPromiseResults (t.mailboxes accountId) r.inputDataIds
  let t := t.setMailbox accountId mailbox
  let (result, st) ← applyActions E V as receipt r promiseResults 0 r.actions
    (initialActionResult as) (initialActionState t receipt)
  let result ← checkReceiptStorage as accountId result st
  let refunds ← refundReceipts E as receipt r result
  let t := commitOrRollback t accountId result st
  let reward ← receiverReward as r result
  let t ← creditReward t accountId reward
  let receipts := sendOutputData accountId r.outputDataReceivers result.result
    (result.newReceipts ++ refunds)
  .ok (t,
    { receipt
      status := result.result
      newReceipts := assignReceiptIds E as receipt.receiptId receipts
      validatorProposals := result.validatorProposals
      gasBurnt := result.gasBurnt })

end Apply

end BitInfinity
