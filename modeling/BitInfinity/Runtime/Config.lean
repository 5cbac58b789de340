import BitInfinity.Primitives.Action
import BitInfinity.Foundation.Fallible

/-!
# Protocol parameters and the cost of transactions

Send and execution fees differ only in the component of a `Fee` that is charged, so both are
one function of a component, `basicActionFee`.
-/

namespace BitInfinity

open Foundation

inductive ProtocolFeature
  | deterministicAccountIds
  | invalidTxGenerateOutcomes
  | fixAccessKeyAllowanceCharging
  | fixDeterministicAccountIdCreation
  | includeDeployGlobalContractOutcomeBurntStorage
  | globalContractDistributionNonce
  | yieldResumeImprovements
  | gasKeys
  deriving DecidableEq, Repr

def ProtocolFeature.protocolVersion : ProtocolFeature → ProtocolVersion
  | .deterministicAccountIds => 82
  | .invalidTxGenerateOutcomes => 83
  | .fixAccessKeyAllowanceCharging => 83
  | .fixDeterministicAccountIdCreation => 83
  | .includeDeployGlobalContractOutcomeBurntStorage => 83
  | .globalContractDistributionNonce => 83
  | .yieldResumeImprovements => 83
  | .gasKeys => 149

def ProtocolFeature.enabled (feature : ProtocolFeature) (version : ProtocolVersion) : Bool :=
  feature.protocolVersion ≤ version

inductive ActionCosts
  | createAccount
  | deleteAccount
  | deployContractBase
  | deployContractByte
  | functionCallBase
  | functionCallByte
  | transfer
  | stake
  | addFullAccessKey
  | addFunctionCallKeyBase
  | addFunctionCallKeyByte
  | deleteKey
  | newActionReceipt
  | newDataReceiptBase
  | newDataReceiptByte
  | delegate
  | deployGlobalContractBase
  | deployGlobalContractByte
  | useGlobalContractBase
  | useGlobalContractByte
  | deterministicStateInitBase
  | deterministicStateInitByte
  | deterministicStateInitEntry
  deriving DecidableEq, Repr

structure Fee where
  sendSir : Gas
  sendNotSir : Gas
  execution : Gas
  deriving DecidableEq, Repr

def Fee.sendFee (senderIsReceiver : Bool) (fee : Fee) : Gas :=
  if senderIsReceiver then fee.sendSir else fee.sendNotSir

def Fee.execFee (fee : Fee) : Gas := fee.execution

structure StorageUsageConfig where
  storageAmountPerByte : Balance
  numBytesAccount : StorageUsage
  numExtraBytesRecord : StorageUsage
  globalContractStorageAmountPerByte : Balance

inductive AccountIdValidityRulesVersion
  | v0
  | v1
  | v2
  deriving DecidableEq, Repr

structure LimitConfig where
  maxTotalPrepaidGas : Gas
  maxActionsPerReceipt : Nat
  maxNumberBytesMethodNames : Nat
  maxLengthMethodName : Nat
  maxArgumentsLength : Nat
  maxLengthReturnedData : Nat
  maxContractSize : Nat
  maxTransactionSize : Nat
  maxReceiptSize : Nat
  maxLengthStorageKey : Nat
  maxLengthStorageValue : Nat
  maxNumberInputDataDependencies : Nat
  accountIdValidityRulesVersion : AccountIdValidityRulesVersion

structure RuntimeConfig where
  fee : ActionCosts → Fee
  storageUsageConfig : StorageUsageConfig
  /-- Numerator and denominator. -/
  burntGasReward : Nat × Nat
  gasRefundPenalty : Nat × Nat
  minGasRefundPenalty : Gas
  limitConfig : LimitConfig
  ethImplicitAccounts : Bool
  deterministicAccountIds : Bool
  minAllowedTopLevelAccountLength : Nat
  registrarAccountId : AccountId

/-- What applying a chunk knows about its block. -/
structure ApplyState where
  blockHeight : BlockHeight
  epochHeight : EpochHeight
  gasPrice : Balance
  protocolVersion : ProtocolVersion
  config : RuntimeConfig
  /-- The smallest stake that the epoch manager accepts. -/
  minimumStake : Balance

def RuntimeConfig.sample : RuntimeConfig where
  fee _ := ⟨1, 1, 1⟩
  storageUsageConfig := ⟨1, 100, 40, 1⟩
  burntGasReward := (3, 10)
  gasRefundPenalty := (0, 1)
  minGasRefundPenalty := 0
  limitConfig :=
    { maxTotalPrepaidGas := 1000
      maxActionsPerReceipt := 100
      maxNumberBytesMethodNames := 2000
      maxLengthMethodName := 256
      maxArgumentsLength := 4096
      maxLengthReturnedData := 4096
      maxContractSize := 4096
      maxTransactionSize := 4096
      maxReceiptSize := 4096
      maxLengthStorageKey := 2048
      maxLengthStorageValue := 4096
      maxNumberInputDataDependencies := 128
      accountIdValidityRulesVersion := .v2 }
  ethImplicitAccounts := true
  deterministicAccountIds := true
  minAllowedTopLevelAccountLength := 65
  registrarAccountId := "registrar"

def ApplyState.sample (blockHeight : BlockHeight) (epochHeight : EpochHeight) : ApplyState where
  blockHeight := blockHeight
  epochHeight := epochHeight
  gasPrice := 1
  protocolVersion := 84
  config := .sample
  minimumStake := 1

/-! ## Fees -/

structure TransactionCost where
  gasBurnt : Gas
  gasRemaining : Gas
  receiptGasPrice : Balance
  burntAmount : Balance
  gasCost : Balance
  depositCost : Balance
  totalCost : Balance
  deriving DecidableEq, Repr

structure IntegerOverflowError where
  deriving DecidableEq, Repr

def safeGasToBalance (gasPrice : Balance) (gas : Gas) : Except IntegerOverflowError Balance :=
  okOr (checkedMul 128 gasPrice gas) {}

def safeAddBalance (a b : Balance) : Except IntegerOverflowError Balance :=
  okOr (checkedAdd 128 a b) {}

def safeAddGas (a b : Gas) : Except IntegerOverflowError Gas := okOr (checkedAdd 64 a b) {}

/-- The sum of fallible costs, with an overflow check after every summand. -/
def sumCosts {α : Type} (width : Nat) (cost : α → Except IntegerOverflowError Nat)
    (items : List α) : Except IntegerOverflowError Nat :=
  items.foldlM (fun total item => do okOr (checkedAdd width total (← cost item)) {}) 0

def GlobalContractIdentifier.len : GlobalContractIdentifier → Nat
  | .codeHash _ => 32
  | .accountId id => id.utf8ByteSize

def DeterministicAccountStateInit.lenBytes (init : DeterministicAccountStateInit) : Nat :=
  (init.data.map fun entry => entry.1.length + entry.2.length).sum

section Fees

variable (C : Crypto) (config : RuntimeConfig)

/-- Fee of a transfer, with the extra fees when the receiver may have to be created. -/
def transferFee (component : Fee → Gas) (receiverType : AccountType) : Gas :=
  let fee := fun cost => component (config.fee cost)
  match config.ethImplicitAccounts, receiverType with
  | _, .namedAccount => fee .transfer
  | false, .ethImplicitAccount => fee .transfer
  | true, .ethImplicitAccount => fee .transfer + fee .createAccount
  | _, .nearImplicitAccount => fee .transfer + fee .createAccount + fee .addFullAccessKey
  | _, .nearDeterministicAccount => fee .transfer + fee .createAccount
  | _, .btcImplicitAccount => fee .transfer + fee .createAccount

def permissionFee (component : Fee → Gas) : AccessKeyPermission → Gas
  | .functionCall permission =>
    let numBytes := (permission.methodNames.map fun name => name.utf8ByteSize + 1).sum
    component (config.fee .addFunctionCallKeyBase) +
      component (config.fee .addFunctionCallKeyByte) * numBytes
  | .fullAccess => component (config.fee .addFullAccessKey)
  | .gasKeyFullAccess _ => 0
  | .gasKeyFunctionCall _ _ => 0

def basicActionFee (component : Fee → Gas) (receiverId : AccountId) : NonDelegateAction → Gas
  | .createAccount => component (config.fee .createAccount)
  | .deployContract code =>
    component (config.fee .deployContractBase) +
      component (config.fee .deployContractByte) * code.length
  | .functionCall call =>
    component (config.fee .functionCallBase) + component (config.fee .functionCallByte) *
        (call.methodName.utf8ByteSize + call.args.length)
  | .transfer _ => transferFee config component (AccountId.getAccountType C receiverId)
  | .stake _ _ => component (config.fee .stake)
  | .addKey _ accessKey => permissionFee config component accessKey.permission
  | .deleteKey _ => component (config.fee .deleteKey)
  | .deleteAccount _ => component (config.fee .deleteAccount)
  | .deployGlobalContract code _ =>
    component (config.fee .deployGlobalContractBase) +
      component (config.fee .deployGlobalContractByte) * code.length
  | .useGlobalContract contractIdentifier =>
    component (config.fee .useGlobalContractBase) +
      component (config.fee .useGlobalContractByte) * contractIdentifier.len
  | .deterministicStateInit stateInit _ =>
    component (config.fee .deterministicStateInitBase) +
      component (config.fee .deterministicStateInitByte) * stateInit.lenBytes +
      component (config.fee .deterministicStateInitEntry) * stateInit.data.length
  | .transferToGasKey _ _ => 0
  | .withdrawFromGasKey _ _ => 0

def totalSendFeesInner (senderIsReceiver : Bool) (actions : List NonDelegateAction)
    (receiverId : AccountId) : Except IntegerOverflowError Gas :=
  sumCosts 64 (fun a => .ok (basicActionFee C config (Fee.sendFee senderIsReceiver) receiverId a))
    actions

def totalSendFees (senderIsReceiver : Bool) (actions : List Action)
    (receiverId : AccountId) : Except IntegerOverflowError Gas :=
  sumCosts 64 (fun
    | .basic a => .ok (basicActionFee C config (Fee.sendFee senderIsReceiver) receiverId a)
    | .delegate signed => do
      let inner ← totalSendFeesInner C config senderIsReceiver signed.delegateAction.actions
        signed.delegateAction.receiverId
      .ok ((config.fee .delegate).sendFee senderIsReceiver + inner))
    actions

def totalPrepaidSendFees (actions : List Action) : Except IntegerOverflowError Gas :=
  sumCosts 64 (fun
    | .basic _ => .ok 0
    | .delegate signed =>
      let d := signed.delegateAction
      totalSendFeesInner C config (d.senderId == d.receiverId) d.actions d.receiverId)
    actions

def execFee (action : Action) (receiverId : AccountId) : Gas :=
  match action with
  | .basic a => basicActionFee C config Fee.execFee receiverId a
  | .delegate _ => (config.fee .delegate).execFee

def totalPrepaidExecFees (actions : List Action) (receiverId : AccountId) :
    Except IntegerOverflowError Gas :=
  sumCosts 64 (fun
    | .basic a => .ok (basicActionFee C config Fee.execFee receiverId a)
    | .delegate signed => do
      let d := signed.delegateAction
      let inner ← sumCosts 64
        (fun a => .ok (basicActionFee C config Fee.execFee d.receiverId a)) d.actions
      let delta ← safeAddGas inner (execFee C config (.delegate signed) d.receiverId)
      safeAddGas delta (config.fee .newActionReceipt).execFee)
    actions

end Fees

def NonDelegateAction.depositBalance : NonDelegateAction → Balance
  | .functionCall call => call.deposit
  | .transfer deposit => deposit
  | .deterministicStateInit _ deposit => deposit
  | .transferToGasKey _ deposit => deposit
  | _ => 0

def NonDelegateAction.prepaidGas : NonDelegateAction → Gas
  | .functionCall call => call.gas
  | _ => 0

def totalDeposit (actions : List Action) : Except IntegerOverflowError Balance :=
  sumCosts 128 (fun
    | .basic a => .ok a.depositBalance
    | .delegate signed =>
      sumCosts 128 (fun a => .ok a.depositBalance) signed.delegateAction.actions)
    actions

def totalPrepaidGas (actions : List Action) : Except IntegerOverflowError Gas :=
  sumCosts 64 (fun
    | .basic a => .ok a.prepaidGas
    | .delegate signed => sumCosts 64 (fun a => .ok a.prepaidGas) signed.delegateAction.actions)
    actions

def calculateTxCost (C : Crypto) (receiverId signerId : AccountId) (actions : List Action)
    (config : RuntimeConfig) (receiptGasPrice : Balance) :
    Except IntegerOverflowError TransactionCost := do
  let senderIsReceiver := receiverId == signerId
  let sendFees ← totalSendFees C config senderIsReceiver actions receiverId
  let gasBurnt ← safeAddGas ((config.fee .newActionReceipt).sendFee senderIsReceiver) sendFees
  let prepaidGas ← safeAddGas (← totalPrepaidGas actions) (← totalPrepaidSendFees C config actions)
  let gasRemaining ← safeAddGas prepaidGas (config.fee .newActionReceipt).execFee
  let gasRemaining ← safeAddGas gasRemaining (← totalPrepaidExecFees C config actions receiverId)
  let burntAmount ← safeGasToBalance receiptGasPrice gasBurnt
  let remainingGasAmount ← safeGasToBalance receiptGasPrice gasRemaining
  let gasCost ← safeAddBalance burntAmount remainingGasAmount
  let depositCost ← totalDeposit actions
  let totalCost ← safeAddBalance gasCost depositCost
  .ok { gasBurnt, gasRemaining, receiptGasPrice, burntAmount, gasCost, depositCost, totalCost }

def txCost (C : Crypto) (config : RuntimeConfig) (tx : Transaction) (receiptGasPrice : Balance) :
    Except IntegerOverflowError TransactionCost :=
  calculateTxCost C tx.receiverId tx.signerId tx.actions config receiptGasPrice

theorem txCost_bounds {C : Crypto} {config : RuntimeConfig} {tx : Transaction}
    {price : Balance} {cost : TransactionCost} (h : txCost C config tx price = .ok cost) :
    cost.gasBurnt < 2 ^ 64 ∧ cost.burntAmount < 2 ^ 128 := by
  simp only [txCost, calculateTxCost, bind_eq_ok] at h
  obtain ⟨_, -, _, hgas, _, -, _, -, _, -, _, -, _, -, _, -, _, hburnt, _, -, _, -, _, -, _, -,
    ⟨⟩⟩ := h
  rw [safeAddGas, okOr_eq_ok, checkedAdd_eq_some] at hgas
  rw [safeGasToBalance, okOr_eq_ok, checkedMul_eq_some] at hburnt
  exact ⟨hgas.2 ▸ hgas.1, hburnt.2 ▸ hburnt.1⟩

end BitInfinity
