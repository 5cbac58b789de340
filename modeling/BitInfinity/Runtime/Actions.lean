import BitInfinity.Runtime.AccessKeys

/-!
# The other actions of a receipt

Staking, transfers and account creation, contracts, account deletion and delegate actions, and
the checks on existence and permissions that precede every action.
-/

namespace BitInfinity

open Foundation

/-! ## Checks before an action -/

def checkTransferToNonexistingAccount (C : Crypto) (config : RuntimeConfig)
    (accountId : AccountId) (implicitAccountCreationEligible : Bool) :
    Except ActionErrorKind Unit :=
  ensure (implicitAccountCreationEligible &&
      accountIsImplicit C accountId config.ethImplicitAccounts config.deterministicAccountIds)
    (.accountDoesNotExist accountId)

def checkAccountExistence (C : Crypto) (config : RuntimeConfig) (action : Action)
    (account : Option Account) (accountId : AccountId)
    (implicitAccountCreationEligible : Bool) : Except ActionErrorKind Unit :=
  match action with
  | .basic .createAccount => do
    ensure account.isNone (.accountAlreadyExists accountId)
    ensure
      (!accountIsImplicit C accountId config.ethImplicitAccounts config.deterministicAccountIds)
      (.onlyImplicitAccountCreationAllowed accountId)
  | .basic (.transfer _) =>
    if account.isNone then
      checkTransferToNonexistingAccount C config accountId implicitAccountCreationEligible
    else .ok ()
  | .basic (.deterministicStateInit _ _) => .ok ()
  | _ => ensure account.isSome (.accountDoesNotExist accountId)

def checkActorPermissions (action : Action) (account : Option Account)
    (actorId accountId : AccountId) : Except ActionErrorKind Unit :=
  match action with
  | .basic (.deployContract _) | .basic (.stake _ _) | .basic (.addKey _ _)
  | .basic (.deleteKey _) | .basic (.deployGlobalContract _ _) | .basic (.useGlobalContract _)
  | .basic (.withdrawFromGasKey _ _) =>
    ensure (actorId == accountId) (.actorNoPermission accountId actorId)
  | .basic (.deleteAccount _) => do
    ensure (actorId == accountId) (.actorNoPermission accountId actorId)
    ensure ((account.map Account.locked).getD 0 == 0) (.deleteAccountStaking accountId)
  | _ => .ok ()

/-! ## Staking and transfers -/

def actionStake (as : ApplyState) (account : Account) (result : ActionResult)
    (accountId : AccountId) (stake : Balance) (publicKey : PublicKey) :
    ActionResult × Account :=
  let increment := stake - account.locked
  match checkedSub account.amount increment with
  | some newBalance =>
    if account.locked = 0 ∧ stake = 0 then
      (result.reject (.triesToUnstake accountId), account)
    else if 0 < stake ∧ stake < as.minimumStake then
      (result.reject (.insufficientStake accountId stake as.minimumStake), account)
    else
      ({ result with
          validatorProposals := result.validatorProposals ++ [⟨accountId, publicKey, stake⟩] },
        if account.locked < stake then
          { account with amount := newBalance, locked := stake }
        else account)
  | none => (result.reject (.triesToStake accountId stake account.locked account.amount), account)

def tryRefundGasKeyBalance (e : Entry) (accountId : AccountId) (publicKey : PublicKey)
    (deposit : Balance) : Except RuntimeError (Option Entry) :=
  match e.getAccessKey publicKey with
  | none => .ok none
  | some key =>
    match key.gasKeyInfo with
    | none => .ok none
    | some info => do
      let balance ← okOr (checkedAdd 128 info.balance deposit)
        (.storageError (.accountBalanceOverflow accountId))
      .ok (some (e.setAccessKey publicKey (key.setGasKeyBalance balance)))

def refundGasKey (isGasRefund : Bool) (e : Entry) (accountId : AccountId)
    (publicKey : PublicKey) (deposit : Balance) : Except RuntimeError (Option Entry) :=
  if isGasRefund then tryRefundGasKeyBalance e accountId publicKey deposit else .ok none

def tryRefundAllowance (e : Entry) (publicKey : PublicKey) (deposit : Balance) : Entry :=
  match e.getAccessKey publicKey with
  | some ⟨nonce, .functionCall permission⟩ =>
    match permission.allowance with
    | some allowance =>
      let newAllowance := saturatingAdd 128 allowance deposit
      if allowance < newAllowance then
        e.setAccessKey publicKey
          ⟨nonce, .functionCall { permission with allowance := some newAllowance }⟩
      else e
    | none => e
  | _ => e

def actionTransfer (account : Account) (accountId : AccountId) (deposit : Balance) :
    Except RuntimeError Account := do
  let amount ← okOr (checkedAdd 128 account.amount deposit)
    (.storageError (.accountBalanceOverflow accountId))
  .ok { account with amount }

def newAccount (config : RuntimeConfig) (amount : Balance) : Account where
  amount := amount
  locked := 0
  contract := .none
  storageUsage := config.storageUsageConfig.numBytesAccount

def actionCreateAccount (config : RuntimeConfig) (st : ActionState) (result : ActionResult)
    (accountId predecessorId : AccountId) : ActionResult × ActionState :=
  let created := (result, { st with
    actorId := accountId
    account := some (newAccount config 0) })
  if AccountId.isTopLevel accountId then
    if accountId.utf8ByteSize < config.minAllowedTopLevelAccountLength &&
        predecessorId != config.registrarAccountId then
      (result.reject (.createAccountOnlyByRegistrar accountId config.registrarAccountId
        predecessorId), st)
    else created
  else if !AccountId.isSubAccountOf accountId predecessorId then
    (result.reject (.createAccountNotAllowed accountId predecessorId), st)
  else created

def actionImplicitAccountCreationTransfer (E : Externals) (as : ApplyState) (st : ActionState)
    (accountId : AccountId) (deposit : Balance) : Except RuntimeError ActionState :=
  let usage := as.config.storageUsageConfig
  let st := { st with actorId := accountId }
  match AccountId.getAccountType E.toCrypto accountId with
  | .nearImplicitAccount =>
    let key := AccessKey.fullAccess.setNonce (initialNonceValue as.blockHeight)
    let publicKey := E.publicKeyFromNearImplicitAccount accountId
    .ok { st with
      account := some { newAccount as.config deposit with
        storageUsage := usage.numBytesAccount + publicKey.len + key.borshLen +
          usage.numExtraBytesRecord }
      entry := st.entry.setAccessKey publicKey key }
  | .ethImplicitAccount =>
    let magicBytes := E.walletContractMagicBytes
    .ok { st with
      account := some { newAccount as.config deposit with
        contract := .localCode (E.sha256 magicBytes)
        storageUsage := usage.numBytesAccount + magicBytes.length + usage.numExtraBytesRecord }
      entry := st.entry.setContractCode (some magicBytes) }
  | .nearDeterministicAccount => .ok { st with account := some (newAccount as.config deposit) }
  | .btcImplicitAccount => .ok { st with account := some (newAccount as.config deposit) }
  | .namedAccount => .error (.panicked "must be implicit")

def actionTransferOrImplicitAccountCreation (E : Externals) (as : ApplyState)
    (receipt : Receipt) (actionReceipt : ActionReceipt) (st : ActionState) (deposit : Balance)
    (isRefund : Bool) : Except RuntimeError ActionState :=
  let accountId := receipt.receiverId
  let publicKey := actionReceipt.signerPublicKey
  let isGasRefund := isRefund && actionReceipt.signerId == accountId
  match st.account with
  | some account => do
    match ← refundGasKey isGasRefund st.entry accountId publicKey deposit with
    | some entry => .ok { st with entry }
    | none => do
      let account ← actionTransfer account accountId deposit
      .ok { st with
        account := some account
        entry := if isGasRefund then tryRefundAllowance st.entry publicKey deposit else st.entry }
  | none => actionImplicitAccountCreationTransfer E as st accountId deposit

/-! ## Contracts -/

/-- Storage of the contract identifier or code that an account pays for. -/
def contractStorageUsage (e : Entry) (account : Account) : StorageUsage :=
  match account.contract with
  | .none => 0
  | .localCode _ => (e.contractCode.map List.length).getD 0
  | .globalCode _ => 32
  | .globalByAccount id => id.utf8ByteSize

def clearAccountContractStorageUsage (e : Entry) (account : Account) : Account :=
  { account with storageUsage := account.storageUsage - contractStorageUsage e account }

def actionDeployContract (E : Externals) (e : Entry) (account : Account)
    (accountId : AccountId) (code : Bytes) : Except RuntimeError (Entry × Account) := do
  let account := clearAccountContractStorageUsage e account
  let storageUsage ← okOr (checkedAdd 64 account.storageUsage code.length)
    (.storageError (.storageUsageOverflow accountId))
  .ok (e.setContractCode (some code),
    { account with storageUsage, contract := .localCode (E.sha256 code) })

def AccountContract.ofIdentifier : GlobalContractIdentifier → AccountContract
  | .codeHash hash => .globalCode hash
  | .accountId id => .globalByAccount id

def AccountContract.isLocal : AccountContract → Bool
  | .localCode _ => true
  | _ => false

/-- The entry and account that use the contract, or nothing when it does not exist. -/
def useGlobalContract (globals : Globals) (e : Entry) (account : Account)
    (accountId : AccountId) (identifier : GlobalContractIdentifier) :
    Except RuntimeError (Option (Entry × Account)) :=
  if (globals.contractCode identifier).isNone then
    .ok none
  else do
    let cleared := clearAccountContractStorageUsage e account
    let e := if account.contract.isLocal then e.setContractCode none else e
    let storageUsage ← okOr (checkedAdd 64 cleared.storageUsage identifier.len)
      (.storageError (.storageUsageOverflow accountId))
    .ok (some (e, { cleared with
      storageUsage, contract := .ofIdentifier identifier }))

def globalContractIdentifierOf (E : Externals) (accountId : AccountId) (code : Bytes) :
    GlobalContractDeployMode → GlobalContractIdentifier
  | .codeHash => .codeHash (E.sha256 code)
  | .accountId => .accountId accountId

/-- The distribution receipt, after the nonce of the contract was incremented. -/
def initiateDistribution (as : ApplyState) (globals : Globals) (accountId : AccountId)
    (id : GlobalContractIdentifier) (code : Bytes) : Except RuntimeError (Globals × Receipt) :=
  if ProtocolFeature.globalContractDistributionNonce.enabled as.protocolVersion then do
    let nonce ← okOr (checkedAdd 64 (globals.contractNonce id) 1)
      (.unexpectedIntegerOverflow "GlobalContractDistributionNonce")
    .ok ({ globals with contractNonce := Function.update globals.contractNonce id nonce },
      .newGlobalContractDistribution accountId ⟨id, nonce, code⟩)
  else
    .ok (globals, .newGlobalContractDistribution accountId ⟨id, 0, code⟩)

/-- The burnt tokens of the result, with the price of the storage where that is reported. -/
def addBurntStorage (as : ApplyState) (result : ActionResult) (storageCost : Balance) :
    Except RuntimeError Balance :=
  if ProtocolFeature.includeDeployGlobalContractOutcomeBurntStorage.enabled as.protocolVersion then
    okOr (checkedAdd 128 result.tokensBurnt storageCost)
      (.unexpectedIntegerOverflow "IntegerOverflowError")
  else .ok result.tokensBurnt

def actionDeployGlobalContract (E : Externals) (as : ApplyState) (globals : Globals)
    (account : Account) (result : ActionResult) (accountId : AccountId) (code : Bytes)
    (mode : GlobalContractDeployMode) :
    Except RuntimeError (ActionResult × Globals × Account) :=
  let storageCost := saturatingMul 128
    as.config.storageUsageConfig.globalContractStorageAmountPerByte code.length
  match checkedSub account.amount storageCost with
  | none => .ok (result.reject (.lackBalanceForState accountId storageCost), globals, account)
  | some amount => do
    let tokensBurnt ← addBurntStorage as result storageCost
    let (globals, receipt) ← initiateDistribution as globals accountId
      (globalContractIdentifierOf E accountId code mode) code
    .ok ({ result with tokensBurnt, newReceipts := result.newReceipts ++ [receipt] }, globals,
      { account with amount })

/-! ## Deterministic accounts -/

/-- Write the entries of a state init and sum up the storage that they take. -/
def writeStateInitData (config : StorageUsageConfig) (e : Entry) (usage : StorageUsage)
    (data : List (Bytes × Bytes)) : Except RuntimeError (Entry × StorageUsage) :=
  data.foldlM (fun (e, usage) (key, value) => do
    let newBytes ← okOr (checkedAdd 64 (value.length + key.length) config.numExtraBytesRecord)
      (.unexpectedIntegerOverflow "IntegerOverflowError")
    let usage ← okOr (checkedAdd 64 usage newBytes)
      (.unexpectedIntegerOverflow "IntegerOverflowError")
    .ok (e.setContractData key (some value), usage)) (e, usage)

def deployDeterministicAccount (config : StorageUsageConfig) (globals : Globals) (e : Entry)
    (account : Account) (accountId : AccountId) (init : DeterministicAccountStateInit) :
    Except RuntimeError (Option (Entry × Account)) := do
  match ← useGlobalContract globals e account accountId init.code with
  | none => .ok none
  | some (e, account) => do
    let (e, storageUsage) ← writeStateInitData config e account.storageUsage init.data
    .ok (some (e, { account with storageUsage }))

def deployIfNeeded (config : StorageUsageConfig) (globals : Globals) (e : Entry)
    (account : Account) (accountId : AccountId) (init : DeterministicAccountStateInit) :
    Except RuntimeError (Option (Entry × Account)) :=
  if account.contract = .none then
    deployDeterministicAccount config globals e account accountId init
  else .ok (some (e, account))

/-- The account topped up from the deposit, and the rest of the deposit. -/
def useDepositForStorage (config : RuntimeConfig) (account : Account) (deposit : Balance) :
    Except RuntimeError (Except Balance (Account × Balance)) :=
  match checkStorageStake account account.amount config with
  | .ok () => .ok (.ok (account, deposit))
  | .error (.lackBalanceForStorageStaking missing) =>
    if missing ≤ deposit then do
      let amount ← okOr (checkedAdd 128 account.amount missing)
        (.unexpectedIntegerOverflow "IntegerOverflowError")
      .ok (.ok ({ account with amount }, deposit - missing))
    else .ok (.error missing)
  | .error (.storageError e) => .error (.storageError e)

def Receipt.balanceRefundReceiver (receipt : Receipt) : AccountId :=
  match receipt.actionReceipt? with
  | some r => r.refundTo.getD receipt.predecessorId
  | none => receipt.predecessorId

def actionDeterministicStateInit (as : ApplyState) (receipt : Receipt) (st : ActionState)
    (result : ActionResult) (init : DeterministicAccountStateInit) (deposit : Balance) :
    Except RuntimeError (ActionResult × ActionState) := do
  let accountId := receipt.receiverId
  let account := st.account.getD (newAccount as.config 0)
  match ← deployIfNeeded as.config.storageUsageConfig st.globals st.entry account accountId init
  with
  | none => .ok (result.reject (.globalContractDoesNotExist init.code), st)
  | some (entry, account) => do
    match ← useDepositForStorage as.config account deposit with
    | .error missing => .ok (result.reject (.lackBalanceForState accountId missing), st)
    | .ok (account, refund) =>
      let newReceipts :=
        if 0 < refund then
          result.newReceipts ++ [.newBalanceRefund receipt.balanceRefundReceiver refund]
        else result.newReceipts
      .ok ({ result with newReceipts }, { st with entry, account := some account })

/-! ## Deletion -/

def Account.maxAccountDeletionStorageUsage : StorageUsage := 10000

def computeGasKeyBalanceSum (e : Entry) : Balance :=
  (e.accessKeys.entries.map fun entry =>
    match entry.2.gasKeyInfo with
    | some info => info.balance
    | none => 0).sum

def actionDeleteAccount (st : ActionState) (account : Account) (receipt : Receipt)
    (result : ActionResult) (beneficiaryId : AccountId) :
    Except RuntimeError (ActionResult × ActionState) :=
  let accountId := receipt.receiverId
  let codeLen := (st.entry.contractCode.map List.length).getD 0
  let gasKeyBalance := computeGasKeyBalanceSum st.entry
  if Account.maxAccountDeletionStorageUsage < account.storageUsage - codeLen then
    .ok (result.reject (.deleteAccountWithLargeState accountId), st)
  else if GasKeyInfo.maxBalanceToBurn < gasKeyBalance then
    .ok (result.reject (.gasKeyBalanceTooHigh accountId none gasKeyBalance), st)
  else do
    let newReceipts :=
      if 0 < account.amount then
        result.newReceipts ++ [.newBalanceRefund beneficiaryId account.amount]
      else result.newReceipts
    let tokensBurnt ← okOr (checkedAdd 128 result.tokensBurnt gasKeyBalance)
      (.unexpectedIntegerOverflow "tokens_burnt overflow")
    .ok ({ result with newReceipts, tokensBurnt },
      { st with entry := .empty, account := none, actorId := receipt.predecessorId })

/-! ## Delegate actions -/

/-- The restriction of function call keys.  A deposit alone does not stop the later checks,
whose errors take precedence. -/
def checkDelegatePermission (permission : AccessKeyPermission) (d : DelegateAction) :
    Except InvalidAccessKeyError Unit :=
  match permission with
  | .functionCall fc =>
    match d.actions with
    | [.functionCall call] => do
      ensure (d.receiverId == fc.receiverId) (.receiverMismatch d.receiverId fc.receiverId)
      ensure (fc.methodNames.isEmpty || fc.methodNames.contains call.methodName)
        (.methodNameMismatch call.methodName)
      ensure (call.deposit == 0) .depositWithFunctionCall
    | _ => .error .requiresFullAccess
  | _ => .ok ()

def validateDelegateActionKey (as : ApplyState) (e : Entry) (d : DelegateAction) :
    Except ActionErrorKind Entry := do
  let key ← okOr (e.getAccessKey d.publicKey)
    (.delegateActionAccessKeyError (.accessKeyNotFound d.senderId d.publicKey))
  ensure (key.nonce < d.nonce) (.delegateActionInvalidNonce d.nonce key.nonce)
  let upperBound := as.blockHeight * AccessKey.accessKeyNonceRangeMultiplier
  ensure (d.nonce < upperBound) (.delegateActionNonceTooLarge d.nonce upperBound)
  (checkDelegatePermission key.permission d).mapError .delegateActionAccessKeyError
  .ok (e.setAccessKey d.publicKey (key.setNonce d.nonce))

def delegateReceipt (actionReceipt : ActionReceipt) (senderId : AccountId)
    (d : DelegateAction) : Receipt where
  predecessorId := senderId
  receiverId := d.receiverId
  receiptId := Receipt.defaultHash
  receipt := .action
    { signerId := actionReceipt.signerId
      refundTo := none
      signerPublicKey := actionReceipt.signerPublicKey
      gasPrice := actionReceipt.gasPrice
      outputDataReceivers := []
      inputDataIds := []
      actions := d.actions.map .basic }

def receiptRequiredGas (C : Crypto) (as : ApplyState) (actions : List Action)
    (receiverId : AccountId) : Except IntegerOverflowError Gas := do
  let required ← safeAddGas (← totalPrepaidExecFees C as.config actions receiverId)
    (← totalPrepaidGas actions)
  safeAddGas required (as.config.fee .newActionReceipt).execFee

def checkDelegateAction (E : Externals) (as : ApplyState) (e : Entry) (senderId : AccountId)
    (signed : SignedDelegateAction) : Except ActionErrorKind Entry := do
  let d := signed.delegateAction
  ensure (E.verify signed.signature (E.delegateActionHash d) d.publicKey)
    .delegateActionInvalidSignature
  ensure (as.blockHeight ≤ d.maxBlockHeight) .delegateActionExpired
  ensure (d.senderId == senderId) (.delegateActionSenderDoesNotMatchTxReceiver d.senderId senderId)
  validateDelegateActionKey as e d

def patoshiDelegateError : ActionErrorKind :=
  .delegateActionAccessKeyError
    (.methodNameMismatch "Patoshi locked account cannot use DelegateAction")

def applyDelegateAction (E : Externals) (as : ApplyState) (actionReceipt : ActionReceipt)
    (e : Entry) (senderId : AccountId) (signed : SignedDelegateAction) (result : ActionResult) :
    Except RuntimeError (ActionResult × Entry) := do
  let overflow := .unexpectedIntegerOverflow "IntegerOverflowError"
  let record ← e.patoshiRecord.mapError .storageError
  if record.any (isPatoshiLocked · as.epochHeight) then
    .ok (result.reject patoshiDelegateError, e)
  else
    match checkDelegateAction E as e senderId signed with
    | .error kind => .ok (result.reject kind, e)
    | .ok e => do
      let d := signed.delegateAction
      let prepaidSendFees ← (totalPrepaidSendFees E.toCrypto as.config
        actionReceipt.actions).mapError fun _ => overflow
      let requiredGas ← (receiptRequiredGas E.toCrypto as (d.actions.map .basic)
        d.receiverId).mapError fun _ => overflow
      let gasUsed ← okOr (checkedAdd 64 result.gasUsed requiredGas) overflow
      let gasUsed ← okOr (checkedAdd 64 gasUsed prepaidSendFees) overflow
      let gasBurnt ← okOr (checkedAdd 64 result.gasBurnt prepaidSendFees) overflow
      .ok ({ result with
          gasUsed, gasBurnt
          newReceipts := result.newReceipts ++ [delegateReceipt actionReceipt senderId d] }, e)

end BitInfinity
