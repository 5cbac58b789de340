import BitInfinity.Runtime.Config

/-!
# Validation without state

Checks on actions, receipts and transactions that do not read the trie.
-/

namespace BitInfinity

open Foundation

inductive ActionsValidationError
  | deleteActionMustBeFinal
  | totalPrepaidGasExceeded (totalPrepaidGas limit : Gas)
  | totalNumberOfActionsExceeded (totalNumberOfActions limit : Nat)
  | addKeyMethodNamesNumberOfBytesExceeded (totalNumberOfBytes limit : Nat)
  | addKeyMethodNameLengthExceeded (length limit : Nat)
  | integerOverflow
  | invalidAccountId (accountId : String)
  | contractSizeExceeded (size limit : Nat)
  | functionCallMethodNameLengthExceeded (length limit : Nat)
  | functionCallArgumentsLengthExceeded (length limit : Nat)
  | unsuitableStakingKey (publicKey : PublicKey)
  | functionCallZeroAttachedGas
  | delegateActionMustBeOnlyOne
  | unsupportedProtocolFeature (protocolFeature : String) (version : ProtocolVersion)
  | invalidDeterministicStateInitReceiver (derivedId receiverId : AccountId)
  | deterministicStateInitKeyLengthExceeded (length limit : Nat)
  | deterministicStateInitValueLengthExceeded (length limit : Nat)
  | gasKeyInvalidNumNonces (requestedNonces limit : NonceIndex)
  | addGasKeyWithNonZeroBalance (balance : Balance)
  | gasKeyFunctionCallAllowanceNotAllowed
  deriving DecidableEq, Repr

inductive ReceiptValidationError
  | invalidPredecessorId (accountId : String)
  | invalidReceiverId (accountId : String)
  | returnedValueLengthExceeded (length limit : Nat)
  | numberInputDataDependenciesExceeded (numberOfInputDataDependencies limit : Nat)
  | actionsValidation (error : ActionsValidationError)
  | receiptSizeExceeded (size limit : Nat)
  | invalidRefundTo (accountId : String)
  deriving DecidableEq, Repr

/-! ## Deterministic account ids -/

def borshBytes (data : Bytes) : Bytes := writeLE 4 data.length ++ data

def borshGlobalContractIdentifier : GlobalContractIdentifier → Bytes
  | .codeHash hash => 0 :: hash
  | .accountId id => 1 :: borshBytes id.toUTF8.toList

def borshStateInit (init : DeterministicAccountStateInit) : Bytes :=
  0 :: (borshGlobalContractIdentifier init.code ++ writeLE 4 init.data.length ++
    init.data.flatMap fun entry => borshBytes entry.1 ++ borshBytes entry.2)

def deriveNearDeterministicAccountId (C : Crypto) (init : DeterministicAccountStateInit) :
    AccountId :=
  String.ofList ("0s".toList ++ hexEncode ((C.keccak256 (borshStateInit init)).drop 12))

theorem isLowerHex_ascii {c : Char} (h : isLowerHex c = true) : c.val ≤ 127 := by
  simp only [isLowerHex, Bool.or_eq_true, Bool.and_eq_true, decide_eq_true_eq] at h
  rcases h with ⟨-, h⟩ | ⟨-, h⟩
  · exact UInt32.le_trans h (by decide)
  · exact UInt32.le_trans h (by decide)

theorem isNearDeterministic_deriveNearDeterministicAccountId (C : Crypto)
    (init : DeterministicAccountStateInit) :
    AccountId.isNearDeterministic (deriveNearDeterministicAccountId C init) = true := by
  have hlength : (hexEncode ((C.keccak256 (borshStateInit init)).drop 12)).length = 40 := by
    rw [length_hexEncode, List.length_drop, C.keccak256_length]
  have hhex : ∀ c ∈ hexEncode ((C.keccak256 (borshStateInit init)).drop 12),
      isLowerHex c = true := fun c => isLowerHex_of_mem_hexEncode
  unfold AccountId.isNearDeterministic deriveNearDeterministicAccountId AccountId.startsWith
  rw [String.ofList_append, String.utf8ByteSize_append, utf8ByteSize_ofList_of_ascii fun c hc =>
      isLowerHex_ascii (hhex c hc),
    hlength]
  simpa using ⟨by decide, hhex⟩

/-! ## Actions -/

section Actions

variable (C : Crypto) (limits : LimitConfig) (version : ProtocolVersion)

def requireProtocolFeature (feature : ProtocolFeature) (featureName : String) :
    Except ActionsValidationError Unit :=
  ensure (feature.enabled version) (.unsupportedProtocolFeature featureName version)

def validateActionAccountId (id : AccountId) : Except ActionsValidationError Unit :=
  (AccountId.validate C id).mapError fun _ => .invalidAccountId id

def validateGlobalContractIdentifier : GlobalContractIdentifier → Except ActionsValidationError Unit
  | .accountId id => validateActionAccountId C id
  | .codeHash _ => .ok ()

/-- The longest text of at most `limit` bytes that ends at a character boundary. -/
def truncateString (s : String) (limit : Nat) : String := String.ofList (go s.toList limit)
where
  go : List Char → Nat → List Char
    | [], _ => []
    | c :: cs, room => if c.utf8Size ≤ room then c :: go cs (room - c.utf8Size) else []

def validateContractSize (code : Bytes) : Except ActionsValidationError Unit :=
  ensure (code.length ≤ limits.maxContractSize)
    (.contractSizeExceeded code.length limits.maxContractSize)

def validateFunctionCallAction (call : FunctionCallAction) :
    Except ActionsValidationError Unit := do
  ensure (call.gas != 0) .functionCallZeroAttachedGas
  ensure (call.methodName.utf8ByteSize ≤ limits.maxLengthMethodName)
    (.functionCallMethodNameLengthExceeded call.methodName.utf8ByteSize limits.maxLengthMethodName)
  ensure (call.args.length ≤ limits.maxArgumentsLength)
    (.functionCallArgumentsLengthExceeded call.args.length limits.maxArgumentsLength)

def validateMethodNames (methodNames : List String) : Except ActionsValidationError Nat :=
  methodNames.foldlM (fun total name => do
    let length := name.utf8ByteSize
    ensure (length ≤ limits.maxLengthMethodName)
      (.addKeyMethodNameLengthExceeded length limits.maxLengthMethodName)
    .ok (total + (length + 1))) 0

def validateAccessKeyPermission (permission : AccessKeyPermission) :
    Except ActionsValidationError Unit :=
  match permission.functionCallPermission with
  | none => .ok ()
  | some fc => do
    match limits.accountIdValidityRulesVersion with
    | .v0 => .ok ()
    | _ => (AccountId.validate C fc.receiverId).mapError fun _ =>
      .invalidAccountId (truncateString fc.receiverId (AccountId.maxLen * 2))
    let total ← validateMethodNames limits fc.methodNames
    ensure (total ≤ limits.maxNumberBytesMethodNames)
      (.addKeyMethodNamesNumberOfBytesExceeded total limits.maxNumberBytesMethodNames)

def validateAddKeyAction (accessKey : AccessKey) : Except ActionsValidationError Unit := do
  validateAccessKeyPermission C limits accessKey.permission
  match accessKey.gasKeyInfo with
  | none => .ok ()
  | some info => do
    requireProtocolFeature version .gasKeys "GasKeys"
    match accessKey.permission.functionCallPermission with
    | some fc => ensure fc.allowance.isNone .gasKeyFunctionCallAllowanceNotAllowed
    | none => .ok ()
    ensure (info.numNonces != 0 && info.numNonces ≤ AccessKeyPermission.maxNoncesForGasKey)
      (.gasKeyInvalidNumNonces info.numNonces AccessKeyPermission.maxNoncesForGasKey)
    ensure (info.balance == 0) (.addGasKeyWithNonZeroBalance info.balance)

def validateStateInitEntries (data : List (Bytes × Bytes)) : Except ActionsValidationError Unit :=
  data.foldlM (fun _ entry => do
    ensure (entry.1.length ≤ limits.maxLengthStorageKey)
      (.deterministicStateInitKeyLengthExceeded entry.1.length limits.maxLengthStorageKey)
    ensure (entry.2.length ≤ limits.maxLengthStorageValue)
      (.deterministicStateInitValueLengthExceeded entry.2.length limits.maxLengthStorageValue)) ()

def validateDeterministicStateInit (stateInit : DeterministicAccountStateInit)
    (receiverId : AccountId) : Except ActionsValidationError Unit := do
  requireProtocolFeature version .deterministicAccountIds "DeterministicAccountIds"
  validateGlobalContractIdentifier C stateInit.code
  let derivedId := deriveNearDeterministicAccountId C stateInit
  ensure (derivedId == receiverId) (.invalidDeterministicStateInitReceiver derivedId receiverId)
  validateStateInitEntries limits stateInit.data

def validateBasicAction (action : NonDelegateAction) (receiver : AccountId) :
    Except ActionsValidationError Unit :=
  match action with
  | .createAccount => .ok ()
  | .deployContract code => validateContractSize limits code
  | .deployGlobalContract code _ => validateContractSize limits code
  | .useGlobalContract id => validateGlobalContractIdentifier C id
  | .functionCall call => validateFunctionCallAction limits call
  | .transfer _ => .ok ()
  | .stake _ publicKey => ensure (isValidStakingKey C publicKey) (.unsuitableStakingKey publicKey)
  | .addKey _ accessKey => validateAddKeyAction C limits version accessKey
  | .deleteKey _ => .ok ()
  | .deleteAccount beneficiaryId => validateActionAccountId C beneficiaryId
  | .deterministicStateInit stateInit _ =>
    validateDeterministicStateInit C limits version stateInit receiver
  | .transferToGasKey _ _ => requireProtocolFeature version .gasKeys "GasKeys"
  | .withdrawFromGasKey _ _ => requireProtocolFeature version .gasKeys "GasKeys"

/-- The loop of `validateActions` over a list with no delegate action in it. -/
def validateBasicActionList (receiver : AccountId) : List NonDelegateAction →
    Except ActionsValidationError Unit
  | [] => .ok ()
  | action :: rest => do
    match action with
    | .deleteAccount _ => ensure rest.isEmpty .deleteActionMustBeFinal
    | _ => .ok ()
    validateBasicAction C limits version action receiver
    validateBasicActionList receiver rest

def ensurePrepaidGas (actions : List Action) : Except ActionsValidationError Unit := do
  let total ← (totalPrepaidGas actions).mapError fun _ => .integerOverflow
  ensure (total ≤ limits.maxTotalPrepaidGas)
    (.totalPrepaidGasExceeded total limits.maxTotalPrepaidGas)

def validateDelegateAction (signed : SignedDelegateAction) (receiver : AccountId) :
    Except ActionsValidationError Unit := do
  let actions := signed.delegateAction.actions
  ensure (actions.length ≤ limits.maxActionsPerReceipt)
    (.totalNumberOfActionsExceeded actions.length limits.maxActionsPerReceipt)
  -- The inner actions are checked against the receiver of the delegate action's receipt.
  validateBasicActionList C limits version receiver actions
  ensurePrepaidGas limits (actions.map .basic)

/-- The loop of `validateActions`; `found` tells whether a delegate action was seen. -/
def validateActionList (receiver : AccountId) : Bool → List Action →
    Except ActionsValidationError Unit
  | _, [] => .ok ()
  | found, .basic action :: rest => do
    match action with
    | .deleteAccount _ => ensure rest.isEmpty .deleteActionMustBeFinal
    | _ => .ok ()
    validateBasicAction C limits version action receiver
    validateActionList receiver found rest
  | found, .delegate signed :: rest => do
    ensure (!found) .delegateActionMustBeOnlyOne
    validateDelegateAction C limits version signed receiver
    validateActionList receiver true rest

def validateActions (actions : List Action) (receiver : AccountId) :
    Except ActionsValidationError Unit := do
  ensure (actions.length ≤ limits.maxActionsPerReceipt)
    (.totalNumberOfActionsExceeded actions.length limits.maxActionsPerReceipt)
  validateActionList C limits version receiver false actions
  ensurePrepaidGas limits actions

variable {C limits version}

variable {receiver : AccountId} {actions : List Action}

theorem validateBasicAction_of_mem {found : Bool} {action : NonDelegateAction}
    (h : validateActionList C limits version receiver found actions = .ok ())
    (hmem : .basic action ∈ actions) :
    validateBasicAction C limits version action receiver = .ok () := by
  induction actions generalizing found with
  | nil => simp at hmem
  | cons first rest ih =>
    cases first with
    | delegate signed =>
      obtain ⟨_, -, h⟩ := bind_eq_ok.mp h
      obtain ⟨_, -, h⟩ := bind_eq_ok.mp h
      exact ih h (by simpa using hmem)
    | basic first =>
      have hsplit : validateBasicAction C limits version first receiver = .ok () ∧
          validateActionList C limits version receiver found rest = .ok () := by
        unfold validateActionList at h
        split at h <;>
        · obtain ⟨_, -, h⟩ := bind_eq_ok.mp h
          obtain ⟨_, hfirst, h⟩ := bind_eq_ok.mp h
          exact ⟨hfirst, h⟩
      rcases List.mem_cons.mp hmem with heq | hrest
      · cases heq
        exact hsplit.1
      · exact ih hsplit.2 hrest

theorem isNearDeterministic_of_validate {init : DeterministicAccountStateInit} {deposit : Balance}
    (h : validateActions C limits version actions receiver = .ok ())
    (hmem : .basic (.deterministicStateInit init deposit) ∈ actions) :
    AccountId.isNearDeterministic receiver = true := by
  obtain ⟨_, -, h⟩ := bind_eq_ok.mp h
  obtain ⟨_, hlist, -⟩ := bind_eq_ok.mp h
  have hinit := validateBasicAction_of_mem hlist hmem
  obtain ⟨_, -, hinit⟩ := bind_eq_ok.mp hinit
  obtain ⟨_, -, hinit⟩ := bind_eq_ok.mp hinit
  obtain ⟨_, hderived, -⟩ := bind_eq_ok.mp hinit
  rw [← beq_iff_eq.mp (ensure_eq_ok.mp hderived)]
  exact isNearDeterministic_deriveNearDeterministicAccountId C init

end Actions

/-! ## Receipts -/

inductive ValidateReceiptMode
  | newReceipt
  | existingReceipt
  deriving DecidableEq, Repr

section Receipts

variable (E : Externals) (limits : LimitConfig) (version : ProtocolVersion)

def validateActionReceipt (receipt : ActionReceipt) (receiver : AccountId) :
    Except ReceiptValidationError Unit := do
  ensure (receipt.inputDataIds.length ≤ limits.maxNumberInputDataDependencies)
    (.numberInputDataDependenciesExceeded receipt.inputDataIds.length
      limits.maxNumberInputDataDependencies)
  match receipt.refundTo with
  | some id => (AccountId.validate E.toCrypto id).mapError fun _ => .invalidRefundTo id
  | none => .ok ()
  (validateActions E.toCrypto limits version receipt.actions receiver).mapError .actionsValidation

def validateDataReceipt (receipt : DataReceipt) : Except ReceiptValidationError Unit :=
  let length := match receipt.data with | some data => data.length | none => 0
  ensure (length ≤ limits.maxLengthReturnedData)
    (.returnedValueLengthExceeded length limits.maxLengthReturnedData)

def validateReceipt (receipt : Receipt) (mode : ValidateReceiptMode) :
    Except ReceiptValidationError Unit := do
  if mode = .newReceipt then
    ensure (E.receiptSize receipt ≤ limits.maxReceiptSize)
      (.receiptSizeExceeded (E.receiptSize receipt) limits.maxReceiptSize)
  (AccountId.validate E.toCrypto receipt.predecessorId).mapError fun _ =>
    .invalidPredecessorId receipt.predecessorId
  (AccountId.validate E.toCrypto receipt.receiverId).mapError fun _ =>
    .invalidReceiverId receipt.receiverId
  match receipt.receipt with
  | .action r => validateActionReceipt E limits version r receipt.receiverId
  | .promiseYield r => validateActionReceipt E limits version r receipt.receiverId
  | .data r => validateDataReceipt limits r
  | .promiseResume r => validateDataReceipt limits r
  | .globalContractDistribution _ => .ok ()

variable {E limits version}

theorem validateActions_of_validateReceipt {receipt : Receipt} {r : ActionReceipt}
    (h : validateReceipt E limits version receipt .existingReceipt = .ok ())
    (hr : receipt.actionReceipt? = some r) :
    validateActions E.toCrypto limits version r.actions receipt.receiverId = .ok () := by
  have hvalid : validateActionReceipt E limits version r receipt.receiverId = .ok () := by
    obtain ⟨_, receiverId, _, body⟩ := receipt
    obtain ⟨_, -, h⟩ := bind_eq_ok.mp h
    obtain ⟨_, -, h⟩ := bind_eq_ok.mp h
    cases body <;> cases hr
    · exact h
    · exact h
  obtain ⟨_, -, hvalid⟩ := bind_eq_ok.mp hvalid
  split at hvalid
  · obtain ⟨_, -, hvalid⟩ := bind_eq_ok.mp hvalid
    exact mapError_eq_ok.mp hvalid
  · exact mapError_eq_ok.mp hvalid

end Receipts

end BitInfinity
