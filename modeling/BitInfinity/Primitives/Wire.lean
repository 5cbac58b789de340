import BitInfinity.Primitives.AccountIdGrammar
import BitInfinity.Primitives.Action

/-!
# Transactions as bytes

The Borsh layout of transactions, actions and all that they contain, as nearcore writes and reads
it.  Enumerations start with the number of the variant.  The first version of transactions has no
number in front and is told apart by the second byte of its signer's length.
-/

namespace BitInfinity

open Foundation

/-! ## Keys, signatures and account ids -/

variable {entries : List (Bytes × Bytes)}

def writePublicKey : PublicKey → Bytes
  | .ed25519 key => 0 :: key.bytes
  | .secp256k1 key => 1 :: key.bytes

def readPublicKey : Reader PublicKey
  | 0 :: bytes =>
    if h : (bytes.take 32).length = 32 then
      some (.ed25519 ⟨bytes.take 32, h⟩, bytes.drop 32)
    else none
  | 1 :: bytes =>
    if h : (bytes.take 64).length = 64 then
      some (.secp256k1 ⟨bytes.take 64, h⟩, bytes.drop 64)
    else none
  | _ => none

def writeSignature : Signature → Bytes
  | .ed25519 bytes => 0 :: bytes
  | .secp256k1 bytes => 1 :: bytes

def readSignature : Reader Signature
  | 0 :: bytes => do
    let (array, bytes) ← readBytes 64 bytes
    -- the sanity check that ed25519 signatures once got from their crate
    if array.getD 63 0 &&& 0b11100000 ≠ 0 then none else some (.ed25519 array, bytes)
  | 1 :: bytes => do
    let (array, bytes) ← readBytes 65 bytes
    some (.secp256k1 array, bytes)
  | _ => none

def readAccountId (C : Crypto) : Reader AccountId := fun bytes => do
  let (id, bytes) ← readString bytes
  match AccountId.validate C id with
  | .ok () => some (id, bytes)
  | .error _ => none

def Signature.InRange : Signature → Prop
  | .ed25519 bytes => bytes.length = 64 ∧ bytes.getD 63 0 &&& 0b11100000 = 0
  | .secp256k1 bytes => bytes.length = 65

theorem readPublicKey_writePublicKey (key : PublicKey) (rest : Bytes) :
    readPublicKey (writePublicKey key ++ rest) = some (key, rest) := by
  cases key with
  | ed25519 key =>
    obtain ⟨bytes, hlength⟩ := key
    have htake : (bytes ++ rest).take 32 = bytes := by rw [← hlength, List.take_left]
    have hdrop : (bytes ++ rest).drop 32 = rest := by rw [← hlength, List.drop_left]
    simp [writePublicKey, readPublicKey, htake, hdrop, hlength]
  | secp256k1 key =>
    obtain ⟨bytes, hlength⟩ := key
    have htake : (bytes ++ rest).take 64 = bytes := by rw [← hlength, List.take_left]
    have hdrop : (bytes ++ rest).drop 64 = rest := by rw [← hlength, List.drop_left]
    simp [writePublicKey, readPublicKey, htake, hdrop, hlength]

theorem readBytes_append_of_length {bytes : Bytes} {count : Nat} (h : bytes.length = count)
    (rest : Bytes) : readBytes count (bytes ++ rest) = some (bytes, rest) :=
  h ▸ readBytes_append bytes rest

theorem readSignature_writeSignature {signature : Signature} (h : signature.InRange)
    (rest : Bytes) : readSignature (writeSignature signature ++ rest) = some (signature, rest) := by
  cases signature with
  | ed25519 bytes =>
    obtain ⟨hlength, hcheck⟩ := h
    simp only [writeSignature, readSignature, List.cons_append,
      readBytes_append_of_length hlength, Option.bind_eq_bind, Option.bind_some, hcheck]
    rfl
  | secp256k1 bytes =>
    simp only [writeSignature, readSignature, List.cons_append, readBytes_append_of_length h,
      Option.bind_eq_bind, Option.bind_some]

theorem readAccountId_writeString {C : Crypto} {id : AccountId}
    (h : AccountId.validate C id = .ok ()) (rest : Bytes) :
    readAccountId C (writeString id ++ rest) = some (id, rest) := by
  have hsize := (AccountId.validate_eq_ok.mp h).2.1
  rw [readAccountId, readString_writeString (by omega)]
  simp only [Option.bind_eq_bind, Option.bind_some, h]

/-! ## Access keys -/

def writeFunctionCallPermission (permission : FunctionCallPermission) : Bytes :=
  writeOption (writeLE 16) permission.allowance ++ writeString permission.receiverId ++
    writeVec writeString permission.methodNames

def readFunctionCallPermission : Reader FunctionCallPermission := fun bytes => do
  let (allowance, bytes) ← readOption (readLE 16) bytes
  let (receiverId, bytes) ← readString bytes
  let (methodNames, bytes) ← readVec readString bytes
  some ({ allowance, receiverId, methodNames }, bytes)

def writeGasKeyInfo (info : GasKeyInfo) : Bytes :=
  writeLE 16 info.balance ++ writeLE 2 info.numNonces

def readGasKeyInfo : Reader GasKeyInfo := fun bytes => do
  let (balance, bytes) ← readLE 16 bytes
  let (numNonces, bytes) ← readLE 2 bytes
  some ({ balance, numNonces }, bytes)

def writeAccessKeyPermission : AccessKeyPermission → Bytes
  | .functionCall permission => 0 :: writeFunctionCallPermission permission
  | .fullAccess => [1]
  | .gasKeyFunctionCall info permission =>
    2 :: writeGasKeyInfo info ++ writeFunctionCallPermission permission
  | .gasKeyFullAccess info => 3 :: writeGasKeyInfo info

def readAccessKeyPermission : Reader AccessKeyPermission
  | 0 :: bytes => do
    let (permission, bytes) ← readFunctionCallPermission bytes
    some (.functionCall permission, bytes)
  | 1 :: bytes => some (.fullAccess, bytes)
  | 2 :: bytes => do
    let (info, bytes) ← readGasKeyInfo bytes
    let (permission, bytes) ← readFunctionCallPermission bytes
    some (.gasKeyFunctionCall info permission, bytes)
  | 3 :: bytes => do
    let (info, bytes) ← readGasKeyInfo bytes
    some (.gasKeyFullAccess info, bytes)
  | _ => none

def writeAccessKey (key : AccessKey) : Bytes :=
  writeLE 8 key.nonce ++ writeAccessKeyPermission key.permission

def readAccessKey : Reader AccessKey := fun bytes => do
  let (nonce, bytes) ← readLE 8 bytes
  let (permission, bytes) ← readAccessKeyPermission bytes
  some ({ nonce, permission }, bytes)

structure FunctionCallPermission.InRange (permission : FunctionCallPermission) : Prop where
  allowance_lt : ∀ a, permission.allowance = some a → a < 2 ^ 128
  receiverId_lt : permission.receiverId.utf8ByteSize < 2 ^ 32
  methodNames_length : permission.methodNames.length < 2 ^ 32
  methodNames_lt : ∀ name ∈ permission.methodNames, name.utf8ByteSize < 2 ^ 32

structure GasKeyInfo.InRange (info : GasKeyInfo) : Prop where
  balance_lt : info.balance < 2 ^ 128
  numNonces_lt : info.numNonces < 2 ^ 16

def AccessKeyPermission.InRange : AccessKeyPermission → Prop
  | .functionCall permission => permission.InRange
  | .fullAccess => True
  | .gasKeyFunctionCall info permission => info.InRange ∧ permission.InRange
  | .gasKeyFullAccess info => info.InRange

structure AccessKey.InRange (key : AccessKey) : Prop where
  nonce_lt : key.nonce < 2 ^ 64
  permission : key.permission.InRange

theorem readLE_writeLE_of_lt {width value : Nat} (h : value < 2 ^ (8 * width)) (rest : Bytes) :
    readLE width (writeLE width value ++ rest) = some (value, rest) := by
  apply readLE_writeLE
  rwa [pow_mul] at h

theorem readFunctionCallPermission_write {permission : FunctionCallPermission}
    (h : permission.InRange) (rest : Bytes) :
    readFunctionCallPermission (writeFunctionCallPermission permission ++ rest) =
      some (permission, rest) := by
  have hallowance := fun tail => @readOption_writeOption _ _ _ permission.allowance tail
    fun a ha => @readLE_writeLE_of_lt 16 a (h.allowance_lt a ha) tail
  have hnames := @readVec_writeVec _ readString writeString _ h.methodNames_length
    fun name hname tail => readString_writeString (h.methodNames_lt name hname) tail
  simp only [readFunctionCallPermission, writeFunctionCallPermission, List.append_assoc,
    hallowance, readString_writeString h.receiverId_lt, hnames, Option.bind_eq_bind,
    Option.bind_some]

theorem readGasKeyInfo_write {info : GasKeyInfo} (h : info.InRange) (rest : Bytes) :
    readGasKeyInfo (writeGasKeyInfo info ++ rest) = some (info, rest) := by
  simp only [readGasKeyInfo, writeGasKeyInfo, List.append_assoc,
    @readLE_writeLE_of_lt 16 _ h.balance_lt, @readLE_writeLE_of_lt 2 _ h.numNonces_lt,
    Option.bind_eq_bind, Option.bind_some]

theorem readAccessKeyPermission_write {permission : AccessKeyPermission} (h : permission.InRange)
    (rest : Bytes) :
    readAccessKeyPermission (writeAccessKeyPermission permission ++ rest) =
      some (permission, rest) := by
  cases permission with
  | functionCall permission =>
    simp [writeAccessKeyPermission, readAccessKeyPermission, readFunctionCallPermission_write h]
  | fullAccess => rfl
  | gasKeyFunctionCall =>
    simp [writeAccessKeyPermission, readAccessKeyPermission, readGasKeyInfo_write h.1,
      readFunctionCallPermission_write h.2]
  | gasKeyFullAccess info =>
    simp [writeAccessKeyPermission, readAccessKeyPermission, readGasKeyInfo_write h]

theorem readAccessKey_write {key : AccessKey} (h : key.InRange) (rest : Bytes) :
    readAccessKey (writeAccessKey key ++ rest) = some (key, rest) := by
  simp only [readAccessKey, writeAccessKey, List.append_assoc,
    @readLE_writeLE_of_lt 8 _ h.nonce_lt, readAccessKeyPermission_write h.permission,
    Option.bind_eq_bind, Option.bind_some]

/-! ## Global contracts -/

def writeGlobalContractIdentifier : GlobalContractIdentifier → Bytes
  | .codeHash hash => 0 :: hash
  | .accountId id => 1 :: writeString id

def readGlobalContractIdentifier (C : Crypto) : Reader GlobalContractIdentifier
  | 0 :: bytes => do
    let (hash, bytes) ← readBytes 32 bytes
    some (.codeHash hash, bytes)
  | 1 :: bytes => do
    let (id, bytes) ← readAccountId C bytes
    some (.accountId id, bytes)
  | _ => none

def writeGlobalContractDeployMode : GlobalContractDeployMode → Bytes
  | .codeHash => [0]
  | .accountId => [1]

def readGlobalContractDeployMode : Reader GlobalContractDeployMode
  | 0 :: bytes => some (.codeHash, bytes)
  | 1 :: bytes => some (.accountId, bytes)
  | _ => none

/-- The value of a key in a map that keeps its entries in the order of their keys. -/
def insertEntry (key value : Bytes) : List (Bytes × Bytes) → List (Bytes × Bytes)
  | [] => [(key, value)]
  | (key', value') :: entries =>
    if key < key' then (key, value) :: (key', value') :: entries
    else if key = key' then (key, value) :: entries
    else (key', value') :: insertEntry key value entries

def writeEntry (entry : Bytes × Bytes) : Bytes := writeByteVec entry.1 ++ writeByteVec entry.2

def readEntry : Reader (Bytes × Bytes) := fun bytes => do
  let (key, bytes) ← readByteVec bytes
  let (value, bytes) ← readByteVec bytes
  some ((key, value), bytes)

def writeDeterministicAccountStateInit (stateInit : DeterministicAccountStateInit) : Bytes :=
  0 :: writeGlobalContractIdentifier stateInit.code ++ writeVec writeEntry stateInit.data

/-- The entries may come in any order, and the last one of a key counts. -/
def readDeterministicAccountStateInit (C : Crypto) : Reader DeterministicAccountStateInit
  | 0 :: bytes => do
    let (code, bytes) ← readGlobalContractIdentifier C bytes
    let (entries, bytes) ← readVec readEntry bytes
    let data := entries.foldl (fun data entry => insertEntry entry.1 entry.2 data) []
    some ({ code, data }, bytes)
  | _ => none

def GlobalContractIdentifier.InRange (C : Crypto) : GlobalContractIdentifier → Prop
  | .codeHash hash => hash.length = 32
  | .accountId id => AccountId.validate C id = .ok ()

structure DeterministicAccountStateInit.InRange (C : Crypto)
    (stateInit : DeterministicAccountStateInit) : Prop where
  code : stateInit.code.InRange C
  data_length : stateInit.data.length < 2 ^ 32
  data_lt : ∀ entry ∈ stateInit.data, entry.1.length < 2 ^ 32 ∧ entry.2.length < 2 ^ 32
  data_sorted : stateInit.data.Pairwise fun entry later => entry.1 < later.1

theorem readGlobalContractIdentifier_write {C : Crypto} {identifier : GlobalContractIdentifier}
    (h : identifier.InRange C) (rest : Bytes) :
    readGlobalContractIdentifier C (writeGlobalContractIdentifier identifier ++ rest) =
      some (identifier, rest) := by
  cases identifier with
  | codeHash =>
    simp [writeGlobalContractIdentifier, readGlobalContractIdentifier, readBytes_append_of_length h]
  | accountId id =>
    simp [writeGlobalContractIdentifier, readGlobalContractIdentifier, readAccountId_writeString h]

theorem readGlobalContractDeployMode_write (mode : GlobalContractDeployMode) (rest : Bytes) :
    readGlobalContractDeployMode (writeGlobalContractDeployMode mode ++ rest) =
      some (mode, rest) := by
  cases mode <;> rfl

theorem insertEntry_append {key : Bytes} (h : ∀ entry ∈ entries, entry.1 < key) (value : Bytes) :
    insertEntry key value entries = entries ++ [(key, value)] := by
  induction entries with
  | nil => rfl
  | cons entry entries ih =>
    have hlt : entry.1 < key := h entry List.mem_cons_self
    have hne : key ≠ entry.1 := by
      rintro rfl
      exact List.lt_irrefl _ hlt
    rw [insertEntry, if_neg (List.lt_asymm hlt), if_neg hne,
      ih fun other hother => h other (List.mem_cons_of_mem entry hother)]
    rfl

theorem foldl_insertEntry (before : List (Bytes × Bytes))
    (h : (before ++ entries).Pairwise fun entry later => entry.1 < later.1) :
    entries.foldl (fun data entry => insertEntry entry.1 entry.2 data) before =
      before ++ entries := by
  induction entries generalizing before with
  | nil => simp
  | cons entry entries ih =>
    have hlt : ∀ other ∈ before, other.1 < entry.1 := by
      intro other hother
      exact (List.pairwise_append.mp h).2.2 other hother entry List.mem_cons_self
    rw [List.foldl_cons, insertEntry_append hlt, ih]
    · simp
    · simpa using h

theorem readDeterministicAccountStateInit_write {C : Crypto}
    {stateInit : DeterministicAccountStateInit} (h : stateInit.InRange C) (rest : Bytes) :
    readDeterministicAccountStateInit C (writeDeterministicAccountStateInit stateInit ++ rest) =
      some (stateInit, rest) := by
  have hentries := @readVec_writeVec _ readEntry writeEntry _ h.data_length (by
    intro entry hentry tail
    obtain ⟨hkey, hvalue⟩ := h.data_lt entry hentry
    simp only [readEntry, writeEntry, List.append_assoc, readByteVec_writeByteVec hkey,
      readByteVec_writeByteVec hvalue, Option.bind_eq_bind, Option.bind_some])
  have hdata := foldl_insertEntry [] h.data_sorted
  rw [List.nil_append] at hdata
  simp only [writeDeterministicAccountStateInit, readDeterministicAccountStateInit,
    List.cons_append, List.append_assoc, readGlobalContractIdentifier_write h.code, hentries,
    hdata, Option.bind_eq_bind, Option.bind_some]

/-! ## Actions -/

def writeFunctionCallAction (call : FunctionCallAction) : Bytes :=
  writeString call.methodName ++ writeByteVec call.args ++ writeLE 8 call.gas ++
    writeLE 16 call.deposit

def readFunctionCallAction : Reader FunctionCallAction := fun bytes => do
  let (methodName, bytes) ← readString bytes
  let (args, bytes) ← readByteVec bytes
  let (gas, bytes) ← readLE 8 bytes
  let (deposit, bytes) ← readLE 16 bytes
  some ({ methodName, args, gas, deposit }, bytes)

def writeNonDelegateAction : NonDelegateAction → Bytes
  | .createAccount => [0]
  | .deployContract code => 1 :: writeByteVec code
  | .functionCall call => 2 :: writeFunctionCallAction call
  | .transfer deposit => 3 :: writeLE 16 deposit
  | .stake stake publicKey => 4 :: writeLE 16 stake ++ writePublicKey publicKey
  | .addKey publicKey accessKey => 5 :: writePublicKey publicKey ++ writeAccessKey accessKey
  | .deleteKey publicKey => 6 :: writePublicKey publicKey
  | .deleteAccount beneficiaryId => 7 :: writeString beneficiaryId
  | .deployGlobalContract code deployMode =>
    9 :: writeByteVec code ++ writeGlobalContractDeployMode deployMode
  | .useGlobalContract identifier => 10 :: writeGlobalContractIdentifier identifier
  | .deterministicStateInit stateInit deposit =>
    11 :: writeDeterministicAccountStateInit stateInit ++ writeLE 16 deposit
  | .transferToGasKey publicKey deposit => 12 :: writePublicKey publicKey ++ writeLE 16 deposit
  | .withdrawFromGasKey publicKey amount => 13 :: writePublicKey publicKey ++ writeLE 16 amount

def readNonDelegateAction (C : Crypto) : Reader NonDelegateAction
  | 0 :: bytes => some (.createAccount, bytes)
  | 1 :: bytes => do
    let (code, bytes) ← readByteVec bytes
    some (.deployContract code, bytes)
  | 2 :: bytes => do
    let (call, bytes) ← readFunctionCallAction bytes
    some (.functionCall call, bytes)
  | 3 :: bytes => do
    let (deposit, bytes) ← readLE 16 bytes
    some (.transfer deposit, bytes)
  | 4 :: bytes => do
    let (stake, bytes) ← readLE 16 bytes
    let (publicKey, bytes) ← readPublicKey bytes
    some (.stake stake publicKey, bytes)
  | 5 :: bytes => do
    let (publicKey, bytes) ← readPublicKey bytes
    let (accessKey, bytes) ← readAccessKey bytes
    some (.addKey publicKey accessKey, bytes)
  | 6 :: bytes => do
    let (publicKey, bytes) ← readPublicKey bytes
    some (.deleteKey publicKey, bytes)
  | 7 :: bytes => do
    let (beneficiaryId, bytes) ← readAccountId C bytes
    some (.deleteAccount beneficiaryId, bytes)
  | 9 :: bytes => do
    let (code, bytes) ← readByteVec bytes
    let (deployMode, bytes) ← readGlobalContractDeployMode bytes
    some (.deployGlobalContract code deployMode, bytes)
  | 10 :: bytes => do
    let (identifier, bytes) ← readGlobalContractIdentifier C bytes
    some (.useGlobalContract identifier, bytes)
  | 11 :: bytes => do
    let (stateInit, bytes) ← readDeterministicAccountStateInit C bytes
    let (deposit, bytes) ← readLE 16 bytes
    some (.deterministicStateInit stateInit deposit, bytes)
  | 12 :: bytes => do
    let (publicKey, bytes) ← readPublicKey bytes
    let (deposit, bytes) ← readLE 16 bytes
    some (.transferToGasKey publicKey deposit, bytes)
  | 13 :: bytes => do
    let (publicKey, bytes) ← readPublicKey bytes
    let (amount, bytes) ← readLE 16 bytes
    some (.withdrawFromGasKey publicKey amount, bytes)
  | _ => none

def writeDelegateAction (action : DelegateAction) : Bytes :=
  writeString action.senderId ++ writeString action.receiverId ++
    writeVec writeNonDelegateAction action.actions ++ writeLE 8 action.nonce ++
    writeLE 8 action.maxBlockHeight ++ writePublicKey action.publicKey

def readDelegateAction (C : Crypto) : Reader DelegateAction := fun bytes => do
  let (senderId, bytes) ← readAccountId C bytes
  let (receiverId, bytes) ← readAccountId C bytes
  let (actions, bytes) ← readVec (readNonDelegateAction C) bytes
  let (nonce, bytes) ← readLE 8 bytes
  let (maxBlockHeight, bytes) ← readLE 8 bytes
  let (publicKey, bytes) ← readPublicKey bytes
  some ({ senderId, receiverId, actions, nonce, maxBlockHeight, publicKey }, bytes)

def writeAction : Action → Bytes
  | .basic action => writeNonDelegateAction action
  | .delegate signed =>
    8 :: writeDelegateAction signed.delegateAction ++ writeSignature signed.signature

def readAction (C : Crypto) : Reader Action
  | 8 :: bytes => do
    let (delegateAction, bytes) ← readDelegateAction C bytes
    let (signature, bytes) ← readSignature bytes
    some (.delegate { delegateAction, signature }, bytes)
  | bytes => do
    let (action, bytes) ← readNonDelegateAction C bytes
    some (.basic action, bytes)

structure FunctionCallAction.InRange (call : FunctionCallAction) : Prop where
  methodName_lt : call.methodName.utf8ByteSize < 2 ^ 32
  args_length : call.args.length < 2 ^ 32
  gas_lt : call.gas < 2 ^ 64
  deposit_lt : call.deposit < 2 ^ 128

def NonDelegateAction.InRange (C : Crypto) : NonDelegateAction → Prop
  | .createAccount => True
  | .deployContract code => code.length < 2 ^ 32
  | .functionCall call => call.InRange
  | .transfer deposit => deposit < 2 ^ 128
  | .stake amount _ => amount < 2 ^ 128
  | .addKey _ accessKey => accessKey.InRange
  | .deleteKey _ => True
  | .deleteAccount beneficiaryId => AccountId.validate C beneficiaryId = .ok ()
  | .deployGlobalContract code _ => code.length < 2 ^ 32
  | .useGlobalContract identifier => identifier.InRange C
  | .deterministicStateInit stateInit deposit => stateInit.InRange C ∧ deposit < 2 ^ 128
  | .transferToGasKey _ deposit => deposit < 2 ^ 128
  | .withdrawFromGasKey _ amount => amount < 2 ^ 128

structure DelegateAction.InRange (C : Crypto) (action : DelegateAction) : Prop where
  senderId : AccountId.validate C action.senderId = .ok ()
  receiverId : AccountId.validate C action.receiverId = .ok ()
  actions_length : action.actions.length < 2 ^ 32
  actions : ∀ inner ∈ action.actions, inner.InRange C
  nonce_lt : action.nonce < 2 ^ 64
  maxBlockHeight_lt : action.maxBlockHeight < 2 ^ 64

def Action.InRange (C : Crypto) : Action → Prop
  | .basic action => action.InRange C
  | .delegate signed => signed.delegateAction.InRange C ∧ signed.signature.InRange

section Actions

variable {C : Crypto}

theorem readFunctionCallAction_write {call : FunctionCallAction} (h : call.InRange) (rest : Bytes) :
    readFunctionCallAction (writeFunctionCallAction call ++ rest) = some (call, rest) := by
  simp only [readFunctionCallAction, writeFunctionCallAction, List.append_assoc,
    readString_writeString h.methodName_lt, readByteVec_writeByteVec h.args_length,
    @readLE_writeLE_of_lt 8 _ h.gas_lt, @readLE_writeLE_of_lt 16 _ h.deposit_lt,
    Option.bind_eq_bind, Option.bind_some]

theorem readNonDelegateAction_write {action : NonDelegateAction} (h : action.InRange C)
    (rest : Bytes) :
    readNonDelegateAction C (writeNonDelegateAction action ++ rest) = some (action, rest) := by
  cases action with
  | createAccount => rfl
  | deployContract code =>
    simp [writeNonDelegateAction, readNonDelegateAction, readByteVec_writeByteVec h]
  | functionCall call =>
    simp [writeNonDelegateAction, readNonDelegateAction, readFunctionCallAction_write h]
  | transfer deposit =>
    simp [writeNonDelegateAction, readNonDelegateAction, @readLE_writeLE_of_lt 16 _ h]
  | stake =>
    simp [writeNonDelegateAction, readNonDelegateAction, @readLE_writeLE_of_lt 16 _ h,
      readPublicKey_writePublicKey]
  | addKey =>
    simp [writeNonDelegateAction, readNonDelegateAction, readPublicKey_writePublicKey,
      readAccessKey_write h]
  | deleteKey publicKey =>
    simp [writeNonDelegateAction, readNonDelegateAction, readPublicKey_writePublicKey]
  | deleteAccount beneficiaryId =>
    simp [writeNonDelegateAction, readNonDelegateAction, readAccountId_writeString h]
  | deployGlobalContract =>
    simp [writeNonDelegateAction, readNonDelegateAction, readByteVec_writeByteVec h,
      readGlobalContractDeployMode_write]
  | useGlobalContract identifier =>
    simp [writeNonDelegateAction, readNonDelegateAction, readGlobalContractIdentifier_write h]
  | deterministicStateInit =>
    simp [writeNonDelegateAction, readNonDelegateAction,
      readDeterministicAccountStateInit_write h.1, @readLE_writeLE_of_lt 16 _ h.2]
  | transferToGasKey | withdrawFromGasKey =>
    simp [writeNonDelegateAction, readNonDelegateAction, readPublicKey_writePublicKey,
      @readLE_writeLE_of_lt 16 _ h]

theorem readDelegateAction_write {action : DelegateAction} (h : action.InRange C) (rest : Bytes) :
    readDelegateAction C (writeDelegateAction action ++ rest) = some (action, rest) := by
  have hactions := readVec_writeVec h.actions_length
    fun inner hinner => readNonDelegateAction_write (h.actions inner hinner)
  simp only [readDelegateAction, writeDelegateAction, List.append_assoc,
    readAccountId_writeString h.senderId, readAccountId_writeString h.receiverId, hactions,
    @readLE_writeLE_of_lt 8 _ h.nonce_lt, @readLE_writeLE_of_lt 8 _ h.maxBlockHeight_lt,
    readPublicKey_writePublicKey, Option.bind_eq_bind, Option.bind_some]

theorem head_writeNonDelegateAction (action : NonDelegateAction) :
    ∃ tag bytes, writeNonDelegateAction action = tag :: bytes ∧ tag ≠ 8 := by
  cases action <;> exact ⟨_, _, rfl, by decide⟩

theorem readAction_write {action : Action} (h : action.InRange C) (rest : Bytes) :
    readAction C (writeAction action ++ rest) = some (action, rest) := by
  cases action with
  | basic action =>
    obtain ⟨_, bytes, hbytes, htag⟩ := head_writeNonDelegateAction action
    have hread := readNonDelegateAction_write h rest
    rw [writeAction]
    rw [hbytes, List.cons_append] at hread ⊢
    rw [readAction]
    · simp only [hread, Option.bind_eq_bind, Option.bind_some]
    · intro bytes heq
      exact htag (List.cons.inj heq).1
  | delegate signed =>
    simp only [writeAction, readAction, List.cons_append, List.append_assoc,
      readDelegateAction_write h.1, readSignature_writeSignature h.2, Option.bind_eq_bind,
      Option.bind_some]

end Actions

/-! ## Transactions -/

def writeTransactionNonce (nonce : TransactionNonce) : Bytes :=
  match nonce.nonceIndex with
  | none => 0 :: writeLE 8 nonce.nonce
  | some index => 1 :: writeLE 8 nonce.nonce ++ writeLE 2 index

def readTransactionNonce : Reader TransactionNonce
  | 0 :: bytes => do
    let (nonce, bytes) ← readLE 8 bytes
    some (⟨nonce, none⟩, bytes)
  | 1 :: bytes => do
    let (nonce, bytes) ← readLE 8 bytes
    let (index, bytes) ← readLE 2 bytes
    some (⟨nonce, some index⟩, bytes)
  | _ => none

def writeTransaction (tx : Transaction) : Bytes :=
  match tx.version with
  | .v0 =>
    writeString tx.signerId ++ writePublicKey tx.publicKey ++ writeLE 8 tx.nonce.nonce ++
      writeString tx.receiverId ++ tx.blockHash ++ writeVec writeAction tx.actions
  | .v1 =>
    1 :: writeString tx.signerId ++ writePublicKey tx.publicKey ++
      writeTransactionNonce tx.nonce ++ writeString tx.receiverId ++ tx.blockHash ++
      writeVec writeAction tx.actions

/-- The signer's id, whose length has been taken from the stream already. -/
def readSignerId (C : Crypto) (buf : Bytes) : Reader AccountId := fun bytes => do
  let (strLen, _) ← readLE 4 buf
  if AccountId.maxLen < strLen then none
  else do
    let (text, bytes) ← readBytes strLen bytes
    let id ← String.fromUTF8? ⟨text.toArray⟩
    match AccountId.validate C id with
    | .ok () => some (id, bytes)
    | .error _ => none

def readTransactionV0 (C : Crypto) (buf : Bytes) : Reader Transaction := fun bytes => do
  let (signerId, bytes) ← readSignerId C buf bytes
  let (publicKey, bytes) ← readPublicKey bytes
  let (nonce, bytes) ← readLE 8 bytes
  let (receiverId, bytes) ← readAccountId C bytes
  let (blockHash, bytes) ← readBytes 32 bytes
  let (actions, bytes) ← readVec (readAction C) bytes
  some ({ version := .v0, signerId, publicKey, nonce := ⟨nonce, none⟩, receiverId, blockHash,
          actions, index_none := fun _ => rfl }, bytes)

def readTransactionV1 (C : Crypto) (buf : Bytes) : Reader Transaction := fun bytes => do
  let (signerId, bytes) ← readSignerId C buf bytes
  let (publicKey, bytes) ← readPublicKey bytes
  let (nonce, bytes) ← readTransactionNonce bytes
  let (receiverId, bytes) ← readAccountId C bytes
  let (blockHash, bytes) ← readBytes 32 bytes
  let (actions, bytes) ← readVec (readAction C) bytes
  some ({ version := .v1, signerId, publicKey, nonce, receiverId, blockHash, actions,
          index_none := nofun }, bytes)

/-- An account id has at most 64 bytes, so the second byte of its length is zero; the length of
the signer of a second version transaction starts at the second byte and is not zero. -/
def readTransaction (C : Crypto) : Reader Transaction
  | u1 :: u2 :: u3 :: u4 :: bytes =>
    if u2 = 0 then readTransactionV0 C [u1, u2, u3, u4] bytes
    else
      match bytes with
      | u5 :: bytes => readTransactionV1 C [u2, u3, u4, u5] bytes
      | [] => none
  | _ => none

def writeSignedTransaction (tx : SignedTransaction) : Bytes :=
  writeTransaction tx.transaction ++ writeSignature tx.signature

def readSignedTransaction (C : Crypto) : Reader SignedTransaction := fun bytes => do
  let (transaction, bytes) ← readTransaction C bytes
  let (signature, bytes) ← readSignature bytes
  some ({ transaction, signature }, bytes)

def Transaction.getHash (C : Crypto) (tx : Transaction) : CryptoHash :=
  C.sha256 (writeTransaction tx)

structure TransactionNonce.InRange (nonce : TransactionNonce) : Prop where
  nonce_lt : nonce.nonce < 2 ^ 64
  nonceIndex_lt : ∀ index, nonce.nonceIndex = some index → index < 2 ^ 16

structure Transaction.InRange (C : Crypto) (tx : Transaction) : Prop where
  signerId : AccountId.validate C tx.signerId = .ok ()
  nonce : tx.nonce.InRange
  receiverId : AccountId.validate C tx.receiverId = .ok ()
  blockHash_length : tx.blockHash.length = 32
  actions_length : tx.actions.length < 2 ^ 32
  actions : ∀ action ∈ tx.actions, action.InRange C

section Transactions

variable {C : Crypto}

theorem readTransactionNonce_write {nonce : TransactionNonce} (h : nonce.InRange) (rest : Bytes) :
    readTransactionNonce (writeTransactionNonce nonce ++ rest) = some (nonce, rest) := by
  obtain ⟨nonce, index⟩ := nonce
  cases index with
  | none => simp [writeTransactionNonce, readTransactionNonce, @readLE_writeLE_of_lt 8 _ h.nonce_lt]
  | some index =>
    simp [writeTransactionNonce, readTransactionNonce, @readLE_writeLE_of_lt 8 _ h.nonce_lt,
      @readLE_writeLE_of_lt 2 _ (h.nonceIndex_lt index rfl)]

theorem writeString_of_validate {id : AccountId} (h : AccountId.validate C id = .ok ()) :
    ∃ u : UInt8, u ≠ 0 ∧ writeLE 4 id.utf8ByteSize = [u, 0, 0, 0] ∧
      writeString id = u :: 0 :: 0 :: 0 :: id.toUTF8.data.toList := by
  obtain ⟨_, _, -⟩ := AccountId.validate_eq_ok.mp h
  have hlength : writeLE 4 id.utf8ByteSize = [UInt8.ofNat (id.utf8ByteSize % 256), 0, 0, 0] := by
    have hdiv : id.utf8ByteSize / 256 = 0 := by omega
    simp [writeLE, hdiv]
  refine ⟨_, ?_, hlength, ?_⟩
  · intro hzero
    have htoNat : id.utf8ByteSize % 256 = 0 := by simpa using congrArg UInt8.toNat hzero
    omega
  · rw [writeString, hlength]
    rfl

theorem readSignerId_write {id : AccountId} (h : AccountId.validate C id = .ok ()) (rest : Bytes) :
    readSignerId C (writeLE 4 id.utf8ByteSize) (id.toUTF8.data.toList ++ rest) =
      some (id, rest) := by
  obtain ⟨-, hmax, -⟩ := AccountId.validate_eq_ok.mp h
  have hread := @readLE_writeLE_of_lt 4 id.utf8ByteSize (by omega) []
  rw [List.append_nil] at hread
  simp only [readSignerId, hread, Option.bind_eq_bind, Option.bind_some,
    if_neg (Nat.not_lt.mpr hmax), AccountId.maxLen,
    readBytes_append_of_length (length_toUTF8 id), fromUTF8_toUTF8, h]

theorem readTransaction_write {tx : Transaction} (h : tx.InRange C) (rest : Bytes) :
    readTransaction C (writeTransaction tx ++ rest) = some (tx, rest) := by
  obtain ⟨version, signerId, _, nonce, receiverId, _, actions, hindex⟩ := tx
  obtain ⟨u, hu, hlength, hsigner⟩ := writeString_of_validate h.signerId
  have hactions := readVec_writeVec h.actions_length
    fun action haction => readAction_write (h.actions action haction)
  have hsignerId := readSignerId_write h.signerId
  rw [hlength] at hsignerId
  cases version with
  | v0 =>
    obtain ⟨nonce, index⟩ := nonce
    obtain rfl : index = none := hindex rfl
    simp only [writeTransaction, hsigner, List.cons_append, List.append_assoc, readTransaction,
      if_true, readTransactionV0, hsignerId, readPublicKey_writePublicKey,
      @readLE_writeLE_of_lt 8 _ h.nonce.nonce_lt, readAccountId_writeString h.receiverId,
      readBytes_append_of_length h.blockHash_length, hactions, Option.bind_eq_bind,
      Option.bind_some]
  | v1 =>
    simp only [writeTransaction, hsigner, List.cons_append, List.append_assoc, readTransaction,
      if_neg hu, readTransactionV1, hsignerId, readPublicKey_writePublicKey,
      readTransactionNonce_write h.nonce, readAccountId_writeString h.receiverId,
      readBytes_append_of_length h.blockHash_length, hactions, Option.bind_eq_bind,
      Option.bind_some]

theorem readSignedTransaction_write {tx : SignedTransaction} (h : tx.transaction.InRange C)
    (hsignature : tx.signature.InRange) (rest : Bytes) :
    readSignedTransaction C (writeSignedTransaction tx ++ rest) = some (tx, rest) := by
  simp only [readSignedTransaction, writeSignedTransaction, List.append_assoc,
    readTransaction_write h, readSignature_writeSignature hsignature, Option.bind_eq_bind,
    Option.bind_some]

end Transactions

end BitInfinity
