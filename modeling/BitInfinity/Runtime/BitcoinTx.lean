import BitInfinity.Bitcoin.Address
import BitInfinity.Runtime.Errors
import BitInfinity.Store.Trie

/-!
# Bitcoin accounts and Patoshi records

The lock that keeps the coins of the Patoshi accounts above their genesis balance, and the
registration of the key of a Bitcoin account on its first transaction.
-/

namespace BitInfinity

open Foundation

def asciiBytes (s : String) : Bytes := s.toList.map fun c => UInt8.ofNat c.toNat

def foundationAccountId : AccountId := "near"
def patoshiRecordDataKey : Bytes := asciiBytes "bitinfinity:patoshi:v1"
def patoshiIndexDataKey : Bytes := asciiBytes "bitinfinity:patoshi:index:v1"
def patoshiUnlockDelayEpochs : EpochHeight := 14

structure PatoshiRecord where
  genesisBalance : Balance
  isLocked : Bool
  unlockEpoch : Option EpochHeight
  deriving DecidableEq, Repr

/-! ## Stored form -/

def PatoshiRecord.encode (record : PatoshiRecord) : Bytes :=
  writeLE 16 record.genesisBalance ++ writeBool record.isLocked ++
    writeOption (writeLE 8) record.unlockEpoch

def readPatoshiRecord : Reader PatoshiRecord := fun bytes => do
  let (genesisBalance, bytes) ← readLE 16 bytes
  let (isLocked, bytes) ← readBool bytes
  let (unlockEpoch, bytes) ← readOption (readLE 8) bytes
  some ({ genesisBalance, isLocked, unlockEpoch }, bytes)

def PatoshiRecord.decode (bytes : Bytes) : Option PatoshiRecord := decodeAll readPatoshiRecord bytes

/-- The fields of a record fit the integers that store them. -/
structure PatoshiRecord.InRange (record : PatoshiRecord) : Prop where
  genesisBalance_lt : record.genesisBalance < 2 ^ 128
  unlockEpoch_lt : ∀ e, record.unlockEpoch = some e → e < 2 ^ 64

theorem PatoshiRecord.inRange_of_decode {bytes : Bytes} {record : PatoshiRecord}
    (h : PatoshiRecord.decode bytes = some record) : record.InRange := by
  have hread := decodeAll_eq_some h
  simp only [readPatoshiRecord, Option.bind_eq_bind, Option.bind_eq_some_iff, Prod.exists,
    Option.some.injEq, Prod.mk.injEq] at hread
  obtain ⟨_, _, hgenesis, _, _, -, _, _, hunlock, rfl, -⟩ := hread
  constructor
  · exact readLE_lt hgenesis
  · rintro e rfl
    obtain ⟨_, htail⟩ := readOption_eq_some hunlock
    exact readLE_lt htail

theorem PatoshiRecord.decode_encode {record : PatoshiRecord} (h : record.InRange) :
    PatoshiRecord.decode record.encode = some record := by
  apply decodeAll_of_read
  have hunlock : readOption (readLE 8) (writeOption (writeLE 8) record.unlockEpoch ++ []) =
      some (record.unlockEpoch, []) :=
    readOption_writeOption _ _ fun v hv => readLE_writeLE (h.unlockEpoch_lt v hv) []
  rw [List.append_nil] at hunlock
  simp only [readPatoshiRecord, PatoshiRecord.encode, List.append_assoc,
    readLE_writeLE (show _ < 256 ^ 16 from h.genesisBalance_lt), readBool_writeBool, hunlock,
    Option.bind_eq_bind, Option.bind_some]

section Storage

variable {E : Externals}

/-- `near_store::get` of a record: bytes that do not decode are an inconsistent state. -/
def Entry.patoshiRecord (e : Entry) : Except StorageError (Option PatoshiRecord) :=
  match e.contractData patoshiRecordDataKey with
  | none => .ok none
  | some bytes =>
    match PatoshiRecord.decode bytes with
    | some record => .ok (some record)
    | none => .error .failedToDeserialize

section RecordLemmas

variable {e : Entry} {record : PatoshiRecord}

theorem Entry.patoshiRecord_inRange (h : e.patoshiRecord = .ok (some record)) : record.InRange := by
  unfold Entry.patoshiRecord at h
  split at h
  · simp at h
  · split at h
    · rename_i decoded hdecode
      obtain rfl : decoded = record := by simpa using h
      exact PatoshiRecord.inRange_of_decode hdecode
    · simp at h

theorem Entry.patoshiRecord_setContractData (h : record.InRange) :
    (e.setContractData patoshiRecordDataKey (some record.encode)).patoshiRecord =
      .ok (some record) := by
  simp [Entry.patoshiRecord, Entry.setContractData, PatoshiRecord.decode_encode h]

theorem Entry.patoshiRecord_congr {e' : Entry} (h : e.contractData = e'.contractData) :
    e.patoshiRecord = e'.patoshiRecord := by
  simp [Entry.patoshiRecord, h]

end RecordLemmas

def getPatoshiRecord (t : Trie E) (id : AccountId) : Except StorageError (Option PatoshiRecord) :=
  (t.entries id).patoshiRecord

def setPatoshiRecord (t : Trie E) (id : AccountId) (record : PatoshiRecord) : Trie E :=
  t.setContractData id patoshiRecordDataKey record.encode

def parseIndexedAccount (E : Externals) (id : String) : Except StorageError AccountId :=
  match AccountId.validate E.toCrypto id with
  | .ok () => .ok id
  | .error error => .error (.invalidAccountInPatoshiIndex id error)

def getPatoshiIndex (t : Trie E) : Except StorageError (List AccountId) :=
  match (t.entries foundationAccountId).contractData patoshiIndexDataKey with
  | none => .ok []
  | some bytes => do
    let accounts ← okOr (decodeAll (readVec readString) bytes) .failedToDeserialize
    accounts.mapM (parseIndexedAccount E)

end Storage

/-! ## The lock -/

variable {signerId receiverId : AccountId} {actions : List Action} {version : ProtocolVersion}

def isPatoshiLocked (record : PatoshiRecord) (epochHeight : EpochHeight) : Bool :=
  record.isLocked && match record.unlockEpoch with
    | some unlockEpoch => epochHeight < unlockEpoch
    | none => true

/-- The amount swept and the excess that stays because it is staked. -/
def computePatoshiSweep (liquidBalance lockedBalance genesisBalance : Balance) :
    Balance × Balance :=
  let totalBalance := saturatingAdd 128 liquidBalance lockedBalance
  let excess := totalBalance - genesisBalance
  let sweepAmount := min liquidBalance excess
  (sweepAmount, excess - sweepAmount)

def actionName : Action → String
  | .basic .createAccount => "CreateAccount"
  | .basic (.deployContract _) => "DeployContract"
  | .basic (.functionCall _) => "FunctionCall"
  | .basic (.transfer _) => "Transfer"
  | .basic (.stake _ _) => "Stake"
  | .basic (.addKey _ _) => "AddKey"
  | .basic (.deleteKey _) => "DeleteKey"
  | .basic (.deleteAccount _) => "DeleteAccount"
  | .delegate _ => "Delegate"
  | .basic (.deployGlobalContract _ _) => "DeployGlobalContract"
  | .basic (.useGlobalContract _) => "UseGlobalContract"
  | .basic (.transferToGasKey _ _) => "TransferToGasKey"
  | .basic (.withdrawFromGasKey _ _) => "WithdrawFromGasKey"
  | .basic (.deterministicStateInit _ _) => "DeterministicStateInit"

def patoshiValidationError (reason : String) (version : ProtocolVersion) : InvalidTxError :=
  .actionsValidation (.unsupportedProtocolFeature reason version)

def validateLockedPatoshiAction (signerId receiverId : AccountId) (version : ProtocolVersion)
    (action : Action) : Except InvalidTxError Unit :=
  match action with
  | .basic (.stake _ _) =>
    ensure (receiverId == signerId)
      (patoshiValidationError "patoshi_locked_stake_requires_self_receiver" version)
  | .basic (.transfer _) =>
    ensure (receiverId == foundationAccountId)
      (patoshiValidationError "patoshi_locked_transfer_requires_foundation_receiver" version)
  | action =>
    .error (patoshiValidationError ("patoshi_locked_action_blocked:" ++ actionName action) version)

def validateLockedPatoshiTransaction (signerId receiverId : AccountId) (actions : List Action)
    (postTxTotalBalance : Balance) (epochHeight : EpochHeight) (version : ProtocolVersion)
    (record : PatoshiRecord) : Except InvalidTxError Unit :=
  if !isPatoshiLocked record epochHeight then
    .ok ()
  else do
    actions.forM (validateLockedPatoshiAction signerId receiverId version)
    ensure (record.genesisBalance ≤ postTxTotalBalance)
      (patoshiValidationError "patoshi_below_genesis_floor" version)

theorem validateLockedPatoshiTransaction_eq_ok {total : Balance} {epoch : EpochHeight}
    {record : PatoshiRecord} (hlocked : isPatoshiLocked record epoch = true) :
    validateLockedPatoshiTransaction signerId receiverId actions total epoch version record =
        .ok () ↔
      (∀ action ∈ actions,
        validateLockedPatoshiAction signerId receiverId version action = .ok ()) ∧
      record.genesisBalance ≤ total := by
  unfold validateLockedPatoshiTransaction
  rw [hlocked, Bool.not_true, if_neg Bool.false_ne_true, bind_eq_ok]
  constructor
  · rintro ⟨⟨⟩, hactions, hfloor⟩
    exact ⟨forM_eq_ok.mp hactions, by simpa using hfloor⟩
  · rintro ⟨hactions, hfloor⟩
    exact ⟨(), forM_eq_ok.mpr hactions, by simpa using hfloor⟩

theorem validateLockedPatoshiAction_eq_ok {action : Action} :
    validateLockedPatoshiAction signerId receiverId version action = .ok () ↔
      (∃ stake publicKey, action = .basic (.stake stake publicKey) ∧ receiverId = signerId) ∨
      (∃ deposit, action = .basic (.transfer deposit) ∧ receiverId = foundationAccountId) := by
  unfold validateLockedPatoshiAction
  split
  · simp
  · simp
  · rename_i hstake htransfer
    constructor
    · intro h
      cases h
    · rintro (⟨stake, publicKey, rfl, -⟩ | ⟨deposit, rfl, -⟩)
      · exact absurd rfl (hstake stake publicKey)
      · exact absurd rfl (htransfer deposit)

def isPatoshiUnlockTrigger (receiverId : AccountId) (actions : List Action) : Bool :=
  match actions with
  | [.basic (.transfer deposit)] => receiverId == foundationAccountId && deposit == 0
  | _ => false

theorem isPatoshiUnlockTrigger_iff : isPatoshiUnlockTrigger receiverId actions = true ↔
      receiverId = foundationAccountId ∧ actions = [.basic (.transfer 0)] := by
  unfold isPatoshiUnlockTrigger
  split
  · simp
  · rename_i h
    constructor
    · intro hfalse
      cases hfalse
    · rintro ⟨-, rfl⟩
      exact absurd rfl (h 0)

/-- The record with the unlock scheduled, when this transaction schedules it. -/
def maybeSchedulePatoshiUnlock (record : PatoshiRecord) (receiverId : AccountId)
    (actions : List Action) (currentEpoch : EpochHeight) : Option PatoshiRecord :=
  if !isPatoshiLocked record currentEpoch || record.unlockEpoch.isSome then
    none
  else if !isPatoshiUnlockTrigger receiverId actions then
    none
  else
    some { record with
      unlockEpoch := some (saturatingAdd 64 currentEpoch patoshiUnlockDelayEpochs) }

/-! ## First transactions of Bitcoin accounts -/

section Registration

variable {E : Externals}

/-- The recovered key, with its P2PKH address as the primary one. -/
def recoverSecp256k1Signature (C : Crypto) (messageHash : Bytes) (signature : Signature) :
    Except String (Secp256K1PublicKey × String) :=
  match signature with
  | .secp256k1 sig => do
    ensure (messageHash.length == 32) "Message hash must be exactly 32 bytes"
    let recovered ← okOr (C.recoverSecp256k1 sig messageHash) "Failed to recover public key"
    .ok (recovered, (deriveAllBitcoinAddresses C recovered).headD "")
  | .ed25519 _ => .error "Signature is not secp256k1; cannot recover public key"

def autoRegisterAccessKeyIfNeeded (t : Trie E) (id : AccountId) (pubkey : PublicKey) : Trie E :=
  match t.getAccessKey id pubkey with
  | some _ => t
  | none => t.setAccessKey id pubkey .fullAccess

/-- The verdict, the recovered key, and the trie after a possible registration. -/
def verifyAndRegisterBitcoinTransaction (txSignature : Signature) (messageHash : Bytes)
    (signerId : AccountId) (t : Trie E) :
    Except String ((Bool × Option PublicKey) × Trie E) :=
  if isBitcoinAddress E.toCrypto signerId then do
    let (recovered, _) ← recoverSecp256k1Signature E.toCrypto messageHash txSignature
    if signerId ∈ deriveAllBitcoinAddresses E.toCrypto recovered then
      .ok ((true, some (.secp256k1 recovered)),
        autoRegisterAccessKeyIfNeeded t signerId (.secp256k1 recovered))
    else
      .ok ((false, none), t)
  else
    .ok ((true, none), t)

end Registration

end BitInfinity
