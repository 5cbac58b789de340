import BitInfinity.Primitives.Wire
import BitInfinity.Tools.GenesisSupply

/-!
# Transactions built by hand

The proxy does not link nearcore's types.  It writes the bytes of the actions and of the whole
transaction itself, signs their hash and sends the result in base64.
-/

namespace BitInfinity.Proxy

open BitInfinity Foundation

/-- An action in its serialised form, `NearAction` in the builder. -/
structure BorshAction where
  bytes : Bytes
  deriving DecidableEq, Repr

namespace BorshAction

def createAccount : BorshAction := ⟨[0x00]⟩

def deployContract (code : Bytes) : BorshAction := ⟨0x01 :: writeLE 4 code.length ++ code⟩

def functionCall (methodName : String) (args : Bytes) (gas deposit : Nat) : BorshAction :=
  ⟨0x02 :: writeString methodName ++ writeLE 4 args.length ++ args ++ writeLE 8 gas ++
    writeLE 16 deposit⟩

def transfer (deposit : Nat) : BorshAction := ⟨0x03 :: writeLE 16 deposit⟩

def stake (stakeAmount : Nat) (publicKey : Secp256K1PublicKey) : BorshAction :=
  ⟨0x04 :: writeLE 16 stakeAmount ++ 0x01 :: publicKey.bytes⟩

def stakeEd25519 (stakeAmount : Nat) (publicKey : ED25519PublicKey) : BorshAction :=
  ⟨0x04 :: writeLE 16 stakeAmount ++ 0x00 :: publicKey.bytes⟩

def addFullAccessKey (publicKey : Secp256K1PublicKey) : BorshAction :=
  ⟨0x05 :: 0x01 :: publicKey.bytes ++ writeLE 8 0 ++ [0x01]⟩

def addFullAccessKeyEd25519 (publicKey : ED25519PublicKey) : BorshAction :=
  ⟨0x05 :: 0x00 :: publicKey.bytes ++ writeLE 8 0 ++ [0x01]⟩

def allowanceBytes : Option Nat → Bytes
  | some allowance => 0x01 :: writeLE 16 allowance
  | none => [0x00]

def addFunctionCallKey (publicKey : Secp256K1PublicKey) (allowance : Option Nat)
    (receiverId : String) (methodNames : List String) : BorshAction :=
  ⟨0x05 :: 0x01 :: publicKey.bytes ++ writeLE 8 0 ++ [0x00] ++ allowanceBytes allowance ++
    writeString receiverId ++ writeLE 4 methodNames.length ++ methodNames.flatMap writeString⟩

def deleteKey (publicKey : Secp256K1PublicKey) : BorshAction := ⟨0x06 :: 0x01 :: publicKey.bytes⟩

def deleteKeyEd25519 (publicKey : ED25519PublicKey) : BorshAction :=
  ⟨0x06 :: 0x00 :: publicKey.bytes⟩

def deleteAccount (beneficiaryId : String) : BorshAction := ⟨0x07 :: writeString beneficiaryId⟩

def deployGlobalContract (code : Bytes) : BorshAction :=
  ⟨0x09 :: 0x00 :: writeLE 4 code.length ++ code⟩

def useGlobalContractByHash (codeHash : Bytes) : BorshAction := ⟨0x0a :: 0x00 :: codeHash⟩

def useGlobalContractByAccount (accountId : String) : BorshAction :=
  ⟨0x0a :: 0x01 :: writeString accountId⟩

def transferToGasKey (publicKey : Secp256K1PublicKey) (deposit : Nat) : BorshAction :=
  ⟨0x0c :: 0x01 :: publicKey.bytes ++ writeLE 16 deposit⟩

def withdrawFromGasKey (publicKey : Secp256K1PublicKey) (amount : Nat) : BorshAction :=
  ⟨0x0d :: 0x01 :: publicKey.bytes ++ writeLE 16 amount⟩

def delegate (delegateActionBytes signatureBytes : Bytes) : BorshAction :=
  ⟨0x08 :: writeLE 4 delegateActionBytes.length ++ delegateActionBytes ++
    writeLE 4 signatureBytes.length ++ signatureBytes⟩

end BorshAction

structure NearTxBuilder where
  signerId : String
  publicKeyUncompressed : Secp256K1PublicKey
  nonce : Nat
  receiverId : String
  blockHash : Bytes
  actions : List BorshAction
  deriving DecidableEq, Repr

/-- The crate that signs.  A signature is its compact form and the number that recovery needs. -/
structure Signing where
  SecretKey : Type
  publicKey : SecretKey → Secp256K1PublicKey
  signEcdsaRecoverable : SecretKey → Bytes → Bytes × Nat

namespace NearTxBuilder

def new (signerId : String) (publicKeyUncompressed : Secp256K1PublicKey) (nonce : Nat)
    (receiverId : String) (blockHash : Bytes) : NearTxBuilder :=
  { signerId, publicKeyUncompressed, nonce, receiverId, blockHash, actions := [] }

def addAction (builder : NearTxBuilder) (action : BorshAction) : NearTxBuilder :=
  { builder with actions := builder.actions ++ [action] }

def borshSerializeTx (builder : NearTxBuilder) : Bytes :=
  writeString builder.signerId ++ 0x01 :: builder.publicKeyUncompressed.bytes ++
    writeLE 8 builder.nonce ++ writeString builder.receiverId ++ builder.blockHash ++
    writeLE 4 builder.actions.length ++ builder.actions.flatMap BorshAction.bytes

def signAndEncode (C : Crypto) (S : Signing) (B : Tools.Base64) (builder : NearTxBuilder)
    (secretKey : S.SecretKey) : Except String String := do
  ensure (!builder.actions.isEmpty) "Transaction must have at least one action"
  let txBytes := builder.borshSerializeTx
  let txHash := C.sha256 txBytes
  ensure (txHash.length == 32)
    "Failed to create message: secp: message was not 32 bytes (do you need to hash?)"
  let (sigCompact, recId) := S.signEcdsaRecoverable secretKey txHash
  .ok (B.encode (txBytes ++ 0x01 :: sigCompact ++ [UInt8.ofNat recId]))

theorem actions_foldl_addAction (builder : NearTxBuilder) (actions : List BorshAction) :
    actions.foldl addAction builder = { builder with actions := builder.actions ++ actions } := by
  induction actions generalizing builder with
  | nil => simp
  | cons action actions ih =>
    rw [List.foldl_cons, ih]
    simp [addAction]

end NearTxBuilder

/-! ## What the calls stand for -/

/-- A call of one of the constructors, with its arguments. -/
inductive ActionCall
  | createAccount
  | deployContract (code : Bytes)
  | functionCall (methodName : String) (args : Bytes) (gas deposit : Nat)
  | transfer (deposit : Nat)
  | stake (stakeAmount : Nat) (publicKey : Secp256K1PublicKey)
  | stakeEd25519 (stakeAmount : Nat) (publicKey : ED25519PublicKey)
  | addFullAccessKey (publicKey : Secp256K1PublicKey)
  | addFullAccessKeyEd25519 (publicKey : ED25519PublicKey)
  | addFunctionCallKey (publicKey : Secp256K1PublicKey) (allowance : Option Nat)
      (receiverId : String) (methodNames : List String)
  | deleteKey (publicKey : Secp256K1PublicKey)
  | deleteKeyEd25519 (publicKey : ED25519PublicKey)
  | deleteAccount (beneficiaryId : String)
  | useGlobalContractByHash (codeHash : Bytes)
  | useGlobalContractByAccount (accountId : String)
  | transferToGasKey (publicKey : Secp256K1PublicKey) (deposit : Nat)
  | withdrawFromGasKey (publicKey : Secp256K1PublicKey) (amount : Nat)

namespace ActionCall

def build : ActionCall → BorshAction
  | .createAccount => .createAccount
  | .deployContract code => .deployContract code
  | .functionCall methodName args gas deposit => .functionCall methodName args gas deposit
  | .transfer deposit => .transfer deposit
  | .stake stakeAmount publicKey => .stake stakeAmount publicKey
  | .stakeEd25519 stakeAmount publicKey => .stakeEd25519 stakeAmount publicKey
  | .addFullAccessKey publicKey => .addFullAccessKey publicKey
  | .addFullAccessKeyEd25519 publicKey => .addFullAccessKeyEd25519 publicKey
  | .addFunctionCallKey publicKey allowance receiverId methodNames =>
    .addFunctionCallKey publicKey allowance receiverId methodNames
  | .deleteKey publicKey => .deleteKey publicKey
  | .deleteKeyEd25519 publicKey => .deleteKeyEd25519 publicKey
  | .deleteAccount beneficiaryId => .deleteAccount beneficiaryId
  | .useGlobalContractByHash codeHash => .useGlobalContractByHash codeHash
  | .useGlobalContractByAccount accountId => .useGlobalContractByAccount accountId
  | .transferToGasKey publicKey deposit => .transferToGasKey publicKey deposit
  | .withdrawFromGasKey publicKey amount => .withdrawFromGasKey publicKey amount

/-- The action that the call is meant to build; keys are added with nonce zero. -/
def action : ActionCall → NonDelegateAction
  | .createAccount => .createAccount
  | .deployContract code => .deployContract code
  | .functionCall methodName args gas deposit => .functionCall ⟨methodName, args, gas, deposit⟩
  | .transfer deposit => .transfer deposit
  | .stake stakeAmount publicKey => .stake stakeAmount (.secp256k1 publicKey)
  | .stakeEd25519 stakeAmount publicKey => .stake stakeAmount (.ed25519 publicKey)
  | .addFullAccessKey publicKey => .addKey (.secp256k1 publicKey) .fullAccess
  | .addFullAccessKeyEd25519 publicKey => .addKey (.ed25519 publicKey) .fullAccess
  | .addFunctionCallKey publicKey allowance receiverId methodNames =>
    .addKey (.secp256k1 publicKey) ⟨0, .functionCall ⟨allowance, receiverId, methodNames⟩⟩
  | .deleteKey publicKey => .deleteKey (.secp256k1 publicKey)
  | .deleteKeyEd25519 publicKey => .deleteKey (.ed25519 publicKey)
  | .deleteAccount beneficiaryId => .deleteAccount beneficiaryId
  | .useGlobalContractByHash codeHash => .useGlobalContract (.codeHash codeHash)
  | .useGlobalContractByAccount accountId => .useGlobalContract (.accountId accountId)
  | .transferToGasKey publicKey deposit => .transferToGasKey (.secp256k1 publicKey) deposit
  | .withdrawFromGasKey publicKey amount => .withdrawFromGasKey (.secp256k1 publicKey) amount

/-- Numbers fit their types, texts and byte strings have a length of 32 bits, and accounts are
accounts. -/
def InRange (C : Crypto) : ActionCall → Prop
  | .createAccount => True
  | .deployContract code => code.length < 2 ^ 32
  | .functionCall methodName args gas deposit =>
    methodName.utf8ByteSize < 2 ^ 32 ∧ args.length < 2 ^ 32 ∧ gas < 2 ^ 64 ∧ deposit < 2 ^ 128
  | .transfer deposit => deposit < 2 ^ 128
  | .stake stakeAmount _ => stakeAmount < 2 ^ 128
  | .stakeEd25519 stakeAmount _ => stakeAmount < 2 ^ 128
  | .addFullAccessKey _ => True
  | .addFullAccessKeyEd25519 _ => True
  | .addFunctionCallKey _ allowance receiverId methodNames =>
    (∀ a, allowance = some a → a < 2 ^ 128) ∧ receiverId.utf8ByteSize < 2 ^ 32 ∧
      methodNames.length < 2 ^ 32 ∧ ∀ name ∈ methodNames, name.utf8ByteSize < 2 ^ 32
  | .deleteKey _ => True
  | .deleteKeyEd25519 _ => True
  | .deleteAccount beneficiaryId => AccountId.validate C beneficiaryId = .ok ()
  | .useGlobalContractByHash codeHash => codeHash.length = 32
  | .useGlobalContractByAccount accountId => AccountId.validate C accountId = .ok ()
  | .transferToGasKey _ deposit => deposit < 2 ^ 128
  | .withdrawFromGasKey _ amount => amount < 2 ^ 128

theorem bytes_build (call : ActionCall) :
    call.build.bytes = writeNonDelegateAction call.action := by
  cases call with
  | functionCall =>
    simp [build, action, BorshAction.functionCall, writeNonDelegateAction,
      writeFunctionCallAction, writeByteVec]
  | addFullAccessKey publicKey =>
    simp [build, action, BorshAction.addFullAccessKey, writeNonDelegateAction, writePublicKey,
      writeAccessKey, AccessKey.fullAccess, writeAccessKeyPermission]
  | addFullAccessKeyEd25519 publicKey =>
    simp [build, action, BorshAction.addFullAccessKeyEd25519, writeNonDelegateAction,
      writePublicKey, writeAccessKey, AccessKey.fullAccess, writeAccessKeyPermission]
  | addFunctionCallKey publicKey allowance =>
    have hallowance : BorshAction.allowanceBytes allowance =
        writeOption (writeLE 16) allowance := by
      cases allowance <;> rfl
    simp [build, action, BorshAction.addFunctionCallKey, writeNonDelegateAction, writePublicKey,
      writeAccessKey, writeAccessKeyPermission, writeFunctionCallPermission, writeVec,
      hallowance]
  | _ => rfl

theorem inRange_action {C : Crypto} {call : ActionCall} (h : call.InRange C) :
    call.action.InRange C := by
  cases call with
  | functionCall => exact ⟨h.1, h.2.1, h.2.2.1, h.2.2.2⟩
  | addFullAccessKey publicKey | addFullAccessKeyEd25519 publicKey => exact ⟨by decide, trivial⟩
  | addFunctionCallKey => exact ⟨Nat.two_pow_pos 64, h.1, h.2.1, h.2.2.1, h.2.2.2⟩
  | _ => exact h

end ActionCall

/-! ## The signed transaction -/

/-- What the proof takes from the hash function and the signature scheme. -/
structure CorrectSigning (C : Crypto) (S : Signing) : Prop where
  sha256_length : ∀ data, (C.sha256 data).length = 32
  compact_length : ∀ secretKey message, (S.signEcdsaRecoverable secretKey message).1.length = 64
  verify_sign : ∀ secretKey message, message.length = 32 →
    C.verify (.secp256k1 ((S.signEcdsaRecoverable secretKey message).1 ++
      [UInt8.ofNat (S.signEcdsaRecoverable secretKey message).2])) message
      (.secp256k1 (S.publicKey secretKey)) = true

def builderOf (signerId : AccountId) (publicKey : Secp256K1PublicKey) (nonce : Nonce)
    (receiverId : AccountId) (blockHash : CryptoHash) (calls : List ActionCall) : NearTxBuilder :=
  (calls.map ActionCall.build).foldl .addAction
    (.new signerId publicKey nonce receiverId blockHash)

def transactionOf (signerId : AccountId) (publicKey : Secp256K1PublicKey) (nonce : Nonce)
    (receiverId : AccountId) (blockHash : CryptoHash) (calls : List ActionCall) : Transaction where
  version := .v0
  signerId := signerId
  publicKey := .secp256k1 publicKey
  nonce := ⟨nonce, none⟩
  receiverId := receiverId
  blockHash := blockHash
  actions := calls.map fun call => .basic call.action
  index_none _ := Eq.refl none

section Builder

variable {signerId receiverId : AccountId} {publicKey : Secp256K1PublicKey} {nonce : Nonce}
  {blockHash : CryptoHash} {calls : List ActionCall}

theorem actions_builderOf : builderOf signerId publicKey nonce receiverId blockHash calls =
      ⟨signerId, publicKey, nonce, receiverId, blockHash, calls.map ActionCall.build⟩ := by
  rw [builderOf, NearTxBuilder.actions_foldl_addAction]
  rfl

theorem flatMap_bytes_build : (calls.map ActionCall.build).flatMap BorshAction.bytes =
      (calls.map fun call => .basic call.action).flatMap writeAction := by
  simp only [List.flatMap_map, ActionCall.bytes_build, writeAction]

theorem borshSerializeTx_builderOf :
    (builderOf signerId publicKey nonce receiverId blockHash calls).borshSerializeTx =
      writeTransaction (transactionOf signerId publicKey nonce receiverId blockHash calls) := by
  rw [actions_builderOf, NearTxBuilder.borshSerializeTx, flatMap_bytes_build]
  simp [writeTransaction, transactionOf, writePublicKey, writeVec]

theorem inRange_transactionOf {C : Crypto} (hsigner : AccountId.validate C signerId = .ok ())
    (hreceiver : AccountId.validate C receiverId = .ok ()) (hnonce : nonce < 2 ^ 64)
    (hhash : blockHash.length = 32) (hlength : calls.length < 2 ^ 32)
    (hcalls : ∀ call ∈ calls, call.InRange C) :
    (transactionOf signerId publicKey nonce receiverId blockHash calls).InRange C where
  signerId := hsigner
  nonce := ⟨hnonce, nofun⟩
  receiverId := hreceiver
  blockHash_length := hhash
  actions_length := by simpa [transactionOf] using hlength
  actions := by
    intro action haction
    obtain ⟨call, hcall, rfl⟩ := List.mem_map.mp haction
    exact ActionCall.inRange_action (hcalls call hcall)

/-- The text that the proxy sends is the signed transaction that the calls stand for. -/
theorem signAndEncode_decodes {C : Crypto} {S : Signing} {B : Tools.Base64}
    (hS : CorrectSigning C S) (secretKey : S.SecretKey)
    (hsigner : AccountId.validate C signerId = .ok ())
    (hreceiver : AccountId.validate C receiverId = .ok ()) (hnonce : nonce < 2 ^ 64)
    (hhash : blockHash.length = 32) (hne : calls ≠ []) (hlength : calls.length < 2 ^ 32)
    (hcalls : ∀ call ∈ calls, call.InRange C) :
    ∃ text bytes signature,
      (builderOf signerId (S.publicKey secretKey) nonce receiverId blockHash calls).signAndEncode
        C S B secretKey = .ok text ∧
      B.decode text = some bytes ∧
      decodeAll (readSignedTransaction C) bytes = some
        ⟨transactionOf signerId (S.publicKey secretKey) nonce receiverId blockHash calls,
          signature⟩ ∧
      C.verify signature ((transactionOf signerId (S.publicKey secretKey) nonce receiverId blockHash
          calls).getHash C)
        (.secp256k1 (S.publicKey secretKey)) = true := by
  set tx := transactionOf signerId (S.publicKey secretKey) nonce receiverId blockHash calls with htx
  have hbytes : (builderOf signerId (S.publicKey secretKey) nonce receiverId blockHash
      calls).borshSerializeTx = writeTransaction tx := borshSerializeTx_builderOf
  have hactions : (builderOf signerId (S.publicKey secretKey) nonce receiverId blockHash
      calls).actions.isEmpty = false := by
    rw [actions_builderOf, List.isEmpty_eq_false_iff]
    simpa using hne
  set sig := S.signEcdsaRecoverable secretKey (C.sha256 (writeTransaction tx)) with hsig
  have hsigned : (builderOf signerId (S.publicKey secretKey) nonce receiverId blockHash
      calls).signAndEncode C S B secretKey =
      .ok (B.encode (writeTransaction tx ++ 0x01 :: sig.1 ++ [UInt8.ofNat sig.2])) := by
    rw [NearTxBuilder.signAndEncode, hactions, hbytes]
    dsimp only
    rw [hS.sha256_length]
    rfl
  refine ⟨_, _, .secp256k1 (sig.1 ++ [UInt8.ofNat sig.2]), hsigned, B.decode_encode _, ?_, ?_⟩
  · have hrange : (Signature.secp256k1 (sig.1 ++ [UInt8.ofNat sig.2])).InRange := by
      simp [Signature.InRange, hsig, hS.compact_length]
    have hread := @readSignedTransaction_write C ⟨tx, _⟩
      (inRange_transactionOf hsigner hreceiver hnonce hhash hlength hcalls) hrange []
    apply decodeAll_of_read
    rw [← hread]
    simp [writeSignedTransaction, writeSignature]
  · exact hS.verify_sign secretKey _ (hS.sha256_length _)

end Builder

variable {C : Crypto} {id : AccountId} {bytes rest : Bytes} {action : DelegateAction}

def sampleCrypto : Crypto :=
  { Crypto.sample with sha256 := fun data => UInt8.ofNat data.length :: List.replicate 31 0 }

def sampleSigning : Signing where
  SecretKey := Unit
  publicKey _ := ⟨List.replicate 64 7, BitInfinity.sampleKey.length_eq⟩
  signEcdsaRecoverable _ _ := (List.replicate 64 1, 0)

theorem correctSigning_sample : CorrectSigning sampleCrypto sampleSigning where
  sha256_length data := by
    change (UInt8.ofNat data.length :: List.replicate 31 0).length = 32
    simp
  compact_length _ _ := rfl
  verify_sign _ _ _ := rfl

theorem signAndEncode_decodes_transfer : ∃ text bytes signature,
      (builderOf "alice" (sampleSigning.publicKey ()) 4 "bob" (List.replicate 32 9)
        [.transfer 5, .deleteAccount "carol"]).signAndEncode sampleCrypto sampleSigning
          .bytewise () = .ok text ∧
      Tools.Base64.bytewise.decode text = some bytes ∧
      decodeAll (readSignedTransaction sampleCrypto) bytes = some
        ⟨transactionOf "alice" (sampleSigning.publicKey ()) 4 "bob" (List.replicate 32 9)
          [.transfer 5, .deleteAccount "carol"], signature⟩ ∧
      sampleCrypto.verify signature
        ((transactionOf "alice" (sampleSigning.publicKey ()) 4 "bob" (List.replicate 32 9)
          [.transfer 5, .deleteAccount "carol"]).getHash sampleCrypto)
        (.secp256k1 (sampleSigning.publicKey ())) = true := by
  refine signAndEncode_decodes correctSigning_sample () ?_ ?_ (by norm_num) rfl (by simp)
    (by simp) ?_
  · rfl
  · rfl
  · intro call hcall
    simp only [List.mem_cons, List.not_mem_nil, or_false] at hcall
    rcases hcall with rfl | rfl
    · norm_num [ActionCall.InRange]
    · rfl

/-! ## Global contracts and delegate actions -/

theorem readLE_deployGlobalContract (n : Nat) (rest : Bytes) : readLE 4 (0 :: writeLE 4 n ++ rest) =
      some (256 * (n % 2 ^ 24), UInt8.ofNat (n / 2 ^ 24 % 256) :: rest) := by
  have hbyte : ∀ m, (UInt8.ofNat (m % 256)).toNat = m % 256 := by simp
  simp only [writeLE, List.cons_append, List.nil_append, readLE, hbyte, Option.bind_eq_bind,
    Option.bind_some, Option.some.injEq, Prod.mk.injEq, List.cons.injEq, and_true]
  refine ⟨?_, ?_⟩
  · simp
    omega
  · rw [Nat.div_div_eq_div_mul, Nat.div_div_eq_div_mul]
    rfl

theorem readAction_deployGlobalContract_iff {code : Bytes} (hlength : code.length < 2 ^ 32) :
    readAction C (BorshAction.deployGlobalContract code).bytes =
        some (.basic (.deployGlobalContract code .codeHash), []) ↔ code = [] := by
  constructor
  · intro h
    have hread : readNonDelegateAction C (BorshAction.deployGlobalContract code).bytes =
        some (.deployGlobalContract code .codeHash, []) := by
      simpa [readAction, BorshAction.deployGlobalContract, Option.bind_eq_some_iff] using h
    simp only [BorshAction.deployGlobalContract, List.cons_append, readNonDelegateAction,
      Option.bind_eq_bind, Option.bind_eq_some_iff, Prod.exists] at hread
    obtain ⟨_, _, hcode, _, _, -, heq⟩ := hread
    cases heq
    have hcount := readLE_of_readByteVec hcode
    rw [← List.cons_append, readLE_deployGlobalContract] at hcount
    simp only [Option.some.injEq, Prod.mk.injEq] at hcount
    have hzero : code.length = 0 := by omega
    exact List.length_eq_zero_iff.mp hzero
  · rintro rfl
    rfl

theorem toUTF8_ne_of_validate (hC : AccountId.TextDecoders C) (h : AccountId.validate C id = .ok ())
    {b : UInt8} : id.toUTF8.data.toList ≠ b :: 0 :: bytes := by
  intro hbytes
  have hprintable := AccountId.printable_of_validate hC h
  rw [toList_toUTF8, utf8Bytes_of_ascii fun c hc => (hprintable c hc).2] at hbytes
  have hzero : (0 : UInt8) ∈ id.toList.map fun c => c.val.toUInt8 := by
    rw [hbytes]
    simp
  obtain ⟨c, hc, hval⟩ := List.mem_map.mp hzero
  have htoNat := toNat_toUInt8_of_ascii (hprintable c hc).2
  rw [hval] at htoNat
  have hpositive := (hprintable c hc).1
  simp only [UInt8.toNat_zero] at htoNat
  omega

theorem writeString_of_readAccountId
    (h : readAccountId C bytes = some (id, rest)) : bytes = writeString id ++ rest := by
  simp only [readAccountId, Option.bind_eq_bind, Option.bind_eq_some_iff, Prod.exists] at h
  obtain ⟨_, _, hread, hvalid⟩ := h
  split at hvalid
  · cases hvalid
    exact eq_writeString_of_readString hread
  · cases hvalid

theorem readAccountId_of_readAction {signature : Signature}
    (h : readAction C (8 :: bytes) = some (.delegate ⟨action, signature⟩, rest)) :
    ∃ rest', readAccountId C bytes = some (action.senderId, rest') := by
  simp only [readAction, Option.bind_eq_bind, Option.bind_eq_some_iff, Prod.exists,
    Option.some.injEq, Prod.mk.injEq, Action.delegate.injEq, SignedDelegateAction.mk.injEq] at h
  obtain ⟨_, _, hdelegate, _, _, _, ⟨rfl, rfl⟩, rfl⟩ := h
  simp only [readDelegateAction, Option.bind_eq_bind, Option.bind_eq_some_iff,
    Prod.exists] at hdelegate
  obtain ⟨senderId, rest', hsender, _, _, _, _, _, _, _, _, _, _, _, _, _, _, _, heq⟩ := hdelegate
  cases heq
  exact ⟨rest', hsender⟩

theorem readAction_delegate_ne (hC : AccountId.TextDecoders C)
    (haction : action.InRange C) (signature : Signature) (rest : Bytes) :
    readAction C (BorshAction.delegate (writeDelegateAction action)
      (writeSignature signature)).bytes ≠ some (.delegate ⟨action, signature⟩, rest) := by
  intro h
  simp only [BorshAction.delegate, List.cons_append, List.append_assoc] at h
  obtain ⟨_, hsender⟩ := readAccountId_of_readAction h
  -- the sender is read from where the length of the delegate action stands
  have hbytes := writeString_of_readAccountId hsender
  rw [writeString, List.append_assoc] at hbytes
  have htail := (List.append_inj hbytes (by rw [length_writeLE, length_writeLE])).2
  obtain ⟨u, -, -, hwrite⟩ := writeString_of_validate haction.senderId
  rw [writeDelegateAction, hwrite] at htail
  have hsize := (AccountId.validate_eq_ok.mp haction.senderId).1
  rw [← length_toUTF8] at hsize
  cases htext : action.senderId.toUTF8.data.toList with
  | nil =>
    rw [htext] at hsize
    exact absurd hsize (by decide)
  | cons b₀ bytes =>
    cases bytes with
    | nil =>
      rw [htext] at hsize
      exact absurd hsize (by simp)
    | cons =>
      rw [htext] at htail
      simp only [List.cons_append, List.cons.injEq] at htail
      obtain ⟨-, rfl, -⟩ := htail
      exact toUTF8_ne_of_validate hC haction.senderId htext

/-- The decoder takes a deployment for what it was meant to be only if the code is empty, and a
delegate action never. -/
theorem misplaced_actions_decode_iff {C : Crypto} (hC : AccountId.TextDecoders C) :
    (∀ code : Bytes, code.length < 2 ^ 32 →
      (readAction C (BorshAction.deployGlobalContract code).bytes =
        some (.basic (.deployGlobalContract code .codeHash), []) ↔ code = [])) ∧
    (∀ (action : DelegateAction) (signature : Signature), action.InRange C → signature.InRange →
      readAction C (BorshAction.delegate (writeDelegateAction action)
        (writeSignature signature)).bytes ≠ some (.delegate ⟨action, signature⟩, [])) :=
  ⟨fun _ hlength => readAction_deployGlobalContract_iff hlength,
    fun _ signature haction _ => readAction_delegate_ne hC haction signature []⟩

def sampleDelegateAction : DelegateAction := ⟨"alice", "bob", [], 1, 2, Receipt.emptyKey⟩

/-- One byte of code, and a delegate action without actions. -/
theorem misplaced_actions_refused :
    readAction .sample (BorshAction.deployGlobalContract [0xab]).bytes = none ∧
      readAction .sample (BorshAction.delegate (writeDelegateAction sampleDelegateAction)
        (writeSignature (.secp256k1 (List.replicate 65 0)))).bytes = none :=
  ⟨rfl, rfl⟩

theorem misplaced_actions_decode_sample :
    readAction .sample (BorshAction.deployGlobalContract []).bytes =
        some (.basic (.deployGlobalContract [] .codeHash), []) ∧
      readAction .sample (BorshAction.delegate (writeDelegateAction sampleDelegateAction)
        (writeSignature (.secp256k1 (List.replicate 65 0)))).bytes ≠
        some (.delegate ⟨sampleDelegateAction, .secp256k1 (List.replicate 65 0)⟩, []) := by
  obtain ⟨hdeploy, hdelegate⟩ := misplaced_actions_decode_iff AccountId.textDecoders_sample
  refine ⟨(hdeploy [] (by decide)).mpr rfl, hdelegate _ _ ?_ rfl⟩
  exact ⟨rfl, rfl, by decide, nofun, by decide, by decide⟩

end BitInfinity.Proxy
