import BitInfinity.Proxy.BitcoinTransaction
import BitInfinity.Proxy.NearClient

/-!
# Methods that send actions of the chain

The methods that deploy, stake, manage keys and accounts, and the Patoshi unlock.  They differ
in how they read their parameters and share the rest: the key of the sender is looked up, and
a transaction with the actions is signed and sent.  Amounts are given in satoshis, as the
conversion from decimal numbers accepts them or not.
-/

namespace BitInfinity.Proxy

open BitInfinity Foundation

/-! ## Looking up the key -/

def getSenderKey (X : ProxyExternals) (address : String) : Handler (KeyEntry × Bytes × String) := do
  let keystore ← readKeystore
  let entry ← .ofExcept (okOr (keystore.get address) ⟨-3, "Address not in wallet: " ++ address⟩)
  let secretBytes ← orFail (-32000) "Key error: " entry.privateKeyBytes
  let secret ← orFail (-32000) "Key error: " (secretKeyFromSlice X secretBytes)
  let nearPublicKey ← orFail (-32000) "Key error: " (entry.nearPublicKeyString X.toCrypto)
  pure (entry, secret, nearPublicKey)

def getBlockAndNonce (X : ProxyExternals) (address nearPublicKey : String) :
    Handler (Bytes × Nat) := do
  let status ← orFail (-32000) "Node error: " (← status)
  let blockHash ← orFail (-32000) "Block hash error: "
    (decodeBlockHash X.toCrypto status.latestBlockHash)
  let next ← nextNonce address nearPublicKey
  pure (blockHash, normalizeNonceForFirstBitcoinTx next status.latestBlockHeight)

/-! ## Sending actions -/

/-- What a method wants to send, once its parameters are read.  A stake names the key of the
account itself. -/
structure ActionRequest where
  sender : String
  receiver : String
  actions : Bytes → List NearAction
  /-- The label of the error when the node refuses. -/
  failed : String

def sendActions (request : ActionRequest) (signer : Signer) : Handler String := do
  let signed ← signAndEncode "Sign failed: " signer.secret
    (signer.transaction signer.nonce request.receiver (request.actions signer.publicKey))
  match ← sendTxAsync signed none with
  | .ok hash =>
    recordNonce signer.address signer.nonce
    pure hash
  | .error e => failWith (-25) (request.failed ++ e)

def submitActions (X : ProxyExternals) (request : ActionRequest) : Handler String := do
  let (entry, secret, nearPublicKey) ← getSenderKey X request.sender
  let (blockHash, nonce) ← getBlockAndNonce X request.sender nearPublicKey
  let publicKey ← orFail (-32000) "Key error: " entry.publicKeyUncompressedBytes
  sendActions request ⟨request.sender, publicKey, secret, blockHash, nonce⟩

/-! ## Parameters -/

def param (value : Option String) (missing : String) : Except RpcError String :=
  okOr value ⟨-32602, missing⟩

def hexParam (text : String) (length : Nat) (invalid : String) : Except RpcError Bytes :=
  match hexDecode text with
  | some bytes => if bytes.length = length then .ok bytes else errResponse (-32602) invalid
  | none => errResponse (-32602) invalid

def amountParam (amount : Option UInt64) (invalid : String) : Except RpcError Nat :=
  match amount with
  | some satoshis => .ok (satoshisToYocto satoshis.toNat)
  | none => errResponse (-3) invalid

def splitMethods (text : String) : List String :=
  if text = "" then [] else (text.toList.splitOn ',').map String.ofList

def deploynearcontract (X : TranslatorExternals) (sender wasmBase64 : Option String) :
    Except RpcError ActionRequest := do
  let sender ← param sender "Missing sender_address parameter"
  let wasmBase64 ← param wasmBase64 "Missing wasm_base64 parameter"
  let code ← okOr (X.base64Decode wasmBase64) ⟨-32602, "Invalid base64"⟩
  .ok ⟨sender, sender, fun _ => [.deployContract code], "TX submit failed: "⟩

def stake (address : Option String) (amount : Option UInt64) : Except RpcError ActionRequest := do
  let address ← param address "Missing address parameter"
  let amount ← amountParam amount "Invalid amount: must be positive, finite, and satoshi-precise"
  .ok ⟨address, address, fun publicKey => [.stake amount publicKey], "Stake TX failed: "⟩

def unstake (address : Option String) : Except RpcError ActionRequest := do
  let address ← param address "Missing address parameter"
  .ok ⟨address, address, fun publicKey => [.stake 0 publicKey], "Unstake TX failed: "⟩

/-- An allowance may be missing, and what is given may be no amount. -/
def addnearkey (address newPubkeyHex permission receiverId methodNames : Option String)
    (allowance : Option (Option UInt64)) : Except RpcError ActionRequest := do
  let address ← param address "Missing address parameter"
  let newPubkeyHex ← param newPubkeyHex "Missing new_pubkey_hex (64-byte uncompressed)"
  let newKey ← hexParam newPubkeyHex 64
    "Invalid pubkey: must be 64 hex bytes (uncompressed, no 0x04 prefix)"
  let action ← if permission.getD "full_access" = "function_call" then do
      let allowance ← allowance.mapM fun amount => amountParam amount
        "Invalid allowance_btc: must be non-negative, finite, and satoshi-precise"
      Except.ok (.addFunctionCallKey newKey allowance (receiverId.getD "")
        (splitMethods (methodNames.getD "")))
    else .ok (.addFullAccessKey newKey)
  .ok ⟨address, address, fun _ => [action], "AddKey TX failed: "⟩

def deletenearkey (address pubkeyHex : Option String) : Except RpcError ActionRequest := do
  let address ← param address "Missing address parameter"
  let pubkeyHex ← param pubkeyHex "Missing pubkey_hex_to_delete"
  let key ← hexParam pubkeyHex 64 "Invalid pubkey"
  .ok ⟨address, address, fun _ => [.deleteKey key], "DeleteKey TX failed: "⟩

def closenearaccount (address beneficiary : Option String) : Except RpcError ActionRequest := do
  let address ← param address "Missing account_address parameter"
  let beneficiary ← param beneficiary "Missing beneficiary_address parameter"
  .ok ⟨address, address, fun _ => [.deleteAccount beneficiary], "DeleteAccount TX failed: "⟩

/-- An action of `sendneartx` that was read: complete, or a stake without its key. -/
inductive ValidatedSendNearAction
  | ready (action : NearAction)
  | stake (amount : Nat)

def ValidatedSendNearAction.action (publicKey : Bytes) : ValidatedSendNearAction → NearAction
  | ready action => action
  | stake amount => .stake amount publicKey

/-- The actions as the reading of the array ends, with its first error. -/
def sendneartx (sender receiver : Option String)
    (actions : Except RpcError (List ValidatedSendNearAction)) :
    Except RpcError ActionRequest := do
  let sender ← param sender "Missing sender_address"
  let receiver ← param receiver "Missing receiver_address"
  let actions ← actions
  .ok ⟨sender, receiver, fun publicKey => actions.map (·.action publicKey), "TX submit failed: "⟩

/-- The initial balance may be zero; a key that does not decode is left out. -/
def createnearaccount (sender newAccountId : Option String)
    (initialBalance : Except RpcError (Option UInt64)) (newPubkeyHex : Option String) :
    Except RpcError ActionRequest := do
  let sender ← param sender "Missing sender_address"
  let newAccountId ← param newAccountId "Missing new_account_id"
  let initialBalance ← initialBalance
  let transfer := initialBalance.toList.map fun satoshis =>
    .transfer (satoshisToYocto satoshis.toNat)
  let newKey := (newPubkeyHex.bind hexDecode).filter (·.length = 64)
  .ok ⟨sender, newAccountId, fun _ =>
    .createAccount :: transfer ++ newKey.toList.map .addFullAccessKey, "TX submit failed: "⟩

def gasKeyRequest (action : Bytes → Nat → NearAction) (sender pubkeyHex : Option String)
    (amount : Option UInt64) : Except RpcError ActionRequest := do
  let sender ← param sender "Missing sender_address"
  let pubkeyHex ← param pubkeyHex "Missing pubkey_hex"
  let amount ← amountParam amount
    "Invalid amount_btc: must be positive, finite, and satoshi-precise"
  let gasKey ← hexParam pubkeyHex 64 "pubkey_hex must be 64 hex bytes"
  .ok ⟨sender, sender, fun _ => [action gasKey amount], "TX submit failed: "⟩

def fundgaskey (sender pubkeyHex : Option String) (amount : Option UInt64) :
    Except RpcError ActionRequest :=
  gasKeyRequest .transferToGasKey sender pubkeyHex amount

def withdrawgaskey (sender pubkeyHex : Option String) (amount : Option UInt64) :
    Except RpcError ActionRequest :=
  gasKeyRequest .withdrawFromGasKey sender pubkeyHex amount

inductive NearMethod
  | deploynearcontract (sender wasmBase64 : Option String)
  | stake (address : Option String) (amount : Option UInt64)
  | unstake (address : Option String)
  | addnearkey (address newPubkeyHex permission receiverId methodNames : Option String)
      (allowance : Option (Option UInt64))
  | deletenearkey (address pubkeyHex : Option String)
  | closenearaccount (address beneficiary : Option String)
  | sendneartx (sender receiver : Option String)
      (actions : Except RpcError (List ValidatedSendNearAction))
  | createnearaccount (sender newAccountId : Option String)
      (initialBalance : Except RpcError (Option UInt64)) (newPubkeyHex : Option String)
  | fundgaskey (sender pubkeyHex : Option String) (amount : Option UInt64)
  | withdrawgaskey (sender pubkeyHex : Option String) (amount : Option UInt64)

def NearMethod.request (X : TranslatorExternals) : NearMethod → Except RpcError ActionRequest
  | .deploynearcontract sender wasmBase64 => Proxy.deploynearcontract X sender wasmBase64
  | .stake address amount => Proxy.stake address amount
  | .unstake address => Proxy.unstake address
  | .addnearkey address newPubkeyHex permission receiverId methodNames allowance =>
    Proxy.addnearkey address newPubkeyHex permission receiverId methodNames allowance
  | .deletenearkey address pubkeyHex => Proxy.deletenearkey address pubkeyHex
  | .closenearaccount address beneficiary => Proxy.closenearaccount address beneficiary
  | .sendneartx sender receiver actions => Proxy.sendneartx sender receiver actions
  | .createnearaccount sender newAccountId initialBalance newPubkeyHex =>
    Proxy.createnearaccount sender newAccountId initialBalance newPubkeyHex
  | .fundgaskey sender pubkeyHex amount => Proxy.fundgaskey sender pubkeyHex amount
  | .withdrawgaskey sender pubkeyHex amount => Proxy.withdrawgaskey sender pubkeyHex amount

def NearMethod.handler (X : TranslatorExternals) (method : NearMethod) : Handler String := do
  let request ← .ofExcept (method.request X)
  submitActions X.toProxyExternals request

/-! ## The unlock of Patoshi accounts -/

def patoshiUnlockReceiver : String := "near"

def challengeMessage (genesisBlockHash : String) : String :=
  "bitcoin-infinity-unlock:" ++ genesisBlockHash

def patoshiParams (X : TranslatorExternals) (address signatureBase64 : Option String) :
    Except RpcError (String × String) := do
  let address ← param address "params: [address, signature_base64]"
  let signatureBase64 ← param signatureBase64 "params: [address, signature_base64]"
  let signature ← okOr (X.base64Decode signatureBase64)
    ⟨-5, "signature_base64 must be valid base64"⟩
  ensure (signature.length == 65)
    ⟨-5, "Invalid signature length: expected 65 bytes, got " ++ toString signature.length⟩
  .ok (address, signatureBase64)

def checkGenesisHash (reply : Except String (Option String)) : Except RpcError String :=
  match reply with
  | .ok (some hash) => .ok hash
  | .ok none => errResponse (-32000) "Failed to extract genesis block hash from node response"
  | .error e => errResponse (-32000) ("Failed to query genesis block hash: " ++ e)

def checkLockState (address : String) (reply : Except String (Option PatoshiLockState)) :
    Except RpcError Unit :=
  match reply with
  | .error e => errResponse (-32000) ("Failed to read Patoshi lock state: " ++ e)
  | .ok none => errResponse (-5) ("Address " ++ address ++ " is not a Patoshi-registered account")
  | .ok (some lock) =>
    if !lock.isLocked then
      errResponse (-5) ("Patoshi account " ++ address ++ " is already unlocked")
    else
      match lock.unlockEpoch with
      | some epoch =>
        errResponse (-5) ("Patoshi unlock already scheduled for " ++ address ++
          " at epoch " ++ toString epoch)
      | none => .ok ()

def unlockRequest (address : String) : ActionRequest :=
  ⟨address, patoshiUnlockReceiver, fun _ => [.transfer 0], "Unlock TX submit failed: "⟩

def patoshiunlock (X : TranslatorExternals) (bech32Hrp : String)
    (address signatureBase64 : Option String) : Handler String := do
  let (address, signatureBase64) ← .ofExcept (patoshiParams X address signatureBase64)
  let genesis ← .ofExcept (checkGenesisHash (← genesisBlockHash))
  .ofExcept (ensure
    (X.verifyBitcoinMessageSignature address signatureBase64 (challengeMessage genesis) bech32Hrp)
    ⟨-5, "Signature does not match address/challenge message"⟩)
  .ofExcept (checkLockState address (← fetchPatoshiLockState address))
  submitActions X.toProxyExternals (unlockRequest address)

/-! ## When an action is signed -/

/-- The key of the sender can sign the actions, and the node can name a block. -/
structure ActionRequest.CanSign (X : ProxyExternals) (s : RpcState) (request : ActionRequest) :
    Prop where
  key : ∃ entry secret publicKey, s.keystore.get request.sender = some entry ∧
    entry.Signs X secret publicKey ∧ request.actions publicKey ≠ []
  block : ∃ text blockHash, decodeBlockHash X.toCrypto text = .ok blockHash

section Signing

variable {X : ProxyExternals} {w t : World} {request : ActionRequest}

variable {address nearPublicKey : String} {blockHash : Bytes}

theorem quiet_getSenderKey (address : String) : Quiet (getSenderKey X address) := by
  refine .bind quiet_readKeystore fun _ => ?_
  refine .bind quiet_ofExcept fun _ => ?_
  refine .bind quiet_orFail fun _ => ?_
  refine .bind quiet_orFail fun _ => ?_
  exact .bind quiet_orFail fun _ => Prog.allAsks_pure

theorem quiet_getBlockAndNonce (address nearPublicKey : String) :
    Quiet (getBlockAndNonce X address nearPublicKey) := by
  refine .bind quiet_status fun _ => ?_
  refine .bind quiet_orFail fun _ => ?_
  refine .bind quiet_orFail fun _ => ?_
  exact .bind (quiet_nextNonce _ _) fun _ => Prog.allAsks_pure

theorem getSenderKey_ok {entry : KeyEntry} {secret : Bytes} :
    (getSenderKey X address).Ends World.outside w (.ok (entry, secret, nearPublicKey)) t ↔
      w.rpc.keystore.get address = some entry ∧ entry.privateKeyBytes = .ok secret ∧
        (X.publicKeyOf secret).isSome = true ∧
        entry.nearPublicKeyString X.toCrypto = .ok nearPublicKey ∧ t = w := by
  simp only [getSenderKey, Prog.ends_bind_ok, ends_readKeystore, ends_ofExcept_ok,
    ends_orFail_ok, okOr_eq_ok, secretKeyFromSlice_eq_ok, Prog.ends_pure, Except.ok.injEq,
    Prod.mk.injEq]
  constructor
  · rintro ⟨_, _, ⟨rfl, rfl⟩, _, _, ⟨hentry, rfl⟩, _, _, ⟨hbytes, rfl⟩, _, _, ⟨⟨rfl, hvalid⟩, rfl⟩,
      _, _, ⟨hnear, rfl⟩, ⟨rfl, rfl, rfl⟩, rfl⟩
    exact ⟨hentry, hbytes, hvalid, hnear, rfl⟩
  · rintro ⟨hentry, hbytes, hvalid, hnear, rfl⟩
    exact ⟨_, t, ⟨rfl, rfl⟩, entry, t, ⟨hentry, rfl⟩, secret, t, ⟨hbytes, rfl⟩, secret, t,
      ⟨⟨rfl, hvalid⟩, rfl⟩, nearPublicKey, t, ⟨hnear, rfl⟩, ⟨rfl, rfl, rfl⟩, rfl⟩

theorem getBlockAndNonce_ok {nonce : Nat}
    (h : (getBlockAndNonce X address nearPublicKey).Ends World.outside w
      (.ok (blockHash, nonce)) t) :
    ∃ text, decodeBlockHash X.toCrypto text = .ok blockHash := by
  simp only [getBlockAndNonce, Prog.ends_bind_ok, ends_orFail_ok] at h
  obtain ⟨_, _, -, status, _, -, _, _, ⟨hhash, -⟩, _, _, -, hout⟩ := h
  obtain ⟨hpair, -⟩ := Prog.ends_done.mp hout
  cases hpair
  exact ⟨status.latestBlockHash, hhash⟩

theorem exists_getBlockAndNonce {text : String}
    (hhash : decodeBlockHash X.toCrypto text = .ok blockHash) (address nearPublicKey : String) :
    ∃ nonce, (getBlockAndNonce X address nearPublicKey).Ends World.outside w
      (.ok (blockHash, nonce)) w := by
  obtain ⟨next, hnext⟩ : ∃ next,
      (nextNonce address nearPublicKey).Ends World.outside w (.ok next) w :=
    exists_nextNonce address nearPublicKey
  refine ⟨normalizeNonceForFirstBitcoinTx next 0, ?_⟩
  simp only [getBlockAndNonce, Prog.ends_bind_ok, ends_orFail_ok]
  exact ⟨.ok ⟨text, 0⟩, w, ends_status.mpr ⟨_, rfl, rfl⟩, ⟨text, 0⟩, w, ⟨rfl, rfl⟩,
    blockHash, w, ⟨hhash, rfl⟩, next, w, hnext, .done⟩

theorem canSign_of_submitActions {out : Except RpcError String}
    (h : (submitActions X request).Ends World.outside w out t) (hsigned : t.signed ≠ w.signed) :
    request.CanSign X w.rpc := by
  rcases (quiet_getSenderKey _).ends_bind h with ⟨rfl, -⟩ | ⟨⟨entry, secret, near⟩, hkey, h⟩
  · exact absurd rfl hsigned
  rcases (quiet_getBlockAndNonce _ _).ends_bind h with ⟨rfl, -⟩ | ⟨⟨hash, nonce⟩, hblock, h⟩
  · exact absurd rfl hsigned
  rcases quiet_orFail.ends_bind h with ⟨rfl, -⟩ | ⟨publicKey, hpublic, h⟩
  · exact absurd rfl hsigned
  obtain ⟨hentry, hsecret, hvalid, -, -⟩ := getSenderKey_ok.mp hkey
  obtain ⟨text, hhash⟩ := getBlockAndNonce_ok hblock
  refine ⟨⟨entry, secret, publicKey, hentry, ⟨hsecret, (ends_orFail_ok.mp hpublic).1, hvalid⟩,
    ?_⟩, text, hash, hhash⟩
  intro hnone
  -- without an action the transaction is refused before it is signed
  rw [sendActions, signAndEncode_of_nil hnone] at h
  obtain ⟨-, rfl⟩ := Prog.ends_fail.mp h
  exact hsigned rfl

theorem exists_submitActions_signs (hcan : request.CanSign X w.rpc) :
    ∃ out t, (submitActions X request).Ends World.outside w out t ∧ t.signed ≠ w.signed := by
  obtain ⟨entry, secret, publicKey, hentry, hsigns, hactions⟩ := hcan.key
  obtain ⟨_, hash, hhash⟩ := hcan.block
  let near := "secp256k1:" ++ X.bs58Encode publicKey
  have hkey : (getSenderKey X request.sender).Ends World.outside w (.ok (entry, secret, near)) w :=
    getSenderKey_ok.mpr ⟨hentry, hsigns.secret_eq, hsigns.valid,
      nearPublicKeyString_eq_ok.mpr ⟨publicKey, hsigns.publicKey_eq, rfl⟩, rfl⟩
  obtain ⟨nonce, hblock⟩ : ∃ nonce, (getBlockAndNonce X request.sender near).Ends World.outside w
      (.ok (hash, nonce)) w :=
    exists_getBlockAndNonce hhash request.sender near
  let signer : Signer := ⟨request.sender, publicKey, secret, hash, nonce⟩
  obtain ⟨e, t, hrun, hact⟩ : ∃ e t, (sendActions request signer).Ends World.outside w
      (.error e) t ∧ t.signed ≠ w.signed :=
    exists_signs_of_refused hactions fun _ => ⟨_, rfl⟩
  refine ⟨.error e, t, ?_, hact⟩
  refine .bind hkey (.bind hblock ?_)
  exact .bind (ends_orFail_ok.mpr ⟨hsigns.publicKey_eq, rfl⟩) hrun

end Signing

end BitInfinity.Proxy
