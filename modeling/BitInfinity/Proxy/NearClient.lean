import BitInfinity.Foundation.Program
import BitInfinity.Proxy.RpcState
import Mathlib.Data.String.Basic

/-!
# The proxy and its node

What a handler can ask for: the parts of the shared state behind their locks, the node, and
the use of a private key.  A handler is a program over these requests.  The node is free in
its replies; the world records what was signed and what was handed to the node.
-/

namespace BitInfinity.Proxy

open BitInfinity Foundation

/-! ## Transactions for the node -/

inductive NearAction
  | createAccount
  | deployContract (code : Bytes)
  | functionCall (methodName : String) (args : Bytes) (gas deposit : Nat)
  | transfer (deposit : Nat)
  | stake (amount : Nat) (publicKey : Bytes)
  | addFullAccessKey (publicKey : Bytes)
  | addFunctionCallKey (publicKey : Bytes) (allowance : Option Nat) (receiverId : String)
      (methodNames : List String)
  | deleteKey (publicKey : Bytes)
  | deleteAccount (beneficiaryId : String)
  | transferToGasKey (publicKey : Bytes) (deposit : Nat)
  | withdrawFromGasKey (publicKey : Bytes) (amount : Nat)
  | deployGlobalContract (code : Bytes)
  | useGlobalContractByHash (codeHash : Bytes)
  | useGlobalContractByAccount (accountId : String)
  | deterministicStateInit
  | delegate (delegateAction signature : Bytes)
  deriving DecidableEq, Repr

structure NearTransaction where
  signerId : String
  publicKey : Bytes
  nonce : Nat
  receiverId : String
  blockHash : Bytes
  actions : List NearAction
  deriving DecidableEq, Repr

/-- What is sent to the node: a transaction signed here, or a text that came with the
request. -/
inductive SignedTx
  | signed (secret : Bytes) (tx : NearTransaction)
  | encoded (base64 : String)
  deriving DecidableEq, Repr

inductive Signable
  | transaction (tx : NearTransaction)
  | message (text : String)
  | psbtInput (index : Nat)
  deriving DecidableEq, Repr

/-! ## Requests -/

structure NodeStatus where
  latestBlockHash : String
  latestBlockHeight : Nat
  deriving DecidableEq, Repr

structure PatoshiLockState where
  isLocked : Bool
  unlockEpoch : Option Nat
  deriving DecidableEq, Repr

inductive Request
  | walletLoaded
  | walletUnlocked
  | keystore
  /-- The addresses with a key, in the order of the hash map. -/
  | addresses
  | cachedNonce (address : String)
  | recordNonce (address : String) (nonce : Nat)
  | insertTx (txid : String) (entry : TxCacheEntry)
  | status
  | viewAccessKey (address publicKey : String)
  | viewAccount (address : String)
  /-- The hash in the header of the first block. -/
  | genesisBlockHash
  | patoshiLockState (address : String)
  | sign (secret : Bytes) (item : Signable)
  /-- The transaction may pay an output, known by its Bitcoin txid and its index. -/
  | sendTxAsync (tx : SignedTx) (pays : Option (String × Nat))

def Request.Reply : Request → Type
  | walletLoaded => Bool
  | walletUnlocked => Bool
  | keystore => Keystore
  | addresses => List String
  | cachedNonce _ => Option Nat
  | recordNonce _ _ => Unit
  | insertTx _ _ => Unit
  | status => Except String NodeStatus
  | viewAccessKey _ _ => Except String (Option Nat)
  | viewAccount _ => Except String Nat
  | genesisBlockHash => Except String (Option String)
  | patoshiLockState _ => Except String (Option PatoshiLockState)
  | sign _ _ => Unit
  | sendTxAsync _ _ => Except String String

abbrev Handler (α : Type) := Prog Request.Reply RpcError α

/-! ## The world of a handler -/

structure Submission where
  tx : SignedTx
  pays : Option (String × Nat)
  accepted : Bool
  deriving DecidableEq, Repr

structure World where
  rpc : RpcState
  signed : List (Bytes × Signable)
  sent : List Submission
  /-- The balances that the node has reported. -/
  viewed : List (String × Nat)

def World.start (s : RpcState) : World := ⟨s, [], [], []⟩

def RpcState.recordNonce (s : RpcState) (address : String) (nonce : Nat) : RpcState :=
  { s with nonceCache := Function.update s.nonceCache address (some nonce) }

def RpcState.insertTx (s : RpcState) (txid : String) (entry : TxCacheEntry) : RpcState :=
  { s with txCache := Function.update s.txCache txid (some entry) }

/-- The hash map lists each address once. -/
def Keystore.ListsAddresses (ks : Keystore) (addresses : List String) : Prop :=
  addresses.Nodup ∧ ∀ a, a ∈ addresses ↔ a ∈ ks.keys

namespace World

def allowed (w : World) : (op : Request) → op.Reply → Prop
  | .walletLoaded, reply => reply = w.rpc.walletLoaded
  | .walletUnlocked, reply => reply = w.rpc.isWalletUnlocked
  | .keystore, reply => reply = w.rpc.keystore
  | .addresses, reply => w.rpc.keystore.ListsAddresses reply
  | .cachedNonce address, reply => reply = w.rpc.nonceCache address
  | .recordNonce _ _, _ => True
  | .insertTx _ _, _ => True
  | .status, _ => True
  | .viewAccessKey _ _, _ => True
  | .viewAccount _, _ => True
  | .genesisBlockHash, _ => True
  | .patoshiLockState _, _ => True
  | .sign _ _, _ => True
  | .sendTxAsync _ _, _ => True

def after (w : World) : (op : Request) → op.Reply → World
  | .recordNonce address nonce, _ => { w with rpc := w.rpc.recordNonce address nonce }
  | .insertTx txid entry, _ => { w with rpc := w.rpc.insertTx txid entry }
  | .sign secret item, _ => { w with signed := w.signed ++ [(secret, item)] }
  | .sendTxAsync tx pays, reply => { w with sent := w.sent ++ [⟨tx, pays, Except.isOk reply⟩] }
  | .viewAccount address, .ok amount => { w with viewed := w.viewed ++ [(address, amount)] }
  | _, _ => w

def outside : Outside Request.Reply World := ⟨allowed, after⟩

end World

/-! ## Asking -/

section Asking

def ask (op : Request) : Handler op.Reply := .request op

def walletLoaded : Handler Bool := ask .walletLoaded
def walletUnlocked : Handler Bool := ask .walletUnlocked
def readKeystore : Handler Keystore := ask .keystore
def keystoreAddresses : Handler (List String) := ask .addresses
def cachedNonce (address : String) : Handler (Option Nat) := ask (.cachedNonce address)

def recordNonce (address : String) (nonce : Nat) : Handler Unit := ask (.recordNonce address nonce)

def insertTx (txid : String) (entry : TxCacheEntry) : Handler Unit := ask (.insertTx txid entry)

def status : Handler (Except String NodeStatus) := ask .status

def viewAccessKey (address publicKey : String) : Handler (Except String (Option Nat)) :=
  ask (.viewAccessKey address publicKey)

def viewAccount (address : String) : Handler (Except String Nat) := ask (.viewAccount address)

def genesisBlockHash : Handler (Except String (Option String)) := ask .genesisBlockHash

def fetchPatoshiLockState (address : String) : Handler (Except String (Option PatoshiLockState)) :=
  ask (.patoshiLockState address)

def sign (secret : Bytes) (item : Signable) : Handler Unit := ask (.sign secret item)

def sendTxAsync (tx : SignedTx) (pays : Option (String × Nat)) : Handler (Except String String) :=
  ask (.sendTxAsync tx pays)

def failWith {α : Type} (code : Int) (message : String) : Handler α := .fail ⟨code, message⟩

/-- Go on with the value of a fallible computation; its error text follows the label. -/
def orFail {α : Type} (code : Int) (label : String) (x : Except String α) : Handler α :=
  .ofExcept (x.mapError fun e => ⟨code, label ++ e⟩)

end Asking

def ensureWalletUsable : Handler Unit := do
  let loaded ← walletLoaded
  .ofExcept (ensure loaded RpcState.notLoaded)
  let unlocked ← walletUnlocked
  .ofExcept (ensure unlocked RpcState.locked)

/-! ## Nonces -/

def accessKeyNonceRangeMultiplier : Nat := 1000000
def bitcoinFirstTxHeightHeadroom : Nat := 0

def bitcoinFirstTxNonceFloor (latestBlockHeight : Nat) : Nat :=
  saturatingAdd 64
    (saturatingMul 64 (saturatingAdd 64 latestBlockHeight bitcoinFirstTxHeightHeadroom)
      accessKeyNonceRangeMultiplier) 1

def normalizeNonceForFirstBitcoinTx (nonce latestBlockHeight : Nat) : Nat :=
  max nonce (bitcoinFirstTxNonceFloor latestBlockHeight)

/-- The nonce of the key on the chain.  A key that the node does not know is taken to be one
that its first transaction registers. -/
def chainNonce (address publicKey : String) : Handler Nat := do
  match ← viewAccessKey address publicKey with
  | .ok nonce => pure (nonce.getD 0)
  | .error _ =>
    match ← status with
    | .ok status => pure (bitcoinFirstTxNonceFloor status.latestBlockHeight - 1)
    | .error _ => pure 0

def nextNonce (address publicKey : String) : Handler Nat := do
  let localNonce ← cachedNonce address
  let chainNonce ← chainNonce address publicKey
  pure (wrappingAdd 64 (max (localNonce.getD 0) chainNonce) 1)

/-! ## Preparing a signature -/

def decodeBlockHash (C : Crypto) (text : String) : Except String Bytes := do
  let bytes ← okOr (C.bs58Decode text) "Invalid base58 block hash"
  ensure (bytes.length == 32) ("Block hash must be 32 bytes, got " ++ toString bytes.length)
  .ok bytes

def secretKeyFromSlice (X : ProxyExternals) (bytes : Bytes) : Except String Bytes :=
  if (X.publicKeyOf bytes).isSome then .ok bytes
  else .error "malformed or out-of-range secret key"

/-- The labels of the errors on the way to a signature. -/
structure SigningLabels where
  node : String
  blockHash : String
  publicKey : String
  keyBytes : String
  secretKey : String

structure Signer where
  address : String
  publicKey : Bytes
  secret : Bytes
  blockHash : Bytes
  nonce : Nat
  deriving DecidableEq, Repr

/-- The way from a key entry to a signer, as the handlers that send coins go it. -/
def prepareSigner (X : ProxyExternals) (labels : SigningLabels) (address : String)
    (entry : KeyEntry) : Handler Signer := do
  let status ← orFail (-32000) labels.node (← status)
  let blockHash ← orFail (-32000) labels.blockHash
    (decodeBlockHash X.toCrypto status.latestBlockHash)
  let nearPublicKey ← orFail (-32000) labels.publicKey (entry.nearPublicKeyString X.toCrypto)
  let next ← nextNonce address nearPublicKey
  let secretBytes ← orFail (-32000) labels.keyBytes entry.privateKeyBytes
  let publicKey ← orFail (-32000) labels.keyBytes entry.publicKeyUncompressedBytes
  let secret ← orFail (-32000) labels.secretKey (secretKeyFromSlice X secretBytes)
  pure
    { address, publicKey, secret, blockHash
      nonce := normalizeNonceForFirstBitcoinTx next status.latestBlockHeight }

def Signer.transaction (signer : Signer) (nonce : Nat) (receiverId : String)
    (actions : List NearAction) : NearTransaction :=
  { signerId := signer.address
    publicKey := signer.publicKey
    nonce
    receiverId
    blockHash := signer.blockHash
    actions }

def signAndEncode (label : String) (secret : Bytes) (tx : NearTransaction) : Handler SignedTx := do
  orFail (-32000) label (ensure (tx.actions != []) "Transaction must have at least one action")
  sign secret (.transaction tx)
  pure (.signed secret tx)

/-! ## Computed calls -/

/-- A node whose replies are known in advance; the number of a submission decides its fate. -/
structure NodeScript where
  status : Except String NodeStatus
  genesisBlockHash : Except String (Option String)
  patoshiLockState : String → Except String (Option PatoshiLockState)
  accessKey : String → Except String (Option Nat)
  account : String → Except String Nat
  send : Nat → Except String String

def World.answer (node : NodeScript) (w : World) : (op : Request) → op.Reply
  | .walletLoaded => w.rpc.walletLoaded
  | .walletUnlocked => w.rpc.isWalletUnlocked
  | .keystore => w.rpc.keystore
  | .addresses => w.rpc.keystore.keys.keys.sort (· ≤ ·)
  | .cachedNonce address => w.rpc.nonceCache address
  | .recordNonce _ _ => ()
  | .insertTx _ _ => ()
  | .status => node.status
  | .viewAccessKey address _ => node.accessKey address
  | .viewAccount address => node.account address
  | .genesisBlockHash => node.genesisBlockHash
  | .patoshiLockState address => node.patoshiLockState address
  | .sign _ _ => ()
  | .sendTxAsync _ _ => node.send w.sent.length

theorem World.allowed_answer (node : NodeScript) (w : World) (op : Request) :
    w.allowed op (w.answer node op) := by
  cases op with
  | addresses =>
    refine ⟨Finset.sort_nodup _ _, fun a => ?_⟩
    exact (Finset.mem_sort _).trans Finmap.mem_keys
  | _ => first | rfl | trivial

def Handler.runWith {α : Type} (node : NodeScript) (p : Handler α) (w : World) :
    Except RpcError α × World :=
  p.interpret World.outside (World.answer node) w

theorem Handler.ends_runWith {α : Type} (node : NodeScript) (p : Handler α) (w : World) :
    p.Ends World.outside w (p.runWith node w).1 (p.runWith node w).2 :=
  Prog.ends_interpret (World.allowed_answer node) p w

/-! ## What each request does -/

section Requests

variable {α : Type} {w t : World} {out : Except RpcError α}

variable {a : α} {txid : String}

@[simp] theorem ends_orFail_ok {code : Int} {label : String} {x : Except String α} :
    (orFail code label x).Ends World.outside w (.ok a) t ↔ x = .ok a ∧ t = w := by
  cases x <;> simp [orFail, Except.mapError, eq_comm]

@[simp] theorem ends_ofExcept_ok {x : Except RpcError α} :
    (.ofExcept x : Handler α).Ends World.outside w (.ok a) t ↔ x = .ok a ∧ t = w := by
  rw [Prog.ends_ofExcept, eq_comm]

@[simp] theorem ends_readKeystore {out : Except RpcError Keystore} :
    readKeystore.Ends World.outside w out t ↔ out = .ok w.rpc.keystore ∧ t = w :=
  Prog.ends_request_of_eq fun _ => Iff.rfl

theorem ends_ensureWalletUsable {out : Except RpcError Unit} :
    ensureWalletUsable.Ends World.outside w out t ↔ out = w.rpc.ensureWalletUsable ∧ t = w := by
  have hloaded : ∀ out t, walletLoaded.Ends World.outside w out t ↔
      out = .ok w.rpc.walletLoaded ∧ t = w :=
    fun _ _ => Prog.ends_request_of_eq fun _ => Iff.rfl
  have hunlocked : ∀ out t, walletUnlocked.Ends World.outside w out t ↔
      out = .ok w.rpc.isWalletUnlocked ∧ t = w :=
    fun _ _ => Prog.ends_request_of_eq fun _ => Iff.rfl
  rw [ensureWalletUsable, Prog.ends_bind_of_iff hloaded, RpcState.ensureWalletUsable,
    RpcState.ensureWalletLoaded, RpcState.ensureWalletUnlocked]
  cases w.rpc.walletLoaded with
  | false => simp [ensure, Prog.ofExcept]
  | true =>
    simp only [ensure, if_true, Prog.ofExcept, Prog.done_bind, ok_bind,
      Prog.ends_bind_of_iff hunlocked]
    exact Prog.ends_ofExcept

@[simp] theorem ends_viewAccount {address : String} {out : Except RpcError (Except String Nat)} :
    (viewAccount address).Ends World.outside w out t ↔
      ∃ reply, out = .ok reply ∧ t = w.after (.viewAccount address) reply :=
  Prog.ends_request_of_allowed fun _ => trivial

@[simp] theorem ends_keystoreAddresses {out : Except RpcError (List String)} :
    keystoreAddresses.Ends World.outside w out t ↔
      ∃ addresses, w.rpc.keystore.ListsAddresses addresses ∧ out = .ok addresses ∧ t = w :=
  Prog.ends_request

@[simp] theorem ends_cachedNonce {address : String} {out : Except RpcError (Option Nat)} :
    (cachedNonce address).Ends World.outside w out t ↔
      out = .ok (w.rpc.nonceCache address) ∧ t = w :=
  Prog.ends_request_of_eq fun _ => Iff.rfl

@[simp] theorem ends_recordNonce {address : String} {nonce : Nat} {out : Except RpcError Unit} :
    (recordNonce address nonce).Ends World.outside w out t ↔
      out = .ok () ∧ t = { w with rpc := w.rpc.recordNonce address nonce } :=
  Prog.ends_request_of_eq fun _ => iff_of_true trivial rfl

@[simp] theorem ends_insertTx {entry : TxCacheEntry} {out : Except RpcError Unit} :
    (insertTx txid entry).Ends World.outside w out t ↔
      out = .ok () ∧ t = { w with rpc := w.rpc.insertTx txid entry } :=
  Prog.ends_request_of_eq fun _ => iff_of_true trivial rfl

theorem ends_insertTx_pure {entry : TxCacheEntry} :
    (insertTx txid entry >>= fun _ => pure a).Ends World.outside w out t ↔
      out = .ok a ∧ t = { w with rpc := w.rpc.insertTx txid entry } := by
  rw [Prog.ends_bind_of_iff fun _ _ => ends_insertTx]
  exact Prog.ends_done

@[simp] theorem ends_sign {secret : Bytes} {item : Signable} {out : Except RpcError Unit} :
    (sign secret item).Ends World.outside w out t ↔
      out = .ok () ∧ t = { w with signed := w.signed ++ [(secret, item)] } :=
  Prog.ends_request_of_eq fun _ => iff_of_true trivial rfl

@[simp] theorem ends_sendTxAsync {tx : SignedTx} {pays : Option (String × Nat)}
    {out : Except RpcError (Except String String)} :
    (sendTxAsync tx pays).Ends World.outside w out t ↔ ∃ reply, out = .ok reply ∧
        t = { w with sent := w.sent ++ [⟨tx, pays, Except.isOk reply⟩] } :=
  Prog.ends_request_of_allowed fun _ => trivial

@[simp] theorem ends_status {out : Except RpcError (Except String NodeStatus)} :
    status.Ends World.outside w out t ↔ ∃ reply, out = .ok reply ∧ t = w :=
  Prog.ends_request_of_allowed fun _ => trivial

@[simp] theorem ends_viewAccessKey {address publicKey : String}
    {out : Except RpcError (Except String (Option Nat))} :
    (viewAccessKey address publicKey).Ends World.outside w out t ↔
      ∃ reply, out = .ok reply ∧ t = w :=
  Prog.ends_request_of_allowed fun _ => trivial

end Requests

/-! ## Requests that change nothing -/

def Request.isQuiet : Request → Bool
  | recordNonce _ _ => false
  | insertTx _ _ => false
  | sign _ _ => false
  | sendTxAsync _ _ => false
  | viewAccount _ => false
  | _ => true

/-- The handler only looks. -/
def Quiet {α : Type} (p : Handler α) : Prop := p.AllAsks fun op => op.isQuiet = true

theorem World.after_of_isQuiet {w : World} {op : Request} {reply : op.Reply}
    (h : op.isQuiet = true) : w.after op reply = w := by
  cases op <;> first | rfl | cases h

theorem Quiet.world_eq {α : Type} {p : Handler α} {w t : World} {out : Except RpcError α}
    (hp : Quiet p) (h : p.Ends World.outside w out t) : t = w := by
  refine h.invariant (· = w) hp rfl ?_
  rintro s op r hop rfl -
  exact World.after_of_isQuiet hop

theorem Quiet.ends_bind {α β : Type} {p : Handler α} {f : α → Handler β} {w t : World}
    {out : Except RpcError β} (hp : Quiet p) (h : (p >>= f).Ends World.outside w out t) :
    (t = w ∧ ∃ e, out = .error e) ∨
      ∃ a, p.Ends World.outside w (.ok a) w ∧ (f a).Ends World.outside w out t := by
  rcases Prog.ends_bind.mp h with ⟨e, he, rfl⟩ | ⟨a, m, ha, hf⟩
  · exact .inl ⟨hp.world_eq he, e, rfl⟩
  · obtain rfl := hp.world_eq ha
    exact .inr ⟨a, ha, hf⟩

theorem quiet_ofExcept {α : Type} {x : Except RpcError α} : Quiet (.ofExcept x) :=
  Prog.allAsks_ofExcept

theorem quiet_readKeystore : Quiet readKeystore := Prog.allAsks_request.mpr rfl

theorem quiet_keystoreAddresses : Quiet keystoreAddresses := Prog.allAsks_request.mpr rfl

theorem quiet_orFail {α : Type} {code : Int} {label : String} {x : Except String α} :
    Quiet (orFail code label x) :=
  Prog.allAsks_ofExcept

theorem quiet_status : Quiet status := Prog.allAsks_request.mpr rfl

theorem quiet_genesisBlockHash : Quiet genesisBlockHash := Prog.allAsks_request.mpr rfl

theorem quiet_fetchPatoshiLockState (address : String) : Quiet (fetchPatoshiLockState address) :=
  Prog.allAsks_request.mpr rfl

theorem quiet_chainNonce (address publicKey : String) : Quiet (chainNonce address publicKey) := by
  refine .bind (Prog.allAsks_request.mpr rfl) fun reply => ?_
  cases reply with
  | ok nonce => exact Prog.allAsks_pure
  | error _ =>
    refine .bind quiet_status fun status => ?_
    cases status <;> exact Prog.allAsks_pure

theorem quiet_nextNonce (address publicKey : String) : Quiet (nextNonce address publicKey) :=
  .bind (Prog.allAsks_request.mpr rfl) fun _ =>
    .bind (quiet_chainNonce address publicKey) fun _ => Prog.allAsks_pure

theorem quiet_prepareSigner (X : ProxyExternals) (labels : SigningLabels) (address : String)
    (entry : KeyEntry) : Quiet (prepareSigner X labels address entry) := by
  refine .bind quiet_status fun _ => ?_
  refine .bind quiet_orFail fun _ => ?_
  refine .bind quiet_orFail fun _ => ?_
  refine .bind quiet_orFail fun _ => ?_
  refine .bind (quiet_nextNonce _ _) fun _ => ?_
  refine .bind quiet_orFail fun _ => ?_
  refine .bind quiet_orFail fun _ => ?_
  exact .bind quiet_orFail fun _ => Prog.allAsks_pure

/-! ## Requests that sign nothing -/

def Request.isSign : Request → Bool
  | sign _ _ => true
  | _ => false

theorem World.after_signed {w : World} {op : Request} {reply : op.Reply}
    (h : op.isSign = false) : (w.after op reply).signed = w.signed := by
  cases op with
  | sign => cases h
  | viewAccount address => cases reply <;> rfl
  | _ => rfl

theorem signed_eq_of_allAsks {α : Type} {p : Handler α} {w t : World} {out : Except RpcError α}
    (hp : p.AllAsks fun op => op.isSign = false) (h : p.Ends World.outside w out t) :
    t.signed = w.signed := by
  refine h.invariant (·.signed = w.signed) hp rfl ?_
  intro s op r hop hs _
  exact (World.after_signed hop).trans hs

/-! ## Signers -/

structure KeyEntry.Signs (X : ProxyExternals) (entry : KeyEntry) (secret publicKey : Bytes) :
    Prop where
  secret_eq : entry.privateKeyBytes = .ok secret
  publicKey_eq : entry.publicKeyUncompressedBytes = .ok publicKey
  valid : (X.publicKeyOf secret).isSome = true

section Signers

variable {X : ProxyExternals} {labels : SigningLabels} {address : String} {entry : KeyEntry}
  {w t : World}

variable {secret : Bytes} {label : String} {tx : NearTransaction}

theorem secretKeyFromSlice_eq_ok {bytes : Bytes} : secretKeyFromSlice X bytes = .ok secret ↔
      bytes = secret ∧ (X.publicKeyOf bytes).isSome = true := by
  unfold secretKeyFromSlice
  split <;> simp_all

theorem nearPublicKeyString_eq_ok {text : String} :
    entry.nearPublicKeyString X.toCrypto = .ok text ↔
      ∃ bytes, entry.publicKeyUncompressedBytes = .ok bytes ∧
        text = "secp256k1:" ++ X.bs58Encode bytes := by
  unfold KeyEntry.nearPublicKeyString
  rw [bind_eq_ok]
  simp [eq_comm]

theorem prepareSigner_ok {signer : Signer}
    (h : (prepareSigner X labels address entry).Ends World.outside w (.ok signer) t) :
    t = w ∧ signer.address = address ∧ entry.Signs X signer.secret signer.publicKey ∧
      ∃ text, decodeBlockHash X.toCrypto text = .ok signer.blockHash := by
  refine ⟨(quiet_prepareSigner X labels address entry).world_eq h, ?_⟩
  simp only [prepareSigner, Prog.ends_bind_ok, ends_orFail_ok, secretKeyFromSlice_eq_ok] at h
  obtain ⟨_, _, -, status, _, -, _, _, ⟨hhash, -⟩, _, _, -, _, _, -, _, _,
    ⟨hbytes, -⟩, publicKey, _, ⟨hpublic, -⟩, secret, _, ⟨⟨rfl, hvalid⟩, -⟩, hout⟩ := h
  obtain ⟨hsigner, -⟩ := Prog.ends_done.mp hout
  cases hsigner
  exact ⟨rfl, ⟨hbytes, hpublic, hvalid⟩, status.latestBlockHash, hhash⟩

theorem exists_nextNonce (address publicKey : String) :
    ∃ next, (nextNonce address publicKey).Ends World.outside w (.ok next) w := by
  refine ⟨wrappingAdd 64 (max ((w.rpc.nonceCache address).getD 0) 0) 1, ?_⟩
  refine Prog.ends_bind_ok.mpr ⟨_, w, ends_cachedNonce.mpr ⟨rfl, rfl⟩, ?_⟩
  refine Prog.ends_bind_ok.mpr ⟨0, w, ?_, .done⟩
  exact Prog.ends_bind_ok.mpr ⟨.ok none, w, ends_viewAccessKey.mpr ⟨_, rfl, rfl⟩, .done⟩

theorem exists_prepareSigner {publicKey blockHash : Bytes} {text : String}
    (hkey : entry.Signs X secret publicKey)
    (hhash : decodeBlockHash X.toCrypto text = .ok blockHash) :
    ∃ signer : Signer, signer.address = address ∧
      (prepareSigner X labels address entry).Ends World.outside w (.ok signer) w := by
  obtain ⟨next, hnext⟩ := exists_nextNonce (w := w) address ("secp256k1:" ++ X.bs58Encode publicKey)
  refine ⟨⟨address, publicKey, secret, blockHash, normalizeNonceForFirstBitcoinTx next 0⟩, rfl, ?_⟩
  simp only [prepareSigner, Prog.ends_bind_ok, ends_orFail_ok, secretKeyFromSlice_eq_ok,
    nearPublicKeyString_eq_ok]
  exact ⟨.ok ⟨text, 0⟩, w, ends_status.mpr ⟨_, rfl, rfl⟩, ⟨text, 0⟩, w, ⟨rfl, rfl⟩,
    blockHash, w, ⟨hhash, rfl⟩, _, w, ⟨⟨publicKey, hkey.publicKey_eq, rfl⟩, rfl⟩,
    next, w, hnext, secret, w, ⟨hkey.secret_eq, rfl⟩, publicKey, w, ⟨hkey.publicKey_eq, rfl⟩,
    secret, w, ⟨⟨rfl, hkey.valid⟩, rfl⟩, .done⟩

theorem ends_signAndEncode {out : Except RpcError SignedTx} (hactions : tx.actions ≠ []) :
    (signAndEncode label secret tx).Ends World.outside w out t ↔ out = .ok (.signed secret tx) ∧
        t = { w with signed := w.signed ++ [(secret, .transaction tx)] } := by
  have hok : orFail (-32000) label
      (ensure (tx.actions != []) "Transaction must have at least one action") = .done () := by
    simp [orFail, ensure, hactions, Except.mapError, Prog.ofExcept]
  rw [signAndEncode, hok, Prog.done_bind, Prog.ends_bind]
  simp [pure]

theorem signAndEncode_of_nil (hnone : tx.actions = []) : signAndEncode label secret tx =
      failWith (-32000) (label ++ "Transaction must have at least one action") := by
  simp [signAndEncode, orFail, ensure, hnone, Except.mapError, Prog.ofExcept, failWith]

theorem exists_signs_of_refused {α : Type}
    {pays : Option (String × Nat)} {f : Except String String → Handler α}
    (hactions : tx.actions ≠ []) (hrefused : ∀ text, ∃ e, f (.error text) = .fail e) :
    ∃ e t, (signAndEncode label secret tx >>= fun signed => sendTxAsync signed pays >>= f).Ends
      World.outside w (.error e) t ∧ t.signed ≠ w.signed := by
  obtain ⟨e, he⟩ := hrefused ""
  let signed : World := { w with signed := w.signed ++ [(secret, .transaction tx)] }
  let sent : World := { signed with sent := w.sent ++ [⟨.signed secret tx, pays, false⟩] }
  refine ⟨e, sent, ?_, by simp [sent, signed]⟩
  refine .bind ((ends_signAndEncode hactions).mpr ⟨rfl, rfl⟩) ?_
  refine .bind (ends_sendTxAsync.mpr ⟨.error "", rfl, rfl⟩) ?_
  rw [he]
  exact .fail

end Signers

end BitInfinity.Proxy
