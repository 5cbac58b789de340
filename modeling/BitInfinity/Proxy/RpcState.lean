import BitInfinity.Bitcoin.Address
import BitInfinity.Proxy.Keystore

/-!
# State of the RPC proxy

The shared state of the handlers, with the wallet file and the clock next to it, and the
helpers that the handlers share.  Each handler is a function of the state and its parameters;
what the node answers is a parameter too.
-/

namespace BitInfinity.Proxy

open BitInfinity Foundation

/-! ## Replies -/

structure RpcError where
  code : Int
  message : String
  deriving DecidableEq, Repr

inductive RpcResult
  | null
  | text (value : String)
  | wallet (name warning : String)
  | warning (text : String)
  deriving DecidableEq, Repr

abbrev Response := Except RpcError RpcResult

def errResponse {α : Type} (code : Int) (message : String) : Except RpcError α :=
  .error ⟨code, message⟩

/-! ## State -/

structure TxCacheEntry where
  nearTxHash : String
  rawHex : String
  senderId : String
  deriving DecidableEq, Repr

structure RpcState where
  chainId : String
  txCache : String → Option TxCacheEntry
  keystore : Keystore
  /-- The last nonce used by an address. -/
  nonceCache : String → Option Nat
  /-- The wallet is unlocked until this instant. -/
  walletUnlockUntil : Option Nat
  walletPassphrase : Option String
  walletName : String
  walletLoaded : Bool
  /-- `wallet.json`. -/
  file : WalletFile
  /-- Seconds on the clock of the process. -/
  clock : Nat

namespace RpcState

def initialUnlockSeconds : Nat := 999999999

def new (chainId : String) (file : WalletFile) (txCache : String → Option TxCacheEntry)
    (clock : Nat) : RpcState :=
  let keystore := .load file
  { chainId, txCache, keystore, file, clock
    nonceCache := fun _ => none
    walletUnlockUntil := if keystore.encrypted then none else some (clock + initialUnlockSeconds)
    walletPassphrase := none
    walletName := "bitinfinity"
    walletLoaded := true }

def containsText (text part : List Char) : Bool := text.tails.any part.isPrefixOf

def bech32Hrp (s : RpcState) : String :=
  if containsText s.chainId.toList "mainnet".toList then "bc"
  else if containsText s.chainId.toList "regtest".toList then "bcrt"
  else "tb"

theorem bech32Hrp_mem (s : RpcState) : s.bech32Hrp ∈ ["bc", "tb", "bcrt"] := by
  unfold bech32Hrp
  split
  · decide
  · split <;> decide

def isWalletUnlocked (s : RpcState) : Bool :=
  match s.walletUnlockUntil with
  | some expiry => s.clock < expiry
  | none => false

/-- Save the keystore; while no passphrase is cached an encrypted keystore is not saved. -/
def saveKeystore (s : RpcState) : RpcState :=
  if s.keystore.encrypted then
    match s.walletPassphrase with
    | some passphrase => { s with file := s.keystore.saveEncrypted passphrase }
    | none => s
  else
    { s with file := s.keystore.save }

def notLoaded : RpcError := ⟨-18, "Requested wallet does not exist or is not loaded"⟩

def locked : RpcError :=
  ⟨-13, "Error: Please enter the wallet passphrase with walletpassphrase first."⟩

def ensureWalletLoaded (s : RpcState) : Except RpcError Unit := ensure s.walletLoaded notLoaded

def ensureWalletUnlocked (s : RpcState) : Except RpcError Unit := ensure s.isWalletUnlocked locked

def ensureWalletUsable (s : RpcState) : Except RpcError Unit := do
  s.ensureWalletLoaded
  s.ensureWalletUnlocked

end RpcState

section SaveLemmas

variable (s : RpcState)

@[simp] theorem RpcState.saveKeystore_keystore : s.saveKeystore.keystore = s.keystore := by
  unfold RpcState.saveKeystore
  split
  · cases s.walletPassphrase <;> rfl
  · rfl

@[simp] theorem RpcState.saveKeystore_walletPassphrase :
    s.saveKeystore.walletPassphrase = s.walletPassphrase := by
  unfold RpcState.saveKeystore
  split
  · split <;> rfl
  · rfl

@[simp] theorem RpcState.saveKeystore_walletUnlockUntil :
    s.saveKeystore.walletUnlockUntil = s.walletUnlockUntil := by
  unfold RpcState.saveKeystore
  split
  · split <;> rfl
  · rfl

@[simp] theorem RpcState.saveKeystore_walletLoaded :
    s.saveKeystore.walletLoaded = s.walletLoaded := by
  unfold RpcState.saveKeystore
  split
  · split <;> rfl
  · rfl

@[simp] theorem RpcState.saveKeystore_clock : s.saveKeystore.clock = s.clock := by
  unfold RpcState.saveKeystore
  split
  · split <;> rfl
  · rfl

end SaveLemmas

/-- What the proxy takes from other crates besides the hash functions. -/
structure ProxyExternals extends Crypto where
  /-- The public key of 32 secret bytes, when these are a secp256k1 key. -/
  publicKeyOf : Bytes → Option Secp256K1PublicKey

def ProxyExternals.sample : ProxyExternals :=
  { Crypto.sample with
    publicKeyOf := fun secret =>
      if h : (secret ++ secret).length = 64 then some ⟨secret ++ secret, h⟩ else none }

end BitInfinity.Proxy
