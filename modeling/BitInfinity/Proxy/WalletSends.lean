import BitInfinity.Proxy.NearMethods
import BitInfinity.Proxy.SendMany

/-!
# The other handlers that sign with wallet keys

`sendtoaddress`, the signing of raw transactions and intents without sending them, and the
signing of messages and PSBT inputs.  All of them check first that the wallet is loaded and
unlocked.
-/

namespace BitInfinity.Proxy

open BitInfinity Foundation

/-! ## `sendtoaddress` -/

def walletLabels : SigningLabels where
  node := "Node not connected: "
  blockHash := "Invalid block hash: "
  publicKey := "Key error: "
  keyBytes := "Key error: "
  secretKey := "Key error: "

def nominalFeeSatoshis : Nat := 1000

def sendAmounts (amount : Option UInt64) (subtractFee : Bool) : Except RpcError (Nat × Nat) := do
  let amount ← okOr amount ⟨-3, "Invalid amount: must be positive, finite, and satoshi-precise"⟩
  let fee := if subtractFee then nominalFeeSatoshis else 0
  ensure (fee < amount.toNat) ⟨-3, "Invalid amount: too small after fee subtraction"⟩
  .ok (amount.toNat, amount.toNat - fee)

def sendtoaddress (X : ProxyExternals) (recipient : Option String) (amount : Option UInt64)
    (subtractFee : Bool) : Handler String := do
  ensureWalletUsable
  let recipient ← .ofExcept (okOr recipient ⟨-32602, "Missing address parameter"⟩)
  let (satoshis, sent) ← .ofExcept (sendAmounts amount subtractFee)
  let addresses ← keystoreAddresses
  match ← findFundedSender satoshis addresses with
  | none => failWith (-6) "Insufficient funds or no wallet keys"
  | some (sender, entry) => do
    let signer ← prepareSigner X walletLabels sender entry
    let signed ← signAndEncode "TX signing failed: " signer.secret (signer.payment recipient sent)
    match ← sendTxAsync signed none with
    | .error e => failWith (-25) ("Transaction failed: " ++ e)
    | .ok hash =>
      recordNonce signer.address signer.nonce
      let txid := syntheticTxid X.toCrypto hash
      insertTx txid ⟨hash, "sendtoaddress:" ++ recipient ++ ":" ++ toString satoshis,
        signer.address⟩
      pure txid

def send (X : ProxyExternals) (output : Except RpcError (String × Option UInt64)) :
    Handler String := do
  let (recipient, amount) ← .ofExcept output
  sendtoaddress X (some recipient) amount false

/-! ## Signing without sending -/

structure OutputInfo where
  address : String
  amountSatoshis : Nat
  deriving DecidableEq, Repr

def intentOutput (out : Json) : Except RpcError OutputInfo := do
  let address := ((out.get "address").bind Json.asStr).getD ""
  ensure (address != "") ⟨-22, "Invalid intent format: missing output address"⟩
  let amount ← okOr ((out.get "amount").bind Json.asAmount)
    ⟨-22, "Invalid intent format: output amount must be a positive number"⟩
  let satoshis ← okOr amount
    ⟨-22, "Invalid intent format: output amount must be positive and satoshi-precise"⟩
  .ok ⟨address, satoshis.toNat⟩

def intentOutputs (intent : Json) : Except RpcError (List OutputInfo × Nat) :=
  match (intent.get "outputs").bind Json.asArray with
  | some (first :: rest) => do
    let outputs ← (first :: rest).mapM intentOutput
    let total ← okOr (checkedSumSatoshis (outputs.map (·.amountSatoshis)))
      ⟨-22, "Invalid intent format: total output amount overflow"⟩
    .ok (outputs, total)
  | _ => errResponse (-22) "Invalid intent format"

def findFundedAddress (satoshis : Nat) : List String → Handler (Option String)
  | [] => pure none
  | address :: rest => do
    match ← viewAccount address with
    | .error _ => findFundedAddress satoshis rest
    | .ok amount =>
      if satoshis ≤ balanceAsSatoshis amount then pure (some address)
      else findFundedAddress satoshis rest

/-- The sender and the outputs of the text to sign; `none` when no address is funded. -/
def signingOutputs (X : TranslatorExternals) (bech32Hrp rawHex : String) :
    Handler (Option (String × List OutputInfo)) := do
  let text := (fromUtf8 ((hexDecode rawHex).getD [])).getD ""
  match X.parseJson text with
  | .ok intent => do
    let (outputs, total) ← .ofExcept (intentOutputs intent)
    let addresses ← keystoreAddresses
    let sender ← findFundedAddress total addresses
    pure (sender.map (·, outputs))
  | .error _ =>
    match ParsedBitcoinTx.fromHexWithHrp X rawHex bech32Hrp with
    | .error _ => failWith (-22) "TX decode failed: not a valid Bitcoin tx or bitinfinity intent"
    | .ok parsed => do
      let outputs := parsed.paymentOutputs.map fun o => ⟨o.1.address, o.1.amountSatoshis⟩
      .ofExcept (ensure (outputs != []) ⟨-25, "No payment outputs found"⟩)
      pure (some (parsed.senderAddress, outputs))

def signOutputs (signer : Signer) : Nat → List OutputInfo → Handler (List SignedTx)
  | _, [] => pure []
  | nonce, output :: rest => do
    .ofExcept (ensure (nonce < 2 ^ 64)
      ⟨-32000, "Nonce overflow while preparing output transactions"⟩)
    let signed ← signAndEncode "TX signing failed for output: " signer.secret
      (signer.transaction nonce output.address [.transfer (satoshisToYocto output.amountSatoshis)])
    let others ← signOutputs signer (nonce + 1) rest
    pure (signed :: others)

/-- The nonce is asked for again for each further output, and not used. -/
def askNonces (address publicKey : String) : Nat → Handler Unit
  | 0 => pure ()
  | n + 1 => do
    let _ ← nextNonce address publicKey
    askNonces address publicKey n

/-- What is returned: the raw text again, or the signed transactions. -/
inductive SignOutcome
  | incomplete (rawHex error : String)
  | complete (sender : String) (nearTxs : List SignedTx)
  deriving DecidableEq, Repr

def signrawtransactionwithwallet (X : TranslatorExternals) (bech32Hrp : String)
    (rawHex : Option String) : Handler SignOutcome := do
  ensureWalletUsable
  let rawHex ← .ofExcept (okOr rawHex ⟨-32602, "Missing raw transaction hex"⟩)
  match ← signingOutputs X bech32Hrp rawHex with
  | none => pure (.incomplete rawHex "Insufficient funds or no wallet keys")
  | some (sender, outputs) => do
    let keystore ← readKeystore
    match keystore.get sender with
    | none => pure (.incomplete rawHex ("Key not found for " ++ sender))
    | some entry => do
      let signer ← prepareSigner X.toProxyExternals walletLabels sender entry
      let _ ← .ofExcept (okOr (checkedSumSatoshis (outputs.map (·.amountSatoshis)))
        ⟨-22, "Transaction output total overflow"⟩)
      let nearTxs ← signOutputs signer signer.nonce outputs
      let nearPublicKey := "secp256k1:" ++ X.bs58Encode signer.publicKey
      askNonces sender nearPublicKey (outputs.length - 1)
      pure (.complete sender nearTxs)

/-! ## Messages and PSBTs -/

def signmessage (X : ProxyExternals) (address message : Option String) : Handler Unit := do
  ensureWalletUsable
  let address ← .ofExcept (okOr address ⟨-32602, "Missing address parameter"⟩)
  let message ← .ofExcept (okOr message ⟨-32602, "Missing message parameter"⟩)
  let keystore ← readKeystore
  let entry ← .ofExcept
    (okOr (keystore.get address) ⟨-3, "Address not found in wallet: " ++ address⟩)
  let secretBytes ← orFail (-32000) "Key error: " entry.privateKeyBytes
  let secret ← orFail (-32000) "Key error: " (secretKeyFromSlice X secretBytes)
  sign secret (.message message)

def signerMaterial (X : ProxyExternals) (keystore : Keystore) (addresses : List String) :
    Option Bytes :=
  addresses.findSome? fun address => do
    let entry ← keystore.get address
    let _ ← hexDecode entry.publicKeyCompressedHex
    let secretBytes ← entry.privateKeyBytes.toOption
    (secretKeyFromSlice X secretBytes).toOption

def signInputs (secret : Bytes) : Nat → Handler Unit
  | 0 => pure ()
  | n + 1 => do
    signInputs secret n
    sign secret (.psbtInput n)

/-- The number of inputs as the reading of the PSBT ends; whether it was completed. -/
def walletprocesspsbt (X : ProxyExternals) (inputs : Except RpcError Nat) : Handler Bool := do
  ensureWalletUsable
  let inputs ← .ofExcept inputs
  let addresses ← keystoreAddresses
  let keystore ← readKeystore
  match signerMaterial X keystore addresses with
  | none => pure false
  | some secret => do
    signInputs secret inputs
    pure (0 < inputs : Bool)

/-! ## All calls that sign -/

inductive SigningCall
  | near (method : NearMethod)
  | patoshiunlock (address signatureBase64 : Option String)
  | sendrawtransaction (rawHex : Option String)
  | signrawtransactionwithwallet (rawHex : Option String)
  | sendtoaddress (recipient : Option String) (amount : Option UInt64) (subtractFee : Bool)
  | send (output : Except RpcError (String × Option UInt64))
  | sendmany (amounts : Option (List (String × Option UInt64)))
  | signmessage (address message : Option String)
  | walletprocesspsbt (inputs : Except RpcError Nat)

def SigningCall.handler (X : TranslatorExternals) (bech32Hrp : String) : SigningCall → Handler Unit
  | .near method => do let _ ← method.handler X
  | .patoshiunlock address signatureBase64 => do
    let _ ← Proxy.patoshiunlock X bech32Hrp address signatureBase64
  | .sendrawtransaction rawHex => do let _ ← Proxy.sendrawtransaction X bech32Hrp rawHex
  | .signrawtransactionwithwallet rawHex => do
    let _ ← Proxy.signrawtransactionwithwallet X bech32Hrp rawHex
  | .sendtoaddress recipient amount subtractFee => do
    let _ ← Proxy.sendtoaddress X.toProxyExternals recipient amount subtractFee
  | .send output => do let _ ← Proxy.send X.toProxyExternals output
  | .sendmany amounts => do let _ ← Proxy.sendmany X.toProxyExternals amounts
  | .signmessage address message => Proxy.signmessage X.toProxyExternals address message
  | .walletprocesspsbt inputs => do let _ ← Proxy.walletprocesspsbt X.toProxyExternals inputs

end BitInfinity.Proxy
