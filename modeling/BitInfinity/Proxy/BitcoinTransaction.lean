import BitInfinity.Proxy.RpcState

/-!
# Bitcoin transactions at the proxy

The part of a raw Bitcoin transaction that the proxy translates: who pays, from the first
input, and whom, from the output scripts.  The parsers of the Bitcoin library are parameters.
-/

namespace BitInfinity.Proxy

open BitInfinity Foundation

/-! ## Raw transactions -/

structure TxIn where
  previousTxid : String
  previousVout : Nat
  scriptSig : Bytes
  sequence : Nat
  witness : List Bytes
  deriving DecidableEq, Repr

structure TxOut where
  value : Nat
  scriptPubkey : Bytes
  deriving DecidableEq, Repr

structure BitcoinTx where
  version : Int
  lockTime : Nat
  input : List TxIn
  output : List TxOut
  deriving DecidableEq, Repr

inductive Network
  | bitcoin
  | regtest
  | testnet
  deriving DecidableEq, Repr

/-- JSON as far as the handlers look into it: of a number they take the unsigned value, or the
satoshis when it is read as an amount in BTC. -/
inductive Json
  | null
  | bool (value : Bool)
  | number (unsigned : Option Nat) (satoshis : Option UInt64)
  | string (text : String)
  | array (items : List Json)
  | object (fields : List (String × Json))

namespace Json

def get (key : String) : Json → Option Json
  | object fields => fields.lookup key
  | _ => none

def asStr : Json → Option String
  | string text => some text
  | _ => none

def asU64 : Json → Option Nat
  | number unsigned _ => unsigned
  | _ => none

/-- The amount in satoshis, `none` inside when it is not a positive number of satoshis. -/
def asAmount : Json → Option (Option UInt64)
  | number _ satoshis => some satoshis
  | _ => none

def asArray : Json → Option (List Json)
  | array items => some items
  | _ => none

end Json

/-- The libraries that read Bitcoin transactions, JSON and base64. -/
structure TranslatorExternals extends ProxyExternals where
  deserialize : Bytes → Option BitcoinTx
  computeTxid : BitcoinTx → String
  /-- The data that a script pushes, as far as its instructions parse. -/
  scriptPushes : Bytes → List Bytes
  addressFromScript : Network → Bytes → Option String
  parseJson : String → Except String Json
  base64Decode : String → Option Bytes
  /-- The signature, in base64, of a text by the key of an address. -/
  verifyBitcoinMessageSignature : (address signatureBase64 message bech32Hrp : String) → Bool

def sampleBase58 : String := "1AZaaaaaaaaaaaaaaaaaaaaaaaaa"

/-- Each byte of a raw transaction is the script of an output of 5 satoshis. -/
def TranslatorExternals.sample : TranslatorExternals :=
  { ProxyExternals.sample with
    sha256 := fun data => [UInt8.ofNat data.length, 0, 0, 0]
    bs58Decode := fun text =>
      if text = sampleBase58 then some (List.replicate 21 0 ++ [4, 0, 0, 0])
      else some (List.replicate 32 0)
    deserialize := fun bytes => some
      { version := 2
        lockTime := 0
        input := [⟨"", 0, List.replicate 33 2, 0, []⟩]
        output := bytes.map fun b => ⟨5, [b]⟩ }
    computeTxid := fun tx => String.ofList (hexEncode (tx.output.flatMap (·.scriptPubkey)))
    scriptPushes := fun script => [[], script]
    addressFromScript := fun _ script =>
      if script = [1] then some "bc1qa"
      else if script = [2] then some sampleBase58
      else none
    parseJson := fun _ => .error "expected value"
    base64Decode := fun _ => some []
    verifyBitcoinMessageSignature := fun _ _ _ _ => true }

/-! ## The sender -/

def p2pkhVersionByte (bech32Hrp : String) : UInt8 := if bech32Hrp = "bc" then 0x00 else 0x6f

/-- The public key of the sender, with the kind of address that is taken for it. -/
inductive SenderKey
  | p2pkh (pubkey : Bytes)
  | p2wpkh (pubkey : Bytes)
  deriving DecidableEq, Repr

namespace SenderKey

def pubkey : SenderKey → Bytes
  | p2pkh pubkey => pubkey
  | p2wpkh pubkey => pubkey

def canonicalAddress (C : Crypto) (bech32Hrp : String) : SenderKey → String
  | p2pkh pubkey => base58checkEncode C (p2pkhVersionByte bech32Hrp) (hash160 C pubkey)
  | p2wpkh pubkey => Bech32.encode bech32Hrp 0 (hash160 C pubkey)

/-- The address as the proxy uses it for the account: base58 is put in lower case. -/
def address (C : Crypto) (bech32Hrp : String) : SenderKey → String
  | p2pkh pubkey =>
    toLowercase (base58checkEncode C (p2pkhVersionByte bech32Hrp) (hash160 C pubkey))
  | p2wpkh pubkey => Bech32.encode bech32Hrp 0 (hash160 C pubkey)

end SenderKey

def isPubkeyLength (bytes : Bytes) : Bool := bytes.length == 33 || bytes.length == 65

/-- A public key at the end of the signature script or, failing that, of the witness. -/
def legacyPubkey (X : TranslatorExternals) (input : TxIn) : Option Bytes :=
  let pushes := X.scriptPushes input.scriptSig
  let last (items : List Bytes) : Option Bytes :=
    if 2 ≤ items.length then items.getLast?.filter isPubkeyLength else none
  last pushes <|> last input.witness

def extractSenderFromInput (X : TranslatorExternals) (tx : BitcoinTx) :
    Except String SenderKey := do
  let input ← okOr tx.input.head? "Transaction has no inputs"
  let unknown : Except String SenderKey :=
    .error "Could not extract sender public key from transaction inputs"
  if input.scriptSig ≠ [] then
    match legacyPubkey X input with
    | some pubkey => .ok (.p2pkh pubkey)
    | none => unknown
  else
    match input.witness with
    | _ :: pubkey :: _ => if isPubkeyLength pubkey then .ok (.p2wpkh pubkey) else unknown
    | [_] => .error "P2TR key-path spend: cannot extract pubkey from witness alone"
    | [] => unknown

/-! ## The outputs -/

structure TxOutput where
  address : String
  amountSatoshis : Nat
  isOpReturn : Bool
  opReturnData : Option Bytes
  deriving DecidableEq, Repr

def networkOf (bech32Hrp : String) : Network :=
  if bech32Hrp = "bc" then .bitcoin else if bech32Hrp = "bcrt" then .regtest else .testnet

def TxOut.isOpReturn (output : TxOut) : Bool := output.scriptPubkey.head? == some 0x6a

def TxOut.address? (X : TranslatorExternals) (bech32Hrp : String) (output : TxOut) :
    Option String :=
  if output.isOpReturn then none
  else X.addressFromScript (networkOf bech32Hrp) output.scriptPubkey

def extractOutput (X : TranslatorExternals) (bech32Hrp : String) (output : TxOut) : TxOutput :=
  if output.isOpReturn then
    { address := ""
      amountSatoshis := output.value
      isOpReturn := true
      opReturnData :=
        if 2 < output.scriptPubkey.length then some (output.scriptPubkey.drop 2) else none }
  else
    { address :=
        ((X.addressFromScript (networkOf bech32Hrp) output.scriptPubkey).map toLowercase).getD ""
      amountSatoshis := output.value
      isOpReturn := false
      opReturnData := none }

theorem extractOutput_isOpReturn (X : TranslatorExternals) (bech32Hrp : String) (o : TxOut) :
    (extractOutput X bech32Hrp o).isOpReturn = o.isOpReturn := by
  unfold extractOutput
  split
  · next hop => exact hop.symm
  · next hop => exact (Bool.not_eq_true _ ▸ hop).symm

/-! ## Parsed transactions -/

structure ParsedBitcoinTx where
  txid : String
  senderAddress : String
  senderPubkey : Bytes
  outputs : List TxOutput
  deriving DecidableEq, Repr

def parseTx (X : TranslatorExternals) (bech32Hrp : String) (tx : BitcoinTx) :
    Except String ParsedBitcoinTx := do
  let sender ← extractSenderFromInput X tx
  .ok
    { txid := X.computeTxid tx
      senderAddress := sender.address X.toCrypto bech32Hrp
      senderPubkey := sender.pubkey
      outputs := tx.output.map (extractOutput X bech32Hrp) }

def ParsedBitcoinTx.fromHexWithHrp (X : TranslatorExternals) (rawHex bech32Hrp : String) :
    Except String ParsedBitcoinTx := do
  let bytes ← okOr (hexDecode rawHex) "Invalid hex"
  let tx ← okOr (X.deserialize bytes) "Failed to deserialize Bitcoin transaction"
  parseTx X bech32Hrp tx

def yoctoPerSatoshi : Nat := 10 ^ 16

def satoshisToYocto (satoshis : Nat) : Nat := satoshis * yoctoPerSatoshi

def checkedSumSatoshis (values : List Nat) : Option Nat := values.foldlM (checkedAdd 64) 0

structure NearFunctionCall where
  contractId : String
  methodName : String
  argsBase64 : String
  deriving DecidableEq, Repr

/-- The text before the first colon, and the text after it if there is a colon. -/
def splitColon (text : List Char) : List Char × Option (List Char) :=
  match text.span (· ≠ ':') with
  | (before, _ :: rest) => (before, some rest)
  | (before, []) => (before, none)

def fromUtf8 (bytes : Bytes) : Option String := String.fromUTF8? ⟨bytes.toArray⟩

namespace ParsedBitcoinTx

/-- The outputs to others, with their positions in the transaction. -/
def paymentOutputs (parsed : ParsedBitcoinTx) : List (TxOutput × Nat) :=
  parsed.outputs.zipIdx.filter fun o =>
    !o.1.isOpReturn && o.1.address != "" && o.1.address != parsed.senderAddress

def opReturnData (parsed : ParsedBitcoinTx) : Option Bytes :=
  (parsed.outputs.find? (·.isOpReturn)).bind (·.opReturnData)

/-- `near:<contract_id>:<method_name>:<base64_args>` in the first `OP_RETURN` output. -/
def decodeNearFunctionCall (parsed : ParsedBitcoinTx) : Option NearFunctionCall := do
  let data ← parsed.opReturnData
  let text ← fromUtf8 data
  if AccountId.startsWith text "near:" then
    let (contractId, rest) := splitColon (text.toList.drop 5)
    let (methodName, args) := splitColon (← rest)
    some
      { contractId := String.ofList contractId
        methodName := String.ofList methodName
        argsBase64 := String.ofList (args.getD []) }
  else
    none

end ParsedBitcoinTx

end BitInfinity.Proxy
