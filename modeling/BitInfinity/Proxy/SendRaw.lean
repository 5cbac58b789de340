import BitInfinity.Proxy.BitcoinTransaction
import BitInfinity.Proxy.NearClient

/-!
# `sendrawtransaction`

The handler takes a raw Bitcoin transaction, translates each output to others into a transfer
on the chain, signs the transfers with the wallet key of the sender and sends them one by one.
The raw text may also be a signed intent, whose transactions are only passed on.
-/

namespace BitInfinity.Proxy

open BitInfinity Foundation

def signedIntentPrefix : String := "bitinfinity:"

def signedIntentText (bytes : Bytes) : Option String :=
  let decoded := (fromUtf8 bytes).getD ""
  if AccountId.startsWith decoded signedIntentPrefix then
    some (String.ofList (decoded.toList.drop signedIntentPrefix.length))
  else
    none

/-! ## Signed intents -/

structure SignedIntent where
  sender : String
  btcTxid : String
  nearTxs : List Json

def parseSignedIntent (X : TranslatorExternals) (text : String) : Except RpcError SignedIntent := do
  let payload ← (X.parseJson text).mapError fun e => ⟨-22, "Invalid signed intent: " ++ e⟩
  let sender := ((payload.get "sender").bind Json.asStr).getD ""
  ensure (sender != "") ⟨-22, "Invalid signed intent: missing or empty sender field"⟩
  let btcTxid := ((payload.get "btc_txid").bind Json.asStr).getD ""
  match (payload.get "near_txs").bind Json.asArray, (payload.get "near_tx").bind Json.asStr with
  | some nearTxs, _ => .ok { sender, btcTxid, nearTxs }
  | none, some nearTx =>
    -- the older form with a single transaction
    let nonce := ((payload.get "nonce").bind Json.asU64).getD 0
    .ok { sender, btcTxid, nearTxs :=
      [.object [("near_tx", .string nearTx), ("nonce", .number (some nonce) none)]] }
  | none, none => errResponse (-22) "No NEAR transactions in signed intent"

/-- Pass the transactions on from position `i`, and return the hashes. -/
def submitIntentTxs (btcTxid sender : String) : Nat → List Json → Handler (List String)
  | _, [] => pure []
  | i, txObj :: rest => do
    let nearTx := ((txObj.get "near_tx").bind Json.asStr).getD ""
    let nonce := ((txObj.get "nonce").bind Json.asU64).getD 0
    match ← sendTxAsync (.encoded nearTx) (some (btcTxid, i)) with
    | .ok hash =>
      recordNonce sender nonce
      let hashes ← submitIntentTxs btcTxid sender (i + 1) rest
      pure (hash :: hashes)
    | .error e =>
      failWith (-25) ("Transaction submission failed for output " ++ toString i ++ ": " ++ e)

def sendSignedIntent (rawHex : String) (intent : SignedIntent) : Handler String := do
  let hashes ← submitIntentTxs intent.btcTxid intent.sender 0 intent.nearTxs
  insertTx intent.btcTxid ⟨hashes.headD "", rawHex, intent.sender⟩
  pure intent.btcTxid

/-! ## Bitcoin transactions -/

def sendRawLabels : SigningLabels where
  node := "Node not connected: "
  blockHash := "Invalid block hash: "
  publicKey := "Invalid public key: "
  keyBytes := "Key error: "
  secretKey := "Invalid secret key: "

def functionCallGas : Nat := 300000000000000

def sendFunctionCall (X : TranslatorExternals) (rawHex txid : String) (signer : Signer)
    (call : NearFunctionCall) (totalSat : Nat) : Handler String := do
  let args := (X.base64Decode call.argsBase64).getD []
  let tx := signer.transaction signer.nonce call.contractId
    [.functionCall call.methodName args functionCallGas (satoshisToYocto totalSat)]
  let signed ← signAndEncode "TX signing failed: " signer.secret tx
  match ← sendTxAsync signed none with
  | .ok hash =>
    recordNonce signer.address signer.nonce
    insertTx txid ⟨hash, rawHex, signer.address⟩
    pure txid
  | .error e => failWith (-25) ("Transaction submission failed: " ++ e)

def Signer.transferTo (signer : Signer) (nonce : Nat) (output : TxOutput) : NearTransaction :=
  signer.transaction nonce output.address [.transfer (satoshisToYocto output.amountSatoshis)]

/-- One transfer for each output, with consecutive nonces; the first failure ends the loop. -/
def submitTransfers (txid : String) (signer : Signer) :
    Nat → List (TxOutput × Nat) → Handler (List String)
  | _, [] => pure []
  | nonce, (output, index) :: rest => do
    let tx := signer.transferTo nonce output
    let signed ← signAndEncode "TX signing failed: " signer.secret tx
    match ← sendTxAsync signed (some (txid, index)) with
    | .ok hash =>
      recordNonce signer.address nonce
      let hashes ← submitTransfers txid signer (wrappingAdd 64 nonce 1) rest
      pure (hash :: hashes)
    | .error e =>
      failWith (-25) ("Transaction submission failed for output to " ++ output.address ++ ": " ++ e)

def sendTransfers (rawHex txid : String) (signer : Signer) (outputs : List (TxOutput × Nat)) :
    Handler String := do
  let hashes ← submitTransfers txid signer signer.nonce outputs
  insertTx txid ⟨hashes.headD "", rawHex, signer.address⟩
  pure txid

/-- The checks before the key is looked up; they give the total of the payments. -/
def checkPayments (parsed : ParsedBitcoinTx) : Except RpcError Nat := do
  ensure (parsed.paymentOutputs != [] || parsed.decodeNearFunctionCall.isSome)
    ⟨-25, "No payment output found"⟩
  okOr (checkedSumSatoshis (parsed.paymentOutputs.map (·.1.amountSatoshis)))
    ⟨-22, "Transaction output total overflow"⟩

def noPrivateKey (address : String) : RpcError :=
  ⟨-4, "No private key found for address " ++ address ++
    ". Use getnewaddress to generate a key, or importprivkey to import one."⟩

/-- What is signed and sent for a transaction that passed the checks. -/
def sendPayments (X : TranslatorExternals) (rawHex : String) (parsed : ParsedBitcoinTx)
    (totalSat : Nat) (signer : Signer) : Handler String :=
  match parsed.decodeNearFunctionCall with
  | some call => sendFunctionCall X rawHex parsed.txid signer call totalSat
  | none => sendTransfers rawHex parsed.txid signer parsed.paymentOutputs

def sendBitcoinTx (X : TranslatorExternals) (rawHex : String) (parsed : ParsedBitcoinTx) :
    Handler String := do
  let totalSat ← .ofExcept (checkPayments parsed)
  let keystore ← readKeystore
  let entry ← .ofExcept
    (okOr (keystore.get parsed.senderAddress) (noPrivateKey parsed.senderAddress))
  let signer ← prepareSigner X.toProxyExternals sendRawLabels parsed.senderAddress entry
  sendPayments X rawHex parsed totalSat signer

def sendrawtransaction (X : TranslatorExternals) (bech32Hrp : String)
    (rawHex : Option String) : Handler String := do
  let rawHex ← .ofExcept (okOr rawHex ⟨-32602, "Missing raw transaction hex"⟩)
  let bytes ← .ofExcept (okOr (hexDecode rawHex) ⟨-22, "TX decode failed: invalid hex"⟩)
  match signedIntentText bytes with
  | some text => do
    let intent ← .ofExcept (parseSignedIntent X text)
    sendSignedIntent rawHex intent
  | none => do
    let parsed ← orFail (-22) "TX decode failed: "
      (ParsedBitcoinTx.fromHexWithHrp X rawHex bech32Hrp)
    sendBitcoinTx X rawHex parsed

def sampleSending : World :=
  let address := (SenderKey.p2pkh (List.replicate 33 2)).address
    TranslatorExternals.sample.toCrypto "bc"
  let entry : KeyEntry :=
    { privateKeyHex := String.ofList (hexEncode (List.replicate 32 1))
      publicKeyCompressedHex := ""
      publicKeyUncompressedHex := String.ofList (hexEncode (List.replicate 64 1)) }
  .start (.new "mainnet" (.plain (Keystore.default.insert address entry)) (fun _ => none) 0)

def sampleNode (accepts : Nat → Bool) : NodeScript where
  status := .ok ⟨"block", 7⟩
  genesisBlockHash := .error ""
  patoshiLockState _ := .error ""
  accessKey _ := .ok (some 0)
  account _ := .ok 0
  send n := if accepts n then .ok "hash" else .error "timeout"

def sampleCall (w : World) (rawHex : String) : World :=
  (Handler.runWith (sampleNode fun _ => true)
    (sendrawtransaction .sample w.rpc.bech32Hrp (some rawHex)) w).2

theorem sampleCall_ends {rawHex : String} {out : Except RpcError String}
    (h : (Handler.runWith (sampleNode fun _ => true)
      (sendrawtransaction .sample sampleSending.rpc.bech32Hrp (some rawHex)) sampleSending).1 =
        out) :
    (sendrawtransaction .sample sampleSending.rpc.bech32Hrp (some rawHex)).Ends World.outside
      sampleSending out (sampleCall sampleSending rawHex) :=
  h ▸ Handler.ends_runWith _ _ _

/-! ## What a call does -/

section Effects

variable {X : TranslatorExternals} {w t : World} {out : Except RpcError String}

theorem sendBitcoinTx_cases {rawHex : String} {parsed : ParsedBitcoinTx}
    (h : (sendBitcoinTx X rawHex parsed).Ends World.outside w out t) :
    (t = w ∧ ∃ e, out = .error e) ∨ ∃ totalSat entry signer, checkPayments parsed = .ok totalSat ∧
      w.rpc.keystore.get parsed.senderAddress = some entry ∧
      (prepareSigner X.toProxyExternals sendRawLabels parsed.senderAddress entry).Ends
        World.outside w (.ok signer) w ∧
      (sendPayments X rawHex parsed totalSat signer).Ends World.outside w out t := by
  rcases quiet_ofExcept.ends_bind h with hstop | ⟨totalSat, htotal, h⟩
  · exact .inl hstop
  rcases quiet_readKeystore.ends_bind h with hstop | ⟨keystore, hkeystore, h⟩
  · exact .inl hstop
  obtain ⟨hok, -⟩ := ends_readKeystore.mp hkeystore
  cases hok
  rcases quiet_ofExcept.ends_bind h with hstop | ⟨entry, hentry, h⟩
  · exact .inl hstop
  rcases (quiet_prepareSigner _ _ _ _).ends_bind h with hstop | ⟨signer, hsigner, h⟩
  · exact .inl hstop
  exact .inr ⟨totalSat, entry, signer, (ends_ofExcept_ok.mp htotal).1,
    okOr_eq_ok.mp (ends_ofExcept_ok.mp hentry).1, hsigner, h⟩

theorem sendrawtransaction_cases {bech32Hrp : String} {rawHex : Option String}
    (h : (sendrawtransaction X bech32Hrp rawHex).Ends World.outside w out t) :
    (t = w ∧ ∃ e, out = .error e) ∨ ∃ raw bytes, rawHex = some raw ∧ hexDecode raw = some bytes ∧
      ((∃ text intent, signedIntentText bytes = some text ∧ parseSignedIntent X text = .ok intent ∧
          (sendSignedIntent raw intent).Ends World.outside w out t) ∨
        ∃ parsed, signedIntentText bytes = none ∧
          ParsedBitcoinTx.fromHexWithHrp X raw bech32Hrp = .ok parsed ∧
          (sendBitcoinTx X raw parsed).Ends World.outside w out t) := by
  rcases quiet_ofExcept.ends_bind h with hstop | ⟨raw, hraw, h⟩
  · exact .inl hstop
  rcases quiet_ofExcept.ends_bind h with hstop | ⟨bytes, hbytes, h⟩
  · exact .inl hstop
  have hraw := okOr_eq_ok.mp (ends_ofExcept_ok.mp hraw).1
  have hbytes := okOr_eq_ok.mp (ends_ofExcept_ok.mp hbytes).1
  cases htext : signedIntentText bytes with
  | some text =>
    rw [htext] at h
    rcases quiet_ofExcept.ends_bind h with hstop | ⟨intent, hintent, h⟩
    · exact .inl hstop
    · exact .inr ⟨raw, bytes, hraw, hbytes, .inl ⟨text, intent, htext,
        (ends_ofExcept_ok.mp hintent).1, h⟩⟩
  | none =>
    rw [htext] at h
    rcases quiet_orFail.ends_bind h with hstop | ⟨parsed, hparsed, h⟩
    · exact .inl hstop
    · exact .inr ⟨raw, bytes, hraw, hbytes, .inr ⟨parsed, htext, (ends_orFail_ok.mp hparsed).1, h⟩⟩

/-- The transfers that a loop over the outputs sends when all of them are accepted. -/
def transferSubmissions (txid : String) (signer : Signer) :
    Nat → List (TxOutput × Nat) → List Submission
  | _, [] => []
  | nonce, (output, index) :: rest =>
    ⟨.signed signer.secret (signer.transferTo nonce output), some (txid, index), true⟩ ::
      transferSubmissions txid signer (wrappingAdd 64 nonce 1) rest

/-- The loop sends accepted transfers for a first part of the outputs; it returns normally
when that part is all of them, and otherwise the last submission was refused. -/
theorem submitTransfers_sent {txid : String} {signer : Signer} {nonce : Nat}
    {outputs : List (TxOutput × Nat)} {out : Except RpcError (List String)}
    (h : (submitTransfers txid signer nonce outputs).Ends World.outside w out t) :
    ∃ paid unpaid refused, outputs = paid ++ unpaid ∧
      t.sent = w.sent ++ (transferSubmissions txid signer nonce paid ++ refused) ∧
      (∀ sub ∈ refused, sub.accepted = false) ∧
      ∀ hashes, out = .ok hashes → unpaid = [] ∧ refused = [] := by
  induction outputs generalizing w nonce out with
  | nil =>
    obtain ⟨rfl, rfl⟩ := Prog.ends_done.mp h
    exact ⟨[], [], [], rfl, by simp [transferSubmissions], by simp, fun _ _ => ⟨rfl, rfl⟩⟩
  | cons head rest ih =>
    obtain ⟨output, index⟩ := head
    have hactions : (signer.transferTo nonce output).actions ≠ [] := nofun
    obtain ⟨reply, h⟩ := (Prog.ends_bind_of_exists_iff fun _ _ => ends_sendTxAsync).mp
      ((Prog.ends_bind_of_iff fun _ _ => ends_signAndEncode hactions).mp h)
    cases reply with
    | error e =>
      obtain ⟨rfl, rfl⟩ := Prog.ends_fail.mp h
      refine ⟨[], (output, index) :: rest, [_], rfl, rfl, ?_, nofun⟩
      intro sub hsub
      rw [List.mem_singleton.mp hsub]
      rfl
    | ok =>
      obtain ⟨x, hrest, rfl⟩ := Prog.ends_bind_pure.mp
        ((Prog.ends_bind_of_iff fun _ _ => ends_recordNonce).mp h)
      obtain ⟨paid, unpaid, refused, rfl, hsent, hrefused, hall⟩ := ih hrest
      refine ⟨(output, index) :: paid, unpaid, refused, rfl,
        by simpa [transferSubmissions, Except.isOk, Except.toBool] using hsent, hrefused, ?_⟩
      intro hashes hok
      cases x with
      | error e => cases hok
      | ok rest => exact hall rest rfl

end Effects

end BitInfinity.Proxy
