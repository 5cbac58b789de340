import BitInfinity.Bitcoin.Bech32
import BitInfinity.Foundation.Cursor
import BitInfinity.Proxy.BitcoinTransaction

/-!
# Bitcoin transactions at the node

The node's `broadcast_bitcoin_tx` reads a raw Bitcoin transaction and replies with the actions
that stand for it, without submitting them.  The node is built with overflow checks: an addition
that leaves its word panics, as does reading outside of bytes and texts.
-/

namespace BitInfinity.Node

open Foundation Proxy

variable {X : NodeExternals} {txHex : String}

structure NodeExternals extends TranslatorExternals where
  publicKeyFromSlice : Bytes → Option Secp256K1PublicKey

/-! ## The sender -/

def charsetText (data : List UInt8) : Except Halt (List Char) :=
  data.mapM fun d => okOr Bech32.charset[d.toNat]? .outOfBounds

def pubkeyToP2pkhAddress (C : Crypto) (pubkey : Bytes) : String :=
  base58checkEncode C 0x00 (hash160 C pubkey)

def pubkeyToP2wpkhAddress (C : Crypto) (pubkey : Bytes) : Except Halt String := do
  let data5 := 0 :: Bech32.convertBits 0 0 (hash160 C pubkey)
  let text ← charsetText (data5 ++ Bech32.checksum "bc" data5)
  .ok (String.ofList ("bc".toList ++ '1' :: text))

def lastPubkey (items : List Bytes) : Except Halt (Option Bytes) :=
  if 2 ≤ items.length then do
    let pubkey ← okOr items[items.length - 1]? .outOfBounds
    .ok (if isPubkeyLength pubkey then some pubkey else none)
  else .ok none

def noSender : String := "Could not extract sender public key from transaction inputs"

/-- The inner result is that of the source, the outer one says whether it returns. -/
def extractBtcSender (X : NodeExternals) (tx : BitcoinTx) :
    Except Halt (Except String (Bytes × String)) :=
  match tx.input.head? with
  | none => .ok (.error "Transaction has no inputs")
  | some input =>
    if input.scriptSig ≠ [] then do
      match ← lastPubkey (X.scriptPushes input.scriptSig) with
      | some pubkey => .ok (.ok (pubkey, pubkeyToP2pkhAddress X.toCrypto pubkey))
      | none =>
        match ← lastPubkey input.witness with
        | some pubkey => .ok (.ok (pubkey, pubkeyToP2pkhAddress X.toCrypto pubkey))
        | none => .ok (.error noSender)
    else
      match input.witness with
      | _ :: pubkey :: _ =>
        if isPubkeyLength pubkey then do
          let address ← pubkeyToP2wpkhAddress X.toCrypto pubkey
          .ok (.ok (pubkey, address))
        else .ok (.error noSender)
      | _ => .ok (.error noSender)

/-- The first 64 bytes, with zeros behind them if there are fewer. -/
def resize64 (pubkey : Bytes) : Bytes := pubkey.take 64 ++ List.replicate (64 - pubkey.length) 0

def startsWithTag (pubkey : Bytes) (length : Nat) (tags : List UInt8) : Except Halt Bool :=
  if pubkey.length = length then do
    let tag ← byteAt pubkey 0
    .ok (tag ∈ tags)
  else .ok false

def toUncompressed64 (X : NodeExternals) (pubkey : Bytes) : Except Halt Bytes :=
  if pubkey.length = 64 then .ok pubkey
  else do
    if ← startsWithTag pubkey 65 [0x04] then slice pubkey 1 pubkey.length
    else do
      if ← startsWithTag pubkey 33 [0x02, 0x03] then
        match X.publicKeyFromSlice pubkey with
        | some key => .ok key.bytes
        | none => .ok (resize64 pubkey)
      else .ok (resize64 pubkey)

/-! ## The outputs -/

structure NodeOutput where
  address : String
  amountSatoshis : Nat
  isOpReturn : Bool
  opReturnData : Option String
  deriving DecidableEq, Repr

def nodeOutput (X : NodeExternals) (txout : TxOut) : Except Halt NodeOutput :=
  if txout.isOpReturn then do
    let data ← if 2 < txout.scriptPubkey.length then do
        let data ← slice txout.scriptPubkey 2 txout.scriptPubkey.length
        .ok (some (String.ofList (hexEncode data)))
      else .ok none
    .ok ⟨"", txout.value, true, data⟩
  else .ok ⟨(X.addressFromScript .bitcoin txout.scriptPubkey).getD "", txout.value, false, none⟩

def paymentOutputs (outputs : List NodeOutput) (senderAddress : String) : List NodeOutput :=
  outputs.filter fun o => !o.isOpReturn && o.address != senderAddress

def sumSatoshis (amounts : List Nat) : Except Halt Nat := amounts.foldlM Overflow.panics.add 0

/-- The text from a byte position on; a position that is not between two characters panics. -/
def strFrom : List Char → Nat → Except Halt (List Char)
  | text, 0 => .ok text
  | [], _ + 1 => .error .outOfBounds
  | c :: text, position + 1 =>
    if c.utf8Size ≤ position + 1 then strFrom text (position + 1 - c.utf8Size)
    else .error .outOfBounds

def parseFunctionCall (hexData : String) : Except Halt (Option NearFunctionCall) :=
  match (hexDecode hexData).bind fromUtf8 with
  | none => .ok none
  | some text =>
    if AccountId.startsWith text "near:" then do
      let (contractId, rest) := splitColon (← strFrom text.toList 5)
      match rest with
      | none => .ok none
      | some rest =>
        let (methodName, args) := splitColon rest
        .ok (some
          { contractId := String.ofList contractId
            methodName := String.ofList methodName
            argsBase64 := String.ofList (args.getD []) })
    else .ok none

def functionCallOf (outputs : List NodeOutput) : Except Halt (Option NearFunctionCall) :=
  match (outputs.find? (·.isOpReturn)).bind (·.opReturnData) with
  | none => .ok none
  | some hexData => parseFunctionCall hexData

/-! ## The reply -/

inductive ReportedAction
  | functionCall (contractId methodName deposit : String)
  | transfer (receiverId deposit : String)
  deriving DecidableEq, Repr

structure ValidatedTx where
  txid : String
  senderAddress : String
  pubkeyHex : String
  nearAccountId : String
  nearPublicKey : String
  recipient : String
  amountSatoshis : Nat
  amountYocto : String
  outputs : List NodeOutput
  nearFunctionCall : Option NearFunctionCall
  nearActions : List ReportedAction
  deriving DecidableEq, Repr

inductive BroadcastReply
  | invalidHex
  | invalidTransaction
  | senderError (error txid : String)
  | validated (tx : ValidatedTx)
  deriving DecidableEq, Repr

def reportedActions (call : Option NearFunctionCall) (recipient deposit : String) :
    List ReportedAction :=
  match call with
  | some call => [.functionCall call.contractId call.methodName deposit]
  | none => [.transfer recipient deposit]

def validateTx (X : NodeExternals) (tx : BitcoinTx) (pubkey : Bytes) (senderAddress : String) :
    Except Halt ValidatedTx := do
  let outputs ← tx.output.mapM (nodeOutput X)
  let payments := paymentOutputs outputs senderAddress
  let total ← sumSatoshis (payments.map (·.amountSatoshis))
  let amountYocto ← okOr (checkedMul 128 total (10 ^ 16)) .overflow
  let recipient := (payments.head?.map (·.address)).getD ""
  let call ← functionCallOf outputs
  let key ← toUncompressed64 X pubkey
  .ok
    { txid := X.computeTxid tx
      senderAddress
      pubkeyHex := String.ofList (hexEncode pubkey)
      nearAccountId := senderAddress
      nearPublicKey := "secp256k1:" ++ X.bs58Encode key
      recipient
      amountSatoshis := total
      amountYocto := toString amountYocto
      outputs
      nearFunctionCall := call
      nearActions := reportedActions call recipient (toString amountYocto) }

def broadcastBitcoinTx (X : NodeExternals) (txHex : String) : Except Halt BroadcastReply :=
  match hexDecode txHex with
  | none => .ok .invalidHex
  | some bytes =>
    match X.deserialize bytes with
    | none => .ok .invalidTransaction
    | some tx => do
      match ← extractBtcSender X tx with
      | .error e => .ok (.senderError e (X.computeTxid tx))
      | .ok (pubkey, senderAddress) => do
        let validated ← validateTx X tx pubkey senderAddress
        .ok (.validated validated)

/-! ## What the parts return -/

theorem charsetText_eq {data : List UInt8} (h : FitsWidth 5 data) :
    charsetText data = .ok (data.map Bech32.symbol) := by
  induction data with
  | nil => rfl
  | cons d data ih =>
    have hd : d.toNat < Bech32.charset.length := h d List.mem_cons_self
    have hget : okOr Bech32.charset[d.toNat]? Halt.outOfBounds = .ok (Bech32.symbol d) := by
      rw [Bech32.symbol, List.getD_eq_getElem?_getD, List.getElem?_eq_getElem hd]
      rfl
    have htail := ih fun d' hd' => h d' (List.mem_cons_of_mem d hd')
    rw [charsetText] at htail ⊢
    rw [List.mapM_cons, hget, ok_bind, htail]
    rfl

theorem pubkeyToP2wpkhAddress_eq (C : Crypto) (pubkey : Bytes) :
    pubkeyToP2wpkhAddress C pubkey = .ok (Bech32.encode "bc" 0 (hash160 C pubkey)) := by
  have hfits : FitsWidth 5 (0 :: Bech32.convertBits 0 0 (hash160 C pubkey) ++
      Bech32.checksum "bc" (0 :: Bech32.convertBits 0 0 (hash160 C pubkey))) := by
    intro d hd
    rcases List.mem_append.mp hd with hd | hd
    · rcases List.mem_cons.mp hd with rfl | hd
      · decide
      · exact (Bech32.convertBits_bits _ 0 (by omega)).1 d hd
    · exact Bech32.fitsWidth_checksum "bc" _ d hd
  rw [pubkeyToP2wpkhAddress, charsetText_eq hfits]
  exact congrArg Except.ok (String.toList_inj.mp (by
    rw [String.toList_ofList, Bech32.toList_encode_eq]))

theorem lastPubkey_eq (items : List Bytes) :
    lastPubkey items = .ok (if 2 ≤ items.length then items.getLast?.filter isPubkeyLength
      else none) := by
  unfold lastPubkey
  split
  · have hlast : items[items.length - 1]? = some items[items.length - 1] :=
      List.getElem?_eq_getElem (by omega)
    rw [List.getLast?_eq_getElem?, hlast, Option.filter_some]
    rfl
  · rfl

theorem extractBtcSender_eq (X : NodeExternals) (tx : BitcoinTx) : ∃ e, extractBtcSender X tx = .ok
      (match extractSenderFromInput X.toTranslatorExternals tx with
        | .ok sender => .ok (sender.pubkey, sender.canonicalAddress X.toCrypto "bc")
        | .error _ => .error e) := by
  unfold extractBtcSender extractSenderFromInput
  cases hinput : tx.input.head? with
  | none => exact ⟨_, rfl⟩
  | some input =>
    refine ⟨noSender, ?_⟩
    by_cases hscript : input.scriptSig = []
    · simp only [hscript, ne_eq, not_true_eq_false, if_false, okOr, ok_bind]
      cases hwitness : input.witness with
      | nil => rfl
      | cons first rest =>
        cases rest with
        | nil => rfl
        | cons pubkey rest =>
          by_cases hlength : isPubkeyLength pubkey = true
          · simp only [hlength, if_true, pubkeyToP2wpkhAddress_eq, ok_bind]
            rfl
          · simp only [hlength]
            rfl
    · simp only [ne_eq, hscript, not_false_eq_true, if_true, okOr, ok_bind, lastPubkey_eq,
        legacyPubkey]
      generalize (if 2 ≤ (X.scriptPushes input.scriptSig).length then
        (X.scriptPushes input.scriptSig).getLast?.filter isPubkeyLength else none) = pushed
      generalize (if 2 ≤ input.witness.length then
        input.witness.getLast?.filter isPubkeyLength else none) = witnessed
      cases pushed with
      | some pubkey => rfl
      | none =>
        cases witnessed with
        | some pubkey => rfl
        | none => rfl

theorem toUncompressed64_returns (X : NodeExternals) (pubkey : Bytes) :
    ∃ key, toUncompressed64 X pubkey = .ok key := by
  have htag : ∀ length tags, 0 < length → ∃ b, startsWithTag pubkey length tags = .ok b ∧
      (b = true → pubkey.length = length) := by
    intro length tags hpositive
    unfold startsWithTag
    split
    · rename_i hlength
      have hbyte := @byteAt_eq pubkey 0 (by omega)
      rw [hbyte, ok_bind]
      exact ⟨_, rfl, fun _ => hlength⟩
    · exact ⟨false, rfl, nofun⟩
  unfold toUncompressed64
  split
  · exact ⟨pubkey, rfl⟩
  · obtain ⟨uncompressed, huncompressed, hlength⟩ := htag 65 [0x04] (by omega)
    rw [huncompressed, ok_bind]
    cases uncompressed with
    | true =>
      have h65 := hlength rfl
      exact ⟨_, slice_eq (by omega) (Nat.le_refl _)⟩
    | false =>
      obtain ⟨compressed, hcompressed, -⟩ := htag 33 [0x02, 0x03] (by omega)
      simp only [Bool.false_eq_true, if_false, hcompressed, ok_bind]
      cases compressed with
      | false => exact ⟨_, rfl⟩
      | true =>
        cases X.publicKeyFromSlice pubkey with
        | some key | none => exact ⟨_, rfl⟩

def reportOutput (X : NodeExternals) (txout : TxOut) : NodeOutput :=
  if txout.isOpReturn then
    ⟨"", txout.value, true, if 2 < txout.scriptPubkey.length then
      some (String.ofList (hexEncode (txout.scriptPubkey.drop 2))) else none⟩
  else ⟨(X.addressFromScript .bitcoin txout.scriptPubkey).getD "", txout.value, false, none⟩

theorem nodeOutput_eq (X : NodeExternals) (txout : TxOut) :
    nodeOutput X txout = .ok (reportOutput X txout) := by
  unfold nodeOutput reportOutput
  split
  · split
    · rw [slice_eq (by omega) (Nat.le_refl _), List.take_of_length_le (by simp)]
      rfl
    · rfl
  · rfl

theorem mapM_nodeOutput (X : NodeExternals) (outputs : List TxOut) :
    outputs.mapM (nodeOutput X) = .ok (outputs.map (reportOutput X)) := by
  induction outputs with
  | nil => rfl
  | cons o outputs ih =>
    rw [List.mapM_cons, nodeOutput_eq, ok_bind, ih]
    rfl

theorem sumSatoshis_eq_ok {amounts : List Nat} {total : Nat} :
    sumSatoshis amounts = .ok total ↔ amounts.sum < 2 ^ 64 ∧ total = amounts.sum := by
  have hfold : ∀ acc, amounts.foldlM Overflow.panics.add acc = .ok total ↔
      (amounts ≠ [] → acc + amounts.sum < 2 ^ 64) ∧ total = acc + amounts.sum := by
    induction amounts with
    | nil =>
      intro acc
      simp [pure, Except.pure, eq_comm]
    | cons amount amounts ih =>
      intro acc
      simp only [foldlM_cons_eq_ok, Overflow.panics_add_eq_ok, List.sum_cons, ← Nat.add_assoc]
      constructor
      · rintro ⟨_, ⟨hlt, rfl⟩, hrest⟩
        obtain ⟨hfits, rfl⟩ := (ih _).mp hrest
        refine ⟨fun _ => ?_, rfl⟩
        by_cases hnil : amounts = []
        · simpa [hnil] using hlt
        · exact hfits hnil
      · rintro ⟨hlt, rfl⟩
        have hlt := hlt (List.cons_ne_nil _ _)
        exact ⟨acc + amount, ⟨by omega, rfl⟩, (ih _).mpr ⟨fun _ => hlt, rfl⟩⟩
  rw [sumSatoshis, hfold]
  by_cases hnil : amounts = []
  · simp [hnil]
  · simp [hnil]

theorem strFrom_append {head : List Char} (h : ∀ c ∈ head, c.utf8Size = 1) (text : List Char) :
    strFrom (head ++ text) head.length = .ok text := by
  induction head with
  | nil => cases text <;> rfl
  | cons c head ih =>
    have hc : c.utf8Size = 1 := h c List.mem_cons_self
    rw [List.cons_append, List.length_cons, strFrom, hc, if_pos (by omega),
      Nat.add_sub_cancel, ih fun d hd => h d (List.mem_cons_of_mem c hd)]

theorem strFrom_of_startsWith {text : String} (h : AccountId.startsWith text "near:" = true) :
    strFrom text.toList 5 = .ok (text.toList.drop 5) := by
  obtain ⟨rest, hrest⟩ := List.isPrefixOf_iff_prefix.mp h
  rw [← hrest]
  have hascii : "near:".toList.all (·.utf8Size == 1) = true := by decide
  exact strFrom_append (fun c hc => beq_iff_eq.mp (List.all_eq_true.mp hascii c hc)) rest

def reportedCall (outputs : List NodeOutput) : Option NearFunctionCall := do
  let hexData ← (outputs.find? (·.isOpReturn)).bind (·.opReturnData)
  let data ← hexDecode hexData
  let text ← fromUtf8 data
  if AccountId.startsWith text "near:" then
    let (contractId, rest) := splitColon (text.toList.drop 5)
    let (methodName, args) := splitColon (← rest)
    some
      { contractId := String.ofList contractId
        methodName := String.ofList methodName
        argsBase64 := String.ofList (args.getD []) }
  else
    none

theorem functionCallOf_eq (outputs : List NodeOutput) :
    functionCallOf outputs = .ok (reportedCall outputs) := by
  unfold functionCallOf reportedCall
  cases (outputs.find? (·.isOpReturn)).bind (·.opReturnData) with
  | none => rfl
  | some hexData =>
    simp only [parseFunctionCall, Option.bind_eq_bind, Option.bind_some]
    cases hexDecode hexData with
    | none => rfl
    | some data =>
      simp only [Option.bind_some]
      cases fromUtf8 data with
      | none => rfl
      | some text =>
        simp only [Option.bind_some]
        split
        · rename_i hstart
          rw [strFrom_of_startsWith hstart, ok_bind]
          cases (splitColon (text.toList.drop 5)).2 with
          | none => simp
          | some rest => simp
        · rfl

/-! ## The endpoint -/

def nodePayments (X : NodeExternals) (tx : BitcoinTx) (senderAddress : String) : List NodeOutput :=
  paymentOutputs (tx.output.map (reportOutput X)) senderAddress

def nodeTotal (X : NodeExternals) (tx : BitcoinTx) (senderAddress : String) : Nat :=
  ((nodePayments X tx senderAddress).map (·.amountSatoshis)).sum

def nodeRecipient (X : NodeExternals) (tx : BitcoinTx) (senderAddress : String) : String :=
  ((nodePayments X tx senderAddress).head?.map (·.address)).getD ""

theorem validateTx_cases (X : NodeExternals) (tx : BitcoinTx) (pubkey : Bytes)
    (senderAddress : String) :
    (2 ^ 64 ≤ nodeTotal X tx senderAddress ∧
        ∃ halt, validateTx X tx pubkey senderAddress = .error halt) ∨
      (nodeTotal X tx senderAddress < 2 ^ 64 ∧ ∃ v,
        validateTx X tx pubkey senderAddress = .ok v ∧ v.nearAccountId = senderAddress ∧
        v.nearActions = reportedActions (reportedCall (tx.output.map (reportOutput X)))
          (nodeRecipient X tx senderAddress)
          (toString (nodeTotal X tx senderAddress * 10 ^ 16))) := by
  rcases Nat.lt_or_ge (nodeTotal X tx senderAddress) (2 ^ 64) with hlt | hge
  · have hsum := sumSatoshis_eq_ok.mpr ⟨hlt, rfl⟩
    have hmul : checkedMul 128 (nodeTotal X tx senderAddress) (10 ^ 16) =
        some (nodeTotal X tx senderAddress * 10 ^ 16) :=
      if_pos (by omega)
    obtain ⟨_, hkey⟩ := toUncompressed64_returns X pubkey
    refine .inr ⟨hlt, ?_⟩
    unfold validateTx
    rw [mapM_nodeOutput, ok_bind]
    change ∃ v, (sumSatoshis ((nodePayments X tx senderAddress).map _) >>= _) = _ ∧ _
    rw [hsum, ok_bind]
    change ∃ v, (okOr (checkedMul 128 (nodeTotal X tx senderAddress) _) _ >>= _) = _ ∧ _
    rw [hmul, functionCallOf_eq, hkey]
    exact ⟨_, rfl, rfl, rfl⟩
  · refine .inl ⟨hge, ?_⟩
    cases hresult : validateTx X tx pubkey senderAddress with
    | error halt => exact ⟨halt, rfl⟩
    | ok v =>
      unfold validateTx at hresult
      rw [mapM_nodeOutput, ok_bind] at hresult
      obtain ⟨_, htotal, -⟩ := bind_eq_ok.mp hresult
      have hlt := (sumSatoshis_eq_ok.mp htotal).1
      exact absurd hlt (Nat.not_lt.mpr hge)

def decodedTx (X : NodeExternals) (txHex : String) : Option BitcoinTx :=
  (hexDecode txHex).bind X.deserialize

theorem broadcast_of_not_decoded
    (h : decodedTx X txHex = none) : ∃ reply, broadcastBitcoinTx X txHex = .ok reply := by
  unfold broadcastBitcoinTx
  unfold decodedTx at h
  cases hhex : hexDecode txHex with
  | none => exact ⟨_, rfl⟩
  | some bytes =>
    rw [hhex, Option.bind_some] at h
    simp only [h]
    exact ⟨_, rfl⟩

theorem broadcast_of_decoded {tx : BitcoinTx} (h : decodedTx X txHex = some tx) :
    (∃ e, (∀ sender, extractSenderFromInput X.toTranslatorExternals tx ≠ .ok sender) ∧
        extractBtcSender X tx = .ok (.error e) ∧
        broadcastBitcoinTx X txHex = .ok (.senderError e (X.computeTxid tx))) ∨
      ∃ sender, extractSenderFromInput X.toTranslatorExternals tx = .ok sender ∧
        extractBtcSender X tx = .ok (.ok (sender.pubkey, sender.canonicalAddress X.toCrypto "bc")) ∧
        broadcastBitcoinTx X txHex =
          (validateTx X tx sender.pubkey (sender.canonicalAddress X.toCrypto "bc")).map
            .validated := by
  obtain ⟨_, hhex, htx⟩ := Option.bind_eq_some_iff.mp h
  obtain ⟨e, hsender⟩ := extractBtcSender_eq X tx
  unfold broadcastBitcoinTx
  cases hresult : extractSenderFromInput X.toTranslatorExternals tx with
  | error e' =>
    rw [hresult] at hsender
    refine .inl ⟨e, nofun, hsender, ?_⟩
    simp only [hhex, htx, hsender, ok_bind]
  | ok sender =>
    rw [hresult] at hsender
    refine .inr ⟨sender, rfl, hsender, ?_⟩
    simp only [hhex, htx, hsender, ok_bind]
    cases validateTx X tx sender.pubkey (sender.canonicalAddress X.toCrypto "bc") with
    | error => rfl
    | ok v => rfl

theorem reported_of_validated {tx : BitcoinTx} {v : ValidatedTx}
    (hdecoded : decodedTx X txHex = some tx) (h : broadcastBitcoinTx X txHex = .ok (.validated v)) :
    ∃ sender, extractSenderFromInput X.toTranslatorExternals tx = .ok sender ∧
      v.nearAccountId = sender.canonicalAddress X.toCrypto "bc" ∧
      v.nearActions = reportedActions (reportedCall (tx.output.map (reportOutput X)))
        (nodeRecipient X tx (sender.canonicalAddress X.toCrypto "bc"))
        (toString (nodeTotal X tx (sender.canonicalAddress X.toCrypto "bc") * 10 ^ 16)) := by
  rcases broadcast_of_decoded hdecoded with ⟨e, -, -, hreply⟩ | ⟨sender, hsender, -, hreply⟩
  · rw [hreply] at h
    cases h
  · rw [hreply] at h
    rcases validateTx_cases X tx sender.pubkey (sender.canonicalAddress X.toCrypto "bc") with
      ⟨-, halt, herror⟩ | ⟨-, v', hv, haccount, hactions⟩
    · rw [herror] at h
      cases h
    · rw [hv] at h
      cases h
      exact ⟨sender, hsender, haccount, hactions⟩

/-- The endpoint returns a reply unless the payments of a transaction with a sender leave the
word of 64 bits. -/
theorem broadcast_returns_iff (X : NodeExternals) (txHex : String) :
    (∃ reply, broadcastBitcoinTx X txHex = .ok reply) ↔
      ∀ tx pubkey senderAddress, decodedTx X txHex = some tx →
        extractBtcSender X tx = .ok (.ok (pubkey, senderAddress)) →
        nodeTotal X tx senderAddress < 2 ^ 64 := by
  cases hdecoded : decodedTx X txHex with
  | none => simp [broadcast_of_not_decoded hdecoded]
  | some tx =>
    rcases broadcast_of_decoded hdecoded with ⟨e, -, hsender, hreply⟩ | ⟨sender, -, hsender, hreply⟩
    · refine ⟨?_, fun _ => ⟨_, hreply⟩⟩
      rintro - tx' pubkey address heq hsender'
      cases heq
      rw [hsender] at hsender'
      cases hsender'
    · rcases validateTx_cases X tx sender.pubkey (sender.canonicalAddress X.toCrypto "bc") with
        ⟨hge, halt, herror⟩ | ⟨hlt, v, hv, -⟩
      · rw [hreply, herror]
        constructor
        · rintro ⟨reply, habsurd⟩
          cases habsurd
        · intro h
          exact absurd (h tx _ _ rfl hsender) (Nat.not_lt.mpr hge)
      · rw [hreply, hv]
        refine ⟨?_, fun _ => ⟨_, rfl⟩⟩
        rintro - tx' pubkey address heq hsender'
        cases heq
        rw [hsender] at hsender'
        cases hsender'
        exact hlt

/-- The toy instance of the proxy, with keys that cannot be decompressed. -/
def NodeExternals.sample : NodeExternals :=
  { TranslatorExternals.sample with publicKeyFromSlice := fun _ => none }

def NodeExternals.largeOutputs : NodeExternals :=
  { NodeExternals.sample with
    deserialize := fun _ => some ⟨2, 0, [⟨"", 0, List.replicate 33 2, 0, []⟩],
      [⟨2 ^ 63, [1]⟩, ⟨2 ^ 63, [1]⟩]⟩ }

theorem broadcast_panics : broadcastBitcoinTx .largeOutputs "00" = .error .overflow := by
  decide +kernel

end BitInfinity.Node
