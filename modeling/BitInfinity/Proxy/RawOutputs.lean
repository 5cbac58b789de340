import BitInfinity.Proxy.RawAuthorisation
import BitInfinity.Proxy.RawPayments

/-!
# The accounts that `sendrawtransaction` pays

The transfers of a successful call, compared with the outputs of the Bitcoin transaction.  The
proxy puts every address in lower case before it uses it, also base58 addresses, whose letters
matter.
-/

namespace BitInfinity.Proxy

open BitInfinity Foundation

/-! ## Deposits -/

theorem SenderKey.toLowercase_canonicalAddress (C : Crypto) (sender : SenderKey) :
    toLowercase (sender.canonicalAddress C "bc") = sender.address C "bc" := by
  cases sender with
  | p2pkh pubkey => rfl
  | p2wpkh pubkey => exact toLowercase_bech32 _ _

def NearTransaction.transferred (tx : NearTransaction) : Nat :=
  (tx.actions.map fun
    | .transfer deposit => deposit
    | _ => 0).sum

def Submission.transferredTo (account : String) (sub : Submission) : Nat :=
  match sub.tx with
  | .signed _ tx => if sub.accepted ∧ tx.receiverId = account then tx.transferred else 0
  | .encoded _ => 0

def BitcoinTx.owedTo (X : TranslatorExternals) (tx : BitcoinTx) (address : String) : Nat :=
  (tx.output.map fun o => if o.address? X "bc" = some address then o.value else 0).sum

/-- The output must be paid: it has a value, and is neither data nor change. -/
structure TxOut.MustBePaid (X : TranslatorExternals) (sender : SenderKey) (o : TxOut) : Prop where
  value_ne : o.value ≠ 0
  not_opReturn : o.isOpReturn = false
  not_change : o.address? X "bc" ≠ some (sender.canonicalAddress X.toCrypto "bc")

/-- An address as Bitcoin spells it that can be an account. -/
structure TranslatorExternals.IsAccount (X : TranslatorExternals) (address : String) : Prop where
  isAddress : ∃ script, X.addressFromScript .bitcoin script = some address
  accepted : AccountId.isBitcoinImplicit X.toCrypto address = true

/-- The submissions pay what the transaction pays. -/
structure PaysOutputs (X : TranslatorExternals) (tx : BitcoinTx) (sender : SenderKey)
    (sent : List Submission) : Prop where
  amounts : ∀ address, X.IsAccount address → address ≠ sender.canonicalAddress X.toCrypto "bc" →
    (sent.map (·.transferredTo address)).sum = 10 ^ 16 * tx.owedTo X address
  complete : ∀ o index, (o, index) ∈ tx.output.zipIdx → o.MustBePaid X sender →
    ∃ sub ∈ sent, sub.accepted = true ∧ sub.pays = some (X.computeTxid tx, index)

/-- The output has an address that the lower case does not change and that is not the text
that the proxy uses for the sender. -/
def TxOut.KeepsSpelling (X : TranslatorExternals) (sender : SenderKey) (o : TxOut) : Prop :=
  ∃ address, o.address? X "bc" = some address ∧ address ≠ "" ∧ toLowercase address = address ∧
    address ≠ sender.address X.toCrypto "bc"

/-- The base58 addresses of the Bitcoin library are accepted as account ids. -/
def TranslatorExternals.AcceptsBase58 (X : TranslatorExternals) : Prop :=
  ∀ script address, X.addressFromScript .bitcoin script = some address →
    toLowercase address ≠ address → AccountId.isBitcoinImplicit X.toCrypto address = true

section Outputs

variable {X : TranslatorExternals} {tx : BitcoinTx} {sender : SenderKey}

variable {o : TxOut} {parsed : ParsedBitcoinTx} {txid : String}

variable {w t : World} {rawHex address : String} {index : Nat}

theorem sum_transferredTo (txid account : String) (signer : Signer) (nonce : Nat)
    (outputs : List (TxOutput × Nat)) :
    ((transferSubmissions txid signer nonce outputs).map (·.transferredTo account)).sum =
      (outputs.map fun o =>
        if o.1.address = account then satoshisToYocto o.1.amountSatoshis else 0).sum := by
  induction outputs generalizing nonce with
  | nil => rfl
  | cons head rest ih =>
    simp only [transferSubmissions, List.map_cons, List.sum_cons, ih]
    simp [Submission.transferredTo, Signer.transferTo, Signer.transaction,
      NearTransaction.transferred]

@[simp] theorem extractOutput_address (o : TxOut) :
    (extractOutput X "bc" o).address = ((o.address? X "bc").map toLowercase).getD "" := by
  unfold extractOutput TxOut.address?
  split <;> rfl

@[simp] theorem extractOutput_amountSatoshis (o : TxOut) :
    (extractOutput X "bc" o).amountSatoshis = o.value := by
  unfold extractOutput
  split <;> rfl

theorem extractOutput_not_opReturn (h : (extractOutput X "bc" o).address ≠ "") :
    (extractOutput X "bc" o).isOpReturn = false := by
  unfold extractOutput at h ⊢
  split
  · next hop => simp [hop] at h
  · rfl

theorem sum_paymentOutputs (account : String)
    (houtputs : parsed.outputs = tx.output.map (extractOutput X "bc")) :
    (parsed.paymentOutputs.map fun o =>
        if o.1.address = account then satoshisToYocto o.1.amountSatoshis else 0).sum =
      (tx.output.map fun o =>
        if account ≠ "" ∧ account ≠ parsed.senderAddress ∧
            (o.address? X "bc").map toLowercase = some account
        then satoshisToYocto o.value else 0).sum := by
  let pays : TxOutput → Bool := fun o =>
    !o.isOpReturn && o.address != "" && o.address != parsed.senderAddress
  let amount : TxOutput → Nat := fun o =>
    if o.address = account then satoshisToYocto o.amountSatoshis else 0
  have hfilter : ∀ l : List (TxOutput × Nat),
      ((l.filter fun o => pays o.1).map fun o => amount o.1).sum =
        ((l.map Prod.fst).map fun o => if pays o then amount o else 0).sum := by
    intro l
    induction l with
    | nil => rfl
    | cons o l ih => cases hpays : pays o.1 <;> simp [hpays, ih]
  have hall := hfilter (tx.output.map (extractOutput X "bc")).zipIdx
  rw [List.zipIdx_map_fst, List.map_map] at hall
  rw [ParsedBitcoinTx.paymentOutputs, houtputs]
  refine hall.trans (congrArg List.sum (List.map_congr_left fun o _ => ?_))
  -- an output without an address is in none of the two sums
  cases haddress : o.address? X "bc" with
  | none => simp [pays, amount, haddress]
  | some address =>
    have hop := extractOutput_not_opReturn (X := X) (o := o)
    simp only [extractOutput_address, haddress, Option.map_some, Option.getD_some] at hop
    simp only [Function.comp_apply, pays, amount, extractOutput_address, haddress,
      extractOutput_amountSatoshis, Option.map_some, Option.getD_some]
    grind

theorem parseTx_eq_ok
    (hsender : extractSenderFromInput X tx = .ok sender) (h : parseTx X "bc" tx = .ok parsed) :
    parsed.txid = X.computeTxid tx ∧ parsed.senderAddress = sender.address X.toCrypto "bc" ∧
      parsed.outputs = tx.output.map (extractOutput X "bc") := by
  rw [parseTx, hsender] at h
  cases h
  exact ⟨rfl, rfl, rfl⟩

theorem checkedSumSatoshis_eq_some {values : List Nat} {total : Nat}
    (h : checkedSumSatoshis values = some total) : total = values.sum := by
  have hfold : ∀ acc, values.foldlM (checkedAdd 64) acc = some total →
      total = acc + values.sum := by
    clear h
    induction values with
    | nil =>
      intro acc h
      cases h
      rfl
    | cons value values ih =>
      intro acc h
      obtain ⟨_, hnext, hrest⟩ := Option.bind_eq_some_iff.mp h
      obtain ⟨-, rfl⟩ := checkedAdd_eq_some.mp hnext
      rw [ih _ hrest, List.sum_cons, Nat.add_assoc]
  rw [hfold 0 h, Nat.zero_add]

def callSubmission (X : TranslatorExternals) (signer : Signer) (call : NearFunctionCall)
    (totalSat : Nat) : Submission :=
  let args := (X.base64Decode call.argsBase64).getD []
  ⟨.signed signer.secret (signer.transaction signer.nonce call.contractId
    [.functionCall call.methodName args functionCallGas (satoshisToYocto totalSat)]), none, true⟩

def submissionsOf (X : TranslatorExternals) (parsed : ParsedBitcoinTx) (signer : Signer) :
    List Submission :=
  match parsed.decodeNearFunctionCall with
  | some call => [callSubmission X signer call (parsed.paymentOutputs.map (·.1.amountSatoshis)).sum]
  | none => transferSubmissions parsed.txid signer signer.nonce parsed.paymentOutputs

theorem sent_of_sendBitcoinTx
    (hrun : (sendBitcoinTx X rawHex parsed).Ends World.outside w (.ok txid) t) :
    ∃ signer : Signer, signer.address = parsed.senderAddress ∧
      t.sent = w.sent ++ submissionsOf X parsed signer := by
  rcases sendBitcoinTx_cases hrun with
    ⟨-, e, he⟩ | ⟨totalSat, entry, signer, htotal, -, hsigner, hpay⟩
  · cases he
  obtain ⟨-, haddress, -⟩ := prepareSigner_ok hsigner
  refine ⟨signer, haddress, ?_⟩
  rw [sendPayments] at hpay
  rw [submissionsOf]
  cases hcall : parsed.decodeNearFunctionCall with
  | some call =>
    rw [hcall] at hpay
    obtain ⟨_, -, hsum⟩ := bind_eq_ok.mp htotal
    rw [← checkedSumSatoshis_eq_some (okOr_eq_ok.mp hsum)]
    obtain ⟨reply, hpay⟩ := (Prog.ends_bind_of_exists_iff fun _ _ => ends_sendTxAsync).mp
      ((Prog.ends_bind_of_iff fun _ _ => ends_signAndEncode (List.cons_ne_nil _ _)).mp hpay)
    cases reply with
    | error e =>
      obtain ⟨habsurd, -⟩ := Prog.ends_fail.mp hpay
      cases habsurd
    | ok =>
      have hpay := (Prog.ends_bind_of_iff fun _ _ => ends_recordNonce).mp hpay
      obtain ⟨-, rfl⟩ := ends_insertTx_pure.mp hpay
      rfl
  | none =>
    rw [hcall] at hpay
    obtain ⟨hashes, m, hloop, hend⟩ := Prog.ends_bind_ok.mp hpay
    obtain ⟨-, rfl⟩ := ends_insertTx_pure.mp hend
    obtain ⟨_, _, _, houtputs, hsent, -, hall⟩ := submitTransfers_sent hloop
    obtain ⟨rfl, rfl⟩ := hall hashes rfl
    rw [houtputs]
    simpa using hsent

theorem sent_of_sendBitcoinTx_ok (hcall : parsed.decodeNearFunctionCall = none)
    (hrun : (sendBitcoinTx X rawHex parsed).Ends World.outside w (.ok txid) t) :
    ∃ signer : Signer, t.sent = w.sent ++
      transferSubmissions parsed.txid signer signer.nonce parsed.paymentOutputs := by
  obtain ⟨signer, -, hsent⟩ := sent_of_sendBitcoinTx hrun
  rw [submissionsOf, hcall] at hsent
  exact ⟨signer, hsent⟩

theorem pays_mem_transferSubmissions {signer : Signer} {nonce : Nat}
    {outputs : List (TxOutput × Nat)} :
    (∃ sub ∈ transferSubmissions txid signer nonce outputs,
        sub.accepted = true ∧ sub.pays = some (txid, index)) ↔ ∃ o, (o, index) ∈ outputs := by
  induction outputs generalizing nonce with
  | nil => simp [transferSubmissions]
  | cons head rest ih =>
    obtain ⟨_, i⟩ := head
    simp only [transferSubmissions, List.exists_mem_cons_iff, ih]
    simp [exists_or, eq_comm]

theorem exists_mem_paymentOutputs (houtputs : parsed.outputs = tx.output.map (extractOutput X "bc"))
    (ho : (o, index) ∈ tx.output.zipIdx) :
    (∃ output, (output, index) ∈ parsed.paymentOutputs) ↔
      ∃ address, o.address? X "bc" = some address ∧ toLowercase address ≠ "" ∧
        toLowercase address ≠ parsed.senderAddress := by
  have hindex : tx.output[index]? = some o := List.mem_zipIdx_iff_getElem?.mp ho
  have hmem : ∀ output, (output, index) ∈ parsed.outputs.zipIdx ↔
      extractOutput X "bc" o = output := by
    intro output
    rw [List.mem_zipIdx_iff_getElem?, houtputs]
    simp [hindex]
  simp only [ParsedBitcoinTx.paymentOutputs, List.mem_filter, hmem, exists_eq_left',
    Bool.and_eq_true, Bool.not_eq_true', bne_iff_ne, ne_eq]
  constructor
  · rintro ⟨⟨-, hne⟩, hsender⟩
    cases haddress : o.address? X "bc" with
    | none => simp [haddress] at hne
    | some address => exact ⟨address, rfl, by simpa [haddress] using hne,
        by simpa [haddress] using hsender⟩
  · rintro ⟨address, haddress, hne, hsender⟩
    have htext : (extractOutput X "bc" o).address = toLowercase address := by simp [haddress]
    rw [htext]
    exact ⟨⟨extractOutput_not_opReturn (htext ▸ hne), hne⟩, hsender⟩

theorem amount_of_keepsSpelling (hkeep : o.MustBePaid X sender → o.KeepsSpelling X sender)
    (hother : address ≠ sender.canonicalAddress X.toCrypto "bc") :
    (if address ≠ "" ∧ address ≠ sender.address X.toCrypto "bc" ∧
        (o.address? X "bc").map toLowercase = some address
      then satoshisToYocto o.value else 0) =
      10 ^ 16 * if o.address? X "bc" = some address then o.value else 0 := by
  by_cases hmust : o.MustBePaid X sender
  · obtain ⟨a, ha, hne, hlower, hsender⟩ := hkeep hmust
    simp only [ha, Option.map_some, hlower, Option.some.injEq]
    by_cases heq : a = address
    · subst heq
      simp [hne, hsender, satoshisToYocto, yoctoPerSatoshi, mul_comm]
    · simp [heq]
  · -- nothing has to be paid: no value, data, or change
    by_cases hvalue : o.value = 0
    · simp [hvalue, satoshisToYocto]
    · cases haddress : o.address? X "bc" with
      | none => simp
      | some a =>
        obtain ⟨hop, -⟩ : o.isOpReturn = false ∧
            X.addressFromScript (networkOf "bc") o.scriptPubkey = some a := by
          simpa [TxOut.address?] using haddress
        have hchange : a = sender.canonicalAddress X.toCrypto "bc" := by
          by_contra hne
          exact hmust ⟨hvalue, hop, by simpa [haddress] using hne⟩
        have hlower : toLowercase a = sender.address X.toCrypto "bc" := by
          rw [hchange, sender.toLowercase_canonicalAddress]
        have hne : a ≠ address := fun heq => hother (heq ▸ hchange)
        simp only [Option.map_some, Option.some.injEq, hlower, if_neg hne, mul_zero]
        rw [if_neg]
        rintro ⟨-, hsender, heq⟩
        exact hsender heq.symm

theorem owedTo_pos (ho : o ∈ tx.output) (hvalue : o.value ≠ 0)
    (haddress : o.address? X "bc" = some address) : 0 < tx.owedTo X address := by
  have hmem : o.value ∈ tx.output.map fun o =>
      if o.address? X "bc" = some address then o.value else 0 :=
    List.mem_map.mpr ⟨o, ho, by simp [haddress]⟩
  exact lt_of_lt_of_le (Nat.pos_of_ne_zero hvalue) (List.single_le_sum (by simp) _ hmem)

end Outputs

/-- On the main network a successful call without a function call pays the outputs of the
transaction exactly when every output to another address has one that the lower case does not
change, and that is not taken for the address of the sender. -/
theorem pays_outputs_iff (X : TranslatorExternals) (hbase58 : X.AcceptsBase58) {w t : World}
    {rawHex txid : String} {bytes : Bytes} {tx : BitcoinTx} {sender : SenderKey}
    {parsed : ParsedBitcoinTx} (hmain : w.rpc.bech32Hrp = "bc")
    (hbytes : hexDecode rawHex = some bytes) (hintent : signedIntentText bytes = none)
    (htx : X.deserialize bytes = some tx) (hsender : extractSenderFromInput X tx = .ok sender)
    (hparsed : parseTx X "bc" tx = .ok parsed)
    (hcall : parsed.decodeNearFunctionCall = none)
    (hrun : (sendrawtransaction X w.rpc.bech32Hrp (some rawHex)).Ends World.outside w
      (.ok txid) t) :
    PaysOutputs X tx sender (t.sent.drop w.sent.length) ↔
      ∀ o ∈ tx.output, o.MustBePaid X sender → o.KeepsSpelling X sender := by
  obtain ⟨htxid, haddress, houtputs⟩ := parseTx_eq_ok hsender hparsed
  rw [hmain, ends_sendrawtransaction hbytes hintent
    ((fromHexWithHrp_eq_parseTx hbytes htx).trans hparsed)] at hrun
  obtain ⟨signer, hsent⟩ := sent_of_sendBitcoinTx_ok hcall hrun
  rw [hsent, List.drop_left]
  have hsum : ∀ account, ((transferSubmissions parsed.txid signer signer.nonce
      parsed.paymentOutputs).map (·.transferredTo account)).sum = _ :=
    fun account => (sum_transferredTo _ _ _ _ _).trans (sum_paymentOutputs account houtputs)
  constructor
  · rintro ⟨hamounts, hcomplete⟩ o ho hmust
    obtain ⟨index, hindex⟩ := List.mem_iff_getElem?.mp ho
    have hzip : (o, index) ∈ tx.output.zipIdx := List.mem_zipIdx_iff_getElem?.mpr hindex
    have hpaid := hcomplete o index hzip hmust
    rw [← htxid, pays_mem_transferSubmissions, exists_mem_paymentOutputs houtputs hzip] at hpaid
    obtain ⟨a, ha, hne, hother⟩ := hpaid
    have hlower : toLowercase a = a := by
      by_contra hupper
      have hscript : X.addressFromScript .bitcoin o.scriptPubkey = some a := by
        simpa [TxOut.address?, hmust.not_opReturn, networkOf] using ha
      have hamount := hamounts a ⟨⟨_, hscript⟩, hbase58 _ _ hscript hupper⟩
        fun heq => hmust.not_change (heq ▸ ha)
      -- no transfer goes to a text with capital letters
      rw [hsum, List.sum_eq_zero] at hamount
      · have := owedTo_pos ho hmust.value_ne ha
        omega
      · intro n hn
        obtain ⟨_, -, rfl⟩ := List.mem_map.mp hn
        rw [if_neg]
        rintro ⟨-, -, heq⟩
        obtain ⟨b, -, hb⟩ := Option.map_eq_some_iff.mp heq
        rw [← hb, toLowercase_toLowercase] at hupper
        exact hupper rfl
    rw [hlower] at hne hother
    exact ⟨a, ha, hne, hlower, haddress ▸ hother⟩
  · intro hkeep
    constructor
    · intro address _ hother
      rw [hsum, BitcoinTx.owedTo, ← List.sum_map_mul_left, haddress]
      refine congrArg List.sum (List.map_congr_left fun o ho => ?_)
      exact amount_of_keepsSpelling (hkeep o ho) hother
    · intro o index hzip hmust
      have ho : o ∈ tx.output := (List.mem_zipIdx' hzip).2 ▸ List.getElem_mem _
      obtain ⟨a, ha, hne, hlower, hother⟩ := hkeep o ho hmust
      rw [← htxid, pays_mem_transferSubmissions, exists_mem_paymentOutputs houtputs hzip]
      exact ⟨a, ha, hlower.symm ▸ hne, by rw [hlower, haddress]; exact hother⟩

theorem sample_acceptsBase58 : TranslatorExternals.sample.AcceptsBase58 := by
  intro script address haddress hupper
  change (if script = [1] then some "bc1qa"
    else if script = [2] then some sampleBase58 else none) = some address at haddress
  split at haddress
  · cases haddress
    exact absurd (by decide) hupper
  · split at haddress
    · cases haddress
      decide +kernel
    · cases haddress

/-- An output to a SegWit address is paid. -/
theorem segwit_output_paid : ∃ tx sender t, TranslatorExternals.sample.deserialize [1] = some tx ∧
      extractSenderFromInput .sample tx = .ok sender ∧
      (sendrawtransaction .sample sampleSending.rpc.bech32Hrp (some "01")).Ends World.outside
        sampleSending (.ok "01") t ∧
      PaysOutputs .sample tx sender (t.sent.drop sampleSending.sent.length) := by
  have hrun := @sampleCall_ends "01" (.ok "01") (by decide +kernel)
  refine ⟨_, _, _, rfl, rfl, hrun, (pays_outputs_iff .sample
    sample_acceptsBase58 (by decide +kernel) (show hexDecode "01" = some [1] by decide)
    (by decide +kernel) rfl rfl rfl rfl hrun).mpr ?_⟩
  intro o ho _
  obtain rfl : o = ⟨5, [1]⟩ := List.mem_singleton.mp ho
  exact ⟨"bc1qa", by decide, by decide, by decide, by decide +kernel⟩

/-- The transfer for an output to a base58 address goes to another account. -/
theorem base58_output_not_paid :
    ∃ tx sender t, TranslatorExternals.sample.deserialize [2] = some tx ∧
      extractSenderFromInput .sample tx = .ok sender ∧
      (sendrawtransaction .sample sampleSending.rpc.bech32Hrp (some "02")).Ends World.outside
        sampleSending (.ok "02") t ∧
      ¬ PaysOutputs .sample tx sender (t.sent.drop sampleSending.sent.length) := by
  have hrun := @sampleCall_ends "02" (.ok "02") (by decide +kernel)
  refine ⟨_, _, _, rfl, rfl, hrun, fun hpays => ?_⟩
  have hamount := hpays.amounts sampleBase58 ⟨⟨[2], rfl⟩, by decide +kernel⟩ (by decide +kernel)
  exact absurd hamount (by decide +kernel)

end BitInfinity.Proxy
