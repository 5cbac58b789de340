import BitInfinity.Node.BroadcastBitcoinTx
import BitInfinity.Primitives.Wire
import BitInfinity.Proxy.RawOutputs

/-!
# The node and the proxy on one transaction

The node replies to a raw transaction with the actions that stand for it, and the proxy submits
actions for it.  The two are compared by the account that signs, and by the receivers with their
deposits.
-/

namespace BitInfinity.Node

open Foundation Proxy

/-! ## Receivers and deposits -/

def ReportedAction.pair : ReportedAction → String × String
  | .functionCall contractId _ deposit => (contractId, deposit)
  | .transfer receiverId deposit => (receiverId, deposit)

def nearActionDeposit : NearAction → Nat
  | .functionCall _ _ _ deposit => deposit
  | .transfer deposit => deposit
  | .transferToGasKey _ deposit => deposit
  | _ => 0

def actionDeposit : Action → Nat
  | .basic (.functionCall call) => call.deposit
  | .basic (.transfer deposit) => deposit
  | .basic (.transferToGasKey _ deposit) => deposit
  | .basic (.deterministicStateInit _ deposit) => deposit
  | _ => 0

/-- The signer of what is sent, and the receiver and deposit of each action; a text that came
with the request is read as the node reads it. -/
def sentContent (X : NodeExternals) : SignedTx → Option (String × List (String × String))
  | .signed _ tx =>
    some (tx.signerId, tx.actions.map fun a => (tx.receiverId, toString (nearActionDeposit a)))
  | .encoded text => do
    let bytes ← X.base64Decode text
    let signed ← decodeAll (readSignedTransaction X.toCrypto) bytes
    let tx := signed.transaction
    some (tx.signerId, tx.actions.map fun a => (tx.receiverId, toString (actionDeposit a)))

def sentPairs (X : NodeExternals) (sent : List Submission) : List (String × String) :=
  sent.flatMap fun sub => ((sentContent X sub.tx).map (·.2)).getD []

/-- The submissions are signed by the account that the node reports, and have the receivers and
deposits that it reports, in any order. -/
structure Agrees (X : NodeExternals) (v : ValidatedTx) (sent : List Submission) : Prop where
  signer : ∀ sub ∈ sent, ∃ pairs, sentContent X sub.tx = some (v.nearAccountId, pairs)
  pairs : (sentPairs X sent).Perm (v.nearActions.map ReportedAction.pair)

/-! ## What the proxy submits -/

section Submissions

variable {X : NodeExternals} {w t : World} {tx : BitcoinTx} {sender : SenderKey}
  {parsed : ParsedBitcoinTx}

variable {signer : Signer} {sub : Submission}

theorem sentPairs_transferSubmissions (txid : String) (signer : Signer) (nonce : Nat)
    (outputs : List (TxOutput × Nat)) :
    sentPairs X (transferSubmissions txid signer nonce outputs) =
      outputs.map fun o => (o.1.address, toString (satoshisToYocto o.1.amountSatoshis)) := by
  induction outputs generalizing nonce with
  | nil => rfl
  | cons head rest ih =>
    have htail := ih (wrappingAdd 64 nonce 1)
    rw [sentPairs] at htail
    rw [sentPairs, transferSubmissions, List.flatMap_cons, htail]
    rfl

theorem sentContent_transferSubmissions {txid : String} {nonce : Nat}
    {outputs : List (TxOutput × Nat)} (h : sub ∈ transferSubmissions txid signer nonce outputs) :
    ∃ pairs, sentContent X sub.tx = some (signer.address, pairs) := by
  induction outputs generalizing nonce with
  | nil => cases h
  | cons head rest ih =>
    rcases List.mem_cons.mp h with rfl | h
    · exact ⟨_, rfl⟩
    · exact ih h

theorem sentContent_submissionsOf (h : sub ∈ submissionsOf X.toTranslatorExternals parsed signer) :
    ∃ pairs, sentContent X sub.tx = some (signer.address, pairs) := by
  unfold submissionsOf at h
  cases hcall : parsed.decodeNearFunctionCall with
  | some call =>
    rw [hcall] at h
    rw [List.mem_singleton.mp h]
    exact ⟨_, rfl⟩
  | none =>
    rw [hcall] at h
    exact sentContent_transferSubmissions h

/-! ## The two translations -/

@[simp] theorem reportOutput_isOpReturn (o : TxOut) :
    (reportOutput X o).isOpReturn = o.isOpReturn := by
  unfold reportOutput
  cases o.isOpReturn <;> rfl

@[simp] theorem reportOutput_address (o : TxOut) :
    (reportOutput X o).address = (o.address? X.toTranslatorExternals "bc").getD "" := by
  unfold reportOutput TxOut.address?
  cases o.isOpReturn <;> rfl

@[simp] theorem reportOutput_amountSatoshis (o : TxOut) :
    (reportOutput X o).amountSatoshis = o.value := by
  unfold reportOutput
  split <;> rfl

theorem reportedCall_eq
    (houtputs : parsed.outputs = tx.output.map (extractOutput X.toTranslatorExternals "bc")) :
    reportedCall (tx.output.map (reportOutput X)) = parsed.decodeNearFunctionCall := by
  unfold reportedCall ParsedBitcoinTx.decodeNearFunctionCall ParsedBitcoinTx.opReturnData
  simp only [houtputs, List.find?_map, Function.comp_def, reportOutput_isOpReturn,
    extractOutput_isOpReturn]
  cases hfind : tx.output.find? (·.isOpReturn) with
  | none => rfl
  | some o =>
    have hop : o.isOpReturn = true := List.find?_some hfind
    simp only [Option.map_some, Option.bind_some, reportOutput, extractOutput, hop, if_true]
    by_cases hlength : 2 < o.scriptPubkey.length
    · simp only [hlength, if_true, Option.bind_eq_bind, Option.bind_some, hexDecode_hexEncode]
    · simp only [hlength, if_false, Option.bind_eq_bind, Option.bind_none]

theorem deposit_inj {a b : Nat} :
    toString (satoshisToYocto a) = toString (b * 10 ^ 16) ↔ b = a := by
  constructor
  · intro h
    have hdigits : Nat.toDigits 10 (a * 10 ^ 16) = Nat.toDigits 10 (b * 10 ^ 16) := by
      exact String.ofList_injective h
    have hmul : a * 10 ^ 16 = b * 10 ^ 16 := by
      rw [← @Nat.ofDigitChars_ten_toDigits (a * 10 ^ 16), hdigits, Nat.ofDigitChars_ten_toDigits]
    omega
  · rintro rfl
    rfl

end Submissions

/-! ## The outputs -/

/-- The node counts an output that is neither data nor change in the spelling of the sender. -/
def isReported (X : NodeExternals) (sender : String) (o : TxOut) : Bool :=
  !o.isOpReturn && (o.address? X.toTranslatorExternals "bc").getD "" != sender

/-- The proxy pays an output with an address that is not the sender's in any spelling. -/
def isPaid (X : NodeExternals) (sender : String) (o : TxOut) : Bool :=
  match o.address? X.toTranslatorExternals "bc" with
  | some address => toLowercase address != "" && toLowercase address != toLowercase sender
  | none => false

/-- The sender has no capital letters, and what the node counts and the proxy does not pay has no
value.  Without a call one output is paid; it is the first that the node counts, and its address
has no capital letters either. -/
structure TranslatedAlike (X : NodeExternals) (sender : String) (tx : BitcoinTx) : Prop where
  sender_lower : toLowercase sender = sender
  unpaid : ∀ o ∈ tx.output, isReported X sender o = true → isPaid X sender o = false → o.value = 0
  plain : reportedCall (tx.output.map (reportOutput X)) = none →
    ∃ o, tx.output.filter (isPaid X sender) = [o] ∧ tx.output.find? (isReported X sender) = some o ∧
      (o.address? X.toTranslatorExternals "bc").map toLowercase =
        o.address? X.toTranslatorExternals "bc"

section Outputs

variable {X : NodeExternals} {tx : BitcoinTx} {S : String} {parsed : ParsedBitcoinTx}

theorem isReported_of_isPaid {o : TxOut} (h : isPaid X S o = true) : isReported X S o = true := by
  unfold isPaid at h
  split at h
  · rename_i address haddress
    have hop : o.isOpReturn = false := by
      unfold TxOut.address? at haddress
      split at haddress
      · cases haddress
      · exact Bool.eq_false_iff.mpr ‹_›
    have hne : address ≠ S := by
      rintro rfl
      simp at h
    simp [isReported, hop, haddress, hne]
  · cases h

theorem nodePayments_eq : nodePayments X tx S =
    (tx.output.filter (isReported X S)).map (reportOutput X) := by
  rw [nodePayments, paymentOutputs, List.filter_map]
  congr 2
  funext o
  simp [isReported]

theorem nodeTotal_eq :
    nodeTotal X tx S = ((tx.output.filter (isReported X S)).map (·.value)).sum := by
  simp [nodeTotal, nodePayments_eq, Function.comp_def]

theorem nodeRecipient_eq : nodeRecipient X tx S = (((tx.output.find? (isReported X S)).map
    fun o => (o.address? X.toTranslatorExternals "bc").getD "").getD "") := by
  simp [nodeRecipient, nodePayments_eq, List.head?_filter, Function.comp_def]

theorem map_paymentOutputs (hsender : parsed.senderAddress = toLowercase S)
    (houtputs : parsed.outputs = tx.output.map (extractOutput X.toTranslatorExternals "bc")) :
    parsed.paymentOutputs.map (·.1) =
      (tx.output.filter (isPaid X S)).map (extractOutput X.toTranslatorExternals "bc") := by
  let pays : TxOutput → Bool := fun o =>
    !o.isOpReturn && o.address != "" && o.address != parsed.senderAddress
  have hfilter : parsed.paymentOutputs.map (·.1) = parsed.outputs.filter pays := by
    rw [← List.zipIdx_map_fst 0 parsed.outputs, List.filter_map]
    rfl
  rw [hfilter, houtputs, List.filter_map]
  congr 2
  funext o
  simp only [Function.comp_apply, pays, hsender, extractOutput_isOpReturn, extractOutput_address]
  unfold isPaid TxOut.address?
  cases o.isOpReturn with
  | true => rfl
  | false =>
    cases X.addressFromScript (networkOf "bc") o.scriptPubkey with
    | none => rfl
    | some address => rfl

/-- Both totals are the same exactly when what only the node counts has no value. -/
theorem total_eq_iff : ((tx.output.filter (isReported X S)).map (·.value)).sum =
      ((tx.output.filter (isPaid X S)).map (·.value)).sum ↔
    ∀ o ∈ tx.output, isReported X S o = true → isPaid X S o = false → o.value = 0 := by
  have hle : ∀ outputs : List TxOut, ((outputs.filter (isPaid X S)).map (·.value)).sum ≤
      ((outputs.filter (isReported X S)).map (·.value)).sum := fun outputs =>
    ((List.monotone_filter_right outputs fun _ => isReported_of_isPaid).map _).sum_le_sum
      fun _ _ => Nat.zero_le _
  generalize tx.output = outputs
  induction outputs with
  | nil => simp
  | cons o outputs ih =>
    have hrest := hle outputs
    rw [List.forall_mem_cons]
    refine Iff.trans ?_ (and_congr_right fun _ => ih)
    cases hpaid : isPaid X S o with
    | true => simp [hpaid, isReported_of_isPaid hpaid]
    | false =>
      cases hreported : isReported X S o with
      | false => simp [hpaid, hreported]
      | true =>
        simp only [hpaid, hreported, List.filter_cons, if_true, Bool.false_eq_true, if_false,
          List.map_cons, List.sum_cons, forall_const]
        omega

/-- The first output that the node counts is the paid one, as their texts are the same. -/
theorem plain_iff (hsender : toLowercase S = S) : (∃ o, tx.output.filter (isPaid X S) = [o] ∧
        nodeRecipient X tx S = (extractOutput X.toTranslatorExternals "bc" o).address ∧
        nodeTotal X tx S = o.value) ↔
      (∀ o ∈ tx.output, isReported X S o = true → isPaid X S o = false → o.value = 0) ∧
      ∃ o, tx.output.filter (isPaid X S) = [o] ∧ tx.output.find? (isReported X S) = some o ∧
        (o.address? X.toTranslatorExternals "bc").map toLowercase =
          o.address? X.toTranslatorExternals "bc" := by
  constructor
  · rintro ⟨o, hpaid, hrecipient, htotal⟩
    have hmem : o ∈ tx.output.filter (isPaid X S) := by simp [hpaid]
    have ho := (List.mem_filter.mp hmem).2
    obtain ⟨first, hfirst⟩ : ∃ first, tx.output.find? (isReported X S) = some first :=
      Option.isSome_iff_exists.mp (List.find?_isSome.mpr
        ⟨o, (List.mem_filter.mp hmem).1, isReported_of_isPaid ho⟩)
    rw [nodeRecipient_eq, hfirst, extractOutput_address] at hrecipient
    have haddress : first.address? X.toTranslatorExternals "bc" =
        (o.address? X.toTranslatorExternals "bc").map toLowercase := by
      cases hf : first.address? X.toTranslatorExternals "bc" <;>
        cases hb : o.address? X.toTranslatorExternals "bc" <;> simp_all [isPaid]
    have hsame : first = o := by
      have hpaid' : isPaid X S first = true := by
        unfold isPaid at ho ⊢
        cases hb : o.address? X.toTranslatorExternals "bc" <;> simp_all
      have hin := List.mem_filter.mpr ⟨List.mem_of_find?_eq_some hfirst, hpaid'⟩
      rw [hpaid] at hin
      exact List.mem_singleton.mp hin
    subst hsame
    refine ⟨total_eq_iff.mp ?_, first, hpaid, hfirst, haddress.symm⟩
    rw [← nodeTotal_eq, htotal, hpaid]
    simp
  · rintro ⟨hunpaid, o, hpaid, hfirst, hlower⟩
    refine ⟨o, hpaid, ?_, ?_⟩
    · rw [nodeRecipient_eq, hfirst, extractOutput_address, hlower]
      rfl
    · rw [nodeTotal_eq, total_eq_iff.mpr hunpaid, hpaid]
      simp

theorem agrees_submissionsOf_iff {v : ValidatedTx} {signer : Signer}
    (hsender : parsed.senderAddress = toLowercase S)
    (houtputs : parsed.outputs = tx.output.map (extractOutput X.toTranslatorExternals "bc"))
    (hsigner : signer.address = parsed.senderAddress) (haccount : v.nearAccountId = S)
    (hactions : v.nearActions = reportedActions (reportedCall (tx.output.map (reportOutput X)))
      (nodeRecipient X tx S) (toString (nodeTotal X tx S * 10 ^ 16))) :
    Agrees X v (submissionsOf X.toTranslatorExternals parsed signer) ↔ TranslatedAlike X S tx := by
  have hpayments := map_paymentOutputs hsender houtputs
  have hpairs : (sentPairs X (submissionsOf X.toTranslatorExternals parsed signer)).Perm
      (v.nearActions.map ReportedAction.pair) ↔
      (reportedCall (tx.output.map (reportOutput X))).elim
        (∃ o, tx.output.filter (isPaid X S) = [o] ∧
          nodeRecipient X tx S = (extractOutput X.toTranslatorExternals "bc" o).address ∧
          nodeTotal X tx S = o.value)
        fun _ => nodeTotal X tx S = ((tx.output.filter (isPaid X S)).map (·.value)).sum := by
    rw [hactions, submissionsOf, ← reportedCall_eq houtputs]
    cases reportedCall (tx.output.map (reportOutput X)) with
    | some call =>
      have hsum : (parsed.paymentOutputs.map (·.1.amountSatoshis)).sum =
          ((tx.output.filter (isPaid X S)).map (·.value)).sum := by
        have hvalues := congrArg (List.map TxOutput.amountSatoshis) hpayments
        simp only [List.map_map, Function.comp_def, extractOutput_amountSatoshis] at hvalues
        rw [hvalues]
      refine List.perm_singleton.trans ?_
      change [(call.contractId, toString (satoshisToYocto _))] =
        [(call.contractId, toString (_ * 10 ^ 16))] ↔ _
      rw [List.singleton_inj, Prod.mk.injEq, deposit_inj, hsum]
      exact and_iff_right rfl
    | none =>
      refine List.perm_singleton.trans ?_
      have hlist := congrArg (List.map fun o : TxOutput =>
        (o.address, toString (satoshisToYocto o.amountSatoshis))) hpayments
      simp only [List.map_map, Function.comp_def] at hlist
      rw [sentPairs_transferSubmissions, hlist, List.map_eq_singleton_iff]
      simp only [ReportedAction.pair, Prod.mk.injEq, extractOutput_amountSatoshis, deposit_inj]
      exact exists_congr fun _ => and_congr_right fun _ => and_congr_left fun _ => eq_comm
  have hne : v.nearActions ≠ [] := by
    rw [hactions]
    cases reportedCall (tx.output.map (reportOutput X)) <;> exact List.cons_ne_nil _ _
  constructor
  · intro h
    have hlower : toLowercase S = S := by
      cases hsent : submissionsOf X.toTranslatorExternals parsed signer with
      | nil =>
        -- something is reported, so something is submitted
        have hperm := h.pairs
        rw [hsent] at hperm
        exact absurd (List.map_eq_nil_iff.mp (List.nil_perm.mp hperm)) hne
      | cons sub rest =>
        have hmem : sub ∈ submissionsOf X.toTranslatorExternals parsed signer := by simp [hsent]
        obtain ⟨pairs, hcontent⟩ := h.signer sub hmem
        obtain ⟨_, hcontent'⟩ := sentContent_submissionsOf hmem
        have heq := (Prod.mk.inj (Option.some.inj (hcontent.symm.trans hcontent'))).1
        rw [← hsender, ← hsigner, ← heq, haccount]
    have halike := hpairs.mp h.pairs
    cases hcall : reportedCall (tx.output.map (reportOutput X)) with
    | some call =>
      rw [hcall, nodeTotal_eq] at halike
      exact ⟨hlower, total_eq_iff.mp halike, by simp [hcall]⟩
    | none =>
      rw [hcall] at halike
      obtain ⟨hunpaid, hplain⟩ := (plain_iff hlower).mp halike
      exact ⟨hlower, hunpaid, fun _ => hplain⟩
  · intro h
    refine ⟨fun sub hsub => ?_, hpairs.mpr ?_⟩
    · rw [haccount, ← h.sender_lower, ← hsender, ← hsigner]
      exact sentContent_submissionsOf hsub
    · cases hcall : reportedCall (tx.output.map (reportOutput X)) with
      | some call => exact nodeTotal_eq.trans (total_eq_iff.mpr h.unpaid)
      | none => exact (plain_iff h.sender_lower).mpr ⟨h.unpaid, h.plain hcall⟩

end Outputs

/-- When both accept a Bitcoin transaction of the main network, they agree exactly when its
outputs are such that it is translated alike. -/
theorem proxy_agrees_iff (X : NodeExternals) {w t : World} {rawHex txid : String} {bytes : Bytes}
    {tx : BitcoinTx} {sender : SenderKey} {v : ValidatedTx} (hmain : w.rpc.bech32Hrp = "bc")
    (hbytes : hexDecode rawHex = some bytes) (hbitcoin : signedIntentText bytes = none)
    (htx : X.deserialize bytes = some tx)
    (hsender : extractSenderFromInput X.toTranslatorExternals tx = .ok sender)
    (hnode : broadcastBitcoinTx X rawHex = .ok (.validated v))
    (hproxy : (sendrawtransaction X.toTranslatorExternals w.rpc.bech32Hrp (some rawHex)).Ends
      World.outside w (.ok txid) t) :
    Agrees X v (t.sent.drop w.sent.length) ↔
      TranslatedAlike X (sender.canonicalAddress X.toCrypto "bc") tx := by
  rw [hmain] at hproxy
  rcases sendrawtransaction_cases hproxy with ⟨-, e, he⟩ |
    ⟨raw, bytes', hraw, hbytes', ⟨text, intent, htext, -, -⟩ | ⟨parsed, -, hparsed, hrun⟩⟩
  · cases he
  · cases hraw
    cases hbytes.symm.trans hbytes'
    cases hbitcoin.symm.trans htext
  · cases hraw
    obtain ⟨_, htx', hparse⟩ := deserialize_of_fromHexWithHrp hbytes hparsed
    cases htx.symm.trans htx'
    have hdecoded : decodedTx X rawHex = some tx := by rw [decodedTx, hbytes, Option.bind_some, htx]
    obtain ⟨_, hsigner, hsent⟩ := sent_of_sendBitcoinTx hrun
    obtain ⟨_, hsender', haccount, hactions⟩ := reported_of_validated hdecoded hnode
    cases hsender.symm.trans hsender'
    obtain ⟨-, haddress, houtputs⟩ := parseTx_eq_ok hsender hparse
    rw [← SenderKey.toLowercase_canonicalAddress] at haddress
    rw [hsent, List.drop_left, agrees_submissionsOf_iff haddress houtputs hsigner haccount hactions]

/-- For a transaction with one payment of a sender without capital letters they agree. -/
theorem proxy_agrees_one_output : ∃ v t, broadcastBitcoinTx .sample "01" = .ok (.validated v) ∧
      (sendrawtransaction .sample sampleSending.rpc.bech32Hrp (some "01")).Ends World.outside
        sampleSending (.ok "01") t ∧
      Agrees .sample v (t.sent.drop sampleSending.sent.length) := by
  have hrun := @sampleCall_ends "01" (.ok "01") (by decide +kernel)
  obtain ⟨v, hv⟩ : ∃ v, broadcastBitcoinTx .sample "01" = .ok (.validated v) := by
    exact ⟨_, by rfl⟩
  refine ⟨v, _, hv, hrun, (proxy_agrees_iff .sample (by decide +kernel)
    (show hexDecode "01" = some [1] by decide) (by decide +kernel) rfl rfl hv hrun).mpr ?_⟩
  exact ⟨by decide +kernel, by decide +kernel, fun _ => ⟨_, rfl, rfl, by decide +kernel⟩⟩

/-- Of two payments the proxy makes two transfers, and the node reports one. -/
theorem two_outputs_disagree : ∃ v t, broadcastBitcoinTx .sample "0101" = .ok (.validated v) ∧
      (sendrawtransaction .sample sampleSending.rpc.bech32Hrp (some "0101")).Ends World.outside
        sampleSending (.ok "0101") t ∧
      v.nearActions = [.transfer "bc1qa" "100000000000000000"] ∧
      sentPairs .sample (t.sent.drop sampleSending.sent.length) =
        [("bc1qa", "50000000000000000"), ("bc1qa", "50000000000000000")] ∧
      ¬ Agrees .sample v (t.sent.drop sampleSending.sent.length) := by
  have hrun := @sampleCall_ends "0101" (.ok "0101") (by decide +kernel)
  have hactions : (broadcastBitcoinTx .sample "0101").map (fun
      | .validated v => v.nearActions
      | _ => []) = .ok [.transfer "bc1qa" "100000000000000000"] := by decide +kernel
  obtain ⟨v, hv⟩ : ∃ v, broadcastBitcoinTx .sample "0101" = .ok (.validated v) := ⟨_, by rfl⟩
  rw [hv] at hactions
  have hreported : v.nearActions = [.transfer "bc1qa" "100000000000000000"] :=
    Except.ok.inj hactions
  have hsent : sentPairs .sample ((sampleCall sampleSending "0101").sent.drop
      sampleSending.sent.length) =
        [("bc1qa", "50000000000000000"), ("bc1qa", "50000000000000000")] := by decide +kernel
  refine ⟨v, _, hv, hrun, hreported, hsent, fun h => ?_⟩
  have hlength := h.pairs.length_eq
  rw [hsent, hreported] at hlength
  cases hlength

end BitInfinity.Node
