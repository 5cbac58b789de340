import BitInfinity.Proxy.SendRaw

/-!
# Authorisation of `sendrawtransaction`

The handler signs with the wallet key of the account that the first input names.  Which inputs
reach the signature is decided by the checks of the handler alone; the signature that the
input carries is not among the things it looks at.
-/

namespace BitInfinity.Proxy

open BitInfinity Foundation

def World.ActsTo (w t : World) : Prop := t.signed ≠ w.signed ∨ t.sent ≠ w.sent

/-- What the handler checks of a transaction and the key of its sender before it signs; the
node must be able to name a block. -/
structure SigningChecks (X : TranslatorExternals) (entry : KeyEntry) (parsed : ParsedBitcoinTx) :
    Prop where
  payments : ∃ totalSat, checkPayments parsed = .ok totalSat
  key : ∃ secret publicKey, entry.Signs X.toProxyExternals secret publicKey
  block : ∃ text blockHash, decodeBlockHash X.toCrypto text = .ok blockHash

section Authorisation

variable {X : TranslatorExternals} {w t : World} {rawHex : String} {parsed : ParsedBitcoinTx}
  {entry : KeyEntry}

variable {bech32Hrp : String} {bytes : Bytes}

variable {out : Except RpcError String}

theorem fromHexWithHrp_eq_parseTx {tx : BitcoinTx}
    (hbytes : hexDecode rawHex = some bytes) (htx : X.deserialize bytes = some tx) :
    ParsedBitcoinTx.fromHexWithHrp X rawHex bech32Hrp = parseTx X bech32Hrp tx := by
  simp [ParsedBitcoinTx.fromHexWithHrp, hbytes, htx, okOr]

theorem deserialize_of_fromHexWithHrp (hbytes : hexDecode rawHex = some bytes)
    (h : ParsedBitcoinTx.fromHexWithHrp X rawHex bech32Hrp = .ok parsed) :
    ∃ tx, X.deserialize bytes = some tx ∧ parseTx X bech32Hrp tx = .ok parsed := by
  cases htx : X.deserialize bytes with
  | none => simp [ParsedBitcoinTx.fromHexWithHrp, hbytes, htx, okOr] at h
  | some tx => exact ⟨tx, rfl, (fromHexWithHrp_eq_parseTx hbytes htx).symm.trans h⟩

theorem signingChecks_of_actsTo (hrun : (sendBitcoinTx X rawHex parsed).Ends World.outside w out t)
    (hentry : w.rpc.keystore.get parsed.senderAddress = some entry) (hact : w.ActsTo t) :
    SigningChecks X entry parsed := by
  rcases sendBitcoinTx_cases hrun with
    ⟨rfl, -⟩ | ⟨totalSat, entry', signer, htotal, hentry', hsigner, -⟩
  · exact absurd hact (by simp [World.ActsTo])
  · obtain rfl : entry' = entry := Option.some.inj (hentry'.symm.trans hentry)
    obtain ⟨-, -, hsigns, text, hblock⟩ := prepareSigner_ok hsigner
    exact ⟨⟨totalSat, htotal⟩, ⟨_, _, hsigns⟩, text, _, hblock⟩

theorem exists_sendPayments_signs {totalSat : Nat} (signer : Signer)
    (htotal : checkPayments parsed = .ok totalSat) :
    ∃ out t, (sendPayments X rawHex parsed totalSat signer).Ends World.outside w out t ∧
      t.signed ≠ w.signed := by
  obtain ⟨_, hsome, -⟩ := bind_eq_ok.mp htotal
  rw [sendPayments]
  cases hcall : parsed.decodeNearFunctionCall with
  | some call =>
    have hsigns : ∃ e t, (sendFunctionCall X rawHex parsed.txid signer call totalSat).Ends
        World.outside w (.error e) t ∧ t.signed ≠ w.signed :=
      exists_signs_of_refused (List.cons_ne_nil _ _) fun _ => ⟨_, rfl⟩
    obtain ⟨e, t, hrun, hact⟩ := hsigns
    exact ⟨.error e, t, hrun, hact⟩
  | none =>
    cases houtputs : parsed.paymentOutputs with
    | nil => simp [houtputs, hcall] at hsome
    | cons head rest =>
      have hsigns : ∃ e t, (submitTransfers parsed.txid signer signer.nonce
          (head :: rest)).Ends World.outside w (.error e) t ∧ t.signed ≠ w.signed :=
        exists_signs_of_refused (List.cons_ne_nil _ _) fun _ => ⟨_, rfl⟩
      obtain ⟨e, t, hrun, hact⟩ := hsigns
      exact ⟨.error e, t, Prog.ends_bind.mpr (.inl ⟨e, hrun, rfl⟩), hact⟩

theorem exists_sendBitcoinTx_signs (hentry : w.rpc.keystore.get parsed.senderAddress = some entry)
    (hchecks : SigningChecks X entry parsed) :
    ∃ out t, (sendBitcoinTx X rawHex parsed).Ends World.outside w out t ∧ t.signed ≠ w.signed := by
  obtain ⟨totalSat, htotal⟩ := hchecks.payments
  obtain ⟨_, _, hsigns⟩ := hchecks.key
  obtain ⟨_, _, hblock⟩ := hchecks.block
  obtain ⟨signer, -, hsigner⟩ : ∃ signer : Signer, signer.address = parsed.senderAddress ∧
      (prepareSigner X.toProxyExternals sendRawLabels parsed.senderAddress entry).Ends
        World.outside w (.ok signer) w :=
    exists_prepareSigner hsigns hblock
  obtain ⟨out, t, hrun, hact⟩ :
      ∃ out t, (sendPayments X rawHex parsed totalSat signer).Ends World.outside w out t ∧
        t.signed ≠ w.signed :=
    exists_sendPayments_signs signer htotal
  refine ⟨out, t, ?_, hact⟩
  refine .bind (ends_ofExcept_ok.mpr ⟨htotal, rfl⟩) ?_
  refine .bind (ends_readKeystore.mpr ⟨rfl, rfl⟩) ?_
  refine .bind (ends_ofExcept_ok.mpr ⟨okOr_eq_ok.mpr hentry, rfl⟩) ?_
  exact .bind hsigner hrun

theorem ends_sendrawtransaction
    (hbytes : hexDecode rawHex = some bytes) (hintent : signedIntentText bytes = none)
    (hparsed : ParsedBitcoinTx.fromHexWithHrp X rawHex bech32Hrp = .ok parsed) :
    (sendrawtransaction X bech32Hrp (some rawHex)).Ends World.outside w out t ↔
      (sendBitcoinTx X rawHex parsed).Ends World.outside w out t := by
  simp only [sendrawtransaction, okOr, hbytes, hintent, hparsed, orFail, Except.mapError,
    Prog.ofExcept, Prog.done_bind]

end Authorisation

/-- For a key in the wallet, what is signed and sent was authorised by the signature of the
input in every run, exactly when that signature is valid or one of the other checks stops the
call. -/
theorem sendrawtransaction_authorised_iff (X : TranslatorExternals)
    (sigValid : BitcoinTx → Nat → Bytes → Bool) {w : World} {rawHex : String} {bytes : Bytes}
    {tx : BitcoinTx} {parsed : ParsedBitcoinTx} {entry : KeyEntry}
    (hbytes : hexDecode rawHex = some bytes) (hintent : signedIntentText bytes = none)
    (htx : X.deserialize bytes = some tx) (hparsed : parseTx X w.rpc.bech32Hrp tx = .ok parsed)
    (hentry : w.rpc.keystore.get parsed.senderAddress = some entry) :
    (∀ out t, (sendrawtransaction X w.rpc.bech32Hrp (some rawHex)).Ends World.outside w out t →
        w.ActsTo t → sigValid tx 0 parsed.senderPubkey = true) ↔
      sigValid tx 0 parsed.senderPubkey = true ∨ ¬ SigningChecks X entry parsed := by
  rw [← fromHexWithHrp_eq_parseTx hbytes htx] at hparsed
  simp only [ends_sendrawtransaction hbytes hintent hparsed]
  constructor
  · intro hauth
    by_contra hneither
    obtain ⟨hinvalid, hchecks⟩ := not_or.mp hneither
    obtain ⟨out, t, hrun, hact⟩ := exists_sendBitcoinTx_signs hentry (not_not.mp hchecks)
    exact hinvalid (hauth out t hrun (.inl hact))
  · rintro (hvalid | hfails) out t hrun hact
    · exact hvalid
    · exact absurd (signingChecks_of_actsTo hrun hentry hact) hfails

def sampleSigValid (tx : BitcoinTx) (input : Nat) (_ : Bytes) : Bool :=
  (tx.input[input]?).any fun i =>
    (TranslatorExternals.sample.scriptPushes i.scriptSig).headD [] != []

/-- An unsigned transaction is not acted on when none of its outputs is a payment. -/
theorem unpaid_transaction_authorised :
    ∃ tx parsed, TranslatorExternals.sample.deserialize [0] = some tx ∧
      parseTx .sample sampleSending.rpc.bech32Hrp tx = .ok parsed ∧
      sampleSigValid tx 0 parsed.senderPubkey = false ∧
      ∀ out t, (sendrawtransaction .sample sampleSending.rpc.bech32Hrp (some "00")).Ends
        World.outside sampleSending out t → ¬ sampleSending.ActsTo t := by
  obtain ⟨tx, htx⟩ : ∃ tx, TranslatorExternals.sample.deserialize [0] = some tx := ⟨_, rfl⟩
  obtain ⟨parsed, hparsed, hkey, hpayments, hinvalid⟩ : ∃ parsed,
      parseTx .sample sampleSending.rpc.bech32Hrp tx = .ok parsed ∧
        (sampleSending.rpc.keystore.get parsed.senderAddress).isSome = true ∧
        (checkPayments parsed).toOption = none ∧
        sampleSigValid tx 0 parsed.senderPubkey = false := by
    cases htx
    exact ⟨_, rfl, by decide +kernel, by decide +kernel, by decide +kernel⟩
  obtain ⟨_, hentry⟩ := Option.isSome_iff_exists.mp hkey
  refine ⟨tx, parsed, htx, hparsed, hinvalid, fun out t hrun hact => ?_⟩
  have hvalid := (sendrawtransaction_authorised_iff .sample sampleSigValid (by decide)
    (by decide +kernel) htx hparsed hentry).mpr (.inr fun hchecks => by
      obtain ⟨_, htotal⟩ := hchecks.payments
      simp [htotal, Except.toOption] at hpayments) out t hrun hact
  simp [hinvalid] at hvalid

/-- A transaction whose input carries no signature is paid with the wallet key. -/
theorem forged_transaction_paid :
    ∃ tx parsed t, TranslatorExternals.sample.deserialize [1] = some tx ∧
      parseTx .sample sampleSending.rpc.bech32Hrp tx = .ok parsed ∧
      (sampleSending.rpc.keystore.get parsed.senderAddress).isSome = true ∧
      sampleSigValid tx 0 parsed.senderPubkey = false ∧
      (sendrawtransaction .sample sampleSending.rpc.bech32Hrp (some "01")).Ends World.outside
        sampleSending (.ok parsed.txid) t ∧
      (t.sent.map fun sub => (sub.pays, sub.accepted)) = [(some (parsed.txid, 0), true)] := by
  have hrun := @sampleCall_ends "01" (.ok "01") (by decide +kernel)
  exact ⟨_, _, _, rfl, rfl, by decide +kernel, by decide +kernel, hrun, by decide +kernel⟩

end BitInfinity.Proxy
