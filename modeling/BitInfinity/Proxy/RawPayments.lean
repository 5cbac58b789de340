import BitInfinity.Foundation.Run
import BitInfinity.Proxy.SendRaw

/-!
# What `sendrawtransaction` pays

Two properties of the transfers that the handler sends: how often an output is paid over many
calls, and whether the transfers of one call pay the outputs of the transaction.
-/

namespace BitInfinity.Proxy

open BitInfinity Foundation

/-! ## Paid outputs -/

/-- The outputs for which the node took a transfer, by txid and position. -/
def World.paid (w : World) : List (String × Nat) := (w.sent.filter (·.accepted)).filterMap (·.pays)

def rawTxid (X : TranslatorExternals) (bech32Hrp : String) (rawHex : Option String) :
    Option String := do
  let raw ← rawHex
  let bytes ← hexDecode raw
  match signedIntentText bytes with
  | some text => (parseSignedIntent X text).toOption.map (·.btcTxid)
  | none => (ParsedBitcoinTx.fromHexWithHrp X raw bech32Hrp).toOption.map (·.txid)

section Paid

variable {X : TranslatorExternals} {w t : World}

variable {txid rawHex : String} {signer : Signer} {out : Except RpcError String}

variable {outputs : List (TxOutput × Nat)}

theorem World.paid_of_sent {new : List Submission} (h : t.sent = w.sent ++ new) :
    t.paid = w.paid ++ (new.filter (·.accepted)).filterMap (·.pays) := by
  simp [World.paid, h, List.filter_append, List.filterMap_append]

theorem filterMap_pays_transferSubmissions (txid : String) (signer : Signer) (nonce : Nat)
    (outputs : List (TxOutput × Nat)) :
    ((transferSubmissions txid signer nonce outputs).filter (·.accepted)).filterMap (·.pays) =
      outputs.map fun o => (txid, o.2) := by
  induction outputs generalizing nonce with
  | nil => rfl
  | cons head rest ih => simp [transferSubmissions, ih]

theorem submitTransfers_paid {nonce : Nat} {out : Except RpcError (List String)}
    (h : (submitTransfers txid signer nonce outputs).Ends World.outside w out t) :
    ∃ indexes, List.Sublist indexes (outputs.map (·.2)) ∧
      t.paid = w.paid ++ indexes.map (txid, ·) := by
  obtain ⟨paid, _, refused, rfl, hsent, hrefused, -⟩ := submitTransfers_sent h
  refine ⟨paid.map (·.2), by simp, ?_⟩
  have hnone : refused.filter (·.accepted) = [] :=
    List.filter_eq_nil_iff.mpr fun sub hsub => by simp [hrefused sub hsub]
  rw [World.paid_of_sent hsent, List.filter_append, hnone, List.append_nil,
    filterMap_pays_transferSubmissions, List.map_map]
  rfl

theorem submitIntentTxs_paid {sender : String} {i : Nat} {txs : List Json}
    {out : Except RpcError (List String)}
    (h : (submitIntentTxs txid sender i txs).Ends World.outside w out t) :
    ∃ n, t.paid = w.paid ++ (List.range' i n).map (txid, ·) := by
  induction txs generalizing w i out with
  | nil =>
    obtain ⟨rfl, rfl⟩ := Prog.ends_done.mp h
    exact ⟨0, by simp⟩
  | cons tx rest ih =>
    obtain ⟨reply, h⟩ := (Prog.ends_bind_of_exists_iff fun _ _ => ends_sendTxAsync).mp h
    cases reply with
    | error e =>
      obtain ⟨rfl, rfl⟩ := Prog.ends_fail.mp h
      exact ⟨0, by simp [World.paid, Except.isOk, Except.toBool]⟩
    | ok =>
      obtain ⟨x, hrest, -⟩ := Prog.ends_bind_pure.mp
        ((Prog.ends_bind_of_iff fun _ _ => ends_recordNonce).mp h)
      obtain ⟨n, hpaid⟩ := ih hrest
      refine ⟨n + 1, ?_⟩
      rw [hpaid, List.range'_succ]
      simp [World.paid, Except.isOk, Except.toBool]

theorem nodup_paymentOutputs (parsed : ParsedBitcoinTx) :
    (parsed.paymentOutputs.map (·.2)).Nodup := by
  have hsub := (List.filter_sublist (l := parsed.outputs.zipIdx)
    (p := fun o => !o.1.isOpReturn && o.1.address != "" &&
      o.1.address != parsed.senderAddress)).map (·.2)
  refine hsub.nodup ?_
  rw [List.zipIdx_map_snd]
  exact List.nodup_range'

theorem sendSignedIntent_paid {intent : SignedIntent}
    (h : (sendSignedIntent rawHex intent).Ends World.outside w out t) :
    ∃ indexes : List Nat, indexes.Nodup ∧ t.paid = w.paid ++ indexes.map (intent.btcTxid, ·) := by
  obtain ⟨e, he, -⟩ | ⟨hashes, m, hm, h⟩ := Prog.ends_bind.mp h
  · obtain ⟨n, hpaid⟩ := submitIntentTxs_paid he
    exact ⟨_, List.nodup_range', hpaid⟩
  · obtain ⟨n, hpaid⟩ := submitIntentTxs_paid hm
    obtain ⟨-, rfl⟩ := ends_insertTx_pure.mp h
    exact ⟨_, List.nodup_range', hpaid⟩

theorem sendFunctionCall_paid {call : NearFunctionCall} {totalSat : Nat}
    (h : (sendFunctionCall X rawHex txid signer call totalSat).Ends World.outside w out t) :
    t.paid = w.paid := by
  obtain ⟨reply, h⟩ := (Prog.ends_bind_of_exists_iff fun _ _ => ends_sendTxAsync).mp
    ((Prog.ends_bind_of_iff fun _ _ => ends_signAndEncode (List.cons_ne_nil _ _)).mp h)
  cases reply with
  | error e =>
    obtain ⟨-, rfl⟩ := Prog.ends_fail.mp h
    simp [World.paid, Except.isOk, Except.toBool]
  | ok =>
    have h := (Prog.ends_bind_of_iff fun _ _ => ends_recordNonce).mp h
    obtain ⟨-, rfl⟩ := ends_insertTx_pure.mp h
    simp [World.paid, Except.isOk, Except.toBool]

theorem sendTransfers_paid
    (h : (sendTransfers rawHex txid signer outputs).Ends World.outside w out t) :
    ∃ indexes, List.Sublist indexes (outputs.map (·.2)) ∧
      t.paid = w.paid ++ indexes.map (txid, ·) := by
  obtain ⟨e, he, -⟩ | ⟨hashes, m, hm, h⟩ := Prog.ends_bind.mp h
  · exact submitTransfers_paid he
  · obtain ⟨indexes, hsub, hpaid⟩ := submitTransfers_paid hm
    obtain ⟨-, rfl⟩ := ends_insertTx_pure.mp h
    exact ⟨indexes, hsub, hpaid⟩

theorem sendrawtransaction_paid {bech32Hrp : String} {rawHex : Option String}
    (h : (sendrawtransaction X bech32Hrp rawHex).Ends World.outside w out t) :
    t.paid = w.paid ∨ ∃ txid, ∃ indexes : List Nat, rawTxid X bech32Hrp rawHex = some txid ∧
      indexes.Nodup ∧ t.paid = w.paid ++ indexes.map (txid, ·) := by
  rcases sendrawtransaction_cases h with ⟨rfl, -⟩ |
    ⟨raw, bytes, rfl, hbytes, ⟨text, intent, htext, hintent, h⟩ | ⟨parsed, htext, hparsed, h⟩⟩
  · exact .inl rfl
  · obtain ⟨indexes, hnodup, hpaid⟩ := sendSignedIntent_paid h
    refine .inr ⟨intent.btcTxid, indexes, ?_, hnodup, hpaid⟩
    simp [rawTxid, hbytes, htext, hintent, Except.toOption]
  rcases sendBitcoinTx_cases h with ⟨rfl, -⟩ | ⟨totalSat, entry, signer, -, -, -, h⟩
  · exact .inl rfl
  rw [sendPayments] at h
  cases hcall : parsed.decodeNearFunctionCall with
  | some call =>
    rw [hcall] at h
    exact .inl (sendFunctionCall_paid h)
  | none =>
    rw [hcall] at h
    obtain ⟨indexes, hsub, hpaid⟩ := sendTransfers_paid h
    refine .inr ⟨parsed.txid, indexes, ?_, hsub.nodup (nodup_paymentOutputs parsed), hpaid⟩
    simp [rawTxid, hbytes, htext, hparsed, Except.toOption]

end Paid

/-! ## Many calls -/

/-- One call of `sendrawtransaction`, or a change of the proxy's own state by other calls. -/
inductive RawStep (X : TranslatorExternals) (w : World) : Option (Option String) → World → Prop
  | call {rawHex out t} : (sendrawtransaction X w.rpc.bech32Hrp rawHex).Ends World.outside w out t →
      RawStep X w (some rawHex) t
  | other {rpc} : RawStep X w none { w with rpc }

/-- The call is not about a transaction of which an output was paid before. -/
def FirstPayment (X : TranslatorExternals) (w : World) (call : Option (Option String)) : Prop :=
  ∀ rawHex txid, call = some rawHex → rawTxid X w.rpc.bech32Hrp rawHex = some txid →
    ∀ index, (txid, index) ∉ w.paid

theorem RawStep.paid_nodup {X : TranslatorExternals} {w t : World}
    {call : Option (Option String)} (hstep : RawStep X w call t) (hfirst : FirstPayment X w call)
    (hw : w.paid.Nodup) : t.paid.Nodup := by
  cases hstep with
  | other => exact hw
  | @call rawHex out t hrun =>
    rcases sendrawtransaction_paid hrun with hpaid | ⟨txid, indexes, htxid, hnodup, hpaid⟩
    · rwa [hpaid]
    · rw [hpaid, List.nodup_append']
      refine ⟨hw, hnodup.map fun i j hij => (Prod.mk.inj hij).2, ?_⟩
      intro output hold hnew
      obtain ⟨index, -, rfl⟩ := List.mem_map.mp hnew
      exact hfirst rawHex txid rfl htxid index hold

/-- When no call repeats a transaction of which an output was paid, no output is paid twice. -/
theorem outputs_paid_once (X : TranslatorExternals) {s : RpcState}
    {calls : List (Option (Option String))} {w : World}
    (hrun : Run (fun a call b => RawStep X a call b ∧ FirstPayment X a call) (.start s) calls w) :
    ∀ txid index, w.paid.count (txid, index) ≤ 1 := by
  have hnodup : w.paid.Nodup :=
    hrun.invariant (fun _ a => a.paid.Nodup) List.nodup_nil
      fun _ _ _ _ _ ha hstep => hstep.1.paid_nodup hstep.2 ha
  intro txid index
  exact List.nodup_iff_count_le_one.mp hnodup (txid, index)

theorem rawStep_sampleCall (w : World) (rawHex : String) :
    RawStep .sample w (some (some rawHex)) (sampleCall w rawHex) :=
  .call (Handler.ends_runWith _ _ _)

theorem two_transactions_paid_once :
    ∃ w, Run (fun a call b => RawStep .sample a call b ∧ FirstPayment .sample a call)
        sampleSending [some (some "01"), some (some "0101")] w ∧
      w.paid = [("01", 0), ("0101", 0), ("0101", 1)] ∧
      ∀ txid index, w.paid.count (txid, index) ≤ 1 := by
  have hfirst : FirstPayment .sample sampleSending (some (some "01")) := by
    intro rawHex txid _ _ index
    exact List.not_mem_nil
  have hsecond : FirstPayment .sample (sampleCall sampleSending "01") (some (some "0101")) := by
    intro rawHex txid hraw htxid index hpaid
    cases hraw
    have htxid' : rawTxid .sample (sampleCall sampleSending "01").rpc.bech32Hrp (some "0101") =
        some "0101" := by decide +kernel
    have hpaid' : (sampleCall sampleSending "01").paid = [("01", 0)] := by decide +kernel
    rw [hpaid', Option.some.inj (htxid.symm.trans htxid')] at hpaid
    simp at hpaid
  have hrun : Run (fun a call b => RawStep .sample a call b ∧ FirstPayment .sample a call)
      sampleSending [some (some "01"), some (some "0101")]
      (sampleCall (sampleCall sampleSending "01") "0101") :=
    (Run.single ⟨rawStep_sampleCall sampleSending "01", hfirst⟩).snoc
      ⟨rawStep_sampleCall _ "0101", hsecond⟩
  exact ⟨_, hrun, by decide +kernel, outputs_paid_once .sample hrun⟩

/-- The same raw transaction is paid again when it is sent again. -/
theorem transaction_paid_twice :
    ∃ w, Run (RawStep .sample) sampleSending [some (some "01"), some (some "01")] w ∧
      w.paid.count ("01", 0) = 2 :=
  ⟨_, (Run.single (rawStep_sampleCall sampleSending "01")).trans
    (.single (rawStep_sampleCall (sampleCall sampleSending "01") "01")), by decide +kernel⟩

end BitInfinity.Proxy
