import BitInfinity.Ledger.Actions
import BitInfinity.Runtime.ProcessReceipt

/-!
# Receipts and the life of their receiver

Executing an action receipt changes the entry of its receiver only, by the steps of the actions
that succeeded, or not at all when one of them failed.
-/

namespace BitInfinity

open Foundation

section Receipts

variable {E : Externals} {V : ContractRunner} {as : ApplyState} {receipt : Receipt}
  {r : ActionReceipt} {promiseResults : List (Option Bytes)} {st st' : ActionState}
  {result result' next merged : ActionResult} {e : Entry} {action : Action}
  {actions rest : List Action}

/-! ## The actor -/

variable {t : Trie E} {index : Nat} {id : AccountId}

variable {receipts : List Receipt} {new : Receipt} {t' : Trie E}

/-- The receipt may act for its receiver, whose entry is `e` when the receipt is executed: the
receiver issued it, or it creates an account that is not a Bitcoin account. -/
def MayAct (E : Externals) (e : Entry) (receipt : Receipt) : Prop :=
  receipt.predecessorId = receipt.receiverId ∨
    (e.account = none ∧ isBitcoinAddress E.toCrypto receipt.receiverId = false)

/-- What is known of the actor before the actions `rest`. -/
structure ActorInv (E : Externals) (e : Entry) (receipt : Receipt) (rest : List Action)
    (st : ActionState) : Prop where
  actor : rest = [] ∨ st.actorId = receipt.predecessorId ∨ MayAct E e receipt
  vacant : st.account = none → e.account = none ∨ receipt.predecessorId = receipt.receiverId
  entry : st.account = none → st.entry.account = none

theorem ActorInv.mayAct (h : ActorInv E e receipt (action :: rest) st)
    (hself : ActsForSelf receipt st) : MayAct E e receipt := by
  rcases h.actor with hnil | hactor | hmay
  · cases hnil
  · exact .inl (hactor.symm.trans hself)
  · exact hmay

theorem ActorInv.step (h : ActorInv E e receipt (action :: rest) st)
    (hstep : ActorStep E receipt r st st') (hpart : action :: rest <:+: r.actions) :
    ActorInv E e receipt rest st' := by
  cases hstep with
  | same hactor haccount =>
    refine ⟨?_, fun hnone => absurd hnone haccount, fun hnone => absurd hnone haccount⟩
    rcases h.actor with hnil | hpred | hmay
    · cases hnil
    · exact .inr (.inl (hactor.trans hpred))
    · exact .inr (.inr hmay)
  | created hnone haccount hsole =>
    refine ⟨?_, fun hnone => absurd hnone haccount, fun hnone => absurd hnone haccount⟩
    rcases h.vacant hnone with hvacant | hpred
    · cases hbtc : isBitcoinAddress E.toCrypto receipt.receiverId with
      | false => exact .inr (.inr (.inr ⟨hvacant, hbtc⟩))
      | true =>
        have hlength := hpart.length_le
        rw [hsole hbtc, List.length_cons] at hlength
        exact .inl (List.length_eq_zero_iff.mp (by omega))
    · exact .inr (.inr (.inl hpred))
  | deleted hself hentry hactor =>
    refine ⟨.inr (.inl hactor), fun _ => ?_, fun _ => by rw [hentry]; rfl⟩
    rcases h.mayAct hself with hpred | ⟨hvacant, -⟩
    · exact .inr hpred
    · exact .inl hvacant

theorem ActorInv.init :
    ActorInv E (t.entries receipt.receiverId) receipt actions (initialActionState t receipt) :=
  ⟨.inr (.inl rfl), .inl, id⟩

/-! ## The loop over the actions -/

theorem ActionCause.mono {acts acts' : Prop} {event : EntryEvent} (himp : acts → acts')
    (h : ActionCause as acts action event) : ActionCause as acts' action event := by
  cases event <;> first | exact h | exact ⟨himp h.1, h.2⟩

/-- The steps of the receiver that a receipt can cause: those of its actions only when all of
them succeed. -/
def ReceiptCause (E : Externals) (as : ApplyState) (e : Entry) (receipt : Receipt)
    (r : ActionReceipt) (status : Except ActionError ReturnData) (event : EntryEvent) : Prop :=
  event = .receive ∨ (∃ data, status = .ok data) ∧
    ∃ action ∈ r.actions, ActionCause as (MayAct E e receipt) action event

theorem merge_eq_ok (h : result.merge next = .ok merged) : (next.isOk = true ∧ merged.isOk = true ∧
      merged.newReceipts = result.newReceipts ++ next.newReceipts) ∨
    (merged.isOk = false ∧ merged.newReceipts = []) := by
  simp only [ActionResult.merge, bind_eq_ok] at h
  obtain ⟨_, -, _, -, _, -, _, -, _, -, h⟩ := h
  split at h
  · rename_i hok
    obtain ⟨_, -, h⟩ := bind_eq_ok.mp h
    cases h
    exact .inl ⟨by simp [ActionResult.isOk, hok], rfl, rfl⟩
  · cases h
    exact .inr ⟨rfl, rfl⟩

theorem validateNewReceipts_eq (h : (validateNewReceipts E as next).isOk = true) :
    validateNewReceipts E as next = next := by
  unfold validateNewReceipts at h ⊢
  split at h
  · rfl
  · split at h
    · rfl
    · simp at h

theorem applyActions_cons
    (h : applyActions E V as receipt r promiseResults index (action :: rest) result st =
      .ok (result', st')) :
    ∃ next st₁ merged, applyAction E V as receipt r promiseResults st action index =
        .ok (next, st₁) ∧
      result.merge (validateNewReceipts E as next) = .ok merged ∧
      ((merged.isOk = false ∧ result'.isOk = false ∧ result'.newReceipts = merged.newReceipts) ∨
        (merged.isOk = true ∧ applyActions E V as receipt r promiseResults (index + 1) rest merged
          st₁ = .ok (result', st'))) := by
  obtain ⟨⟨next, st₁⟩, hnext, h⟩ := bind_eq_ok.mp h
  obtain ⟨merged, hmerged, h⟩ := bind_eq_ok.mp h
  refine ⟨next, st₁, merged, hnext, hmerged, ?_⟩
  split at h
  · rename_i error herror
    cases h
    exact .inl ⟨by simp [ActionResult.isOk, herror], rfl, rfl⟩
  · next hdata => exact .inr ⟨by simp [ActionResult.isOk, hdata], h⟩

theorem applyActions_of_failed (hok : result.isOk = true)
    (h : applyActions E V as receipt r promiseResults index actions result st =
      .ok (result', st')) (hfailed : result'.isOk = false) : result'.newReceipts = [] := by
  induction actions generalizing index result st with
  | nil =>
    cases h
    simp [hok] at hfailed
  | cons action rest ih =>
    obtain ⟨_, _, _, -, hmerged, ⟨hbad, -, hnew⟩ | ⟨hgood, hrest⟩⟩ := applyActions_cons h
    · rcases merge_eq_ok hmerged with ⟨-, hgood, -⟩ | ⟨-, hnil⟩
      · simp [hbad] at hgood
      · rw [hnew, hnil]
    · exact ih hgood hrest

theorem applyAction_effect
    (hdet : ∀ init deposit, action = .basic (.deterministicStateInit init deposit) →
      AccountId.isNearDeterministic receipt.receiverId = true)
    (h : applyAction E V as receipt r promiseResults st action index = .ok (next, st'))
    (hok : next.isOk = true) :
    ∃ event start, start.newReceipts = [] ∧
      ActionEffect E V as receipt r st action start next st' event := by
  unfold applyAction at h
  split at h
  · cases h
    simp at hok
  · rename_i hcheck
    obtain ⟨event, heffect⟩ := dispatchAction_effect hdet hcheck h hok
    exact ⟨event, _, rfl, heffect⟩

theorem applyActions_evolves
    (hdet : ∀ init deposit, .basic (.deterministicStateInit init deposit) ∈ r.actions →
      AccountId.isNearDeterministic receipt.receiverId = true)
    (hpart : actions <:+: r.actions) (hinv : ActorInv E e receipt actions st)
    (h : applyActions E V as receipt r promiseResults index actions result st =
      .ok (result', st')) (hok : result'.isOk = true) :
    ∃ issued, result'.newReceipts = result.newReceipts ++ issued ∧
      (∀ new ∈ issued, new.IsTransfer ∨ new.predecessorId = receipt.receiverId) ∧
      (st'.account = none → st'.entry.account = none) ∧
      Evolves E V as.config.storageUsageConfig receipt.receiverId
        (ReceiptCause E as e receipt r result'.result) [] issued st.view st'.view := by
  induction actions generalizing index result st with
  | nil =>
    cases h
    exact ⟨[], by simp, by simp, hinv.entry, .refl _⟩
  | cons action rest ih =>
    obtain ⟨next, _, _, hnext, hmerged, ⟨-, hbad, -⟩ | ⟨hgood, hrest⟩⟩ := applyActions_cons h
    · simp [hok] at hbad
    rcases merge_eq_ok hmerged with ⟨hnextOk, -, hnew⟩ | ⟨hbad, -⟩
    · rw [validateNewReceipts_eq hnextOk] at hnew hnextOk
      have hmem : action ∈ r.actions := hpart.subset (by simp)
      obtain ⟨event, _, hstart, heffect⟩ := applyAction_effect
        (fun init deposit haction => hdet init deposit (haction ▸ hmem)) hnext hnextOk
      obtain ⟨issued, hissued, hpred, hentry, hev⟩ :=
        ih ((List.suffix_cons action rest).isInfix.trans hpart)
          (hinv.step heffect.actor hpart) hrest
      have hown : ∀ new ∈ next.newReceipts, Issued receipt.receiverId event new := by
        intro new hmem
        rcases heffect.issues new hmem with hold | hnew
        · simp [hstart] at hold
        · exact hnew
      refine ⟨next.newReceipts ++ issued, by simp [hissued, hnew], ?_, hentry, ?_⟩
      · intro new hmem
        rcases List.mem_append.mp hmem with h | h
        · exact (hown new h).imp_right And.left
        · exact hpred new h
      · have hcause : ReceiptCause E as e receipt r result'.result event :=
          .inr ⟨ActionResult.isOk_iff.mp hok, action, hmem, heffect.cause.mono hinv.mayAct⟩
        have hfirst := Evolves.issuing heffect.step hcause fun new hmem _ =>
          (hown new hmem).imp_right And.right
        have hnone : event.accepted = [] := by
          have := heffect.cause
          cases event <;> first | rfl | exact this.elim
        rw [hnone] at hfirst
        exact hfirst.trans hev
    · simp [hgood] at hbad

/-! ## The outgoing receipts -/

theorem checkReceiptStorage_cases (h : checkReceiptStorage as id result st = .ok result') :
    result' = result ∨ (result'.isOk = false ∧ result'.newReceipts = []) := by
  unfold checkReceiptStorage at h
  split at h
  · split at h
    · cases h
      exact .inl rfl
    · rcases merge_eq_ok h with ⟨hok, -⟩ | hfailed
      · simp at hok
      · exact .inr hfailed
    · cases h
  · cases h
    exact .inl rfl

theorem refundReceipts_isTransfer {refunds : List Receipt}
    (h : refundReceipts E as receipt r result = .ok refunds) :
    ∀ refund ∈ refunds, refund.IsTransfer := by
  unfold refundReceipts at h
  split at h
  · cases h
    simp
  · simp only [refundUnspentGasAndDeposits, bind_eq_ok] at h
    obtain ⟨_, -, _, -, _, -, _, -, _, -, _, -, ⟨⟩⟩ := h
    intro refund hmem
    rcases List.mem_append.mp hmem with h | h
    · rw [List.mem_singleton.mp (List.mem_ite_nil_right.mp h).2]
      exact Receipt.isTransfer_newRefund _ _ _ _
    · rw [List.mem_singleton.mp (List.mem_ite_nil_right.mp h).2]
      exact Receipt.isTransfer_newRefund _ _ _ _

theorem Receipt.SameIssue.refl (receipt : Receipt) : receipt.SameIssue receipt := ⟨rfl, rfl⟩

theorem sameIssue_addOutputDataReceivers (receivers : List DataReceiver) (receipt : Receipt) :
    (receipt.addOutputDataReceivers receivers).SameIssue receipt := by
  obtain ⟨_, _, _, body⟩ := receipt
  cases body <;> exact ⟨rfl, rfl⟩

theorem mem_sendOutputData {receivers : List DataReceiver} {status : Except ActionError ReturnData}
    (h : new ∈ sendOutputData id receivers status receipts) :
    new.issuedActions = none ∨ ∃ old ∈ receipts, new.SameIssue old := by
  have hdata : ∀ data, new ∈ receipts ++ receivers.map (dataReceiptFor id data) →
      new.issuedActions = none ∨ ∃ old ∈ receipts, new.SameIssue old := by
    intro data hmem
    rcases List.mem_append.mp hmem with hold | hnew
    · exact .inr ⟨new, hold, .refl new⟩
    · obtain ⟨_, -, rfl⟩ := List.mem_map.mp hnew
      exact .inl rfl
  unfold sendOutputData at h
  split at h
  · exact .inr ⟨new, h, .refl new⟩
  · split at h
    · obtain ⟨i, hi, rfl⟩ := List.mem_iff_getElem.mp h
      rw [List.length_modify] at hi
      refine .inr ⟨receipts[i], List.getElem_mem hi, ?_⟩
      rw [List.getElem_modify]
      split
      · exact sameIssue_addOutputDataReceivers _ _
      · exact .refl _
    · exact hdata _ h
    · exact hdata _ h
    · exact hdata _ h

theorem mem_assignReceiptIds {parent : CryptoHash}
    (h : new ∈ assignReceiptIds E as parent receipts) : ∃ old ∈ receipts, new.SameIssue old := by
  obtain ⟨i, hi, rfl⟩ := List.mem_mapIdx.mp h
  exact ⟨receipts[i], List.getElem_mem hi, rfl, rfl⟩

theorem mem_outgoing {parent : CryptoHash} {id : AccountId} {receivers : List DataReceiver}
    {status : Except ActionError ReturnData} {receipts refunds : List Receipt} {new : Receipt}
    (hrefunds : ∀ refund ∈ refunds, refund.IsTransfer) (h : new ∈ assignReceiptIds E as parent
      (sendOutputData id receivers status (receipts ++ refunds))) :
    (∃ old ∈ receipts, new.SameIssue old) ∨ new.IsTransfer := by
  obtain ⟨_, hsent, hsame⟩ := mem_assignReceiptIds h
  rcases mem_sendOutputData hsent with hnone | ⟨old, hold, hsame'⟩
  · right
    intro actions hactions
    rw [hsame.2, hnone] at hactions
    cases hactions
  · have hsame'' : new.SameIssue old := ⟨hsame.1.trans hsame'.1, hsame.2.trans hsame'.2⟩
    rcases List.mem_append.mp hold with h | h
    · exact .inl ⟨old, h, hsame''⟩
    · exact .inr (hsame''.isTransfer (hrefunds old h))

/-! ## The receipt -/

/-- The effect of executing an action receipt. -/
structure ReceiptEffect (E : Externals) (V : ContractRunner) (as : ApplyState) (t : Trie E)
    (receipt : Receipt) (r : ActionReceipt) (t' : Trie E) (outcome : ReceiptOutcome) :
    Prop where
  others : ∀ b, b ≠ receipt.receiverId → t'.entries b = t.entries b
  postponed : ∀ b, (t'.mailboxes b).postponedReceipt = (t.mailboxes b).postponedReceipt
  yielded : ∀ b, (t'.mailboxes b).promiseYieldReceipt = (t.mailboxes b).promiseYieldReceipt
  receipt_eq : outcome.receipt = receipt
  issued : ∀ new ∈ outcome.newReceipts, new.IsTransfer ∨ new.predecessorId = receipt.receiverId
  evolves : Evolves E V as.config.storageUsageConfig receipt.receiverId
    (ReceiptCause E as (t.entries receipt.receiverId) receipt r outcome.status) []
    outcome.newReceipts (t.entries receipt.receiverId) (t'.entries receipt.receiverId)

theorem collectPromiseResults_receipts {m m' : Mailbox E} {ids : List CryptoHash}
    (h : collectPromiseResults m ids = .ok (promiseResults, m')) :
    m'.postponedReceipt = m.postponedReceipt ∧ m'.promiseYieldReceipt = m.promiseYieldReceipt := by
  induction ids generalizing m promiseResults with
  | nil =>
    cases h
    exact ⟨rfl, rfl⟩
  | cons id ids ih =>
    obtain ⟨_, -, h⟩ := bind_eq_ok.mp h
    obtain ⟨⟨_, _⟩, hrest, h⟩ := bind_eq_ok.mp h
    cases h
    exact (ih hrest :)

theorem creditReward_cases {reward : Balance} (h : creditReward t id reward = .ok t') :
    t' = t ∨ ∃ acc amount, t.getAccount id = some acc ∧ acc.amount ≤ amount ∧
      t' = t.setAccount id { acc with amount } := by
  unfold creditReward at h
  split at h
  · split at h
    · rename_i acc hacc
      obtain ⟨amount, hamount, h⟩ := bind_eq_ok.mp h
      cases h
      refine .inr ⟨acc, amount, hacc, ?_, rfl⟩
      obtain ⟨-, rfl⟩ := checkedAdd_eq_some.mp (okOr_eq_ok.mp (mapError_eq_ok.mp hamount))
      exact Nat.le_add_right _ _
    · cases h
      exact .inl rfl
  · cases h
    exact .inl rfl

theorem ActionState.finalEntry_eq_view (h : st.account = none → st.entry.account = none) :
    st.finalEntry = st.view := by
  unfold ActionState.finalEntry ActionState.view
  split
  · next account haccount => rw [haccount]
  · next hnone => rw [hnone, ← h hnone, Entry.setAccount_self]

theorem commitOrRollback_evolves
    (hdet : ∀ init deposit, .basic (.deterministicStateInit init deposit) ∈ r.actions →
      AccountId.isNearDeterministic receipt.receiverId = true)
    (hactions : applyActions E V as receipt r promiseResults 0 r.actions (initialActionResult as)
      (initialActionState t receipt) = .ok (result, st))
    (hstorage : checkReceiptStorage as receipt.receiverId result st = .ok result') :
    (∀ new ∈ result'.newReceipts, new.IsTransfer ∨ new.predecessorId = receipt.receiverId) ∧
    Evolves E V as.config.storageUsageConfig receipt.receiverId
      (ReceiptCause E as (t.entries receipt.receiverId) receipt r result'.result) []
      result'.newReceipts (t.entries receipt.receiverId)
      ((commitOrRollback t receipt.receiverId result' st).entries receipt.receiverId) := by
  unfold commitOrRollback
  cases hok : result'.isOk with
  | true =>
    rcases checkReceiptStorage_cases hstorage with rfl | ⟨hbad, -⟩
    · obtain ⟨issued, hissued, hpred, hentry, hev⟩ :=
        applyActions_evolves hdet (List.infix_refl _) .init hactions hok
      have hnew : result'.newReceipts = issued := hissued
      rw [hnew]
      refine ⟨hpred, ?_⟩
      simp only [if_true, Trie.setMailbox_entries, Trie.setEntry_entries_self,
        ActionState.finalEntry_eq_view hentry]
      exact hev
    · simp [hok] at hbad
  | false =>
    have hnil : result'.newReceipts = [] := by
      rcases checkReceiptStorage_cases hstorage with rfl | ⟨-, hnil⟩
      · exact applyActions_of_failed rfl hactions hok
      · exact hnil
    simp only [hnil, Bool.false_eq_true, if_false]
    exact ⟨by simp, .refl _⟩

theorem commitOrRollback_others (t : Trie E) (id : AccountId) (result : ActionResult)
    (st : ActionState) {b : AccountId} (hb : b ≠ id) :
    (commitOrRollback t id result st).entries b = t.entries b := by
  unfold commitOrRollback
  split
  · exact t.setEntry_entries_of_ne id b _ hb
  · rfl

theorem setMailbox_receipts (t : Trie E) {id : AccountId} {m : Mailbox E}
    (hpost : m.postponedReceipt = (t.mailboxes id).postponedReceipt)
    (hyield : m.promiseYieldReceipt = (t.mailboxes id).promiseYieldReceipt) (b : AccountId) :
    ((t.setMailbox id m).mailboxes b).postponedReceipt = (t.mailboxes b).postponedReceipt ∧
    ((t.setMailbox id m).mailboxes b).promiseYieldReceipt =
      (t.mailboxes b).promiseYieldReceipt := by
  by_cases hb : b = id
  · subst hb
    simp [Trie.setMailbox, hpost, hyield]
  · simp [Trie.setMailbox, hb]

theorem commitOrRollback_receipts (t : Trie E) (id : AccountId) (result : ActionResult)
    (st : ActionState) (b : AccountId) :
    ((commitOrRollback t id result st).mailboxes b).postponedReceipt =
      (t.mailboxes b).postponedReceipt ∧
    ((commitOrRollback t id result st).mailboxes b).promiseYieldReceipt =
      (t.mailboxes b).promiseYieldReceipt := by
  unfold commitOrRollback
  split
  · exact @setMailbox_receipts E t id
      { t.mailboxes id with promiseYieldStatus := st.yieldStatus } rfl rfl b
  · exact ⟨rfl, rfl⟩

theorem applyActionReceipt_effect {outcome : ReceiptOutcome}
    (hdet : ∀ init deposit, .basic (.deterministicStateInit init deposit) ∈ r.actions →
      AccountId.isNearDeterministic receipt.receiverId = true)
    (h : applyActionReceipt E V as t receipt r = .ok (t', outcome)) :
    ReceiptEffect E V as t receipt r t' outcome := by
  simp only [applyActionReceipt, bind_eq_ok] at h
  obtain ⟨⟨_, mailbox⟩, hcollect, ⟨result, st⟩, hactions, result', hstorage, refunds, hrefunds,
    _, -, _, hcredit, ⟨⟩⟩ := h
  obtain ⟨hpost, hyield⟩ := collectPromiseResults_receipts hcollect
  have hmailbox := setMailbox_receipts t hpost hyield
  have hkept := commitOrRollback_receipts (t.setMailbox receipt.receiverId mailbox)
    receipt.receiverId result' st
  obtain ⟨hpred, hev⟩ := commitOrRollback_evolves hdet hactions hstorage
  have hcreditEv : Evolves E V as.config.storageUsageConfig receipt.receiverId
      (ReceiptCause E as (t.entries receipt.receiverId) receipt r result'.result) [] []
      ((commitOrRollback (t.setMailbox receipt.receiverId mailbox) receipt.receiverId result'
        st).entries receipt.receiverId) (t'.entries receipt.receiverId) := by
    rcases creditReward_cases hcredit with rfl | ⟨acc, amount, hacc, hle, rfl⟩
    · exact .refl _
    · simp only [Trie.setAccount, Trie.setEntry_entries_self]
      exact .single (.credit hacc hle) (.inl rfl)
  have hcreditMail : t'.mailboxes = (commitOrRollback (t.setMailbox receipt.receiverId mailbox)
      receipt.receiverId result' st).mailboxes := by
    rcases creditReward_cases hcredit with rfl | ⟨acc, amount, -, -, rfl⟩ <;> rfl
  have hout := fun new => @mem_outgoing E as receipt.receiptId receipt.receiverId
    r.outputDataReceivers result'.result result'.newReceipts refunds new
    (refundReceipts_isTransfer hrefunds)
  refine ⟨?_, fun b => ?_, fun b => ?_, rfl, ?_, ?_⟩
  · intro b hb
    rcases creditReward_cases hcredit with rfl | ⟨acc, amount, -, -, rfl⟩
    · exact commitOrRollback_others _ _ _ _ hb
    · rw [Trie.setAccount, Trie.setEntry_entries_of_ne _ _ _ _ hb]
      exact commitOrRollback_others _ _ _ _ hb
  · rw [hcreditMail, (hkept b).1, (hmailbox b).1]
  · rw [hcreditMail, (hkept b).2, (hmailbox b).2]
  · intro new hmem
    rcases hout new hmem with ⟨old, hold, hsame⟩ | htransfer
    · rcases hpred old hold with htransfer | hown
      · exact .inl (hsame.isTransfer htransfer)
      · exact .inr (hsame.1.trans hown)
    · exact .inl htransfer
  · refine (hev.trans hcreditEv).mono (fun _ => id) fun new hmem => ?_
    rcases hout new hmem with ⟨old, hold, hsame⟩ | htransfer
    · exact .inl ⟨old, by simpa using hold, hsame⟩
    · exact .inr fun _ => htransfer

end Receipts

end BitInfinity
