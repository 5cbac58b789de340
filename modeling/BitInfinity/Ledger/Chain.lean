import BitInfinity.Ledger.Delivery
import BitInfinity.Ledger.Transactions
import BitInfinity.Ledger.Validators
import BitInfinity.Runtime.Chain

/-!
# The chain and the life of accounts

Every step of the chain lets every account evolve by steps of `EntryStep`.  Receipts that are
outstanding after the step were so before it, or were issued in one of these steps.
-/

namespace BitInfinity

open Foundation

section Chain

variable {E : Externals} {V : ContractRunner} {s s' : ChainState E} {event : ChainEvent}
  {config : StorageUsageConfig} {as : ApplyState} {a : AccountId}

variable {p : ProcessingState E} {txs : List (SignedTransaction × Bool)}

def ChainState.Outstanding (s : ChainState E) (receipt : Receipt) : Prop :=
  receipt ∈ s.pending ∨ s.trie.Holds receipt

/-- The storage prices that the step uses, when it uses any. -/
def ChainEvent.UsesConfig (config : StorageUsageConfig) : ChainEvent → Prop
  | .transactions as _ => as.config.storageUsageConfig = config
  | .receipt as _ => as.config.storageUsageConfig = config
  | _ => True

/-- The states of the transaction loop in which each transaction of the list is met. -/
def transactionTrace (as : ApplyState) (t : Trie E) (txs : List (SignedTransaction × Bool)) :
    List (ProcessingState E × (SignedTransaction × Bool)) :=
  foldTrace (processTransaction as) (.start t) txs

/-- The steps of the account `a` that the transactions of a chunk can cause. -/
def TransactionsCause (as : ApplyState) (t : Trie E) (txs : List (SignedTransaction × Bool))
    (a : AccountId) (step : EntryEvent) : Prop :=
  ∃ p item p', (p, item) ∈ transactionTrace as t txs ∧ processTransaction as p item = .ok p' ∧
    TxCause as p item p' a step

/-- The steps of the account `a` that a step of the chain can cause. -/
def ChainCause (s : ChainState E) (event : ChainEvent) (s' : ChainState E) (a : AccountId)
    (step : EntryEvent) : Prop :=
  match event with
  | .transactions as txs => s.accepts as = true ∧ TransactionsCause as s.trie txs a step
  | .receipt as _ => s.accepts as = true ∧ ∃ receipt r outcome, s.Outstanding receipt ∧
      receipt.actionReceipt? = some r ∧ receipt.receiverId = a ∧ outcome.receipt = receipt ∧
      s'.log.receipts = s.log.receipts ++ [outcome] ∧
      ReceiptCause E as (s.trie.entries a) receipt r outcome.status step
  | .validatorAccounts _ => ValidatorCause step
  | _ => False

/-- What a step of the chain does to the account `a`. -/
def StepEffect (E : Externals) (V : ContractRunner) (config : StorageUsageConfig)
    (cause : EntryEvent → Prop) (a : AccountId) (s s' : ChainState E) : Prop :=
  ∃ accepted issued, acceptedTransactions s'.log.transactions =
      acceptedTransactions s.log.transactions ++ accepted ∧
    (∀ receipt, s'.Outstanding receipt → s.Outstanding receipt ∨ receipt ∈ issued ∧
      ∀ outcome, s'.log.receipts = s.log.receipts ++ [outcome] → receipt ∈ outcome.newReceipts) ∧
    Evolves E V config a cause (accepted.filter (·.signerId == a)) issued
      (s.trie.entries a) (s'.trie.entries a)

/-! ## Transactions -/

theorem coherent_start (t : Trie E) :
    (ProcessingState.start t).cache.Coherent (ProcessingState.start t).trie :=
  ⟨fun _ => rfl, fun _ _ _ => id, fun _ _ _ => rfl⟩

theorem TxOutput.trans {p' p'' : ProcessingState E} {accepted accepted' : List Transaction}
    {issued issued' : List Receipt} (h₁ : TxOutput p p' accepted issued)
    (h₂ : TxOutput p' p'' accepted' issued') :
    TxOutput p p'' (accepted ++ accepted') (issued ++ issued') := by
  refine ⟨by rw [h₂.accepted_eq, h₁.accepted_eq, List.append_assoc], fun receipt hmem => ?_⟩
  rcases h₂.receipts_sub receipt hmem with h | h
  · exact (h₁.receipts_sub receipt h).imp_right fun h => by simp [h]
  · exact .inr (by simp [h])

theorem processTransactions_evolves {t : Trie E} (h : processTransactions as t txs = .ok p) :
    ∃ accepted issued, TxOutput (.start t) p accepted issued ∧
      p.trie.mailboxes = t.mailboxes ∧
      ∀ a, Evolves E V config a (TransactionsCause as t txs a)
        (accepted.filter (·.signerId == a)) issued (t.entries a) (p.trie.entries a) := by
  refine (foldlM_invariant (fun q => q.cache.Coherent q.trie ∧
    ∃ accepted issued, TxOutput (.start t) q accepted issued ∧
      q.trie.mailboxes = t.mailboxes ∧
      ∀ a, Evolves E V config a (TransactionsCause as t txs a)
        (accepted.filter (·.signerId == a)) issued (t.entries a) (q.trie.entries a))
    h ⟨coherent_start t, [], [], ⟨rfl, fun _ => .inl⟩, rfl, fun _ => .refl _⟩ ?_).2
  rintro q item q' hmem ⟨hc, accepted, issued, hout, hmail, hev⟩ hstep
  have htx := processTransaction_txStep hstep
  obtain ⟨accepted', issued', hout', hev'⟩ := htx.evolves hc
  refine ⟨htx.coherent hc, accepted ++ accepted', issued ++ issued', hout.trans hout',
    htx.mailboxes.trans hmail, fun a => ?_⟩
  rw [List.filter_append]
  exact (hev a).trans ((hev' a).mono (fun step hcause => ⟨q, item, q', hmem, hstep, hcause⟩)
    fun receipt hreceipt => .inl ⟨receipt, hreceipt, .refl receipt⟩)

theorem applyTransactions_effect
    (has : s.accepts as = true) (h : applyTransactions E s as txs = some s') :
    StepEffect E V config (ChainCause s (.transactions as txs) s' a) a s s' := by
  unfold applyTransactions at h
  split at h
  · rename_i p hp
    cases h
    obtain ⟨accepted, issued, hout, hmail, hev⟩ := processTransactions_evolves hp
    refine ⟨accepted, issued, ?_, ?_, (hev a).mono (fun step hcause => ⟨has, hcause⟩)
      fun new hmem => .inl ⟨new, hmem, .refl new⟩⟩
    · rw [acceptedTransactions_append, hout.accepted_eq]
      rfl
    · rintro receipt (hpending | ⟨b, hb⟩)
      · rw [List.append_assoc] at hpending
        rcases List.mem_append.mp hpending with hold | hnew
        · exact .inl (.inl hold)
        · exact .inr ⟨(hout.receipts_sub receipt hnew).resolve_left (by
            simp [ProcessingState.receipts, ProcessingState.start]), by simp⟩
      · exact .inl (.inr ⟨b, hmail ▸ hb⟩)
  · cases h

/-! ## Receipts -/

theorem applyReceipt_effect {receipt : Receipt} (has : s.accepts as = true)
    (hpending : receipt ∈ s.pending) (h : applyReceipt E V s as receipt = some s')
    (hconfig : as.config.storageUsageConfig = config) :
    StepEffect E V config (ChainCause s (.receipt as receipt) s' a) a s s' := by
  unfold applyReceipt at h
  split at h
  · cases h
  · split at h
    · rename_i t outcome hprocess
      cases h
      rcases processReceipt_processedAs hprocess with
        ⟨rfl, hshelved⟩ | ⟨executed, r, o, rfl, hexec⟩
      · refine ⟨[], [], by simp, ?_, ?_⟩
        · rintro stored (hstored | hstored)
          · exact .inl (.inl (List.mem_of_mem_erase (by simpa using hstored)))
          · rcases hshelved.holds stored hstored with h | rfl
            · exact .inl (.inr h)
            · exact .inl (.inl hpending)
        · simp only [hshelved.entries]
          exact .refl _
      · obtain ⟨_, hentries, hholds, heffect⟩ := hexec.effect
        refine ⟨[], o.newReceipts, by simp, ?_, ?_⟩
        · rintro stored (hstored | hstored)
          · rcases List.mem_append.mp hstored with hold | hnew
            · exact .inl (.inl (List.mem_of_mem_erase hold))
            · exact .inr ⟨hnew, fun outcome hlog => by
                rwa [← List.singleton_inj.mp (List.append_cancel_left hlog)]⟩
          · exact .inl (.inr (hholds stored (hstored.congr heffect.postponed heffect.yielded)))
        · by_cases ha : a = executed.receipt.receiverId
          · have hev := heffect.evolves
            rw [hconfig, hentries, ← ha] at hev
            have hout : s.Outstanding executed.receipt := by
              rcases hexec.source with rfl | hstored
              · exact .inl hpending
              · exact .inr hstored
            exact hev.mono (fun step hcause => ⟨has, executed.receipt, r, o, hout,
              hexec.actions, ha.symm, heffect.receipt_eq, rfl, hcause⟩)
              fun new hmem => .inl ⟨new, hmem, .refl new⟩
          · have hsame : t.entries a = s.trie.entries a := by
              rw [heffect.others a ha, hentries]
            simp only [hsame]
            refine (Evolves.refl _).mono (fun _ => id) fun new hmem => .inr fun hpred => ?_
            rcases heffect.issued new hmem with htransfer | hown
            · exact htransfer
            · exact absurd (hpred.symm.trans hown) ha
    · cases h

/-! ## Any step -/

theorem chainStep_effect (h : chainStep E V s event = some s') (hconfig : event.UsesConfig config)
    (a : AccountId) : StepEffect E V config (ChainCause s event s' a) a s s' := by
  cases event with
  | transactions =>
    simp only [chainStep, Option.ite_none_right_eq_some] at h
    exact applyTransactions_effect h.1 h.2
  | receipt =>
    simp only [chainStep, Option.ite_none_right_eq_some, Bool.and_eq_true,
      List.contains_iff_mem] at h
    exact applyReceipt_effect h.1.1 h.1.2 h.2 hconfig
  | yieldTimeout accountId dataId =>
    simp only [chainStep, Option.ite_none_right_eq_some, Option.some.injEq] at h
    obtain ⟨-, rfl⟩ := h
    refine ⟨[], [timeoutReceipt accountId dataId], by simp, ?_, ?_⟩
    · rintro receipt (hpending | hstored)
      · exact (List.mem_append.mp hpending).imp .inl fun h => ⟨h, by simp⟩
      · exact .inl (.inr hstored)
    · refine (Evolves.refl _).mono (fun _ => id) fun receipt hmem => .inr fun _ => ?_
      rw [List.mem_singleton.mp hmem]
      exact fun actions hactions => by cases hactions
  | validatorAccounts update =>
    simp only [chainStep] at h
    split at h
    · rename_i t hupdate
      cases h
      have heffect : ValidatorEffect E V config _ _ := updateValidatorAccounts_effect hupdate
      refine ⟨[], [], by simp, ?_, heffect.evolves a⟩
      rintro receipt (hpending | ⟨b, hb⟩)
      · exact .inl (.inl hpending)
      · exact .inl (.inr ⟨b, heffect.mailboxes ▸ hb⟩)
    · cases h
  | nextBlock =>
    simp only [chainStep, Option.ite_none_right_eq_some, Option.some.injEq] at h
    obtain ⟨-, rfl⟩ := h
    exact ⟨[], [], by simp, fun receipt => .inl, .refl _⟩

theorem ChainEvent.exists_usesConfig (event : ChainEvent) : ∃ config, event.UsesConfig config := by
  cases event with
  | transactions | receipt => exact ⟨_, rfl⟩
  | yieldTimeout | validatorAccounts update | nextBlock => exact ⟨⟨0, 0, 0, 0⟩, trivial⟩

end Chain

end BitInfinity
