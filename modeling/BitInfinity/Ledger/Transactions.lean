import BitInfinity.Ledger.Evolution

/-!
# Transactions and the life of their signer

Processing a transaction leaves every account but its signer alone, and the signer's entry
changes by steps of `EntryStep`.
-/

namespace BitInfinity

open Foundation

section Transactions

variable {E : Externals} {V : ContractRunner} {as : ApplyState} {p p' q : ProcessingState E}
  {item : SignedTransaction × Bool} {tx : SignedTransaction} {config : StorageUsageConfig}
  {a : AccountId} {account : Account} {cost : TransactionCost} {key key' : AccessKey}

variable {result : VerificationResult}

variable {gas : Gas} {tokens : Balance} {scheduled : Option PatoshiRecord}
  {accepted : List Transaction} {issued : List Receipt}

/-- Processing the transaction stores a new key with this nonce on the signer's account.  The
key need not be the one that the transaction names. -/
structure Registers (as : ApplyState) (p : ProcessingState E) (item : SignedTransaction × Bool)
    (publicKey : PublicKey) (nonce : Nonce) : Prop where
  live : item.2 = true
  valid : validateTransaction E as.config item.1 as.protocolVersion = .ok ()
  cost_isOk : ∃ cost, txCost E.toCrypto as.config item.1.transaction as.gasPrice = .ok cost
  account_isSome : ∃ account, p.cache.accounts item.1.transaction.signerId = some account
  uncached : p.cache.accessKeys item.1.transaction.signerId item.1.transaction.publicKey = none
  recovered : recoveredKey E item.1 = some publicKey
  absent : p.trie.getAccessKey item.1.transaction.signerId publicKey = none
  nonce_eq : nonce = if publicKey = item.1.transaction.publicKey then
    firstUseNonceFloor as.blockHeight item.1.transaction.nonce.nonce else 0

def ProcessingState.receipts (p : ProcessingState E) : List Receipt :=
  p.localReceipts ++ p.forwardedReceipts

/-- The transaction was turned into a receipt. -/
def Emitted (as : ApplyState) (p : ProcessingState E) (tx : Transaction) : Prop :=
  ∃ result, receiptFromTx E as tx result ∈ p.receipts

/-- The steps of the account `a` that a transaction can cause. -/
def TxCause (as : ApplyState) (p : ProcessingState E) (item : SignedTransaction × Bool)
    (p' : ProcessingState E) (a : AccountId) : EntryEvent → Prop
  | .receive => True
  | .register publicKey nonce =>
    item.1.transaction.signerId = a ∧ Registers as p item publicKey nonce
  | .accept as' tx => as' = as ∧ tx = item.1.transaction ∧ item.1.transaction.signerId = a ∧
      Emitted as p' tx
  | .drop as' tx => as' = as ∧ tx = item.1.transaction ∧ item.1.transaction.signerId = a ∧
      Emitted as p' tx
  | .payGas tx => tx = item.1.transaction ∧ item.1.transaction.signerId = a
  | _ => False

/-! ## Finding the key -/

theorem entries_resolveAccessKey_of_ne (h : resolveAccessKey as p tx = (.ok key, q))
    (ha : a ≠ tx.transaction.signerId) : q.trie.entries a = p.trie.entries a := by
  rcases resolveAccessKey_eq_ok h with ⟨-, rfl⟩ | ⟨-, -, -, rfl⟩
  · rfl
  · simp [Trie.setAccessKey, ha]

theorem Loaded.account_eq_trie (h : Loaded as p tx account cost key q)
    (hc : p.cache.Coherent p.trie) : (q.trie.entries tx.transaction.signerId).account =
      some account := by
  have hp : p.trie.getAccount tx.transaction.signerId = some account := by
    rw [← hc.accounts, h.account_eq]
  rcases resolveAccessKey_eq_ok h.resolve_eq with ⟨-, rfl⟩ | ⟨-, -, -, rfl⟩
  · exact hp
  · exact (Trie.getAccount_setAccessKey ..).trans hp

theorem Loaded.key_eq_trie (h : Loaded as p tx account cost key q) (hc : p.cache.Coherent p.trie) :
    (q.trie.entries tx.transaction.signerId).getAccessKey tx.transaction.publicKey = some key := by
  rcases resolveAccessKey_eq_ok h.resolve_eq with ⟨hcached, rfl⟩ | ⟨-, -, -, rfl⟩
  · exact hc.accessKeys _ _ _ hcached
  · exact Trie.getAccessKey_setAccessKey_self ..

theorem Loaded.gasKeyNonces_eq_trie (h : Loaded as p tx account cost key q)
    (hc : p.cache.Coherent p.trie) :
    q.cache.gasKeyNonces tx.transaction.signerId tx.transaction.publicKey =
      (q.trie.entries tx.transaction.signerId).gasKeyNonces tx.transaction.publicKey :=
  funext fun i => (pairedWrites_coherent.resolve hc h.resolve_eq).gasKeyNonces _ _ i

theorem Loaded.evolves (h : Loaded as p item.1 account cost key q) (hlive : item.2 = true)
    (hc : p.cache.Coherent p.trie) :
    Evolves E V config item.1.transaction.signerId
      (TxCause as p item p' item.1.transaction.signerId) [] []
      (p.trie.entries item.1.transaction.signerId)
      (q.trie.entries item.1.transaction.signerId) := by
  have hacc : (p.trie.entries item.1.transaction.signerId).account = some account := by
    rw [← h.account_eq, hc.accounts]
    rfl
  rcases resolveAccessKey_eq_ok h.resolve_eq with ⟨-, rfl⟩ | ⟨hcache, hrec, rfl, rfl⟩
  · exact .refl _
  · obtain ⟨hbtc, hderives⟩ := recoveredKey_eq_some hrec
    simp only [Trie.setAccessKey, Trie.setEntry_entries_self]
    cases hstored : p.trie.getAccessKey item.1.transaction.signerId
        item.1.transaction.publicKey with
    | none =>
      have hkey : firstUseKey as none item.1 = AccessKey.fullAccess.setNonce
          (firstUseNonceFloor as.blockHeight item.1.transaction.nonce.nonce) := by
        simp [firstUseKey, AccessKey.setNonce, AccessKey.fullAccess]
      rw [hkey]
      exact .single (.register _ hacc hbtc hderives hstored) ⟨rfl, hlive, h.valid,
        ⟨cost, h.cost_eq⟩, ⟨account, h.account_eq⟩, hcache, hrec, hstored, by simp⟩
    | some stored =>
      exact .single (.touch hacc (.update _ hstored (AccessKey.sameShape_setNonce _ _)
        (le_max_left _ _))) trivial

/-! ## Settling the charge -/

theorem scheduleUnlock_trie (q : ProcessingState E) (a : AccountId)
    (scheduled : Option PatoshiRecord) :
    (scheduleUnlock q a scheduled).trie =
      q.trie.setEntry a ((q.trie.entries a).schedule scheduled) := by
  cases scheduled with
  | none => exact (Trie.setEntry_self q.trie a).symm
  | some record => rfl

theorem charged_trie (p : ProcessingState E) (tx : SignedTransaction) (account : Account)
    (key : AccessKey) (result : VerificationResult) (gas : Gas) (tokens : Balance)
    (fate : TransactionEnd) :
    (charged p tx account key result gas tokens fate).trie = p.trie.setEntry tx.transaction.signerId
        ((p.trie.entries tx.transaction.signerId).charge tx.transaction.publicKey account key
          result) :=
  applyCharge_trie _ tx.transaction account key result

theorem settle_cases {fate : TransactionEnd}
    (h : settle p tx account key result gas tokens fate = .ok p') : p' = p.finishWith tx .dropped ∨
    p' = charged p tx account key result gas tokens fate := by
  rw [settle_eq] at h
  split_ifs at h
  · cases h
    exact .inr rfl
  · cases h
    exact .inl rfl

theorem guardTransaction_guardPasses {t : Trie E} {tx : Transaction}
    (h : guardTransaction as t tx account result = .ok (.ok scheduled)) :
    GuardPasses as (t.entries tx.signerId) tx (result.newAccountAmount + account.locked)
      scheduled :=
  guardTransaction_eq_ok h

theorem entries_acceptTransaction_of_ne (h : acceptTransaction as p tx account key result = .ok p')
    (ha : a ≠ tx.transaction.signerId) : p'.trie.entries a = p.trie.entries a := by
  rcases settle_cases h with rfl | rfl
  · simp [ProcessingState.finishWith]
  · rw [charged_trie, Trie.setEntry_entries_of_ne _ _ _ _ ha, emitReceipt_trie]

theorem TxStep.entries_of_ne (h : TxStep as p item p')
    (ha : a ≠ item.1.transaction.signerId) : p'.trie.entries a = p.trie.entries a := by
  cases h with
  | rejected e => rfl
  | foreignKey =>
    simp only [ProcessingState.fail, ProcessingState.finishWith, autoRegisterAccessKeyIfNeeded]
    split
    · rfl
    · simp [Trie.setAccessKey, ha]
  | failed hlive hl e => exact (entries_resolveAccessKey_of_ne hl.resolve_eq ha :)
  | depositFailed hlive hl hverdict hsettle =>
    rcases settle_cases hsettle with rfl | rfl
    · exact (entries_resolveAccessKey_of_ne hl.resolve_eq ha :)
    · rw [charged_trie, Trie.setEntry_entries_of_ne _ _ _ _ ha,
        entries_resolveAccessKey_of_ne hl.resolve_eq ha]
  | accepted hlive hl hverdict hguard haccept =>
    rw [entries_acceptTransaction_of_ne haccept ha, scheduleUnlock_trie,
      Trie.setEntry_entries_of_ne _ _ _ _ ha, entries_resolveAccessKey_of_ne hl.resolve_eq ha]

theorem mailboxes_resolveAccessKey (h : resolveAccessKey as p tx = (.ok key, q)) :
    q.trie.mailboxes = p.trie.mailboxes := by
  rcases resolveAccessKey_eq_ok h with ⟨-, rfl⟩ | ⟨-, -, -, rfl⟩ <;> rfl

theorem TxStep.mailboxes (h : TxStep as p item p') : p'.trie.mailboxes = p.trie.mailboxes := by
  cases h with
  | rejected e => rfl
  | foreignKey =>
    simp only [ProcessingState.fail, ProcessingState.finishWith, autoRegisterAccessKeyIfNeeded]
    split <;> rfl
  | failed hlive hl e => exact (mailboxes_resolveAccessKey hl.resolve_eq :)
  | depositFailed hlive hl hverdict hsettle =>
    rw [← mailboxes_resolveAccessKey hl.resolve_eq]
    rcases settle_cases hsettle with rfl | rfl
    · rfl
    · rw [charged_trie, Trie.setEntry_mailboxes]
  | accepted hlive hl hverdict hguard haccept =>
    rw [← mailboxes_resolveAccessKey hl.resolve_eq]
    rcases settle_cases haccept with rfl | rfl
    · simp [ProcessingState.finishWith, scheduleUnlock_trie]
    · rw [charged_trie, Trie.setEntry_mailboxes, emitReceipt_trie, scheduleUnlock_trie,
        Trie.setEntry_mailboxes]

/-! ## Accepted transactions and new receipts -/

def acceptedTransactions (log : List (SignedTransaction × TransactionEnd)) : List Transaction :=
  log.filterMap fun entry =>
    match entry.2 with
    | .success _ _ _ => some entry.1.transaction
    | _ => none

@[simp] theorem acceptedTransactions_append (log log' : List (SignedTransaction × TransactionEnd)) :
    acceptedTransactions (log ++ log') = acceptedTransactions log ++ acceptedTransactions log' :=
  List.filterMap_append

/-- What a step adds to the log and to the receipts. -/
structure TxOutput (p p' : ProcessingState E) (accepted : List Transaction)
    (issued : List Receipt) : Prop where
  accepted_eq : acceptedTransactions p'.log = acceptedTransactions p.log ++ accepted
  receipts_sub : ∀ receipt ∈ p'.receipts, receipt ∈ p.receipts ∨ receipt ∈ issued

theorem TxOutput.fail (p : ProcessingState E) (tx : SignedTransaction) (e : InvalidTxError) :
    TxOutput p (p.fail tx e) [] [] :=
  ⟨by simp [ProcessingState.fail, ProcessingState.finishWith, acceptedTransactions], fun _ => .inl⟩

theorem TxOutput.resolve (h : resolveAccessKey as p tx = (.ok key, q))
    (hout : TxOutput q p' accepted issued) : TxOutput p p' accepted issued := by
  rcases resolveAccessKey_eq_ok h with ⟨-, rfl⟩ | ⟨-, -, -, rfl⟩
  · exact hout
  · exact ⟨hout.accepted_eq, hout.receipts_sub⟩

theorem TxOutput.settle {error : InvalidTxError}
    (h : settle p tx account key result gas tokens (.depositFailed error gas tokens) = .ok p') :
    TxOutput p p' [] [] := by
  rcases settle_cases h with rfl | rfl
  · exact ⟨by simp [ProcessingState.finishWith, acceptedTransactions], fun _ => .inl⟩
  · exact ⟨by simp [charged, applyCharge, ProcessingState.finishWith, acceptedTransactions],
      fun _ => .inl⟩

theorem mem_receipts_emitReceipt {receipt receipt' : Receipt}
    (h : receipt' ∈ (emitReceipt p receipt).receipts) :
    receipt' ∈ p.receipts ∨ receipt' ∈ [receipt] := by
  unfold emitReceipt ProcessingState.receipts at *
  split at h <;> simp at h ⊢ <;> tauto

theorem emitReceipt_mem_receipts (p : ProcessingState E) (receipt : Receipt) :
    receipt ∈ (emitReceipt p receipt).receipts := by
  unfold emitReceipt ProcessingState.receipts
  split <;> simp

theorem TxOutput.dropped (p : ProcessingState E) (tx : SignedTransaction) (receipt : Receipt) :
    TxOutput p ((emitReceipt p receipt).finishWith tx .dropped) [] [receipt] :=
  ⟨by simp [ProcessingState.finishWith, acceptedTransactions], fun _ => mem_receipts_emitReceipt⟩

theorem TxOutput.charged (p : ProcessingState E) (tx : SignedTransaction) (receipt : Receipt)
    (account : Account) (key : AccessKey) (result : VerificationResult) (id : CryptoHash)
    (gas : Gas) (tokens : Balance) :
    TxOutput p (BitInfinity.charged (emitReceipt p receipt) tx account key result gas tokens
      (.success id gas tokens)) [tx.transaction] [receipt] :=
  ⟨by simp [BitInfinity.charged, applyCharge, ProcessingState.finishWith, acceptedTransactions],
    fun _ => mem_receipts_emitReceipt⟩

theorem TxOutput.schedule (hout : TxOutput (scheduleUnlock q a scheduled) p' accepted issued) :
    TxOutput q p' accepted issued := by
  cases scheduled with
  | none => exact hout
  | some record => exact ⟨hout.accepted_eq, hout.receipts_sub⟩

/-! ## The evolution of all accounts -/

theorem TxStep.evolves_signer (h : TxStep as p item p') (hc : p.cache.Coherent p.trie) :
    ∃ accepted issued, TxOutput p p' accepted issued ∧ accepted ⊆ [item.1.transaction] ∧
      (∀ receipt ∈ issued, receipt.predecessorId = item.1.transaction.signerId) ∧
      Evolves E V config item.1.transaction.signerId
        (TxCause as p item p' item.1.transaction.signerId) accepted issued
        (p.trie.entries item.1.transaction.signerId)
        (p'.trie.entries item.1.transaction.signerId) := by
  cases h with
  | rejected e => exact ⟨[], [], .fail p item.1 e, by simp, by simp, .refl _⟩
  | foreignKey hlive hforeign =>
    refine ⟨[], [], ⟨(TxOutput.fail p item.1 _).accepted_eq, fun _ => .inl⟩, by simp, by simp, ?_⟩
    obtain ⟨hbtc, hderives⟩ := recoveredKey_eq_some hforeign.recovered_eq
    obtain ⟨account, haccount⟩ := hforeign.account_isSome
    have hacc : (p.trie.entries item.1.transaction.signerId).account = some account := by
      rw [← haccount, hc.accounts]
      rfl
    simp only [ProcessingState.fail, ProcessingState.finishWith, autoRegisterAccessKeyIfNeeded]
    split
    · exact .refl _
    · rename_i habsent
      simp only [Trie.setAccessKey, Trie.setEntry_entries_self]
      exact .single (.register 0 hacc hbtc hderives habsent) ⟨rfl, hlive, hforeign.valid,
        hforeign.cost_isOk, ⟨account, haccount⟩, hforeign.cache_none,
        hforeign.recovered_eq, habsent, by simp [hforeign.ne_publicKey]⟩
  | failed hlive hl e =>
    exact ⟨[], [], (TxOutput.fail _ item.1 e).resolve hl.resolve_eq, by simp, by simp,
      hl.evolves hlive hc⟩
  | depositFailed hlive hl hverdict hsettle =>
    have hq : Evolves E V config _ (TxCause as p item p' _) _ _ _ _ := hl.evolves hlive hc
    have hverified := transactionVerdict_depositFailed hverdict
    rw [hl.gasKeyNonces_eq_trie hc] at hverified
    refine ⟨[], [], (TxOutput.settle hsettle).resolve hl.resolve_eq, by simp, by simp, ?_⟩
    rcases settle_cases hsettle with rfl | rfl
    · exact hq
    · rw [charged_trie, Trie.setEntry_entries_self]
      exact hq.trans (.single (.payGas _ rfl (hl.account_eq_trie hc) (hl.key_eq_trie hc)
        hverified) ⟨rfl, rfl⟩)
  | accepted hlive hl hverdict hguard haccept =>
    have hq : Evolves E V config _ (TxCause as p item p' _) _ _ _ _ := hl.evolves hlive hc
    have hpasses := guardTransaction_guardPasses hguard
    obtain ⟨hverified, -⟩ := transactionVerdict_success hverdict
    rw [hl.gasKeyNonces_eq_trie hc] at hverified
    rcases settle_cases haccept with rfl | rfl
    · refine ⟨[], _, ((TxOutput.dropped _ item.1 _).schedule).resolve hl.resolve_eq, by simp,
        by simp [receiptFromTx], ?_⟩
      simp only [ProcessingState.finishWith, emitReceipt_trie, scheduleUnlock_trie,
        Trie.setEntry_entries_self]
      exact hq.trans (.issuing (.drop as _ rfl (hl.account_eq_trie hc) (hl.key_eq_trie hc)
        hpasses) ⟨rfl, rfl, rfl, _, emitReceipt_mem_receipts _ _⟩
        (by simp [EntryEvent.Issues, receiptFromTx, Receipt.issuedActions,
          Receipt.actionReceipt?]))
    · refine ⟨_, _, ((TxOutput.charged _ item.1 _ _ _ _ _ _ _).schedule).resolve hl.resolve_eq,
        by simp, by simp [receiptFromTx], ?_⟩
      simp only [charged_trie, emitReceipt_trie, scheduleUnlock_trie, Trie.setEntry_entries_self]
      exact hq.trans (.issuing (.accept as _ rfl (hl.account_eq_trie hc) (hl.key_eq_trie hc)
        hverified hpasses) ⟨rfl, rfl, rfl, _, emitReceipt_mem_receipts _ _⟩
        (by simp [EntryEvent.Issues, receiptFromTx, Receipt.issuedActions,
          Receipt.actionReceipt?]))

theorem TxStep.evolves (h : TxStep as p item p') (hc : p.cache.Coherent p.trie) :
    ∃ accepted issued, TxOutput p p' accepted issued ∧
      ∀ a, Evolves E V config a (TxCause as p item p' a) (accepted.filter (·.signerId == a)) issued
        (p.trie.entries a) (p'.trie.entries a) := by
  obtain ⟨accepted, issued, hout, hsub, hpred, hev⟩ := h.evolves_signer hc
  refine ⟨accepted, issued, hout, fun a => ?_⟩
  by_cases ha : a = item.1.transaction.signerId
  · subst ha
    have hall : accepted.filter (·.signerId == item.1.transaction.signerId) = accepted :=
      List.filter_eq_self.mpr fun tx htx => by simp [List.mem_singleton.mp (hsub htx)]
    rw [hall]
    exact hev
  · have hnone : accepted.filter (·.signerId == a) = [] :=
      List.filter_eq_nil_iff.mpr fun tx htx => by
        simp [List.mem_singleton.mp (hsub htx), Ne.symm ha]
    rw [hnone, h.entries_of_ne ha]
    exact (Evolves.refl _).mono (fun _ => id) fun receipt hmem =>
      .inr fun hreceipt => absurd (hreceipt.symm.trans (hpred receipt hmem)) ha

end Transactions

end BitInfinity
