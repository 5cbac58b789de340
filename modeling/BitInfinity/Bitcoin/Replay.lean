import BitInfinity.Ledger.Keys
import BitInfinity.Patoshi.Unlock

/-!
# At most one success per transaction

A transaction of a Bitcoin account is spent when the nonce stored for its key has reached its
own.  Spent transactions stay spent unless the key is stored anew with a lower nonce.
-/

namespace BitInfinity

open Foundation

section Spent

variable {E : Externals} {V : ContractRunner} {config : StorageUsageConfig} {a : AccountId}
  {e e' : Entry} {event : EntryEvent} {tx tx' : Transaction} {pk : PublicKey}
  {key key' : AccessKey} {acc : Account} {cost : TransactionCost} {paid : Balance}
  {result : VerificationResult}

variable {nonce : Option Nonce}

/-- The nonce check rejects the transaction, whichever kind its key has now. -/
structure Spent (e : Entry) (tx : Transaction) : Prop where
  regular : tx.nonce.nonceIndex = none → ∀ key, e.getAccessKey tx.publicKey = some key →
    key.gasKeyInfo = none → tx.nonce.nonce ≤ key.nonce
  gasKey : ∀ index, tx.nonce.nonceIndex = some index → ∀ nonce,
    e.gasKeyNonces tx.publicKey index = some nonce → tx.nonce.nonce ≤ nonce

theorem Spent.congr (h : Spent e tx) (hkeys : e'.accessKeys = e.accessKeys)
    (hnonces : e'.gasKeyNonces = e.gasKeyNonces) : Spent e' tx := by
  constructor
  · intro hindex key hkey
    rw [Entry.getAccessKey, hkeys] at hkey
    exact h.regular hindex key hkey
  · rw [hnonces]
    exact h.gasKey

theorem Spent.setAccessKey (h : Spent e tx) (hkey : tx.publicKey = pk →
      tx.nonce.nonceIndex = none → key.gasKeyInfo = none → tx.nonce.nonce ≤ key.nonce) :
    Spent (e.setAccessKey pk key) tx := by
  refine ⟨fun hindex stored hstored hinfo => ?_, h.gasKey⟩
  rw [Entry.getAccessKey_setAccessKey] at hstored
  split_ifs at hstored with hpk
  · cases hstored
    exact hkey hpk hindex hinfo
  · exact h.regular hindex stored hstored hinfo

theorem Spent.removeAccessKey (h : Spent e tx) : Spent (e.removeAccessKey pk) tx := by
  refine ⟨fun hindex stored hstored hinfo => ?_, h.gasKey⟩
  rw [Entry.getAccessKey_removeAccessKey] at hstored
  split_ifs at hstored
  exact h.regular hindex stored hstored hinfo

theorem Spent.setGasKeyNonce {index : NonceIndex} (h : Spent e tx)
    (hnonce : tx.publicKey = pk → tx.nonce.nonceIndex = some index → ∀ n, nonce = some n →
      tx.nonce.nonce ≤ n) : Spent (e.setGasKeyNonce pk index nonce) tx := by
  refine ⟨h.regular, fun i hindex n hn => ?_⟩
  simp only [Entry.setGasKeyNonce] at hn
  split_ifs at hn with hsame
  · exact hnonce hsame.1 (hsame.2 ▸ hindex) n hn
  · exact h.gasKey i hindex n hn

theorem Spent.setGasKeyNonces {count : Nat} (h : Spent e tx)
    (hnonce : tx.publicKey = pk → ∀ n, nonce = some n → tx.nonce.nonce ≤ n) :
    Spent (BitInfinity.setGasKeyNonces e pk count nonce) tx := by
  unfold BitInfinity.setGasKeyNonces
  induction List.range count generalizing e with
  | nil => exact h
  | cons i indices ih => exact ih (h.setGasKeyNonce fun hpk _ => hnonce hpk)

/-! ## Charges -/

theorem Verified.not_spent
    (h : Verified (e.gasKeyNonces tx.publicKey) acc key tx cost paid result key')
    (hkey : e.getAccessKey tx.publicKey = some key) : ¬ Spent e tx := by
  intro hspent
  have huse := h.use
  generalize result.accessKeyUpdate = update at huse
  cases huse with
  | regular allowance hindex hinfo hnonce =>
    exact absurd hnonce (Nat.not_lt.mpr (hspent.regular hindex key hkey hinfo))
  | gasKey balance hindex hinfo hlt hcurrent hnonce =>
    exact absurd hnonce (Nat.not_lt.mpr (hspent.gasKey _ hindex _ hcurrent))

theorem Verified.charge_cases
    (h : Verified (e.gasKeyNonces tx.publicKey) acc key tx cost paid result key') :
    (tx.nonce.nonceIndex = none ∧ key.gasKeyInfo = none ∧ key.nonce < tx.nonce.nonce ∧
      (result.applyAccessKey key').nonce = tx.nonce.nonce ∧
      e.charge tx.publicKey acc key' result =
        (e.setAccount (some (result.applyAccount acc))).setAccessKey tx.publicKey
          (result.applyAccessKey key')) ∨
    ∃ index current, tx.nonce.nonceIndex = some index ∧
      (result.applyAccessKey key').gasKeyInfo ≠ none ∧
      e.gasKeyNonces tx.publicKey index = some current ∧ current < tx.nonce.nonce ∧
      e.charge tx.publicKey acc key' result =
        ((e.setAccount (some (result.applyAccount acc))).setGasKeyNonce tx.publicKey index
          (some tx.nonce.nonce)).setAccessKey tx.publicKey (result.applyAccessKey key') := by
  have hshape := h.sameShape.2
  have huse := h.use
  unfold Entry.charge VerificationResult.gasKeyNonceUpdate
  generalize hupdate : result.accessKeyUpdate = update at huse
  cases huse with
  | regular allowance hindex hinfo hnonce =>
    refine .inl ⟨hindex, hinfo, hnonce, ?_, rfl⟩
    cases allowance <;> simp [VerificationResult.applyAccessKey, hupdate, AccessKey.setNonce]
  | gasKey balance hindex hinfo hlt hcurrent hnonce =>
    refine .inr ⟨_, _, hindex, fun hnone => ?_, hcurrent, hnonce, rfl⟩
    simp [hnone, hinfo] at hshape

theorem Spent.charge (h : Spent e tx)
    (hverified : Verified (e.gasKeyNonces tx'.publicKey) acc key tx' cost paid result key')
    (hkey : e.getAccessKey tx'.publicKey = some key) :
    Spent (e.charge tx'.publicKey acc key' result) tx := by
  have hacc : Spent (e.setAccount (some (result.applyAccount acc))) tx := h.congr rfl rfl
  rcases hverified.charge_cases with ⟨-, hinfo, hlt, hnonce, hcharge⟩ |
    ⟨index, current, hindex, hinfo, hcurrent, hlt, hcharge⟩
  · rw [hcharge]
    refine hacc.setAccessKey fun hpk hindex _ => ?_
    have hle := h.regular hindex key (hpk ▸ hkey) hinfo
    rw [hnonce]
    exact hle.trans hlt.le
  · rw [hcharge]
    refine (hacc.setGasKeyNonce ?_).setAccessKey fun _ _ hnone => absurd hnone hinfo
    rintro hpk hindex' n ⟨⟩
    exact (h.gasKey index hindex' current (hpk ▸ hcurrent)).trans hlt.le

theorem Verified.spent
    (h : Verified (e.gasKeyNonces tx.publicKey) acc key tx cost paid result key') :
    Spent (e.charge tx.publicKey acc key' result) tx := by
  rcases h.charge_cases with ⟨hindex, -, -, hnonce, hcharge⟩ |
    ⟨index, current, hindex, hinfo, -, -, hcharge⟩
  · rw [hcharge]
    refine ⟨fun _ stored hstored _ => ?_, fun i hi => ?_⟩
    · rw [Entry.getAccessKey_setAccessKey, if_pos rfl] at hstored
      cases hstored
      exact hnonce.ge
    · rw [hindex] at hi
      cases hi
  · rw [hcharge]
    refine ⟨fun hnone => ?_, fun i hi n hn => ?_⟩
    · rw [hindex] at hnone
      cases hnone
    · rw [hindex] at hi
      cases hi
      simp [Entry.setGasKeyNonce] at hn
      exact hn.le

/-! ## Steps -/

theorem EntryStep.spent (h : EntryStep E V config a e event e')
    (hbtc : isBitcoinAddress E.toCrypto a = true) (hspent : Spent e tx)
    (hnew : ∀ pk nonce, event.newKey = some (pk, nonce) → tx.publicKey = pk →
      tx.nonce.nonce ≤ nonce) : Spent e' tx := by
  cases h with
  | receive amount hacc hkey =>
    cases hkey with
    | refl => exact hspent.congr rfl rfl
    | update key' hkey hshape hnonce =>
      refine .congr (hspent.setAccessKey fun hpk hindex hinfo => ?_) rfl rfl
      have hold := hspent.regular hindex _ (hpk ▸ hkey) (by simpa [hinfo] using hshape.2.symm)
      exact hold.trans hnonce
  | restake amount locked hacc hle | sweep amount hacc hrecord hfloor | create amount hnone
  | createWithCode amount hash usage code hnone htype husage
  | setContract contract usage code hacc hcontract husage
  | call hacc hcontract haccount hview hrun | stateInit acc data code hdet hcontract hnone husage
  | burn => exact hspent.congr rfl rfl
  | register => exact hspent.setAccessKey fun hpk _ _ => hnew _ _ rfl hpk
  | accept as tx' hsigner hacc hkey hverified =>
    rw [← Entry.schedule_gasKeyNonces e] at hverified
    rw [← Entry.schedule_getAccessKey e] at hkey
    exact (hspent.congr (Entry.schedule_accessKeys ..)
      (Entry.schedule_gasKeyNonces ..)).charge hverified hkey
  | drop => exact hspent.congr (Entry.schedule_accessKeys ..) (Entry.schedule_gasKeyNonces ..)
  | payGas tx' hsigner hacc hkey hverified => exact hspent.charge hverified hkey
  | delegate epochHeight actions nonce hacc hrecord hunlocked hkey hnonce =>
    refine hspent.setAccessKey fun hpk hindex hinfo => ?_
    have hold := hspent.regular hindex _ (by rw [hpk]; exact hkey) (by simpa using hinfo)
    exact hold.trans hnonce.le
  | createWithKey amount pk nonce hnone htype =>
    rw [isBitcoinAddress_iff.mp hbtc] at htype
    cases htype
  | addKey => exact .congr (hspent.setAccessKey fun hpk _ _ => hnew _ _ rfl hpk) rfl rfl
  | addGasKey nonce hacc habsent hinfo =>
    refine .congr (.setGasKeyNonces (hspent.setAccessKey fun _ _ hnone => ?_) ?_) rfl rfl
    · simp [hinfo] at hnone
    · rintro hpk n ⟨⟩
      exact hnew _ _ rfl hpk
  | deleteKey => exact .congr hspent.removeAccessKey rfl rfl
  | deleteGasKey =>
    refine .congr (.removeAccessKey (hspent.setGasKeyNonces ?_)) rfl rfl
    rintro - n ⟨⟩
  | delete => exact ⟨fun _ key hkey => by simp [Entry.getAccessKey, Entry.empty] at hkey,
      fun i _ n hn => by simp [Entry.empty] at hn⟩

theorem EntryStep.accept_spends {as : ApplyState}
    (h : EntryStep E V config a e (.accept as tx) e') :
    ¬ Spent e tx ∧ Spent e' tx ∧ (e'.getAccessKey tx.publicKey).isSome = true := by
  cases h with
  | accept as tx hsigner hacc hkey hverified =>
    refine ⟨hverified.not_spent hkey, ?_, ?_⟩
    · rw [← Entry.schedule_gasKeyNonces e] at hverified
      exact hverified.spent
    · simp [Entry.charge, Entry.getAccessKey_setAccessKey]

/-! ## Evolutions -/

variable {cause : EntryEvent → Prop} {accepted hist : List Transaction} {issued : List Receipt}

theorem Evolves.spent_of_quiet (h : Evolves E V config a cause accepted issued e e')
    (hbtc : isBitcoinAddress E.toCrypto a = true) (hspent : ∀ tx ∈ hist, Spent e tx)
    (hquiet : ∀ event, cause event → event.accepted = [])
    (hnew : ∀ event pk nonce, cause event → event.newKey = some (pk, nonce) →
      ∀ tx ∈ hist, tx.publicKey = pk → tx.nonce.nonce ≤ nonce) :
    accepted = [] ∧ ∀ tx ∈ hist, Spent e' tx := by
  obtain ⟨_, ⟨hnone, hspent'⟩, rfl, -⟩ := h.induct
    (fun past e => past.flatMap EntryEvent.accepted = [] ∧ ∀ tx ∈ hist, Spent e tx)
    ⟨rfl, hspent⟩ fun past e₁ event e₂ hcause hP hstep => ⟨by
      simp [hP.1, hquiet event hcause], fun tx htx => hstep.spent hbtc (hP.2 tx htx)
        fun pk nonce hpk => hnew event pk nonce hcause hpk tx htx⟩
  exact ⟨hnone, hspent'⟩

/-- Transactions accepted before, and those accepted in the current chunk.  The keys of the
latter are still there. -/
structure ReplayInv (hist current : List Transaction) (e : Entry) : Prop where
  nodup : (hist ++ current).Nodup
  spent : ∀ tx ∈ hist ++ current, Spent e tx
  keys : ∀ tx ∈ current, (e.getAccessKey tx.publicKey).isSome = true

theorem ReplayInv.step {current : List Transaction} (hinv : ReplayInv hist current e)
    (hstep : EntryStep E V config a e event e') (hbtc : isBitcoinAddress E.toCrypto a = true)
    (hkeeps : ∀ pk, ¬ event.Removes pk) (hnew : ∀ pk nonce, event.newKey = some (pk, nonce) →
      ∀ tx ∈ hist, tx.publicKey = pk → tx.nonce.nonce ≤ nonce) :
    ReplayInv hist (current ++ event.accepted) e' := by
  have hspent : ∀ tx ∈ hist ++ current, Spent e' tx := by
    intro tx htx
    refine hstep.spent hbtc (hinv.spent tx htx) fun pk nonce hpk htxpk => ?_
    rcases List.mem_append.mp htx with hhist | hcurrent
    · exact hnew pk nonce hpk tx hhist htxpk
    · simpa [htxpk, hstep.newKey_absent hpk] using hinv.keys tx hcurrent
  have hkeys : ∀ tx ∈ current, (e'.getAccessKey tx.publicKey).isSome = true :=
    fun tx htx => (hstep.isSome_iff hbtc).mpr (.inl ⟨hinv.keys tx htx, hkeeps _⟩)
  cases event with
  | accept as tx =>
    obtain ⟨hfresh, hspends, hkey⟩ := hstep.accept_spends
    have hnotMem : tx ∉ hist ++ current := fun hmem => hfresh (hinv.spent tx hmem)
    refine ⟨?_, ?_, ?_⟩
    · rw [← List.append_assoc]
      exact hinv.nodup.append (List.nodup_singleton tx) (List.disjoint_singleton.mpr hnotMem)
    · rw [← List.append_assoc]
      exact List.forall_mem_append.mpr ⟨hspent, List.forall_mem_singleton.mpr hspends⟩
    · exact List.forall_mem_append.mpr ⟨hkeys, List.forall_mem_singleton.mpr hkey⟩
  | _ => simpa only [EntryEvent.accepted, List.append_nil] using ⟨hinv.nodup, hspent, hkeys⟩

theorem Evolves.spent_of_transactions (h : Evolves E V config a cause accepted issued e e')
    (hbtc : isBitcoinAddress E.toCrypto a = true) (hspent : ∀ tx ∈ hist, Spent e tx)
    (hnodup : hist.Nodup) (hkeeps : ∀ event pk, cause event → ¬ event.Removes pk)
    (hnew : ∀ event pk nonce, cause event → event.newKey = some (pk, nonce) →
      ∀ tx ∈ hist, tx.publicKey = pk → tx.nonce.nonce ≤ nonce) :
    (hist ++ accepted).Nodup ∧ ∀ tx ∈ hist ++ accepted, Spent e' tx := by
  have hinit : ReplayInv hist [] e := ⟨by simpa using hnodup, by simpa using hspent, by simp⟩
  obtain ⟨_, hinv, rfl, -⟩ := h.induct
    (fun past => ReplayInv hist (past.flatMap EntryEvent.accepted)) hinit
    fun past e₁ event e₂ hcause hinv hstep => by
      simpa using hinv.step hstep hbtc (fun pk => hkeeps event pk hcause)
        fun pk nonce => hnew event pk nonce hcause
  exact ⟨hinv.nodup, hinv.spent⟩

end Spent

/-! ## Runs of the chain -/

section Runs

variable {E : Externals} {V : ContractRunner} {s s' : ChainState E} {event : ChainEvent}
  {events : List ChainEvent} {a : AccountId}

/-- The nonce has reached that of every transaction of the account under the key. -/
def ReachesNonces (past : List Transaction) (a : AccountId) (publicKey : PublicKey)
    (nonce : Nonce) : Prop :=
  ∀ tx ∈ past, tx.signerId = a → tx.publicKey = publicKey → tx.nonce.nonce ≤ nonce

/-- The step executes the receipt with this outcome. -/
def Executes (E : Externals) (V : ContractRunner) (s : ChainState E) (event : ChainEvent)
    (outcome : ReceiptOutcome) : Prop :=
  ∃ s', chainStep E V s event = some s' ∧ s'.log.receipts = s.log.receipts ++ [outcome]

/-- Every key that the step stores on a Bitcoin account, on its first use or by an `AddKey` of a
receipt of the account that succeeds, starts at a nonce that has reached those of all
transactions accepted before. -/
def StartsKeysAhead (E : Externals) (V : ContractRunner) (s : ChainState E)
    (event : ChainEvent) : Prop :=
  match event with
  | .transactions as txs => ∀ p item publicKey nonce,
      (p, item) ∈ transactionTrace as s.trie txs → Registers as p item publicKey nonce →
      ReachesNonces (acceptedTransactions s.log.transactions) item.1.transaction.signerId
        publicKey nonce
  | .receipt as _ => ∀ outcome data r publicKey key, Executes E V s event outcome →
      outcome.status = .ok data →
      isBitcoinAddress E.toCrypto outcome.receipt.receiverId = true →
      outcome.receipt.predecessorId = outcome.receipt.receiverId →
      outcome.receipt.actionReceipt? = some r → .basic (.addKey publicKey key) ∈ r.actions →
      ReachesNonces (acceptedTransactions s.log.transactions) outcome.receipt.receiverId publicKey
        (initialNonceValue as.blockHeight)
  | _ => True

def AheadStep (E : Externals) (V : ContractRunner) (s : ChainState E) (event : ChainEvent)
    (s' : ChainState E) : Prop :=
  chainStep E V s event = some s' ∧ StartsKeysAhead E V s event

/-- The accepted transactions of the account are spent. -/
def AllSpent (s : ChainState E) (a : AccountId) : Prop :=
  ((acceptedTransactions s.log.transactions).filter (·.signerId == a)).Nodup ∧
    ∀ tx ∈ (acceptedTransactions s.log.transactions).filter (·.signerId == a),
      Spent (s.trie.entries a) tx

theorem ChainCause.accepted_eq_nil {step : EntryEvent} (h : ChainCause s event s' a step)
    (hevent : ∀ as txs, event ≠ .transactions as txs) : step.accepted = [] := by
  cases step with
  | accept =>
    cases event with
    | transactions as' txs => exact absurd rfl (hevent as' txs)
    | receipt =>
      obtain ⟨-, _, _, _, -, -, -, -, -, hstep | ⟨-, _, -, hcause⟩⟩ := h
      · cases hstep
      · exact hcause.elim
    | _ => exact h.elim
  | _ => rfl

theorem ChainCause.reachesNonces {step : EntryEvent} {publicKey : PublicKey} {nonce : Nonce}
    (h : ChainCause s event s' a step) (hstep : AheadStep E V s event s')
    (hnew : step.newKey = some (publicKey, nonce)) (hbtc : isBitcoinAddress E.toCrypto a = true) :
    ReachesNonces (acceptedTransactions s.log.transactions) a publicKey nonce := by
  cases event with
  | transactions =>
    obtain ⟨-, p, item, _, hmem, -, hcause⟩ := h
    obtain ⟨rfl, hregisters⟩ := hcause.registers hnew
    exact hstep.2 p item publicKey nonce hmem hregisters
  | receipt =>
    obtain ⟨-, receipt, r, outcome, -, hactions, rfl, rfl, hlog, hcause⟩ := h
    obtain ⟨hself, rfl, ⟨data, hstatus⟩, key, hmem⟩ := hcause.addsKey hnew hbtc
    exact hstep.2 outcome data r publicKey key ⟨s', hstep.1, hlog⟩ hstatus hbtc hself hactions hmem
  | validatorAccounts update => cases step <;> cases hnew <;> exact h.elim
  | yieldTimeout => exact h.elim
  | nextBlock => exact h.elim

theorem aheadStep_allSpent (h : AheadStep E V s event s')
    (hbtc : isBitcoinAddress E.toCrypto a = true) (hspent : AllSpent s a) : AllSpent s' a := by
  obtain ⟨_, hconfig⟩ := event.exists_usesConfig
  obtain ⟨_, _, haccepted, -, hev⟩ := chainStep_effect h.1 hconfig a
  have hnew : ∀ step publicKey nonce, ChainCause s event s' a step →
      step.newKey = some (publicKey, nonce) →
      ∀ tx ∈ (acceptedTransactions s.log.transactions).filter (·.signerId == a),
        tx.publicKey = publicKey → tx.nonce.nonce ≤ nonce := by
    intro step publicKey nonce hcause hstep tx htx
    obtain ⟨htx, hsigner⟩ := List.mem_filter.mp htx
    exact hcause.reachesNonces h hstep hbtc tx htx (by simpa using hsigner)
  unfold AllSpent
  rw [haccepted, List.filter_append]
  by_cases hevent : ∃ as txs, event = .transactions as txs
  · obtain ⟨as, txs, rfl⟩ := hevent
    exact hev.spent_of_transactions hbtc hspent.2 hspent.1
      (fun step pk ⟨_, _, _, _, _, _, hcause⟩ => TxCause.not_removes hcause) hnew
  · obtain ⟨hnil, hspent'⟩ := hev.spent_of_quiet hbtc hspent.2
      (fun step hcause => hcause.accepted_eq_nil fun as txs h => hevent ⟨as, txs, h⟩) hnew
    rw [hnil, List.append_nil]
    exact ⟨hspent.1, hspent'⟩

theorem nodup_of_filter_signer {txs : List Transaction} {good : AccountId → Bool}
    (h : ∀ a, good a = true → (txs.filter (·.signerId == a)).Nodup) :
    (txs.filter fun tx => good tx.signerId).Nodup := by
  rw [List.nodup_iff_count_le_one]
  intro tx
  cases hgood : good tx.signerId with
  | false =>
    have hnotMem : tx ∉ txs.filter fun tx => good tx.signerId := by simp [hgood]
    rw [List.count_eq_zero_of_not_mem hnotMem]
    exact Nat.zero_le 1
  | true =>
    have hone := List.nodup_iff_count_le_one.mp (h tx.signerId hgood) tx
    rw [List.count_filter (by simp)] at hone
    rwa [List.count_filter (p := fun tx : Transaction => good tx.signerId) hgood]

/-- While new keys start ahead of the accepted transactions, no transaction of a Bitcoin account
succeeds twice. -/
theorem bitcoin_transactions_once (hrun : Run (AheadStep E V) s events s')
    (hlog : s.log.transactions = []) :
    ((acceptedTransactions s'.log.transactions).filter fun tx =>
      isBitcoinAddress E.toCrypto tx.signerId).Nodup := by
  refine nodup_of_filter_signer fun a hbtc => ?_
  have hspent : AllSpent s' a := Run.invariant (fun _ x => AllSpent x a) hrun
    (by simp [AllSpent, hlog, acceptedTransactions])
    fun _ x event y _ hspent hstep => aheadStep_allSpent hstep hbtc hspent
  exact hspent.1

end Runs

/-! ## A transaction that deletes its own key -/

def sampleBitcoinState (pending : List Receipt) : ChainState .sample :=
  .sample (Trie.empty.setAccount sampleAddress ⟨10000, 0, .none, 100⟩) pending

def sampleDeletion : SignedTransaction :=
  sampleTransaction sampleAddress sampleAddress 4000001 [.basic (.deleteKey (.secp256k1 sampleKey))]

def sampleDeletionReceipt : Receipt :=
  receiptFromTx .sample (.sample 5 0) sampleDeletion.transaction
    ⟨2, 2, 1, 2, 9996, .regular 4000001 none⟩

def sampleLater : SignedTransaction :=
  sampleTransaction sampleAddress sampleAddress 5000001 [.basic (.transfer 1)]

theorem startsKeysAhead_deletionReceipt {s s' : ChainState .sample}
    (hstep : chainStep .sample .sample s
      (.receipt (.sample 5 0) sampleDeletionReceipt) = some s')
    (hlog : s'.log.receipts.map ReceiptOutcome.receipt = [sampleDeletionReceipt]) :
    StartsKeysAhead .sample .sample s
      (.receipt (.sample 5 0) sampleDeletionReceipt) := by
  rintro outcome data r publicKey key ⟨s'', hstep', hlog'⟩ - - - hr hmem
  cases hstep.symm.trans hstep'
  have houtcome : outcome.receipt = sampleDeletionReceipt := by
    simp only [hlog', List.map_append, List.map_cons, List.map_nil] at hlog
    exact List.singleton_inj.mp (List.append_inj' (hlog.trans (List.nil_append _).symm) rfl).2
  rw [houtcome] at hr
  cases hr
  simp [sampleDeletion, sampleTransaction] at hmem

theorem startsKeysAhead_singleton {s : ChainState .sample} {as : ApplyState}
    {tx : SignedTransaction} (publicKey : PublicKey)
    (hkey : recoveredKey .sample tx = some publicKey)
    (hnonce : (s.trie.getAccessKey tx.transaction.signerId publicKey).isSome = true ∨
      ReachesNonces (acceptedTransactions s.log.transactions) tx.transaction.signerId publicKey
        (if publicKey = tx.transaction.publicKey then
          firstUseNonceFloor as.blockHeight tx.transaction.nonce.nonce else 0)) :
    StartsKeysAhead .sample .sample s (.transactions as [(tx, true)]) := by
  intro p item publicKey' nonce hmem hregisters
  rw [transactionTrace, foldTrace_singleton] at hmem
  cases List.mem_singleton.mp hmem
  cases hkey.symm.trans hregisters.recovered
  rcases hnonce with hsome | hreaches
  · rw [show s.trie.getAccessKey _ _ = none from hregisters.absent] at hsome
    cases hsome
  · rwa [hregisters.nonce_eq]

/-- After a later transaction has stored the key again, the one that deleted it is rejected. -/
theorem bitcoin_transactions_once_later :
    ∃ s', Run (AheadStep .sample .sample) (sampleBitcoinState [])
        [.transactions (.sample 5 0) [(sampleDeletion, true)],
          .receipt (.sample 5 0) sampleDeletionReceipt,
          .nextBlock 7 0,
          .transactions (.sample 7 0) [(sampleLater, true)],
          .transactions (.sample 7 0) [(sampleDeletion, true)]] s' ∧
      acceptedTransactions s'.log.transactions =
        [sampleDeletion.transaction, sampleLater.transaction] ∧
      ((acceptedTransactions s'.log.transactions).filter fun tx =>
        isBitcoinAddress Externals.sample.toCrypto tx.signerId).Nodup := by
  have hobserve : ((chainStep .sample .sample (sampleBitcoinState [])
      (.transactions (.sample 5 0) [(sampleDeletion, true)])).bind fun s₁ =>
    (chainStep .sample .sample s₁
      (.receipt (.sample 5 0) sampleDeletionReceipt)).bind fun s₂ =>
    (chainStep .sample .sample s₂ (.nextBlock 7 0)).bind fun s₃ =>
    (chainStep .sample .sample s₃
      (.transactions (.sample 7 0) [(sampleLater, true)])).bind fun s₄ =>
    (chainStep .sample .sample s₄
      (.transactions (.sample 7 0) [(sampleDeletion, true)])).map fun s₅ =>
        (s₂.log.receipts.map ReceiptOutcome.receipt, acceptedTransactions s₃.log.transactions,
          (s₄.trie.getAccessKey sampleAddress (.secp256k1 sampleKey)).isSome,
          acceptedTransactions s₅.log.transactions)) =
      some ([sampleDeletionReceipt], [sampleDeletion.transaction], true,
        [sampleDeletion.transaction, sampleLater.transaction]) := by decide +kernel
  obtain ⟨s₁, h₁, hrest⟩ := Option.bind_eq_some_iff.mp hobserve
  obtain ⟨s₂, h₂, hrest⟩ := Option.bind_eq_some_iff.mp hrest
  obtain ⟨s₃, h₃, hrest⟩ := Option.bind_eq_some_iff.mp hrest
  obtain ⟨s₄, h₄, hrest⟩ := Option.bind_eq_some_iff.mp hrest
  obtain ⟨s₅, h₅, hpair⟩ := Option.map_eq_some_iff.mp hrest
  simp only [Prod.mk.injEq] at hpair
  obtain ⟨hreceipts, hpast, hkey, haccepted⟩ := hpair
  have hrun : Run (AheadStep .sample .sample) (sampleBitcoinState []) _ s₅ :=
    (((((Run.single ⟨h₁, fun _ _ _ _ _ _ _ htx => (by cases htx)⟩).snoc
      ⟨h₂, startsKeysAhead_deletionReceipt h₂ hreceipts⟩).snoc ⟨h₃, trivial⟩).snoc
      ⟨h₄, startsKeysAhead_singleton (.secp256k1 sampleKey) (by decide +kernel) (.inr (by
        rw [hpast]
        unfold ReachesNonces
        decide +kernel))⟩).snoc
      ⟨h₅, startsKeysAhead_singleton _ (by decide +kernel) (.inl hkey)⟩)
  exact ⟨s₅, hrun, haccepted, bitcoin_transactions_once hrun rfl⟩

/-- Once its key is deleted, the transaction is accepted again in the next block. -/
theorem bitcoin_transaction_replayed :
    ∃ s', ChainRun .sample .sample (sampleBitcoinState [])
        [.transactions (.sample 5 0) [(sampleDeletion, true)],
          .receipt (.sample 5 0) sampleDeletionReceipt,
          .nextBlock 6 0,
          .transactions (.sample 6 0) [(sampleDeletion, true)]] s' ∧
      ¬ ((acceptedTransactions s'.log.transactions).filter fun tx =>
        isBitcoinAddress Externals.sample.toCrypto tx.signerId).Nodup := by
  have hobserve : ([.transactions (.sample 5 0) [(sampleDeletion, true)],
      .receipt (.sample 5 0) sampleDeletionReceipt, .nextBlock 6 0,
      .transactions (.sample 6 0) [(sampleDeletion, true)]].foldlM
        (chainStep .sample .sample) (sampleBitcoinState [])).map
        (fun s => (acceptedTransactions s.log.transactions).filter fun tx =>
          isBitcoinAddress Externals.sample.toCrypto tx.signerId) =
      some [sampleDeletion.transaction, sampleDeletion.transaction] := by
    decide +kernel
  obtain ⟨s', hfold, hs'⟩ := Option.map_eq_some_iff.mp hobserve
  refine ⟨s', .of_foldlM hfold, ?_⟩
  rw [hs']
  simp

end BitInfinity
