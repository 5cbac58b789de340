import BitInfinity.Bitcoin.Replay

/-!
# Failed transactions

The loop stores the key of a Bitcoin account before it checks the transaction.  A transaction
that fails afterwards leaves that key behind; no other failed transaction leaves a trace.
-/

namespace BitInfinity

open Foundation

section Failed

variable {E : Externals} {as : ApplyState} {t : Trie E} {txs : List (SignedTransaction × Bool)}
  {p p' q q' : ProcessingState E} {item : SignedTransaction × Bool} {tx : SignedTransaction}

def TransactionEnd.isFailed : TransactionEnd → Bool
  | .failed _ => true
  | _ => false

/-- The transactions of the list that the log does not record as failed. -/
def unfailedTransactions (txs : List (SignedTransaction × Bool))
    (log : List (SignedTransaction × TransactionEnd)) : List (SignedTransaction × Bool) :=
  (txs.zip log).filterMap fun entry => if entry.2.2.isFailed then none else some entry.1

/-- Failed transactions leave the trie as it was, and the list without them leads to the same
state. -/
def FailuresHaveNoEffect (as : ApplyState) (t : Trie E)
    (txs : List (SignedTransaction × Bool)) : Prop :=
  (∀ q item q' e, (q, item) ∈ transactionTrace as t txs → processTransaction as q item = .ok q' →
    q'.log = q.log ++ [(item.1, .failed e)] → q'.trie = q.trie) ∧
  ∀ p, processTransactions as t txs = .ok p →
    ∃ p', processTransactions as t (unfailedTransactions txs p.log) = .ok p' ∧
      p'.trie = p.trie ∧ p'.committed = p.committed

/-- The transaction is rejected after the recovered key was looked up: the key is not the one it
names, or verification or the Patoshi guard rejects it. -/
def RejectedAfterRecovery (as : ApplyState) (q : ProcessingState E) (tx : SignedTransaction)
    (recovered : PublicKey) : Prop :=
  recovered ≠ tx.transaction.publicKey ∨
    ∃ account cost key q' e, ∃ h : Loaded as q tx account cost key q', h.Rejects e

/-- Every transaction that stores a key on its first use goes on to pass its checks. -/
def RegistrationsPass (as : ApplyState) (t : Trie E) (txs : List (SignedTransaction × Bool)) :
    Prop :=
  ∀ q item publicKey nonce, (q, item) ∈ transactionTrace as t txs →
    Registers as q item publicKey nonce → ¬ RejectedAfterRecovery as q item.1 publicKey

/-! ## The log plays no part -/

def ProcessingState.withLog (p : ProcessingState E)
    (log : List (SignedTransaction × TransactionEnd)) : ProcessingState E :=
  { p with log }

def ProcessingState.after (log : List (SignedTransaction × TransactionEnd))
    (p : ProcessingState E) : ProcessingState E :=
  p.withLog (log ++ p.log)

variable {log : List (SignedTransaction × TransactionEnd)}

theorem ProcessingState.after_finishWith (p : ProcessingState E) (tx : SignedTransaction)
    (fate : TransactionEnd) :
    (p.after log).finishWith tx fate = (p.finishWith tx fate).after log := by
  simp [after, withLog, finishWith]

theorem ProcessingState.after_fail (p : ProcessingState E) (tx : SignedTransaction)
    (e : InvalidTxError) : (p.after log).fail tx e = (p.fail tx e).after log :=
  after_finishWith p tx (.failed e)

theorem emitReceipt_after (p : ProcessingState E) (receipt : Receipt) :
    emitReceipt (p.after log) receipt = (emitReceipt p receipt).after log := by
  unfold emitReceipt
  split <;> rfl

theorem scheduleUnlock_after (p : ProcessingState E) (a : AccountId)
    (scheduled : Option PatoshiRecord) :
    scheduleUnlock (p.after log) a scheduled = (scheduleUnlock p a scheduled).after log := by
  cases scheduled <;> rfl

theorem applyCharge_after (p : ProcessingState E) (tx : Transaction) (account : Account)
    (key : AccessKey) (result : VerificationResult) :
    applyCharge (p.after log) tx account key result =
      (applyCharge p tx account key result).after log := by
  cases result.gasKeyNonceUpdate <;> rfl

theorem settle_after (p : ProcessingState E) (tx : SignedTransaction) (account : Account)
    (key : AccessKey) (result : VerificationResult) (gas : Gas) (tokens : Balance)
    (fate : TransactionEnd) :
    settle (p.after log) tx account key result gas tokens fate =
      (settle p tx account key result gas tokens fate).map (·.after log) := by
  rw [settle_eq, settle_eq]
  have hburnt : (p.after log).txBurntAmount = p.txBurntAmount := rfl
  have hgas : (p.after log).totalGas = p.totalGas := rfl
  rw [hburnt, hgas]
  split_ifs
  · unfold charged
    have hstats : ({ p.after log with
        txBurntAmount := p.txBurntAmount + tokens, totalGas := p.totalGas + gas } :
          ProcessingState E) = .after log { p with
        txBurntAmount := p.txBurntAmount + tokens, totalGas := p.totalGas + gas } := rfl
    rw [hburnt, hgas, hstats, applyCharge_after, ProcessingState.after_finishWith]
    rfl
  · rfl
  · rw [ProcessingState.after_finishWith]
    rfl

theorem resolveAccessKey_after (p : ProcessingState E) (tx : SignedTransaction) :
    resolveAccessKey as (p.after log) tx =
      ((resolveAccessKey as p tx).1, (resolveAccessKey as p tx).2.after log) := by
  have hcache : (p.after log).cache = p.cache := rfl
  have htrie : (p.after log).trie = p.trie := rfl
  simp only [resolveAccessKey, hcache, htrie]
  cases p.cache.accessKeys tx.transaction.signerId tx.transaction.publicKey with
  | some key => rfl
  | none =>
    by_cases hbtc : isBitcoinAddress E.toCrypto tx.transaction.signerId = true
    · simp only [hbtc, if_true]
      cases recoveredKey E tx with
      | none => rfl
      | some recovered =>
        by_cases hpk : recovered = tx.transaction.publicKey
        · simp only [hpk, if_true]
          rfl
        · simp only [hpk, if_false]
          rfl
    · simp only [hbtc, Bool.false_eq_true, if_false]

theorem applyVerdict_after (p : ProcessingState E) (tx : SignedTransaction) (account : Account)
    (cost : TransactionCost) (verdict : TxVerdict) (key : AccessKey) :
    applyVerdict as (p.after log) tx account cost verdict key =
      (applyVerdict as p tx account cost verdict key).map (·.after log) := by
  cases verdict with
  | failed e => exact congrArg Except.ok (ProcessingState.after_fail p tx e)
  | depositFailed result error =>
    unfold applyVerdict
    cases okOr (checkedAdd 64 cost.gasBurnt cost.gasRemaining)
        (RuntimeError.unexpectedIntegerOverflow "IntegerOverflowError") with
    | error e => rfl
    | ok totalGas => exact settle_after p tx account key result _ _ _
  | success result =>
    have htrie : (p.after log).trie = p.trie := rfl
    simp only [applyVerdict, htrie]
    cases guardTransaction as p.trie tx.transaction account result with
    | error e => rfl
    | ok answer =>
      cases answer with
      | error e => exact congrArg Except.ok (ProcessingState.after_fail p tx e)
      | ok scheduled =>
        simp only [ok_bind, acceptTransaction]
        rw [scheduleUnlock_after, emitReceipt_after, settle_after]

theorem processTransaction_after (p : ProcessingState E) (item : SignedTransaction × Bool) :
    processTransaction as (p.after log) item =
      (processTransaction as p item).map (·.after log) := by
  obtain ⟨tx, nonExpired⟩ := item
  have hcache : (p.after log).cache = p.cache := rfl
  simp only [processTransaction, hcache]
  cases validationError E as tx nonExpired with
  | some e => exact congrArg Except.ok (ProcessingState.after_fail p tx e)
  | none =>
    cases txCost E.toCrypto as.config tx.transaction as.gasPrice with
    | error e => exact congrArg Except.ok (ProcessingState.after_fail p tx _)
    | ok cost =>
      cases p.cache.accounts tx.transaction.signerId with
      | none => exact congrArg Except.ok (ProcessingState.after_fail p tx _)
      | some account =>
        simp only [chargeTransaction, loadAccessKey_recoverAccessKey, resolveAccessKey_after]
        cases (resolveAccessKey as p tx).1 with
        | error e => exact congrArg Except.ok (ProcessingState.after_fail _ tx e)
        | ok key => exact applyVerdict_after _ tx account cost _ _

theorem log_resolveAccessKey {key : AccessKey} (h : resolveAccessKey as p tx = (.ok key, q)) :
    q.log = p.log := by
  rcases resolveAccessKey_eq_ok h with ⟨-, rfl⟩ | ⟨-, -, -, rfl⟩ <;> rfl

theorem log_charged (p : ProcessingState E) (tx : SignedTransaction) (account : Account)
    (key : AccessKey) (result : VerificationResult) (gas : Gas) (tokens : Balance)
    (fate : TransactionEnd) :
    (charged p tx account key result gas tokens fate).log = p.log ++ [(tx, fate)] := by
  simp [charged, applyCharge, ProcessingState.finishWith]

theorem log_settle {account : Account} {key : AccessKey} {result : VerificationResult} {gas : Gas}
    {tokens : Balance} {fate : TransactionEnd} (hfate : fate.isFailed = false)
    (h : settle p tx account key result gas tokens fate = .ok p') :
    ∃ fate, fate.isFailed = false ∧ p'.log = p.log ++ [(tx, fate)] := by
  rcases settle_cases h with rfl | rfl
  · exact ⟨.dropped, rfl, rfl⟩
  · exact ⟨fate, hfate, log_charged ..⟩

theorem TxStep.log_eq (h : TxStep as p item p') : ∃ fate, p'.log = p.log ++ [(item.1, fate)] := by
  cases h with
  | rejected e => exact ⟨.failed e, rfl⟩
  | foreignKey => exact ⟨.failed .invalidSignature, rfl⟩
  | failed hlive hl e =>
    refine ⟨.failed e, ?_⟩
    rw [← log_resolveAccessKey hl.resolve_eq]
    rfl
  | depositFailed hlive hl hverdict hsettle =>
    obtain ⟨fate, -, hlog⟩ := log_settle rfl hsettle
    exact ⟨fate, by rw [hlog, log_resolveAccessKey hl.resolve_eq]⟩
  | accepted hlive hl hverdict hguard haccept =>
    obtain ⟨fate, -, hlog⟩ := log_settle rfl haccept
    refine ⟨fate, ?_⟩
    rw [hlog, emitReceipt_log, scheduleUnlock_log, log_resolveAccessKey hl.resolve_eq]

/-! ## Keys that the cache misses -/

/-- Every stored key is in the cache. -/
def TxCache.Complete (c : TxCache) (t : Trie E) : Prop :=
  ∀ a pk, c.accessKeys a pk = none → t.getAccessKey a pk = none

namespace TxCache.Complete

variable {c : TxCache}

theorem setAccessKey (h : c.Complete t) (a : AccountId) (pk : PublicKey) (key : AccessKey) :
    (c.setAccessKey a pk (some key)).Complete (t.setAccessKey a pk key) := by
  intro b pk' hnone
  rw [Trie.getAccessKey_setAccessKey]
  simp only [TxCache.setAccessKey] at hnone
  split
  · rename_i hsame
    rw [if_pos hsame] at hnone
    cases hnone
  · rename_i hother
    rw [if_neg hother] at hnone
    exact h b pk' hnone

theorem setAccount (h : c.Complete t) (a : AccountId) (account : Account) :
    (c.setAccount a account).Complete (t.setAccount a account) := by
  intro b pk hnone
  rw [Trie.getAccessKey_setAccount]
  exact h b pk hnone

theorem setGasKeyNonce (h : c.Complete t) (a : AccountId) (pk : PublicKey) (i : NonceIndex)
    (n : Nonce) : (c.setGasKeyNonce a pk i n).Complete (t.setGasKeyNonce a pk i n) := by
  intro b pk' hnone
  rw [Trie.getAccessKey_setGasKeyNonce]
  exact h b pk' hnone

end TxCache.Complete

theorem pairedWrites_complete : PairedWrites (E := E) TxCache.Complete :=
  ⟨fun h => h.setAccount, fun h => h.setAccessKey, fun h => h.setGasKeyNonce,
    fun h a _ b pk hnone => (Trie.getAccessKey_setContractData _ a b _ _ _).trans (h b pk hnone)⟩

/-- When a registering transaction is not rejected, the cache stays complete and a rejected
transaction changes the log alone. -/
theorem TxStep.failed_eq (h : TxStep as q item q') (hcomplete : q.cache.Complete q.trie)
    (hpass : ∀ publicKey nonce, Registers as q item publicKey nonce →
      ¬ RejectedAfterRecovery as q item.1 publicKey) :
    q'.cache.Complete q'.trie ∧ ∀ e, q'.log = q.log ++ [(item.1, .failed e)] →
      q' = q.fail item.1 e := by
  have hlast : ∀ e fate, q.log ++ [(item.1, fate)] = q.log ++ [(item.1, .failed e)] →
      fate = .failed e := by
    intro e fate heq
    simpa using heq
  cases h with
  | rejected e =>
    refine ⟨hcomplete, fun e' hlog => ?_⟩
    cases hlast e' _ hlog
    rfl
  | @foreignKey recovered hlive hforeign =>
    have hsame : autoRegisterAccessKeyIfNeeded q.trie item.1.transaction.signerId recovered =
        q.trie := by
      unfold autoRegisterAccessKeyIfNeeded
      split
      · rfl
      · rename_i habsent
        refine absurd (.inl hforeign.ne_publicKey) (hpass _ 0 ⟨hlive, hforeign.valid,
          hforeign.cost_isOk, hforeign.account_isSome, hforeign.cache_none,
          hforeign.recovered_eq, habsent, ?_⟩)
        rw [if_neg hforeign.ne_publicKey]
    rw [hsame]
    refine ⟨hcomplete, fun e hlog => ?_⟩
    cases hlast e _ hlog
    rfl
  | failed hlive hl e hrejects =>
    rcases resolveAccessKey_eq_ok hl.resolve_eq with ⟨-, rfl⟩ | ⟨huncached, hrec, rfl, rfl⟩
    · refine ⟨hcomplete, fun e' hlog => ?_⟩
      cases hlast e' _ hlog
      rfl
    · -- The key was stored on this use, so the transaction may not be rejected.
      have hregisters : Registers as q item item.1.transaction.publicKey
          (firstUseNonceFloor as.blockHeight item.1.transaction.nonce.nonce) :=
        ⟨hlive, hl.valid, ⟨_, hl.cost_eq⟩, ⟨_, hl.account_eq⟩, huncached, hrec,
          hcomplete _ _ huncached, by simp⟩
      exact absurd (.inr ⟨_, _, _, _, e, hl, hrejects⟩) (hpass _ _ hregisters)
  | depositFailed hlive hl hverdict hsettle =>
    have hq := pairedWrites_complete.resolve hcomplete hl.resolve_eq
    refine ⟨pairedWrites_complete.settle hq hsettle, fun e hlog => ?_⟩
    obtain ⟨fate, hfate, hlog'⟩ := log_settle rfl hsettle
    rw [log_resolveAccessKey hl.resolve_eq] at hlog'
    rw [hlast e fate (hlog'.symm.trans hlog)] at hfate
    cases hfate
  | accepted hlive hl hverdict hguard haccept =>
    have hq := pairedWrites_complete.resolve hcomplete hl.resolve_eq
    refine ⟨pairedWrites_complete.settle (by simpa using pairedWrites_complete.schedule hq _ _)
      haccept, fun e hlog => ?_⟩
    obtain ⟨fate, hfate, hlog'⟩ := log_settle rfl haccept
    rw [emitReceipt_log, scheduleUnlock_log, log_resolveAccessKey hl.resolve_eq] at hlog'
    rw [hlast e fate (hlog'.symm.trans hlog)] at hfate
    cases hfate

/-! ## Whole lists -/

theorem processTransaction_withLog (h : processTransaction as q item = .ok q') :
    ∃ fate, q'.log = q.log ++ [(item.1, fate)] ∧ ∀ log, processTransaction as (q.withLog log) item =
        .ok (q'.withLog (log ++ [(item.1, fate)])) := by
  obtain ⟨fate, hlog⟩ := (processTransaction_txStep h).log_eq
  refine ⟨fate, hlog, fun log => ?_⟩
  have hfront : ∀ front, (q.withLog []).after front = q.withLog front := by
    intro front
    simp [ProcessingState.after, ProcessingState.withLog]
  have hself : q.withLog q.log = q := rfl
  -- Run the body with an empty log; both runs are this one behind a log of their own.
  have hrun := @processTransaction_after E as q.log (q.withLog []) item
  rw [hfront, hself, h] at hrun
  cases hbase : processTransaction as (q.withLog []) item with
  | error e =>
    rw [hbase] at hrun
    cases hrun
  | ok r =>
    rw [hbase] at hrun
    obtain rfl : q' = r.after q.log := Except.ok.inj hrun
    have hr : r.log = [(item.1, fate)] := List.append_cancel_left hlog
    rw [← hfront log, processTransaction_after, hbase, ← hr]
    rfl

theorem foldlM_unfailed (hrun : txs.foldlM (processTransaction as) q = .ok p)
    (hfailed : ∀ q₁ item q₂ e, (q₁, item) ∈ foldTrace (processTransaction as) q txs →
      processTransaction as q₁ item = .ok q₂ → q₂.log = q₁.log ++ [(item.1, .failed e)] →
      q₂ = q₁.fail item.1 e) :
    ∃ entries, p.log = q.log ++ entries ∧ ∀ log, ∃ log',
      (unfailedTransactions txs entries).foldlM (processTransaction as) (q.withLog log) =
        .ok (p.withLog log') := by
  induction txs generalizing q with
  | nil =>
    obtain rfl : q = p := by simpa [pure, Except.pure] using hrun
    exact ⟨[], by simp, fun log => ⟨log, rfl⟩⟩
  | cons item txs ih =>
    obtain ⟨q', hstep, hrest⟩ := foldlM_cons_eq_ok.mp hrun
    obtain ⟨fate, hlog, hwith⟩ := processTransaction_withLog hstep
    obtain ⟨entries, hentries, hkept⟩ := ih hrest (fun q₁ item' q₂ e hmem =>
      hfailed q₁ item' q₂ e (by simp [foldTrace, hstep, hmem]))
    refine ⟨(item.1, fate) :: entries, by simp [hentries, hlog], fun log => ?_⟩
    cases fate with
    | failed e =>
      have hq' := hfailed q item q' e (by simp [foldTrace]) hstep hlog
      subst hq'
      exact hkept log
    | depositFailed | success | dropped =>
      obtain ⟨log', hlog'⟩ := hkept _
      exact ⟨log', foldlM_cons_eq_ok.mpr ⟨_, hwith log, hlog'⟩⟩

theorem Registers.trie_changed {publicKey : PublicKey} {nonce : Nonce}
    (h : Registers as q item publicKey nonce)
    (hrejected : RejectedAfterRecovery as q item.1 publicKey) :
    ∃ q' e, processTransaction as q item = .ok q' ∧ q'.log = q.log ++ [(item.1, .failed e)] ∧
      q'.trie ≠ q.trie := by
  obtain ⟨tx, live⟩ := item
  obtain rfl : live = true := h.live
  have hchanged : ∀ key, q.trie.setAccessKey tx.transaction.signerId publicKey key ≠ q.trie := by
    intro key heq
    have habsent := h.absent
    rw [← heq, Trie.getAccessKey_setAccessKey, if_pos ⟨rfl, rfl⟩] at habsent
    cases habsent
  rcases hrejected with hne | ⟨account, cost, key, q', e, hl, hrejects⟩
  · have hforeign : ForeignKey E as q tx publicKey :=
      ⟨h.valid, h.cost_isOk, h.account_isSome, h.uncached, h.recovered, hne⟩
    refine ⟨_, _, hforeign.processTransaction_eq, rfl, ?_⟩
    have hregistered : autoRegisterAccessKeyIfNeeded q.trie tx.transaction.signerId publicKey =
        q.trie.setAccessKey tx.transaction.signerId publicKey .fullAccess := by
      have habsent : q.trie.getAccessKey tx.transaction.signerId publicKey = none := h.absent
      simp [autoRegisterAccessKeyIfNeeded, habsent]
    intro heq
    exact hchanged _ (hregistered.symm.trans heq)
  · refine ⟨_, e, hrejects.processTransaction_eq, ?_, ?_⟩
    · rw [← log_resolveAccessKey hl.resolve_eq]
      rfl
    · rcases resolveAccessKey_eq_ok hl.resolve_eq with ⟨hcached, -⟩ | ⟨-, hrec, -, rfl⟩
      · have huncached := h.uncached
        rw [hcached] at huncached
        cases huncached
      · obtain rfl : publicKey = tx.transaction.publicKey :=
          Option.some.inj (h.recovered.symm.trans hrec)
        exact hchanged key

theorem failures_have_no_effect_iff (as : ApplyState) (t : Trie E)
    (txs : List (SignedTransaction × Bool)) :
    FailuresHaveNoEffect as t txs ↔ RegistrationsPass as t txs := by
  constructor
  · intro hframe q item publicKey nonce hmem hregisters hrejected
    obtain ⟨q', e, hstep, hlog, hchanged⟩ := hregisters.trie_changed hrejected
    exact hchanged (hframe.1 q item q' e hmem hstep hlog)
  · intro hpass
    have hcomplete : ∀ (q : ProcessingState E) item, (q, item) ∈ transactionTrace as t txs →
        q.cache.Complete q.trie := by
      refine foldTrace_invariant (fun q : ProcessingState E => q.cache.Complete q.trie)
        (fun a pk hnone => hnone) ?_
      intro q item q' hmem hq hstep
      exact ((processTransaction_txStep hstep).failed_eq hq
        (fun publicKey nonce => hpass q item publicKey nonce hmem)).1
    have hfailed : ∀ q item q' e, (q, item) ∈ transactionTrace as t txs →
        processTransaction as q item = .ok q' → q'.log = q.log ++ [(item.1, .failed e)] →
        q' = q.fail item.1 e := by
      intro q item q' e hmem hstep
      exact ((processTransaction_txStep hstep).failed_eq (hcomplete q item hmem)
        (fun publicKey nonce => hpass q item publicKey nonce hmem)).2 e
    constructor
    · intro q item q' e hmem hstep hlog
      rw [hfailed q item q' e hmem hstep hlog]
      rfl
    · intro p hrun
      obtain ⟨entries, hlog, hkept⟩ := foldlM_unfailed hrun hfailed
      obtain ⟨log', hkept⟩ := hkept []
      have hentries : p.log = entries := hlog
      rw [hentries]
      exact ⟨p.withLog log', hkept, rfl, rfl⟩

/-! ## Outcomes -/

theorem foldlM_log (h : txs.foldlM (processTransaction as) q = .ok p) :
    p.log.map Prod.fst = q.log.map Prod.fst ++ txs.map Prod.fst := by
  induction txs generalizing q with
  | nil =>
    cases h
    simp
  | cons item txs ih =>
    obtain ⟨_, hstep, hrest⟩ := foldlM_cons_eq_ok.mp h
    obtain ⟨_, hlog⟩ := (processTransaction_txStep hstep).log_eq
    simp [ih hrest, hlog]

/-- Where failures have outcomes, a chunk has one for each transaction, in order, unless the
burnt amount overflows. -/
theorem one_outcome_each {version : ProtocolVersion} (h : processTransactions as t txs = .ok p)
    (hversion : ProtocolFeature.invalidTxGenerateOutcomes.enabled version = true)
    (hdropped : ∀ entry ∈ p.log, entry.2 ≠ .dropped) :
    (p.outcomes version).map ExecutionOutcome.id =
      txs.map fun item => E.transactionHash item.1.transaction := by
  have hids : ∀ entry ∈ p.log, (registeredOutcome E version entry.1 entry.2).map
      ExecutionOutcome.id = some (E.transactionHash entry.1.transaction) := by
    rintro ⟨tx, fate⟩ hmem
    cases fate with
    | dropped => exact absurd rfl (hdropped _ hmem)
    | _ => simp [registeredOutcome, hversion]
  have hlog := congrArg (List.map (E.transactionHash ·.transaction)) (foldlM_log h)
  rw [ProcessingState.outcomes, List.map_filterMap,
    List.filterMap_eq_map_iff_forall_eq_some.mpr hids]
  simpa [ProcessingState.start, Function.comp_def] using hlog

/-- A transaction that is accepted, one whose nonce is too large, and one that has expired. -/
theorem one_outcome_each_three : ∃ p : ProcessingState .sample,
    (p.log.map fun entry => match entry.2 with
      | .failed e => some e
      | _ => none) = [none, some (.nonceTooLarge 5000001 5000000), some .expired] ∧
    (p.outcomes 84).map ExecutionOutcome.id = [sampleDeletion, sampleLater, sampleDeletion].map
      fun tx => Externals.sample.transactionHash tx.transaction := by
  generalize hrun : processTransactions (.sample 5 0)
    ((.empty : Trie .sample).setAccount sampleAddress ⟨1000, 0, .none, 100⟩)
    [(sampleDeletion, true), (sampleLater, true), (sampleDeletion, false)] = result
  have hlog : result.map (fun p => p.log.map fun entry => match entry.2 with
      | .failed e => some e
      | _ => none) = .ok [none, some (.nonceTooLarge 5000001 5000000), some .expired] := by
    rw [← hrun]
    decide +kernel
  have hdropped : result.map (fun p => p.log.all (·.2 != .dropped)) = .ok true := by
    rw [← hrun]
    decide +kernel
  cases result with
  | error e => cases hlog
  | ok p =>
    refine ⟨p, Except.ok.inj hlog, one_outcome_each hrun (by decide) fun entry hmem hdrop => ?_⟩
    have hall := List.all_eq_true.mp (Except.ok.inj hdropped) entry hmem
    simp [hdrop] at hall

end Failed

/-- A first transaction whose signer cannot pay its fees leaves the registered key behind. -/
theorem failed_transaction_stores_key : ¬ FailuresHaveNoEffect (.sample 5 0)
      ((.empty : Trie .sample).setAccount sampleAddress ⟨2, 0, .none, 100⟩)
      [(sampleDeletion, true)] := by
  intro hframe
  generalize ht : (.empty : Trie .sample).setAccount sampleAddress
    ⟨2, 0, .none, 100⟩ = t at hframe
  have hobserve : ((processTransaction (.sample 5 0) (.start t)
      (sampleDeletion, true)).toOption.map fun q => (q.log,
        (q.trie.getAccessKey sampleAddress (.secp256k1 sampleKey)).map AccessKey.nonce)) =
      some ([(sampleDeletion, .failed (.notEnoughBalance sampleAddress 2 4))], some 3000000) := by
    subst ht
    decide +kernel
  obtain ⟨q', hstep, hq'⟩ := Option.map_eq_some_iff.mp hobserve
  obtain ⟨hlog, hkey⟩ := Prod.mk.inj hq'
  have hstep : processTransaction (.sample 5 0) (.start t)
      (sampleDeletion, true) = .ok q' := by
    revert hstep
    cases processTransaction (.sample 5 0) (.start t)
      (sampleDeletion, true) <;> simp [Except.toOption]
  have htrie : q'.trie = t := hframe.1 _ _ q' _ (List.mem_cons_self ..) hstep hlog
  rw [htrie, ← ht] at hkey
  revert hkey
  decide +kernel

end BitInfinity
