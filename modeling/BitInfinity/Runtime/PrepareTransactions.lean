import BitInfinity.Foundation.MeasuredLoop
import BitInfinity.Runtime.TransactionSpec

/-!
# Selecting the transactions of a chunk

`prepareTransactionsExtra` visits the transaction groups of the pool in turn and takes at most
one transaction from a group in each visit.  It charges what it takes on a trie of its own, which
is never committed.

Time limit, size of the recorded storage proof and cancellation depend on the machine: they are
given as the limit that stops a visit, if one does.
-/

namespace BitInfinity

open Foundation

/-! ## Pool and context -/

/-- The transactions of one signer, key and nonce index, in the order in which the pool hands
them out. -/
structure TransactionGroup where
  signerId : AccountId
  publicKey : PublicKey
  nonceIndex : Option NonceIndex
  transactions : List SignedTransaction
  same_key : ∀ tx ∈ transactions, tx.transaction.signerId = signerId ∧
    tx.transaction.publicKey = publicKey ∧ tx.transaction.nonce.nonceIndex = nonceIndex

def TransactionGroup.drop (group : TransactionGroup) (count : Nat) : TransactionGroup where
  signerId := group.signerId
  publicKey := group.publicKey
  nonceIndex := group.nonceIndex
  transactions := group.transactions.drop count
  same_key := fun tx hmem => group.same_key tx (List.mem_of_mem_drop hmem)

inductive PrepareTransactionsLimit
  | noMoreTxsInPool
  | gas
  | size
  | time
  | storageProofSize
  | cancelled
  deriving DecidableEq, Repr

/-- The epoch manager may not know the shard of a receiver; the sum of burnt gas is unwrapped. -/
inductive PrepareError
  | invalidTransactions
  | epochError
  | gasOverflow
  deriving DecidableEq, Repr

structure PrepareContext where
  config : RuntimeConfig
  protocolVersion : ProtocolVersion
  prevBlockHeight : BlockHeight
  nextGasPrice : Balance
  transactionsGasLimit : Gas
  sizeLimit : Nat
  skipTxHashes : CryptoHash → Bool
  congestionControlAccepts : SignedTransaction → Option Bool
  chainValidate : SignedTransaction → Bool
  /-- The time, storage proof or cancellation limit found at a visit, by its number. -/
  interrupted : Nat → Option PrepareTransactionsLimit

def PrepareContext.nextBlockHeight (ctx : PrepareContext) : BlockHeight := ctx.prevBlockHeight + 1

/-! ## The signer of a group -/

structure SignerCache where
  accountId : AccountId
  account : Account
  accessKey : AccessKey
  publicKey : PublicKey
  gasKeyNonce : Option (NonceIndex × Nonce)

section Signer

variable {E : Externals}

/-- The key that a Bitcoin account without a stored key gets for its first transaction. -/
def firstAccessKey (E : Externals) (tx : SignedTransaction) : Except PrepareError AccessKey := do
  let recovered ← (recoverSecp256k1Signature E.toCrypto (E.transactionHash tx.transaction)
    tx.signature).mapError fun _ => .invalidTransactions
  ensure (.secp256k1 recovered.1 = tx.transaction.publicKey) .invalidTransactions
  ensure (tx.transaction.signerId ∈ deriveAllBitcoinAddresses E.toCrypto recovered.1)
    .invalidTransactions
  .ok (AccessKey.fullAccess.setNonce (tx.transaction.nonce.nonce /
    AccessKey.accessKeyNonceRangeMultiplier * AccessKey.accessKeyNonceRangeMultiplier))

def signerAccessKey (t : Trie E) (tx : SignedTransaction) : Except PrepareError AccessKey :=
  match t.getAccessKey tx.transaction.signerId tx.transaction.publicKey with
  | some key => .ok key
  | none =>
    if isBitcoinAddress E.toCrypto tx.transaction.signerId then firstAccessKey E tx
    else .error .invalidTransactions

def signerGasKeyNonce (t : Trie E) (tx : SignedTransaction) :
    Except PrepareError (Option (NonceIndex × Nonce)) :=
  match tx.transaction.nonce.nonceIndex with
  | some index => do
    let nonce ← okOr (t.getGasKeyNonce tx.transaction.signerId tx.transaction.publicKey index)
      .invalidTransactions
    .ok (some (index, nonce))
  | none => .ok none

def loadSigner (t : Trie E) (tx : SignedTransaction) : Except PrepareError SignerCache := do
  let account ← okOr (t.getAccount tx.transaction.signerId) .invalidTransactions
  let accessKey ← signerAccessKey t tx
  let gasKeyNonce ← signerGasKeyNonce t tx
  .ok { accountId := tx.transaction.signerId, account, accessKey,
        publicKey := tx.transaction.publicKey, gasKeyNonce }

namespace SignerCache

variable (ctx : PrepareContext) (c : SignerCache)

def verdict (tx : Transaction) (cost : TransactionCost) : TxVerdict × AccessKey :=
  match c.gasKeyNonce with
  | some (index, currentNonce) =>
    (verifyAndChargeGasKeyTxEphemeral ctx.config c.account c.accessKey currentNonce tx
      (tx.nonce.nonceIndex.getD index) cost (some ctx.nextBlockHeight), c.accessKey)
  | none =>
    verifyAndChargeTxEphemeral ctx.config c.account c.accessKey tx cost
      (some ctx.nextBlockHeight) ctx.protocolVersion

def apply (key : AccessKey) (result : VerificationResult) : SignerCache :=
  { c with
    account := result.applyAccount c.account
    accessKey := result.applyAccessKey key
    gasKeyNonce := result.gasKeyNonceUpdate.or c.gasKeyNonce }

/-- The cache after the transaction, with the gas burnt when the transaction can be charged. -/
def charge (C : Crypto) (tx : Transaction) : SignerCache × Option Gas :=
  match txCost C ctx.config tx ctx.nextGasPrice with
  | .error _ => (c, none)
  | .ok cost =>
    match c.verdict ctx tx cost with
    | (.success result, key) => (c.apply key result, some result.gasBurnt)
    | (_, key) => ({ c with accessKey := key }, none)

def storeNonce (t : Trie E) : Trie E :=
  match c.gasKeyNonce with
  | some (index, nonce) => t.setGasKeyNonce c.accountId c.publicKey index nonce
  | none => t

/-- The write-back after a visit; it happens even when no transaction was selected. -/
def store (t : Trie E) : Trie E :=
  (c.storeNonce (t.setAccount c.accountId c.account)).setAccessKey c.accountId c.publicKey
    c.accessKey

end SignerCache

end Signer

/-! ## One visit of a group -/

inductive Admission
  | skipped
  | rejected
  | examined
  deriving DecidableEq, Repr

def admission (E : Externals) (ctx : PrepareContext) (tx : SignedTransaction) :
    Except PrepareError Admission :=
  if ctx.skipTxHashes (E.transactionHash tx.transaction) then .ok .skipped
  else
    match ctx.congestionControlAccepts tx with
    | none => .error .epochError
    | some false => .ok .rejected
    | some true => if ctx.chainValidate tx then .ok .examined else .ok .rejected

inductive VisitEnd
  | drained
  | sizeLimit
  | selected (tx : SignedTransaction) (gasBurnt : Gas)

/-- What a visit leaves: the cache, the number of transactions taken out and those skipped. -/
structure Visit where
  signerCache : Option SignerCache
  taken : Nat
  skipped : List SignedTransaction
  ending : VisitEnd

def Visit.discarding (v : Visit) : Visit := { v with taken := v.taken + 1 }

def Visit.skipping (tx : SignedTransaction) (v : Visit) : Visit :=
  { v with taken := v.taken + 1, skipped := tx :: v.skipped }

section Visits

variable {E : Externals} (ctx : PrepareContext)

/-- The signer is loaded for the first transaction that is examined. -/
def signerFor (t : Trie E) (tx : SignedTransaction) :
    Option SignerCache → Except PrepareError SignerCache
  | some cache => .ok cache
  | none => loadSigner t tx

def visitGroup (t : Trie E) (totalSize : Nat) :
    Option SignerCache → List SignedTransaction → Except PrepareError Visit
  | cache, [] => .ok ⟨cache, 0, [], .drained⟩
  | cache, tx :: txs =>
    if ctx.sizeLimit < saturatingAdd 64 totalSize (E.transactionSize tx) then
      .ok ⟨cache, 0, [], .sizeLimit⟩
    else do
      match ← admission E ctx tx with
      | .skipped => (visitGroup t totalSize cache txs).map (.skipping tx)
      | .rejected => (visitGroup t totalSize cache txs).map .discarding
      | .examined => do
        let signer ← signerFor t tx cache
        match signer.charge ctx E.toCrypto tx.transaction with
        | (charged, some gasBurnt) => .ok ⟨some charged, 1, [], .selected tx gasBurnt⟩
        | (signer, none) => (visitGroup t totalSize (some signer) txs).map .discarding

end Visits

/-! ## The loop over the groups -/

structure PrepareState (E : Externals) where
  stateUpdate : Trie E
  totalGasBurnt : Gas
  totalSize : Nat
  transactions : List SignedTransaction
  skippedTransactions : List SignedTransaction
  /-- The queue of the pool iterator. -/
  groups : List TransactionGroup
  visits : Nat

structure PreparedTransactions where
  transactions : List SignedTransaction
  limitedBy : PrepareTransactionsLimit
  skippedTransactions : List SignedTransaction

namespace PrepareState

variable {E : Externals} (ctx : PrepareContext) (s : PrepareState E)

def start (t : Trie E) (groups : List TransactionGroup) : PrepareState E :=
  ⟨t, 0, 0, [], [], groups, 0⟩

def finish (limitedBy : PrepareTransactionsLimit) : PreparedTransactions :=
  ⟨s.transactions, limitedBy, s.skippedTransactions⟩

def limit : Option PrepareTransactionsLimit :=
  if ctx.transactionsGasLimit ≤ s.totalGasBurnt then some .gas
  else if ctx.sizeLimit ≤ s.totalSize then some .size
  else ctx.interrupted s.visits

/-- The state after a visit: the signer is written back and the group joins the queue again. -/
def leave (group : TransactionGroup) (groups : List TransactionGroup) (v : Visit) :
    PrepareState E :=
  { s with
    stateUpdate := v.signerCache.elim s.stateUpdate fun c => c.store s.stateUpdate
    skippedTransactions := s.skippedTransactions ++ v.skipped
    groups := groups ++ [group.drop v.taken]
    visits := s.visits + 1 }

def select (tx : SignedTransaction) (totalGasBurnt : Gas) : PrepareState E :=
  { s with
    totalGasBurnt
    totalSize := s.totalSize + E.transactionSize tx
    transactions := s.transactions ++ [tx] }

def conclude (group : TransactionGroup) (groups : List TransactionGroup) (v : Visit) :
    Except PrepareError (PrepareState E ⊕ PreparedTransactions) :=
  match v.ending with
  | .sizeLimit => .ok (.inr ⟨s.transactions, .size, s.skippedTransactions ++ v.skipped⟩)
  | .drained => .ok (.inl (s.leave group groups v))
  | .selected tx gasBurnt => do
    let totalGasBurnt ← okOr (checkedAdd 64 s.totalGasBurnt gasBurnt) .gasOverflow
    .ok (.inl ((s.leave group groups v).select tx totalGasBurnt))

/-- One turn of the loop.  The iterator drops groups without transactions. -/
def step : Except PrepareError (PrepareState E ⊕ PreparedTransactions) :=
  match s.groups with
  | [] => .ok (.inr (s.finish .noMoreTxsInPool))
  | group :: groups =>
    if group.transactions.isEmpty then .ok (.inl { s with groups })
    else
      match s.limit ctx with
      | some limit => .ok (.inr (s.finish limit))
      | none => do
        let v ← visitGroup ctx s.stateUpdate s.totalSize none group.transactions
        s.conclude group groups v

def size : Nat := (s.groups.map fun group => group.transactions.length).sum + s.groups.length

end PrepareState

section Loop

variable {E : Externals} {ctx : PrepareContext} {t : Trie E} {totalSize : Nat}

theorem visitGroup_cons (cache : Option SignerCache) (tx : SignedTransaction)
    (txs : List SignedTransaction) {v : Visit}
    (h : visitGroup ctx t totalSize cache (tx :: txs) = .ok v) : v = ⟨cache, 0, [], .sizeLimit⟩ ∨
    (∃ v', visitGroup ctx t totalSize cache txs = .ok v' ∧
      (v = v'.skipping tx ∨ v = v'.discarding)) ∨
    ∃ signer, signerFor t tx cache = .ok signer ∧
      ((∃ charged gasBurnt, signer.charge ctx E.toCrypto tx.transaction = (charged, some gasBurnt) ∧
          v = ⟨some charged, 1, [], .selected tx gasBurnt⟩) ∨
        ∃ signer' v', signer.charge ctx E.toCrypto tx.transaction = (signer', none) ∧
          visitGroup ctx t totalSize (some signer') txs = .ok v' ∧ v = v'.discarding) := by
  unfold visitGroup at h
  split at h
  · cases h
    exact .inl rfl
  · obtain ⟨verdict, -, h⟩ := bind_eq_ok.mp h
    cases verdict with
    | skipped =>
      obtain ⟨v', hv', rfl⟩ := map_eq_ok.mp h
      exact .inr (.inl ⟨v', hv', .inl rfl⟩)
    | rejected =>
      obtain ⟨v', hv', rfl⟩ := map_eq_ok.mp h
      exact .inr (.inl ⟨v', hv', .inr rfl⟩)
    | examined =>
      obtain ⟨signer, hsigner, h⟩ := bind_eq_ok.mp h
      refine .inr (.inr ⟨signer, hsigner, ?_⟩)
      rcases hcharge : signer.charge ctx E.toCrypto tx.transaction with ⟨charged, _ | gasBurnt⟩
      · rw [hcharge] at h
        obtain ⟨v', hv', rfl⟩ := map_eq_ok.mp h
        exact .inr ⟨charged, v', rfl, hv', rfl⟩
      · rw [hcharge] at h
        cases h
        exact .inl ⟨charged, gasBurnt, rfl, rfl⟩

theorem visitGroup_taken_pos {cache : Option SignerCache} {txs : List SignedTransaction}
    {v : Visit} (h : visitGroup ctx t totalSize cache txs = .ok v) (hne : txs ≠ [])
    (hend : v.ending ≠ .sizeLimit) : 0 < v.taken := by
  obtain ⟨tx, txs, rfl⟩ := List.exists_cons_of_ne_nil hne
  rcases visitGroup_cons cache tx txs h with
    rfl | ⟨v', -, rfl | rfl⟩ | ⟨-, -, ⟨-, -, -, rfl⟩ | ⟨-, v', -, -, rfl⟩⟩
  · exact absurd rfl hend
  · exact Nat.succ_pos _
  · exact Nat.succ_pos _
  · exact Nat.one_pos
  · exact Nat.succ_pos _

namespace PrepareState

variable {s s' : PrepareState E}

variable {group : TransactionGroup} {groups : List TransactionGroup} {v : Visit}
  {tx : SignedTransaction}

inductive Turn (ctx : PrepareContext) (s : PrepareState E) : PrepareState E → Prop
  | discard {group : TransactionGroup} {groups : List TransactionGroup}
      (hgroups : s.groups = group :: groups) (hempty : group.transactions = []) :
      Turn ctx s { s with groups }
  | drain {group : TransactionGroup} {groups : List TransactionGroup} {v : Visit}
      (hgroups : s.groups = group :: groups) (hne : group.transactions ≠ [])
      (hvisit : visitGroup ctx s.stateUpdate s.totalSize none group.transactions = .ok v)
      (hend : v.ending = .drained) (hlimit : s.limit ctx = none) :
      Turn ctx s (s.leave group groups v)
  | select {group groups v tx gasBurnt} (hgroups : s.groups = group :: groups)
      (hne : group.transactions ≠ [])
      (hvisit : visitGroup ctx s.stateUpdate s.totalSize none group.transactions = .ok v)
      (hend : v.ending = .selected tx gasBurnt) (hgas : s.totalGasBurnt + gasBurnt < 2 ^ 64)
      (hlimit : s.limit ctx = none) :
      Turn ctx s ((s.leave group groups v).select tx (s.totalGasBurnt + gasBurnt))

/-- A step is a turn, or it ends with the transactions that are chosen so far. -/
theorem step_eq_ok {next : PrepareState E ⊕ PreparedTransactions} (h : s.step ctx = .ok next) :
    match next with
    | .inl s' => Turn ctx s s'
    | .inr prepared => prepared.transactions = s.transactions := by
  unfold step at h
  cases hgroups : s.groups with
  | nil =>
    rw [hgroups] at h
    cases h
    rfl
  | cons group groups =>
    rw [hgroups] at h
    by_cases hempty : group.transactions = []
    · obtain rfl : .inl { s with groups } = next := by simpa [hempty] using h
      exact .discard hgroups hempty
    · cases hlimit : s.limit ctx with
      | some limit =>
        obtain rfl : .inr (s.finish limit) = next := by simpa [hempty, hlimit] using h
        rfl
      | none =>
        simp only [List.isEmpty_iff, hempty, if_false, hlimit] at h
        obtain ⟨v, hvisit, h⟩ := bind_eq_ok.mp h
        unfold conclude at h
        cases hend : v.ending with
        | drained =>
          rw [hend] at h
          cases h
          exact .drain hgroups hempty hvisit hend hlimit
        | sizeLimit =>
          rw [hend] at h
          cases h
          rfl
        | selected =>
          rw [hend] at h
          obtain ⟨_, htotal, h⟩ := bind_eq_ok.mp h
          obtain ⟨hgas, rfl⟩ := checkedAdd_eq_some.mp (okOr_eq_ok.mp htotal)
          cases h
          exact .select hgroups hempty hvisit hend hgas hlimit

theorem turn_of_step (h : s.step ctx = .ok (.inl s')) : Turn ctx s s' := step_eq_ok h

theorem transactions_of_step {prepared : PreparedTransactions}
    (h : s.step ctx = .ok (.inr prepared)) : prepared.transactions = s.transactions :=
  step_eq_ok h

theorem size_leave (hgroups : s.groups = group :: groups) (hne : group.transactions ≠ [])
    (htaken : 0 < v.taken) : (s.leave group groups v).size < s.size := by
  have hpos := List.length_pos_iff.mpr hne
  simp only [size, leave, hgroups, List.map_append, List.map_cons, List.map_nil,
    List.sum_append, List.sum_cons, List.sum_nil, List.length_append, List.length_cons,
    List.length_nil, TransactionGroup.drop, List.length_drop]
  omega

theorem size_lt_of_turn (h : Turn ctx s s') : s'.size < s.size := by
  cases h with
  | discard hgroups hempty => simp [size, hgroups, hempty]
  | drain hgroups hne hvisit hend | select hgroups hne hvisit hend =>
    exact size_leave hgroups hne (visitGroup_taken_pos hvisit hne (by simp [hend]))

/-- The transaction is in one of the groups that are left. -/
def Remaining (s : PrepareState E) (tx : SignedTransaction) : Prop :=
  ∃ group ∈ s.groups, tx ∈ group.transactions

theorem remaining_of_leave (hgroups : s.groups = group :: groups)
    (h : (s.leave group groups v).Remaining tx) : s.Remaining tx := by
  obtain ⟨g, hg, hmem⟩ := h
  rcases List.mem_append.mp hg with hg | hg
  · exact ⟨g, by simp [hgroups, hg], hmem⟩
  · obtain rfl : g = group.drop v.taken := by simpa using hg
    exact ⟨group, by simp [hgroups], List.mem_of_mem_drop hmem⟩

theorem remaining_of_turn (h : Turn ctx s s') (hrem : s'.Remaining tx) : s.Remaining tx := by
  cases h with
  | discard hgroups =>
    obtain ⟨group, hg, hmem⟩ := hrem
    exact ⟨group, by simp [hgroups, hg], hmem⟩
  | drain hgroups | select hgroups => exact remaining_of_leave hgroups hrem

end PrepareState

/-- The loop, with the number of transactions and groups left as its measure. -/
def prepareLoop (E : Externals) (ctx : PrepareContext) :
    MeasuredLoop (PrepareState E) PrepareError PreparedTransactions where
  step := PrepareState.step ctx
  size := PrepareState.size
  decreases _ _ h := PrepareState.size_lt_of_turn (PrepareState.turn_of_step h)

def prepareTransactionsExtra (ctx : PrepareContext) (t : Trie E)
    (groups : List TransactionGroup) : Except PrepareError PreparedTransactions :=
  (prepareLoop E ctx).run (.start t groups)

end Loop

end BitInfinity
