import BitInfinity.Runtime.PrepareTransactions

/-!
# Signers that cannot be loaded

The selection loop discards a transaction that fails any of its checks, but gives up as a whole
when it cannot load the signer of a group.  This module says exactly when that happens.
-/

namespace BitInfinity

open Foundation

section Loading

variable {E : Externals} {t : Trie E} {tx : SignedTransaction}

/-! ## Loading the signer -/

/-- The account exists, its key is stored or recovered, and the nonce of a gas key is stored. -/
structure SignerLoads (t : Trie E) (tx : SignedTransaction) : Prop where
  account : t.getAccount tx.transaction.signerId ≠ none
  accessKey : t.getAccessKey tx.transaction.signerId tx.transaction.publicKey ≠ none ∨
    recoveredKey E tx = some tx.transaction.publicKey
  gasKeyNonce : ∀ index, tx.transaction.nonce.nonceIndex = some index →
    t.getGasKeyNonce tx.transaction.signerId tx.transaction.publicKey index ≠ none

def txNonceFloor (tx : SignedTransaction) : Nonce :=
  tx.transaction.nonce.nonce / AccessKey.accessKeyNonceRangeMultiplier *
    AccessKey.accessKeyNonceRangeMultiplier

theorem firstAccessKey_cases (hbtc : isBitcoinAddress E.toCrypto tx.transaction.signerId = true) :
    (recoveredKey E tx = some tx.transaction.publicKey ∧
      firstAccessKey E tx = .ok (AccessKey.fullAccess.setNonce (txNonceFloor tx))) ∨
    (recoveredKey E tx ≠ some tx.transaction.publicKey ∧
      firstAccessKey E tx = .error .invalidTransactions) := by
  unfold recoveredKey firstAccessKey
  rw [if_pos hbtc]
  cases recoverSecp256k1Signature E.toCrypto (E.transactionHash tx.transaction) tx.signature with
  | error e => exact .inr ⟨by simp, rfl⟩
  | ok recovered =>
    obtain ⟨key, _⟩ := recovered
    by_cases hkey : .secp256k1 key = tx.transaction.publicKey
    · by_cases hmem : tx.transaction.signerId ∈ deriveAllBitcoinAddresses E.toCrypto key
      · exact .inl ⟨by simp [hmem, hkey], by simp [Except.mapError, ensure, hkey, hmem]; rfl⟩
      · exact .inr ⟨by simp [hmem], by simp [Except.mapError, ensure, hkey, hmem]⟩
    · exact .inr ⟨by simp [hkey], by simp [Except.mapError, ensure, hkey]⟩

theorem signerAccessKey_cases (t : Trie E) (tx : SignedTransaction) :
    (∃ key, t.getAccessKey tx.transaction.signerId tx.transaction.publicKey = some key ∧
      signerAccessKey t tx = .ok key) ∨
    (t.getAccessKey tx.transaction.signerId tx.transaction.publicKey = none ∧
      recoveredKey E tx = some tx.transaction.publicKey ∧
      signerAccessKey t tx = .ok (AccessKey.fullAccess.setNonce (txNonceFloor tx))) ∨
    (t.getAccessKey tx.transaction.signerId tx.transaction.publicKey = none ∧
      recoveredKey E tx ≠ some tx.transaction.publicKey ∧
      signerAccessKey t tx = .error .invalidTransactions) := by
  unfold signerAccessKey
  cases hkey : t.getAccessKey tx.transaction.signerId tx.transaction.publicKey with
  | some key => exact .inl ⟨key, rfl, rfl⟩
  | none =>
    by_cases hbtc : isBitcoinAddress E.toCrypto tx.transaction.signerId = true
    · simp only [hbtc, if_true, true_and]
      exact .inr (firstAccessKey_cases hbtc)
    · exact .inr (.inr ⟨rfl, by simp [recoveredKey, hbtc], by simp [hbtc]⟩)

theorem signerGasKeyNonce_cases (t : Trie E) (tx : SignedTransaction) :
    ((∀ index, tx.transaction.nonce.nonceIndex = some index →
        t.getGasKeyNonce tx.transaction.signerId tx.transaction.publicKey index ≠ none) ∧
      ∃ nonce, signerGasKeyNonce t tx = .ok nonce) ∨
    ((∃ index, tx.transaction.nonce.nonceIndex = some index ∧
        t.getGasKeyNonce tx.transaction.signerId tx.transaction.publicKey index = none) ∧
      signerGasKeyNonce t tx = .error .invalidTransactions) := by
  unfold signerGasKeyNonce
  cases hindex : tx.transaction.nonce.nonceIndex with
  | none => exact .inl ⟨by simp, none, rfl⟩
  | some index =>
    cases hnonce : t.getGasKeyNonce tx.transaction.signerId tx.transaction.publicKey index with
    | none => exact .inr ⟨⟨index, rfl, hnonce⟩, by simp [hnonce, okOr]⟩
    | some nonce => exact .inl ⟨by simp [hnonce], _, by simp [hnonce, okOr]; rfl⟩

theorem loadSigner_cases (t : Trie E) (tx : SignedTransaction) :
    (SignerLoads t tx ∧ ∃ signer, loadSigner t tx = .ok signer) ∨
    (¬ SignerLoads t tx ∧ loadSigner t tx = .error .invalidTransactions) := by
  have hkey : ((t.getAccessKey tx.transaction.signerId tx.transaction.publicKey ≠ none ∨
        recoveredKey E tx = some tx.transaction.publicKey) ∧
        ∃ key, signerAccessKey t tx = .ok key) ∨
      (¬ SignerLoads t tx ∧ signerAccessKey t tx = .error .invalidTransactions) := by
    rcases signerAccessKey_cases t tx with
      ⟨key, hstored, hok⟩ | ⟨-, hrec, hok⟩ | ⟨hnone, hrec, herror⟩
    · exact .inl ⟨.inl (by simp [hstored]), key, hok⟩
    · exact .inl ⟨.inr hrec, _, hok⟩
    · exact .inr ⟨fun h => h.accessKey.elim (absurd hnone) hrec, herror⟩
  unfold loadSigner
  cases haccount : t.getAccount tx.transaction.signerId with
  | none => exact .inr ⟨fun h => h.account haccount, rfl⟩
  | some account =>
    have hsome : t.getAccount tx.transaction.signerId ≠ none := by simp [haccount]
    simp only [okOr, ok_bind]
    rcases hkey with ⟨hkey, key, hok⟩ | ⟨hnot, herror⟩
    · rcases signerGasKeyNonce_cases t tx with ⟨hnonce, n, hn⟩ | ⟨⟨index, hi, hnonce⟩, hn⟩
      · exact .inl ⟨⟨hsome, hkey, hnonce⟩, _, by simp [hok, hn]; rfl⟩
      · exact .inr ⟨fun h => h.gasKeyNonce index hi hnonce, by simp [hok, hn]⟩
    · exact .inr ⟨hnot, by simp [herror]⟩

end Loading

/-! ## Where the loop gives up -/

section Blocking

variable {E : Externals} {ctx : PrepareContext} {t : Trie E} {totalSize : Nat}

variable {txs : List SignedTransaction}

/-- The first transaction of a group that gets past the checks before the signer is loaded. -/
def firstExamined (E : Externals) (ctx : PrepareContext) (totalSize : Nat) :
    List SignedTransaction → Option SignedTransaction
  | [] => none
  | tx :: txs =>
    if ctx.sizeLimit < saturatingAdd 64 totalSize (E.transactionSize tx) then none
    else
      match admission E ctx tx with
      | .ok .examined => some tx
      | .ok _ => firstExamined E ctx totalSize txs
      | .error _ => none

theorem mem_of_firstExamined {tx : SignedTransaction}
    (h : firstExamined E ctx totalSize txs = some tx) : tx ∈ txs := by
  induction txs with
  | nil => cases h
  | cons head txs ih =>
    unfold firstExamined at h
    split at h
    · cases h
    · split at h
      · cases h
        exact List.mem_cons_self
      · exact List.mem_cons_of_mem _ (ih h)
      · cases h

theorem admission_ne_invalidTransactions (tx : SignedTransaction) :
    admission E ctx tx ≠ .error .invalidTransactions := by
  unfold admission
  split
  · simp
  · split
    · simp
    · simp
    · split <;> simp

theorem visitGroup_some_ne_invalidTransactions (signer : SignerCache)
    (txs : List SignedTransaction) :
    visitGroup ctx t totalSize (some signer) txs ≠ .error .invalidTransactions := by
  induction txs generalizing signer with
  | nil => simp [visitGroup]
  | cons tx txs ih =>
    unfold visitGroup
    split
    · simp
    · cases hadmission : admission E ctx tx with
      | error e =>
        rintro ⟨⟩
        exact admission_ne_invalidTransactions tx hadmission
      | ok verdict =>
        cases verdict with
        | skipped | rejected => exact fun h => ih signer (map_eq_error.mp h)
        | examined =>
          simp only [ok_bind, signerFor]
          split
          · simp
          · exact fun h => ih _ (map_eq_error.mp h)

theorem visitGroup_eq_invalidTransactions :
    visitGroup ctx t totalSize none txs = .error .invalidTransactions ↔
      ∃ tx, firstExamined E ctx totalSize txs = some tx ∧ ¬ SignerLoads t tx := by
  induction txs with
  | nil => simp [visitGroup, firstExamined]
  | cons tx txs ih =>
    unfold visitGroup firstExamined
    split
    · simp
    · cases hadmission : admission E ctx tx with
      | error e =>
        have hne := @admission_ne_invalidTransactions E ctx tx
        rw [hadmission] at hne
        simpa using hne
      | ok verdict =>
        cases verdict with
        | skipped | rejected => simpa only [ok_bind, map_eq_error] using ih
        | examined =>
          rcases loadSigner_cases t tx with ⟨hloads, _, hsigner⟩ | ⟨hnot, herror⟩
          · simp only [ok_bind, signerFor, hsigner, Option.some.injEq]
            constructor
            · split
              · simp
              · exact fun h => absurd (map_eq_error.mp h)
                  (visitGroup_some_ne_invalidTransactions _ _)
            · rintro ⟨_, rfl, hnot⟩
              exact absurd hloads hnot
          · simp only [ok_bind, signerFor, herror, error_bind, Option.some.injEq]
            exact iff_of_true trivial ⟨tx, rfl, hnot⟩

namespace PrepareState

/-- The transaction for which the next turn of the loop loads a signer. -/
def nextExamined (ctx : PrepareContext) (s : PrepareState E) : Option SignedTransaction :=
  match s.groups with
  | [] => none
  | group :: _ =>
    if (s.limit ctx).isSome then none
    else firstExamined E ctx s.totalSize group.transactions

theorem conclude_ne_invalidTransactions (s : PrepareState E) (group : TransactionGroup)
    (groups : List TransactionGroup) (v : Visit) :
    s.conclude group groups v ≠ .error .invalidTransactions := by
  unfold conclude
  split
  · exact nofun
  · exact nofun
  · intro h
    rcases bind_eq_error.mp h with herror | ⟨total, -, h⟩
    · simp at herror
    · cases h

theorem step_eq_invalidTransactions {s : PrepareState E} :
    s.step ctx = .error .invalidTransactions ↔
      ∃ tx, s.nextExamined ctx = some tx ∧ ¬ SignerLoads s.stateUpdate tx := by
  unfold step nextExamined
  cases s.groups with
  | nil => simp
  | cons group groups =>
    by_cases hempty : group.transactions = []
    · simp [hempty, firstExamined]
    · cases hlimit : s.limit ctx with
      | some limit => simp [hempty]
      | none =>
        simp only [List.isEmpty_iff, hempty, if_false, Option.isSome_none, Bool.false_eq_true]
        rw [← visitGroup_eq_invalidTransactions, bind_eq_error]
        constructor
        · rintro (h | ⟨v, -, h⟩)
          · exact h
          · exact absurd h (conclude_ne_invalidTransactions s group groups v)
        · exact .inl

end PrepareState

/-- The preparation gives up exactly when the loop comes to a transaction, the first one that it
examines of a group, whose signer does not load in the state of that moment. -/
theorem prepareTransactionsExtra_eq_invalidTransactions {groups : List TransactionGroup} :
    prepareTransactionsExtra ctx t groups = .error .invalidTransactions ↔
      ∃ s tx, (prepareLoop E ctx).Reaches (.start t groups) s ∧ s.nextExamined ctx = some tx ∧
        ¬ SignerLoads s.stateUpdate tx := by
  unfold prepareTransactionsExtra
  rw [MeasuredLoop.run_eq_iff]
  constructor
  · rintro ⟨s, hreach, hstep⟩
    obtain ⟨tx, hnext, hnot⟩ := PrepareState.step_eq_invalidTransactions.mp hstep
    exact ⟨s, tx, hreach, hnext, hnot⟩
  · rintro ⟨s, tx, hreach, hnext, hnot⟩
    exact ⟨s, hreach, PrepareState.step_eq_invalidTransactions.mpr ⟨tx, hnext, hnot⟩⟩

/-! ## Signers that stay loaded -/

def nonceAfter (update : Option (NonceIndex × Nonce)) (id : AccountId) (publicKey : PublicKey)
    (a : AccountId) (pk : PublicKey) (i : NonceIndex) (old : Option Nonce) : Option Nonce :=
  match update with
  | some (index, nonce) => if a = id ∧ pk = publicKey ∧ i = index then some nonce else old
  | none => old

theorem getAccount_store (signer : SignerCache) (a : AccountId) : (signer.store t).getAccount a =
    if a = signer.accountId then some signer.account else t.getAccount a := by
  unfold SignerCache.store SignerCache.storeNonce
  cases signer.gasKeyNonce <;> simp [Trie.getAccount_setAccount]

theorem getAccessKey_store (signer : SignerCache) (a : AccountId) (pk : PublicKey) :
    (signer.store t).getAccessKey a pk =
      if a = signer.accountId ∧ pk = signer.publicKey then some signer.accessKey
      else t.getAccessKey a pk := by
  unfold SignerCache.store SignerCache.storeNonce
  cases signer.gasKeyNonce <;> simp [Trie.getAccessKey_setAccessKey]

theorem getGasKeyNonce_store (signer : SignerCache) (a : AccountId) (pk : PublicKey)
    (i : NonceIndex) :
    (signer.store t).getGasKeyNonce a pk i =
      nonceAfter signer.gasKeyNonce signer.accountId signer.publicKey a pk i
        (t.getGasKeyNonce a pk i) := by
  unfold SignerCache.store SignerCache.storeNonce nonceAfter
  cases signer.gasKeyNonce with
  | none => simp
  | some update => simp [Trie.getGasKeyNonce_setGasKeyNonce]

theorem SignerLoads.store {tx : SignedTransaction} (h : SignerLoads t tx) (signer : SignerCache) :
    SignerLoads (signer.store t) tx where
  account := by
    rw [getAccount_store]
    split
    · simp
    · exact h.account
  accessKey := by
    rw [getAccessKey_store]
    split
    · exact .inl (by simp)
    · exact h.accessKey
  gasKeyNonce index hindex := by
    rw [getGasKeyNonce_store]
    unfold nonceAfter
    split
    · split
      · simp
      · exact h.gasKeyNonce index hindex
    · exact h.gasKeyNonce index hindex

namespace PrepareState

variable {s : PrepareState E}

def SignersLoad (s : PrepareState E) : Prop := ∀ tx, s.Remaining tx → SignerLoads s.stateUpdate tx

theorem signerLoads_leave {tx : SignedTransaction} (h : SignerLoads s.stateUpdate tx)
    (group : TransactionGroup) (groups : List TransactionGroup) (v : Visit) :
    SignerLoads (s.leave group groups v).stateUpdate tx := by
  unfold leave
  cases v.signerCache with
  | none => exact h
  | some signer => exact h.store signer

theorem SignersLoad.turn {s' : PrepareState E} (h : s.SignersLoad) (hturn : Turn ctx s s') :
    s'.SignersLoad := by
  intro tx hrem
  have hloads := h tx (remaining_of_turn hturn hrem)
  cases hturn with
  | discard => exact hloads
  | drain => exact signerLoads_leave hloads _ _ _
  | @select group groups v => exact signerLoads_leave hloads group groups v

theorem remaining_of_nextExamined {tx : SignedTransaction}
    (hnext : s.nextExamined ctx = some tx) : s.Remaining tx := by
  unfold PrepareState.nextExamined at hnext
  cases hgroups : s.groups with
  | nil => simp [hgroups] at hnext
  | cons group groups =>
    simp only [hgroups] at hnext
    split at hnext
    · cases hnext
    · exact ⟨group, by simp [hgroups], mem_of_firstExamined hnext⟩

end PrepareState

end Blocking

end BitInfinity
