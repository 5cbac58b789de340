import BitInfinity.Ledger.Chain
import BitInfinity.Patoshi.Unlock
import BitInfinity.Proxy.NearClient

/-!
# Nonces of the first transactions of a Bitcoin account

A Bitcoin account has no access key until its first transaction is processed.  The proxy picks
the nonces of the first transactions from the height of the tip, and the runtime registers the
key with a nonce floor from the height of inclusion and from the nonce itself.  The nonces must
stay above the floor and below the upper bound of the block, however long inclusion takes.
-/

namespace BitInfinity.Proxy

open Foundation

/-! ## The nonce that the proxy picks -/

variable {address publicKey : String} {w w' : World}

/-- The node while its tip is at height `h` and the key of the account is not on the chain. -/
def World.atTip (h : Nat) : Outside Request.Reply World where
  allowed w
    | .viewAccessKey _ _, reply => ∃ e, reply = .error e
    | .status, reply => ∀ status, reply = .ok status → status.latestBlockHeight = h
    | op, reply => w.allowed op reply
  after := .after

theorem bitcoinFirstTxNonceFloor_eq {h : Nat} (hh : (h + 1) * 1000000 < 2 ^ 64) :
    bitcoinFirstTxNonceFloor h = h * 1000000 + 1 := by
  simp only [bitcoinFirstTxNonceFloor, bitcoinFirstTxHeightHeadroom,
    accessKeyNonceRangeMultiplier, saturatingAdd, saturatingMul]
  omega

theorem chainNonce_atTip {h chain : Nat}
    (hends : (chainNonce address publicKey).Ends (World.atTip h) w (.ok chain) w') :
    chain ≤ bitcoinFirstTxNonceFloor h - 1 := by
  obtain ⟨_, _, hkey, hrest⟩ := Prog.ends_bind_ok.mp hends
  obtain ⟨_, ⟨e, rfl⟩, hreply, rfl⟩ := Prog.ends_request.mp hkey
  cases hreply
  obtain ⟨reply, _, hstatus, hlast⟩ := Prog.ends_bind_ok.mp hrest
  obtain ⟨_, htip, hreply', rfl⟩ := Prog.ends_request.mp hstatus
  cases hreply'
  cases reply with
  | error e =>
    obtain ⟨hchain, -⟩ := Prog.ends_pure.mp hlast
    cases hchain
    exact Nat.zero_le _
  | ok tip =>
    obtain ⟨hchain, -⟩ := Prog.ends_pure.mp hlast
    cases hchain
    rw [htip tip rfl]

theorem normalizeNonce_nextNonce {h next : Nat}
    (hh : (h + 1) * 1000000 < 2 ^ 64) (hcache : w.rpc.nonceCache address = none)
    (hends : (nextNonce address publicKey).Ends (World.atTip h) w (.ok next) w') :
    normalizeNonceForFirstBitcoinTx next h = h * 1000000 + 1 := by
  obtain ⟨cached, _, hcached, hrest⟩ := Prog.ends_bind_ok.mp hends
  obtain ⟨_, hreply, hvalue, rfl⟩ := Prog.ends_request.mp hcached
  cases hvalue
  obtain rfl : cached = none := hreply.trans hcache
  obtain ⟨_, _, hchain, hlast⟩ := Prog.ends_bind_ok.mp hrest
  obtain ⟨hnext, -⟩ := Prog.ends_pure.mp hlast
  cases hnext
  have hfloor := bitcoinFirstTxNonceFloor_eq hh
  have hle := chainNonce_atTip hchain
  rw [normalizeNonceForFirstBitcoinTx, hfloor]
  refine max_eq_right ?_
  simp only [Option.getD_none, wrappingAdd]
  omega

/-! ## Processing one transaction after the other -/

/-- A transaction with the chunk in which it is processed. -/
structure Inclusion where
  applyState : ApplyState
  tx : SignedTransaction
  nonExpired : Bool

section Processing

variable {E : Externals} {a : AccountId} {pk : PublicKey}

/-- The stored key before and after a transaction.  Between two transactions the state may
change in any way that leaves this key alone: a new chunk may start, or not. -/
def KeyStep (E : Externals) (a : AccountId) (pk : PublicKey) (stored : Option AccessKey)
    (item : Inclusion) (stored' : Option AccessKey) : Prop :=
  ∃ p q : ProcessingState E, p.cache.Coherent p.trie ∧ p.trie.getAccessKey a pk = stored ∧
    processTransaction item.applyState p (item.tx, item.nonExpired) = .ok q ∧
    q.trie.getAccessKey a pk = stored'

/-- The transaction finds its key, and its nonce passes the check against that key. -/
def PassesNonceCheck (as : ApplyState) (p : ProcessingState E) (tx : SignedTransaction) : Prop :=
  ∃ key q, loadAccessKey as (recoverAccessKey as p tx) tx = (.ok key, q) ∧
    verifyNonce tx.transaction.nonce.nonce key.nonce (some as.blockHeight) = .ok ()

/-- A transaction with the given nonce, signed with the key of a Bitcoin account. -/
structure SignedWith (E : Externals) (a : AccountId) (pk : PublicKey) (nonce : Nonce)
    (tx : SignedTransaction) : Prop where
  signerId_eq : tx.transaction.signerId = a
  publicKey_eq : tx.transaction.publicKey = pk
  nonce_eq : tx.transaction.nonce = ⟨nonce, none⟩
  recovered : recoveredKey E tx = some pk

/-- A key that is stored has a lower nonce. -/
def Below (stored : Option AccessKey) (nonce : Nonce) : Prop :=
  ∀ key, stored = some key → key.nonce < nonce

variable {as : ApplyState} {p q : ProcessingState E} {tx : SignedTransaction} {nonce : Nonce}

variable {stored : Option AccessKey} {key : AccessKey} {h i : Nat}

variable {account : Account} {result : VerificationResult} {height : Nat}

theorem firstUseKey_nonce_lt (hbelow : Below stored nonce)
    (hnonce : tx.transaction.nonce.nonce = nonce)
    (hfloor : firstUseNonceFloor as.blockHeight nonce < nonce) :
    (firstUseKey as stored tx).nonce < nonce := by
  have hkey : (stored.getD .fullAccess).nonce < nonce := by
    cases stored with
    | none => exact Nat.lt_of_le_of_lt (Nat.zero_le _) hfloor
    | some key => exact hbelow key rfl
  rw [← hnonce] at hfloor hkey ⊢
  exact max_lt hkey hfloor

theorem resolveAccessKey_nonce_lt (hcoherent : p.cache.Coherent p.trie)
    (hsigned : SignedWith E a pk nonce tx) (hbelow : Below (p.trie.getAccessKey a pk) nonce)
    (hfloor : firstUseNonceFloor as.blockHeight nonce < nonce)
    (hresolve : resolveAccessKey as p tx = (.ok key, q)) : key.nonce < nonce := by
  obtain ⟨rfl, rfl, hnonce, -⟩ := hsigned
  rcases resolveAccessKey_eq_ok hresolve with ⟨hcache, -⟩ | ⟨-, -, rfl, -⟩
  · exact hbelow key (hcoherent.accessKeys _ _ _ hcache)
  · exact firstUseKey_nonce_lt hbelow (by rw [hnonce]) hfloor

theorem exists_resolveAccessKey (hsigned : SignedWith E a pk nonce tx) :
    ∃ key q, resolveAccessKey as p tx = (.ok key, q) := by
  obtain ⟨rfl, rfl, -, hrec⟩ := hsigned
  have hbtc := (recoveredKey_eq_some hrec).1
  cases hcache : p.cache.accessKeys tx.transaction.signerId tx.transaction.publicKey with
  | some key => exact ⟨key, p, by simp [resolveAccessKey, hcache]⟩
  | none => simp [resolveAccessKey, hcache, hbtc, hrec]

theorem passesNonceCheck_of_below (hcoherent : p.cache.Coherent p.trie)
    (hsigned : SignedWith E a pk nonce tx) (hbelow : Below (p.trie.getAccessKey a pk) nonce)
    (hfloor : firstUseNonceFloor as.blockHeight nonce < nonce)
    (hupper : nonce < saturatingMul 64 as.blockHeight AccessKey.accessKeyNonceRangeMultiplier) :
    PassesNonceCheck as p tx := by
  obtain ⟨key, q, hresolve⟩ : ∃ key q, resolveAccessKey as p tx = (.ok key, q) :=
    exists_resolveAccessKey hsigned
  have hlt := resolveAccessKey_nonce_lt hcoherent hsigned hbelow hfloor hresolve
  refine ⟨key, q, (loadAccessKey_recoverAccessKey as p tx).trans hresolve, ?_⟩
  rw [hsigned.nonce_eq]
  simp [verifyNonce, ensure, hlt, hupper]

theorem Verified.nonce_le {gasKeyNonces : NonceIndex → Option Nonce}
    {key' : AccessKey} {tx : Transaction} {cost : TransactionCost} {paid : Balance}
    (h : Verified gasKeyNonces account key tx cost paid result key') :
    (result.applyAccessKey key').nonce ≤ max key.nonce tx.nonce.nonce := by
  have huse := h.use
  generalize hupdate : result.accessKeyUpdate = update at huse
  cases huse with
  | regular allowance =>
    refine le_max_of_le_right (le_of_eq ?_)
    cases allowance <;> simp [VerificationResult.applyAccessKey, hupdate, AccessKey.setNonce]
  | gasKey =>
    refine le_max_of_le_left (le_of_eq ?_)
    simp [VerificationResult.applyAccessKey, hupdate, AccessKey.setGasKeyBalance, h.nonce_eq]

theorem settle_getAccessKey {gas : Gas} {tokens : Balance} {fate : TransactionEnd}
    (hsettle : settle p tx account key result gas tokens fate = .ok q) :
    q.trie.getAccessKey tx.transaction.signerId tx.transaction.publicKey =
        some (result.applyAccessKey key) ∨
      q.trie.getAccessKey tx.transaction.signerId tx.transaction.publicKey =
        p.trie.getAccessKey tx.transaction.signerId tx.transaction.publicKey := by
  rw [settle_eq] at hsettle
  split_ifs at hsettle
  · cases hsettle
    unfold charged applyCharge
    cases result.gasKeyNonceUpdate <;> simp [ProcessingState.finishWith]
  · cases hsettle
    exact .inr rfl

theorem keyStep_below {stored' : Option AccessKey} {item : Inclusion}
    (hsigned : SignedWith E a pk nonce item.tx) (hbelow : Below stored nonce)
    (hfloor : firstUseNonceFloor item.applyState.blockHeight nonce < nonce)
    (hstep : KeyStep E a pk stored item stored') : Below stored' (nonce + 1) := by
  obtain ⟨p, q, hcoherent, rfl, hprocess, rfl⟩ := hstep
  have hnonce : item.tx.transaction.nonce.nonce = nonce := by rw [hsigned.nonce_eq]
  have hold : Below (p.trie.getAccessKey a pk) (nonce + 1) :=
    fun key hkey => Nat.lt_succ_of_lt (hbelow key hkey)
  -- The key that was found, and what is stored once it has been loaded.
  have hloaded : ∀ {account cost key r}, Loaded item.applyState p item.tx account cost key r →
      key.nonce < nonce ∧ Below (r.trie.getAccessKey a pk) (nonce + 1) := by
    intro account cost key r hl
    have hlt := resolveAccessKey_nonce_lt hcoherent hsigned hbelow hfloor hl.resolve_eq
    refine ⟨hlt, ?_⟩
    rcases resolveAccessKey_eq_ok hl.resolve_eq with ⟨-, rfl⟩ | ⟨-, -, -, rfl⟩
    · exact hold
    · rw [hsigned.signerId_eq, hsigned.publicKey_eq]
      intro key' hkey'
      rw [Trie.getAccessKey_setAccessKey_self] at hkey'
      cases hkey'
      exact Nat.lt_succ_of_lt hlt
  have hsettled : ∀ {account key r result gas tokens fate},
      settle r item.tx account key result gas tokens fate = .ok q →
      (result.applyAccessKey key).nonce ≤ nonce → Below (r.trie.getAccessKey a pk) (nonce + 1) →
      Below (q.trie.getAccessKey a pk) (nonce + 1) := by
    intro account key r result gas tokens fate hsettle hle hr
    have hcases := settle_getAccessKey hsettle
    rw [hsigned.signerId_eq, hsigned.publicKey_eq] at hcases
    rcases hcases with hcharged | hsame
    · intro key' hkey'
      rw [hcharged] at hkey'
      cases hkey'
      exact Nat.lt_succ_of_le hle
    · rwa [hsame]
  cases processTransaction_txStep hprocess with
  | rejected e => exact hold
  | foreignKey hlive hforeign =>
    have hpk := hforeign.recovered_eq.symm.trans hsigned.recovered
    exact absurd (Option.some.inj hpk) (hsigned.publicKey_eq ▸ hforeign.ne_publicKey)
  | failed hlive hl => exact (hloaded hl).2
  | depositFailed hlive hl hverdict hsettle =>
    obtain ⟨hlt, hr⟩ := hloaded hl
    have hle := Verified.nonce_le (transactionVerdict_depositFailed hverdict)
    rw [hnonce, max_eq_right hlt.le] at hle
    exact hsettled hsettle hle hr
  | accepted hlive hl hverdict hguard haccept =>
    obtain ⟨hlt, hr⟩ := hloaded hl
    have hle := Verified.nonce_le (transactionVerdict_success hverdict).1
    rw [hnonce, max_eq_right hlt.le] at hle
    refine hsettled haccept hle ?_
    rw [emitReceipt_trie]
    cases ‹Option PatoshiRecord› with
    | none => exact hr
    | some record => simpa [scheduleUnlock, setPatoshiRecord] using hr

/-! ## The nonces of the run -/

theorem firstUseNonceFloor_lt (hi : i < 999999) :
    firstUseNonceFloor height (h * 1000000 + 1 + i) < h * 1000000 + 1 + i := by
  have hdiv : (h * 1000000 + 1 + i) / 1000000 = h := by omega
  calc firstUseNonceFloor height (h * 1000000 + 1 + i)
      ≤ (h * 1000000 + 1 + i) / 1000000 * 1000000 := Nat.min_le_right _ _
    _ < h * 1000000 + 1 + i := by rw [hdiv]; omega

theorem nonce_lt_rangeEnd (hi : i < 999999) : h * 1000000 + 1 + i < (h + 1) * 1000000 := by
  omega

theorem nonce_lt_upperBound (hi : i < 999999) (hlater : h < height)
    (hbound : height * 1000000 < 2 ^ 64) :
    h * 1000000 + 1 + i < saturatingMul 64 height AccessKey.accessKeyNonceRangeMultiplier := by
  have hblock : (h + 1) * 1000000 ≤ height * 1000000 := Nat.mul_le_mul_right _ hlater
  have hend : (h + 1) * 1000000 ≤ 2 ^ 64 - 1 :=
    Nat.le_sub_one_of_lt (Nat.lt_of_le_of_lt hblock hbound)
  exact lt_min (Nat.lt_of_lt_of_le (nonce_lt_rangeEnd hi) hblock)
    (Nat.lt_of_lt_of_le (nonce_lt_rangeEnd hi) hend)

theorem keyRun_below {items : List Inclusion} (hcount : items.length ≤ 999999)
    (hsigned : ∀ i item, items[i]? = some item → SignedWith E a pk (h * 1000000 + 1 + i) item.tx)
    (hrun : Run (KeyStep E a pk) none items stored) :
    Below stored (h * 1000000 + 1 + items.length) := by
  induction hrun with
  | refl =>
    intro key hkey
    cases hkey
  | @snoc items stored stored' item hrun hstep ih =>
    rw [List.length_append, List.length_singleton] at hcount ⊢
    have hbelow := ih (by omega) fun i item' hitem =>
      hsigned i item' (List.getElem?_append_left (List.getElem?_eq_some_iff.mp hitem).1 ▸ hitem)
    have hlast := hsigned items.length item (by simp)
    rw [← Nat.add_assoc]
    exact keyStep_below hlast hbelow (firstUseNonceFloor_lt (by omega)) hstep

/-- The first transactions of a Bitcoin account, with consecutive nonces from the one that the
proxy picks at the tip, pass the nonce check at whatever later heights they are included. -/
theorem first_nonces_accepted {h next : Nat} {nearKey : String} {w w' : World}
    {items before after : List Inclusion} {item : Inclusion} {stored : Option AccessKey}
    (hcache : w.rpc.nonceCache a = none)
    (hnext : (nextNonce a nearKey).Ends (World.atTip h) w (.ok next) w')
    (hcount : items.length ≤ 999999) (hsigned : ∀ i item, items[i]? = some item →
      SignedWith E a pk (normalizeNonceForFirstBitcoinTx next h + i) item.tx)
    (hheights : ∀ item ∈ items, h < item.applyState.blockHeight ∧
      item.applyState.blockHeight * 1000000 < 2 ^ 64) (hitems : items = before ++ item :: after)
    (hrun : Run (KeyStep E a pk) none before stored) (hcoherent : p.cache.Coherent p.trie)
    (hstored : p.trie.getAccessKey a pk = stored) : PassesNonceCheck item.applyState p item.tx := by
  subst hitems hstored
  obtain ⟨hlater, hbound⟩ := hheights item (by simp)
  have hlength : before.length < 999999 := by
    simp only [List.length_append, List.length_cons] at hcount
    omega
  have hrange : (h + 1) * 1000000 < 2 ^ 64 :=
    Nat.lt_of_le_of_lt (Nat.mul_le_mul_right _ hlater) hbound
  rw [normalizeNonce_nextNonce hrange hcache hnext] at hsigned
  have hbefore : ∀ i item, before[i]? = some item →
      SignedWith E a pk (h * 1000000 + 1 + i) item.tx := fun i item' hitem =>
    hsigned i item' (List.getElem?_append_left (List.getElem?_eq_some_iff.mp hitem).1 ▸ hitem)
  have hbelow := keyRun_below hlength.le hbefore hrun
  have hitem := hsigned before.length item (by simp)
  exact passesNonceCheck_of_below hcoherent hitem hbelow (firstUseNonceFloor_lt hlength)
    (nonce_lt_upperBound hlength hlater hbound)

end Processing

def sampleFirst (i : Nat) : Inclusion where
  applyState := .sample (5 + i) 0
  tx := sampleTransaction BitInfinity.sampleAddress foundationAccountId (4000001 + i)
    [.basic (.transfer 0)]
  nonExpired := true

theorem sampleTip_nextNonce (w : World)
    (hcache : w.rpc.nonceCache BitInfinity.sampleAddress = none) :
    (nextNonce BitInfinity.sampleAddress "").Ends (World.atTip 4) w (.ok 4000001) w := by
  refine Prog.ends_bind_ok.mpr ⟨none, w, Prog.ends_request.mpr ⟨none, hcache.symm, rfl, rfl⟩, ?_⟩
  refine Prog.ends_bind_ok.mpr ⟨4000000, w, ?_, .done⟩
  refine Prog.ends_bind_ok.mpr ⟨.error "unknown key", w,
    Prog.ends_request.mpr ⟨_, ⟨_, rfl⟩, rfl, rfl⟩, ?_⟩
  refine Prog.ends_bind_ok.mpr ⟨.ok ⟨"", 4⟩, w, Prog.ends_request.mpr ⟨.ok ⟨"", 4⟩, ?_, rfl, rfl⟩,
    .done⟩
  rintro status ⟨⟩
  rfl

/-- The second transaction follows the first in the next block. -/
theorem first_nonces_accepted_second : ∃ q : ProcessingState .sample,
      processTransaction (.sample 5 0) (.start (samplePatoshiTrie 2000))
        ((sampleFirst 0).tx, true) = .ok q ∧
      PassesNonceCheck (.sample 6 0) (.start q.trie)
        (sampleFirst 1).tx := by
  have hsome : ((processTransaction (.sample 5 0)
      (.start (samplePatoshiTrie 2000))
        ((sampleFirst 0).tx, true)).toOption).isSome = true := by decide +kernel
  cases hq : processTransaction (.sample 5 0)
      (.start (samplePatoshiTrie 2000)) ((sampleFirst 0).tx, true) with
  | error e => simp [hq, Except.toOption] at hsome
  | ok q =>
    have hsigned : ∀ i item, [sampleFirst 0, sampleFirst 1][i]? = some item →
        SignedWith .sample BitInfinity.sampleAddress
          (.secp256k1 BitInfinity.sampleKey) (4000001 + i) item.tx := by
      intro i item hitem
      cases i with
      | zero =>
        cases hitem
        exact ⟨rfl, rfl, rfl, by decide +kernel⟩
      | succ i =>
        cases i with
        | zero =>
          cases hitem
          exact ⟨rfl, rfl, rfl, by decide +kernel⟩
        | succ i => cases hitem
    have hheights : ∀ item ∈ [sampleFirst 0, sampleFirst 1],
        4 < item.applyState.blockHeight ∧ item.applyState.blockHeight * 1000000 < 2 ^ 64 := by
      simp [sampleFirst, ApplyState.sample]
    have hrun : Run (KeyStep .sample BitInfinity.sampleAddress
        (.secp256k1 BitInfinity.sampleKey)) none [sampleFirst 0]
        (q.trie.getAccessKey BitInfinity.sampleAddress (.secp256k1 BitInfinity.sampleKey)) :=
      .single ⟨_, q, coherent_start _, rfl, hq, rfl⟩
    have hempty : RpcState.nonceCache (.new "mainnet" .absent (fun _ => none) 0)
        BitInfinity.sampleAddress = none := rfl
    exact ⟨q, rfl, first_nonces_accepted hempty (sampleTip_nextNonce (.start _) hempty)
      (by decide) hsigned hheights rfl hrun (coherent_start _) rfl⟩

end BitInfinity.Proxy
