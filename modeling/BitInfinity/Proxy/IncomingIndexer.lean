import BitInfinity.Foundation.FinmapSum
import BitInfinity.Foundation.Utf8
import BitInfinity.Proxy.BitcoinTransaction
import BitInfinity.Proxy.RpcState
import BitInfinity.Tools.GenesisBuilder

/-!
# The indexer of incoming transfers

A background task looks at the balances of the watched addresses whenever the chain has grown.
When a balance has risen it records the whole satoshis of the rise as an incoming transfer, and
compares with the new balance the next time.  What is below a satoshi in a rise is recorded
nowhere.
-/

namespace BitInfinity.Proxy

open BitInfinity Foundation

/-! ## The cache of transactions -/

structure IncomingTx where
  receiverId : String
  amountSatoshis : Nat
  blockHeight : Nat
  deriving DecidableEq, Repr

/-- An entry of the cache; those that the indexer has found hold more. -/
structure CachedTx where
  entry : TxCacheEntry
  incoming : Option IncomingTx
  deriving DecidableEq, Repr

abbrev TxTable := Finmap fun _ : String => CachedTx

def insertIncoming (cache : TxTable) (btcTxid nearTxHash senderId receiverId : String)
    (amountSatoshis blockHeight : Nat) : TxTable :=
  cache.insert btcTxid
    { entry :=
        { nearTxHash
          rawHex := "incoming:" ++ receiverId ++ ":" ++ toString amountSatoshis
          senderId }
      incoming := some ⟨receiverId, amountSatoshis, blockHeight⟩ }

def receivedOf (address : String) (tx : CachedTx) : Nat :=
  match tx.incoming with
  | some incoming => if incoming.receiverId = address then incoming.amountSatoshis else 0
  | none => 0

/-- What the incoming entries of an address add up to. -/
def received (address : String) (cache : TxTable) : Nat :=
  sumEntries (fun _ => receivedOf address) cache

/-! ## Polling -/

/-- What the node and the wallet say during one round: the height of the chain, the addresses
with a key in the order of the hash map, the balances, and the hash of the block. -/
structure Poll where
  status : Option Nat
  keyAddresses : List String
  nodup_keyAddresses : keyAddresses.Nodup
  watchOnly : List String
  viewAccount : String → Option String
  blockHash : Option String

structure Indexer where
  lastIndexedHeight : Nat
  balanceSnapshot : String → Option String
  txCache : TxTable

def Poll.allAddresses (p : Poll) : List String :=
  p.watchOnly.foldl (fun addrs wo => if wo ∈ addrs then addrs else addrs ++ [wo]) p.keyAddresses

def yoctoOf (balance : String) : Nat := (Tools.parseU128 balance).toOption.getD 0

def incomingTxid (C : Crypto) (addr : String) (height satoshis : Nat) : String :=
  String.ofList (hexEncode (C.sha256 (Foundation.utf8Bytes
    ("incoming:" ++ addr ++ ":" ++ toString height ++ ":" ++ toString satoshis).toList)))

namespace Indexer

/-- Height and balances when the task starts; a balance that cannot be read is left out. -/
def start (height : Nat) (addrs : List String) (viewAccount : String → Option String)
    (txCache : TxTable) : Indexer where
  lastIndexedHeight := height
  balanceSnapshot addr := if addr ∈ addrs then viewAccount addr else none
  txCache := txCache

variable (C : Crypto)

/-- A transfer whose id is in the cache is taken for one that was indexed before, and then the
snapshot stays as it is. -/
def indexAddress (p : Poll) (height : Nat) (s : Indexer) (addr : String) : Indexer :=
  match p.viewAccount addr with
  | none => s
  | some newBalance =>
    let snap (s : Indexer) : Indexer :=
      { s with balanceSnapshot := Function.update s.balanceSnapshot addr (some newBalance) }
    let newYocto := yoctoOf newBalance
    let oldYocto := yoctoOf ((s.balanceSnapshot addr).getD "0")
    if oldYocto < newYocto then
      let deltaSatoshis := (newYocto - oldYocto) / yoctoPerSatoshi % 2 ^ 64
      if 0 < deltaSatoshis then
        let txid := incomingTxid C addr height deltaSatoshis
        if (s.txCache.lookup txid).isSome then s
        else
          let blockHash := p.blockHash.getD ("block:" ++ toString height)
          snap { s with
            txCache :=
              insertIncoming s.txCache txid blockHash "external" addr deltaSatoshis height }
      else snap s
    else snap s

def poll (s : Indexer) (p : Poll) : Indexer :=
  match p.status with
  | none => s
  | some height =>
    if height ≤ s.lastIndexedHeight then s
    else
      { p.allAddresses.foldl (indexAddress C p height) s with lastIndexedHeight := height }

def run (s : Indexer) (polls : List Poll) : Indexer := polls.foldl (poll C) s

end Indexer

theorem Poll.nodup_allAddresses (p : Poll) : p.allAddresses.Nodup := by
  have hfold : ∀ (watchOnly addrs : List String), addrs.Nodup →
      (watchOnly.foldl (fun addrs wo => if wo ∈ addrs then addrs else addrs ++ [wo])
        addrs).Nodup := by
    intro watchOnly
    induction watchOnly with
    | nil =>
      intro addrs h
      exact h
    | cons wo watchOnly ih =>
      intro addrs h
      rw [List.foldl_cons]
      refine ih _ ?_
      split
      · exact h
      · next hwo => exact List.concat_eq_append ▸ h.concat hwo
  exact hfold p.watchOnly p.keyAddresses p.nodup_keyAddresses

/-! ## One address -/

/-- The cache after a visit to an address: at most one entry more, under a new id. -/
inductive CacheStep (C : Crypto) (addr : String) (height : Nat) (cache : TxTable) :
    TxTable → Prop
  | same : CacheStep C addr height cache cache
  | recorded {hash satoshis} :
      cache.lookup (incomingTxid C addr height satoshis) = none → satoshis < 2 ^ 64 →
      CacheStep C addr height cache (insertIncoming cache (incomingTxid C addr height satoshis)
        hash "external" addr satoshis height)

section OneAddress

variable {C : Crypto} {p : Poll} {height : Nat} {s : Indexer} {addr other : String}
  {cache cache' : TxTable}

theorem received_insertIncoming {txid hash : String} {satoshis : Nat}
    (hnew : cache.lookup txid = none) :
    received other (insertIncoming cache txid hash "external" addr satoshis height) =
      received other cache + if addr = other then satoshis else 0 :=
  sumEntries_insert hnew

theorem CacheStep.received_other (h : CacheStep C addr height cache cache') (hne : addr ≠ other) :
    received other cache' = received other cache := by
  cases h with
  | same => rfl
  | recorded hnew _ => rw [received_insertIncoming hnew, if_neg hne, Nat.add_zero]

theorem CacheStep.lookup_eq_none (h : CacheStep C addr height cache cache') {txid : String}
    (hnone : cache.lookup txid = none)
    (hne : ∀ satoshis < 2 ^ 64, txid ≠ incomingTxid C addr height satoshis) :
    cache'.lookup txid = none := by
  cases h with
  | same => exact hnone
  | recorded _ hword => rw [insertIncoming, Finmap.lookup_insert_of_ne _ (hne _ hword), hnone]

theorem indexAddress_step :
    CacheStep C addr height s.txCache (s.indexAddress C p height addr).txCache ∧ ∀ other ≠ addr,
        (s.indexAddress C p height addr).balanceSnapshot other = s.balanceSnapshot other := by
  unfold Indexer.indexAddress
  split
  · exact ⟨.same, fun _ _ => rfl⟩
  · dsimp only
    split
    · split
      · split
        · exact ⟨.same, fun _ _ => rfl⟩
        · rename_i hnew
          exact ⟨.recorded (Option.not_isSome_iff_eq_none.mp hnew)
            (Nat.mod_lt _ (Nat.two_pow_pos 64)), fun _ hne => Function.update_of_ne hne _ _⟩
      · exact ⟨.same, fun _ hne => Function.update_of_ne hne _ _⟩
    · exact ⟨.same, fun _ hne => Function.update_of_ne hne _ _⟩

theorem indexAddress_rise {old new : String} (hview : p.viewAccount addr = some new)
    (hold : s.balanceSnapshot addr = some old) (hle : yoctoOf old ≤ yoctoOf new)
    (hword : yoctoOf new < 2 ^ 64 * yoctoPerSatoshi)
    (hfresh : ∀ satoshis < 2 ^ 64, s.txCache.lookup (incomingTxid C addr height satoshis) = none) :
    (s.indexAddress C p height addr).balanceSnapshot addr = some new ∧
      received addr (s.indexAddress C p height addr).txCache =
        received addr s.txCache + (yoctoOf new - yoctoOf old) / yoctoPerSatoshi := by
  have hdelta : (yoctoOf new - yoctoOf old) / yoctoPerSatoshi < 2 ^ 64 :=
    Nat.div_lt_of_lt_mul (by rw [Nat.mul_comm]; omega)
  have hnew := hfresh _ hdelta
  rw [Indexer.indexAddress, hview, hold]
  dsimp only [Option.getD_some]
  rw [Nat.mod_eq_of_lt hdelta]
  split
  · split
    · rw [if_neg (by rw [hnew]; decide)]
      refine ⟨Function.update_self _ _ _, ?_⟩
      rw [received_insertIncoming hnew, if_pos rfl]
    · rename_i hzero
      refine ⟨Function.update_self _ _ _, ?_⟩
      rw [Nat.eq_zero_of_not_pos hzero]
      rfl
  · refine ⟨Function.update_self _ _ _, ?_⟩
    rw [Nat.sub_eq_zero_of_le (by omega), Nat.zero_div]
    rfl

end OneAddress

/-! ## One round -/

section OneRound

variable {C : Crypto} {p : Poll} {height : Nat} {s : Indexer} {addr : String}

theorem foldl_indexAddress_lookup (addrs : List String) {txid : String}
    (hnone : s.txCache.lookup txid = none)
    (hne : ∀ a ∈ addrs, ∀ satoshis < 2 ^ 64, txid ≠ incomingTxid C a height satoshis) :
    (addrs.foldl (.indexAddress C p height) s).txCache.lookup txid = none := by
  induction addrs generalizing s with
  | nil => exact hnone
  | cons a addrs ih =>
    refine ih ?_ fun b hb => hne b (by simp [hb])
    exact indexAddress_step.1.lookup_eq_none hnone (hne a (by simp))

theorem foldl_indexAddress_others {addrs : List String} (hmem : addr ∉ addrs) :
    (addrs.foldl (.indexAddress C p height) s).balanceSnapshot addr =
        s.balanceSnapshot addr ∧
      received addr (addrs.foldl (.indexAddress C p height) s).txCache =
        received addr s.txCache := by
  induction addrs generalizing s with
  | nil => exact ⟨rfl, rfl⟩
  | cons a addrs ih =>
    have hne : addr ≠ a := fun h => hmem (by simp [h])
    obtain ⟨hsnapshot, hreceived⟩ := @ih (s.indexAddress C p height a) fun h => hmem (by simp [h])
    exact ⟨hsnapshot.trans (indexAddress_step.2 addr hne),
      hreceived.trans (indexAddress_step.1.received_other hne.symm)⟩

theorem poll_rise {old new : String} (hstatus : p.status = some height)
    (hheight : s.lastIndexedHeight < height) (hmem : addr ∈ p.allAddresses)
    (hview : p.viewAccount addr = some new) (hold : s.balanceSnapshot addr = some old)
    (hle : yoctoOf old ≤ yoctoOf new) (hword : yoctoOf new < 2 ^ 64 * yoctoPerSatoshi)
    (hfresh : ∀ satoshis < 2 ^ 64, s.txCache.lookup (incomingTxid C addr height satoshis) = none)
    (hdistinct : ∀ a ∈ p.allAddresses, ∀ satoshis < 2 ^ 64, ∀ satoshis' < 2 ^ 64,
      incomingTxid C a height satoshis = incomingTxid C addr height satoshis' → a = addr) :
    (s.poll C p).lastIndexedHeight = height ∧ (s.poll C p).balanceSnapshot addr = some new ∧
      received addr (s.poll C p).txCache =
        received addr s.txCache + (yoctoOf new - yoctoOf old) / yoctoPerSatoshi := by
  obtain ⟨before, after, hsplit⟩ := List.append_of_mem hmem
  have hnodup := p.nodup_allAddresses
  rw [hsplit, List.nodup_append] at hnodup
  have hbefore : addr ∉ before := fun h => hnodup.2.2 addr h addr (by simp) rfl
  have hafter : addr ∉ after := (List.nodup_cons.mp hnodup.2.1).1
  obtain ⟨hsnapshot, hreceived⟩ := @foldl_indexAddress_others C p height s addr before hbefore
  have hstill : ∀ satoshis < 2 ^ 64, (before.foldl (.indexAddress C p height) s
      ).txCache.lookup (incomingTxid C addr height satoshis) = none := by
    intro satoshis hsatoshis
    refine foldl_indexAddress_lookup before (hfresh satoshis hsatoshis) ?_
    intro a ha satoshis' hsatoshis' heq
    refine hbefore ?_
    rw [← hdistinct a (by simp [hsplit, ha]) satoshis' hsatoshis' satoshis hsatoshis heq.symm]
    exact ha
  obtain ⟨hnew, hrise⟩ := @indexAddress_rise C p height
    (before.foldl (.indexAddress C p height) s) addr old new hview (hsnapshot.trans hold)
    hle hword hstill
  obtain ⟨hsnapshot', hreceived'⟩ := @foldl_indexAddress_others C p height
    ((before.foldl (.indexAddress C p height) s).indexAddress C p height addr) addr after
    hafter
  rw [Indexer.poll, hstatus]
  dsimp only
  rw [if_neg (Nat.not_le.mpr hheight), hsplit, List.foldl_append, List.foldl_cons]
  refine ⟨rfl, hsnapshot'.trans hnew, ?_⟩
  rw [hreceived', hrise, hreceived]

theorem poll_lookup {txid : String} (hstatus : p.status = some height)
    (hnone : s.txCache.lookup txid = none)
    (hne : ∀ a ∈ p.allAddresses, ∀ satoshis < 2 ^ 64, txid ≠ incomingTxid C a height satoshis) :
    (s.poll C p).txCache.lookup txid = none := by
  rw [Indexer.poll, hstatus]
  dsimp only
  split
  · exact hnone
  · exact foldl_indexAddress_lookup p.allAddresses hnone hne

end OneRound

/-! ## Runs -/

/-- In every round the chain has grown and the balance of the address is reported, and it never
falls. -/
inductive Rises (addr : String) : (height balance : Nat) → List Poll → List Nat → Prop
  | nil {height balance} : Rises addr height balance [] []
  | cons {height balance height' p amount polls balances} :
      p.status = some height' → height < height' → addr ∈ p.allAddresses →
      p.viewAccount addr = some amount → balance ≤ yoctoOf amount →
      yoctoOf amount < 2 ^ 64 * yoctoPerSatoshi →
      Rises addr height' (yoctoOf amount) polls balances →
      Rises addr height balance (p :: polls) (yoctoOf amount :: balances)

/-- The hash gives no id of the address twice: not to an entry of the cache, and not to another
address or in another round. -/
structure DistinctIds (C : Crypto) (addr : String) (cache : TxTable) (polls : List Poll) :
    Prop where
  unused : ∀ p ∈ polls, ∀ height, p.status = some height → ∀ satoshis < 2 ^ 64,
    cache.lookup (incomingTxid C addr height satoshis) = none
  distinct : ∀ p ∈ polls, ∀ q ∈ polls, ∀ height height', p.status = some height →
    q.status = some height' → ∀ a ∈ p.allAddresses, ∀ satoshis < 2 ^ 64, ∀ satoshis' < 2 ^ 64,
    incomingTxid C a height satoshis = incomingTxid C addr height' satoshis' →
    a = addr ∧ height = height'

def recordedSatoshis : Nat → List Nat → Nat
  | _, [] => 0
  | balance, next :: balances => (next - balance) / yoctoPerSatoshi + recordedSatoshis next balances

/-- What the rounds leave out, each of its own rise. -/
def lostYocto : Nat → List Nat → Nat
  | _, [] => 0
  | balance, next :: balances => (next - balance) % yoctoPerSatoshi + lostYocto next balances

section Runs

variable {C : Crypto} {addr : String} {s : Indexer} {polls : List Poll} {height balance : Nat}
  {balances : List Nat}

theorem Rises.lt_height (h : Rises addr height balance polls balances) :
    ∀ p ∈ polls, ∀ height', p.status = some height' → height < height' := by
  induction h with
  | nil => simp
  | cons hstatus hlt _ _ _ _ _ ih =>
    intro p hp height' hheight'
    rcases List.mem_cons.mp hp with rfl | hp
    · rw [Option.some.inj (hstatus.symm.trans hheight')] at hlt
      exact hlt
    · exact hlt.trans (ih p hp height' hheight')

theorem Rises.le_last (h : Rises addr height balance polls balances) :
    balance ≤ balances.getLastD balance := by
  induction h with
  | nil => exact Nat.le_refl _
  | cons _ _ _ _ hle _ _ ih =>
    rw [List.getLastD_cons]
    exact hle.trans ih

theorem Rises.recorded_add_lost (h : Rises addr height balance polls balances) :
    yoctoPerSatoshi * recordedSatoshis balance balances + lostYocto balance balances =
      balances.getLastD balance - balance := by
  induction h with
  | nil => simp [recordedSatoshis, lostYocto]
  | @cons height balance height' p amount polls balances _ _ _ _ hle _ htail ih =>
    have hlast := htail.le_last
    have hdiv := Nat.div_add_mod (yoctoOf amount - balance) yoctoPerSatoshi
    rw [recordedSatoshis, lostYocto, List.getLastD_cons, Nat.mul_add]
    omega

theorem DistinctIds.poll {p : Poll} (h : DistinctIds C addr s.txCache (p :: polls))
    (hstatus : p.status = some height)
    (hlater : ∀ q ∈ polls, ∀ height', q.status = some height' → height < height') :
    DistinctIds C addr (s.poll C p).txCache polls := by
  constructor
  · intro q hq height' hheight' satoshis hsatoshis
    refine poll_lookup hstatus (h.unused q (by simp [hq]) height' hheight' satoshis hsatoshis) ?_
    intro a ha satoshis' hsatoshis' heq
    have hsame := h.distinct p (by simp) q (by simp [hq]) height height' hstatus hheight' a ha
      satoshis' hsatoshis' satoshis hsatoshis heq.symm
    exact absurd hsame.2 (hlater q hq height' hheight').ne
  · intro q hq r hr
    exact h.distinct q (by simp [hq]) r (by simp [hr])

theorem received_run {old : String} (hold : s.balanceSnapshot addr = some old)
    (h : Rises addr s.lastIndexedHeight (yoctoOf old) polls balances)
    (hids : DistinctIds C addr s.txCache polls) :
    received addr (s.run C polls).txCache =
      received addr s.txCache + recordedSatoshis (yoctoOf old) balances := by
  generalize hheight : s.lastIndexedHeight = height at h
  generalize hbalance : yoctoOf old = balance at h
  induction h generalizing s old with
  | nil => rfl
  | @cons height balance height' p amount polls balances hstatus hlt hmem hview hle hword htail
      ih =>
    subst hheight hbalance
    obtain ⟨hlast, hsnapshot, hrise⟩ := poll_rise hstatus hlt hmem hview hold hle hword
      (hids.unused p (by simp) height' hstatus) fun a ha satoshis hs satoshis' hs' heq =>
        (hids.distinct p (by simp) p (by simp) height' height' hstatus hstatus a ha satoshis hs
          satoshis' hs' heq).1
    have hrest := ih hsnapshot (hids.poll hstatus htail.lt_height) hlast rfl
    refine hrest.trans ?_
    rw [hrise, recordedSatoshis, Nat.add_assoc]

end Runs

/-- The entries of an address add up to the whole satoshis that it has received as long as what
the rounds left out is less than one satoshi altogether. -/
theorem incoming_adds_up_iff (C : Crypto) (addr : String) (s : Indexer) (old : String)
    (hold : s.balanceSnapshot addr = some old) (polls : List Poll) (balances : List Nat)
    (hrises : Rises addr s.lastIndexedHeight (yoctoOf old) polls balances)
    (hids : DistinctIds C addr s.txCache polls) :
    received addr (s.run C polls).txCache = received addr s.txCache +
        (balances.getLastD (yoctoOf old) - yoctoOf old) / yoctoPerSatoshi ↔
      lostYocto (yoctoOf old) balances < yoctoPerSatoshi := by
  have hunit : 0 < yoctoPerSatoshi := Nat.pow_pos (by omega)
  rw [received_run hold hrises hids, ← hrises.recorded_add_lost, Nat.mul_add_div hunit,
    Nat.add_left_cancel_iff]
  constructor
  · intro h
    exact (Nat.div_eq_zero_iff_lt hunit).mp (by omega)
  · intro h
    rw [Nat.div_eq_of_lt h, Nat.add_zero]

/-! ## Two rounds -/

/-- The sample hash is the byte at which the height stands in the id of `alice`. -/
def sampleIndexerCrypto : Crypto := { Crypto.sample with sha256 := fun data => [data.getD 15 0] }

def samplePoll (height : Nat) (amount : String) : Poll where
  status := some height
  keyAddresses := ["alice"]
  nodup_keyAddresses := by decide
  watchOnly := []
  viewAccount addr := if addr = "alice" then some amount else none
  blockHash := none

def samplePolls (first second : String) : List Poll := [samplePoll 1 first, samplePoll 2 second]

def sampleIndexer : Indexer := .start 0 ["alice"] (fun _ => some "0") ∅

theorem incomingTxid_sample {height : Nat} (hheight : height = 1 ∨ height = 2) (satoshis : Nat) :
    incomingTxid sampleIndexerCrypto "alice" height satoshis =
      String.ofList (hexEncode [UInt8.ofNat (48 + height)]) := by
  rcases hheight with rfl | rfl
  · rw [incomingTxid, String.toList_append, utf8Bytes_append]
    dsimp only [sampleIndexerCrypto]
    rw [List.getD_eq_getElem?_getD, List.getElem?_append_left (by decide)]
    decide
  · rw [incomingTxid, String.toList_append, utf8Bytes_append]
    dsimp only [sampleIndexerCrypto]
    rw [List.getD_eq_getElem?_getD, List.getElem?_append_left (by decide)]
    decide

theorem distinctIds_samplePolls (first second : String) :
    DistinctIds sampleIndexerCrypto "alice" ∅ (samplePolls first second) := by
  have hheights : ∀ p ∈ samplePolls first second, ∀ height, p.status = some height →
      height = 1 ∨ height = 2 := by
    intro p hp height hstatus
    simp only [samplePolls, List.mem_cons, List.not_mem_nil, or_false] at hp
    rcases hp with rfl | rfl
    · exact .inl (Option.some.inj hstatus).symm
    · exact .inr (Option.some.inj hstatus).symm
  have haddresses : ∀ p ∈ samplePolls first second, p.allAddresses = ["alice"] := by
    simp [samplePolls, samplePoll, Poll.allAddresses]
  constructor
  · intro p _ height _ satoshis _
    exact Finmap.lookup_empty _
  · intro p hp q hq height height' hstatus hstatus' a ha satoshis _ satoshis' _ heq
    rw [haddresses p hp, List.mem_singleton] at ha
    subst ha
    refine ⟨rfl, ?_⟩
    have hheight := hheights p hp height hstatus
    have hheight' := hheights q hq height' hstatus'
    rw [incomingTxid_sample hheight, incomingTxid_sample hheight'] at heq
    rcases hheight with rfl | rfl
    · rcases hheight' with rfl | rfl
      · rfl
      · exact absurd heq (by decide)
    · rcases hheight' with rfl | rfl
      · exact absurd heq (by decide)
      · rfl

theorem rises_samplePolls :
    Rises "alice" 0 (yoctoOf "0") (samplePolls "20000000000000000" "30000000000000000")
      [yoctoOf "20000000000000000", yoctoOf "30000000000000000"] :=
  .cons rfl (by decide) (by decide) rfl (by decide +kernel) (by decide +kernel)
    (.cons rfl (by decide) (by decide) rfl (by decide +kernel) (by decide +kernel) .nil)

theorem incoming_adds_up_two_rounds :
    received "alice" (sampleIndexer.run sampleIndexerCrypto
      (samplePolls "20000000000000000" "30000000000000000")).txCache = 3 := by
  have h := (incoming_adds_up_iff sampleIndexerCrypto "alice" sampleIndexer "0" rfl _ _
    rises_samplePolls (distinctIds_samplePolls _ _)).mpr (by decide +kernel)
  decide +kernel

/-- Half a satoshi and half a satoshi: nothing is recorded of the satoshi received. -/
theorem incoming_halves_are_lost : sampleIndexer.balanceSnapshot "alice" = some "0" ∧
    Rises "alice" sampleIndexer.lastIndexedHeight (yoctoOf "0")
      (samplePolls "5000000000000000" "10000000000000000")
      [yoctoOf "5000000000000000", yoctoOf "10000000000000000"] ∧
    DistinctIds sampleIndexerCrypto "alice" sampleIndexer.txCache
      (samplePolls "5000000000000000" "10000000000000000") ∧
    received "alice" (sampleIndexer.run sampleIndexerCrypto
      (samplePolls "5000000000000000" "10000000000000000")).txCache = 0 ∧
    received "alice" sampleIndexer.txCache +
      (yoctoOf "10000000000000000" - yoctoOf "0") / yoctoPerSatoshi = 1 := by
  refine ⟨rfl, ?_, distinctIds_samplePolls _ _, ?_, by decide +kernel⟩
  · exact .cons rfl (by decide) (by decide) rfl (by decide +kernel) (by decide +kernel)
      (.cons rfl (by decide) (by decide) rfl (by decide +kernel) (by decide +kernel) .nil)
  · decide +kernel

end BitInfinity.Proxy
