import BitInfinity.Runtime.PrepareSigners

/-!
# One more group in the pool

Two runs of the selection loop, with and without one group.  Up to the first visit of the group
they take the same turns.  After it the run with the group is ahead: it has visited more and
spent more, so a limit that stops the other run stops it as well.
-/

namespace BitInfinity

open Foundation

section Visits

variable {E : Externals} {ctx : PrepareContext} {t t' : Trie E} {group : TransactionGroup}
  {signer : SignerCache} {tx : SignedTransaction} {totalSize totalSize' : Nat}

/-! ## What a visit loads and stores -/

variable {a : AccountId} {cache : Option SignerCache} {txs : List SignedTransaction}

theorem loadSigner_congr (h : t.entries tx.transaction.signerId = t'.entries
    tx.transaction.signerId) : loadSigner t tx = loadSigner t' tx := by
  unfold loadSigner signerAccessKey signerGasKeyNonce Trie.getAccount Trie.getAccessKey
    Trie.getGasKeyNonce
  rw [h]

theorem entries_store_of_ne (h : a ≠ signer.accountId) :
    (signer.store t).entries a = t.entries a := by
  unfold SignerCache.store SignerCache.storeNonce
  cases signer.gasKeyNonce <;> simp [Trie.setAccessKey, Trie.setGasKeyNonce, Trie.setAccount, h]

theorem entries_store_congr (h : t.entries a = t'.entries a) :
    (signer.store t).entries a = (signer.store t').entries a := by
  by_cases ha : a = signer.accountId
  · subst ha
    unfold SignerCache.store SignerCache.storeNonce
    cases signer.gasKeyNonce <;> simp [Trie.setAccessKey, Trie.setGasKeyNonce, Trie.setAccount, h]
  · rw [entries_store_of_ne ha, entries_store_of_ne ha, h]

/-- The cache holds the signer of the group, whose account and nonce are in the trie. -/
structure Serves (t : Trie E) (group : TransactionGroup) (signer : SignerCache) : Prop where
  accountId_eq : signer.accountId = group.signerId
  publicKey_eq : signer.publicKey = group.publicKey
  account : t.getAccount group.signerId ≠ none
  gasKeyNonce : ∀ index, group.nonceIndex = some index →
    t.getGasKeyNonce group.signerId group.publicKey index ≠ none

theorem serves_of_loadSigner (hmem : tx ∈ group.transactions)
    (h : loadSigner t tx = .ok signer) : Serves t group signer := by
  obtain ⟨hsigner, hkey, hindex⟩ := group.same_key tx hmem
  have hloads : SignerLoads t tx := by
    rcases loadSigner_cases t tx with ⟨hloads, -⟩ | ⟨-, herror⟩
    · exact hloads
    · cases herror.symm.trans h
  obtain ⟨account, -, h⟩ := bind_eq_ok.mp h
  obtain ⟨_, -, h⟩ := bind_eq_ok.mp h
  obtain ⟨_, -, h⟩ := bind_eq_ok.mp h
  cases h
  exact ⟨hsigner, hkey, hsigner ▸ hloads.account, hsigner ▸ hkey ▸ hindex ▸ hloads.gasKeyNonce⟩

theorem Serves.charge {C : Crypto} {tx : Transaction} {signer' : SignerCache} {stop : Option Gas}
    (h : Serves t group signer) (hcharge : signer.charge ctx C tx = (signer', stop)) :
    Serves t group signer' := by
  rw [show signer' = (signer.charge ctx C tx).1 by rw [hcharge], SignerCache.charge]
  split
  · exact h
  · split <;> exact ⟨h.accountId_eq, h.publicKey_eq, h.account, h.gasKeyNonce⟩

/-- After the visit all transactions of the group load, whichever key they are signed with: the
key of the signer has been stored. -/
theorem Serves.signerLoads (h : Serves t group signer) (hmem : tx ∈ group.transactions) :
    SignerLoads (signer.store t) tx := by
  obtain ⟨hsigner, hkey, hindex⟩ := group.same_key tx hmem
  refine ⟨?_, .inl ?_, fun index hi => ?_⟩
  · simp [getAccount_store, hsigner, h.accountId_eq]
  · simp [getAccessKey_store, hsigner, hkey, h.accountId_eq, h.publicKey_eq]
  · have hnonce := h.gasKeyNonce index (hindex ▸ hi)
    rw [getGasKeyNonce_store, hsigner, hkey]
    unfold nonceAfter
    split
    · split
      · simp
      · exact hnonce
    · exact hnonce

theorem visitGroup_serves {v : Visit}
    (hsub : ∀ tx ∈ txs, tx ∈ group.transactions) (hcache : ∀ signer ∈ cache, Serves t group signer)
    (h : visitGroup ctx t totalSize cache txs = .ok v) :
    ∀ signer ∈ v.signerCache, Serves t group signer := by
  induction txs generalizing cache v with
  | nil =>
    cases h
    exact hcache
  | cons tx txs ih =>
    have hrest : ∀ tx' ∈ txs, tx' ∈ group.transactions := fun tx' hmem =>
      hsub tx' (List.mem_cons_of_mem _ hmem)
    rcases visitGroup_cons cache tx txs h with
      rfl | ⟨v', hv', rfl | rfl⟩ | ⟨signer, hsigner, hcharge⟩
    · exact hcache
    · exact (ih hrest hcache hv' :)
    · exact (ih hrest hcache hv' :)
    · have hserves : Serves t group signer := by
        cases cache with
        | some cached =>
          cases hsigner
          exact hcache _ rfl
        | none => exact serves_of_loadSigner (hsub tx List.mem_cons_self) hsigner
      rcases hcharge with ⟨_, _, hcharge, rfl⟩ | ⟨signer', v', hcharge, hv', rfl⟩
      · rintro _ ⟨⟩
        exact hserves.charge hcharge
      · refine (ih hrest ?_ hv' :)
        rintro _ ⟨⟩
        exact hserves.charge hcharge

/-- A visit that loads no signer takes all transactions out, if it is not stopped by the size. -/
theorem visitGroup_taken_of_unsigned {v : Visit} (h : visitGroup ctx t totalSize cache txs = .ok v)
    (hnone : v.signerCache = none) (hend : v.ending ≠ .sizeLimit) : v.taken = txs.length := by
  induction txs generalizing cache v with
  | nil =>
    cases h
    rfl
  | cons tx txs ih =>
    rcases visitGroup_cons cache tx txs h with
      rfl | ⟨v', hv', rfl | rfl⟩ | ⟨_, _, ⟨_, _, _, rfl⟩ | ⟨_, v', _, hv', rfl⟩⟩
    · exact absurd rfl hend
    · exact congrArg (· + 1) (ih hv' hnone hend)
    · exact congrArg (· + 1) (ih hv' hnone hend)
    · cases hnone
    · exact congrArg (· + 1) (ih hv' hnone hend)

/-- A visit with less in the chunk goes the same way, unless it was stopped by the size. -/
theorem visitGroup_of_le (cache : Option SignerCache) (txs : List SignedTransaction)
    (hload : ∀ tx ∈ txs, loadSigner t' tx = loadSigner t tx) (hsize : totalSize' ≤ totalSize) :
    visitGroup ctx t' totalSize' cache txs = visitGroup ctx t totalSize cache txs ∨
      ∃ v, visitGroup ctx t totalSize cache txs = .ok v ∧ v.ending = .sizeLimit := by
  induction txs generalizing cache with
  | nil => exact .inl rfl
  | cons tx txs ih =>
    have ih := fun cache => ih cache fun tx' hmem => hload tx' (List.mem_cons_of_mem _ hmem)
    have hmap : ∀ cache (f : Visit → Visit), (∀ v, (f v).ending = v.ending) →
        (visitGroup ctx t' totalSize' cache txs).map f =
          (visitGroup ctx t totalSize cache txs).map f ∨
        ∃ v, (visitGroup ctx t totalSize cache txs).map f = .ok v ∧ v.ending = .sizeLimit := by
      intro cache f hf
      rcases ih cache with heq | ⟨v, hv, hend⟩
      · exact .inl (by rw [heq])
      · exact .inr ⟨f v, by rw [hv]; rfl, (hf v).trans hend⟩
    have hle : saturatingAdd 64 totalSize' (E.transactionSize tx) ≤
        saturatingAdd 64 totalSize (E.transactionSize tx) := by
      unfold saturatingAdd
      omega
    unfold visitGroup
    by_cases hlimit : ctx.sizeLimit < saturatingAdd 64 totalSize (E.transactionSize tx)
    · exact .inr ⟨_, if_pos hlimit, rfl⟩
    · rw [if_neg hlimit, if_neg (by omega)]
      rcases admission E ctx tx with e | _ | _ | _
      · exact .inl rfl
      · exact hmap cache _ fun _ => rfl
      · exact hmap cache _ fun _ => rfl
      · have hsigner : signerFor t' tx cache = signerFor t tx cache := by
          cases cache with
          | none => exact hload tx List.mem_cons_self
          | some _ => rfl
        simp only [ok_bind, hsigner]
        cases signerFor t tx cache with
        | error e => exact .inl rfl
        | ok signer =>
          simp only [ok_bind]
          split
          · exact .inl rfl
          · exact hmap _ _ fun _ => rfl

end Visits

/-! ## Two runs -/

namespace PrepareState

section Trailing

variable {E : Externals} {ctx : PrepareContext} {led : AccountId → Bool} {v : Visit}
  {s s' b e e' : PrepareState E} {group : TransactionGroup} {groups : List TransactionGroup}

theorem step_of_visit (hgroups : s.groups = group :: groups) (hne : group.transactions ≠ [])
    (hlimit : s.limit ctx = none) :
    s.step ctx = (visitGroup ctx s.stateUpdate s.totalSize none group.transactions).bind
      (s.conclude group groups) := by
  unfold step
  rw [hgroups]
  simp only [List.isEmpty_iff, hne, if_false, hlimit]
  rfl

/-- What the queue keeps of a visited group loads. -/
theorem signerLoads_of_visit {tx : SignedTransaction}
    (hvisit : visitGroup ctx s.stateUpdate s.totalSize none group.transactions = .ok v)
    (hend : v.ending ≠ .sizeLimit) (hmem : tx ∈ (group.drop v.taken).transactions) :
    SignerLoads (s.leave group groups v).stateUpdate tx := by
  cases hcache : v.signerCache with
  | none =>
    have htaken := visitGroup_taken_of_unsigned hvisit hcache hend
    simp [TransactionGroup.drop, htaken] at hmem
  | some signer =>
    have hserves := visitGroup_serves (fun _ h => h) (by simp) hvisit signer hcache
    simp only [leave, hcache, Option.elim_some]
    exact hserves.signerLoads (List.mem_of_mem_drop hmem)

/-- The state `b` of a run that skips the groups of the accounts `led`, against the state `e` of
a run that visits them too and is ahead. -/
structure Trails (ctx : PrepareContext) (led : AccountId → Bool) (b e : PrepareState E) :
    Prop where
  groups_eq : b.groups = e.groups.filter fun g => !led g.signerId
  loads : ∀ g ∈ e.groups, led g.signerId = true → ∀ tx ∈ g.transactions,
    SignerLoads e.stateUpdate tx
  entries_eq : ∀ a, led a = false → b.stateUpdate.entries a = e.stateUpdate.entries a
  totalGasBurnt_le : b.totalGasBurnt ≤ e.totalGasBurnt
  totalSize_le : b.totalSize ≤ e.totalSize
  visits_le : b.visits ≤ e.visits
  uninterrupted : ∀ n < e.visits, ctx.interrupted n = none

theorem limit_eq_none : s.limit ctx = none ↔ s.totalGasBurnt < ctx.transactionsGasLimit ∧
    s.totalSize < ctx.sizeLimit ∧ ctx.interrupted s.visits = none := by
  unfold limit
  simp only [← Nat.not_le]
  split_ifs <;> simp_all

theorem uninterrupted_leave (h : ∀ n < s.visits, ctx.interrupted n = none)
    (hlimit : s.limit ctx = none) (group : TransactionGroup) (groups : List TransactionGroup)
    (v : Visit) : ∀ n < (s.leave group groups v).visits, ctx.interrupted n = none := by
  intro n hn
  rcases Nat.lt_succ_iff_lt_or_eq.mp hn with hn | rfl
  · exact h n hn
  · exact (limit_eq_none.mp hlimit).2.2

theorem Trails.limit (h : Trails ctx led b e) (hlimit : e.limit ctx = none) :
    b.limit ctx = none := by
  obtain ⟨hgas, hsize, hinterrupted⟩ := limit_eq_none.mp hlimit
  refine limit_eq_none.mpr ⟨h.totalGasBurnt_le.trans_lt hgas, h.totalSize_le.trans_lt hsize, ?_⟩
  rcases h.visits_le.lt_or_eq with hlt | heq
  · exact h.uninterrupted _ hlt
  · rw [heq, hinterrupted]

/-- The other run stays where it is while the leading one visits a group of `led`. -/
theorem Trails.lead (h : Trails ctx led b { e with groups }) (hgroups : e.groups = group :: groups)
    (hled : led group.signerId = true) (hturn : Turn ctx e e') : Trails ctx led b e' := by
  have hleave : ∀ v, visitGroup ctx e.stateUpdate e.totalSize none group.transactions = .ok v →
      v.ending ≠ .sizeLimit → e.limit ctx = none → Trails ctx led b (e.leave group groups v) := by
    intro v hvisit hend hlimit
    refine ⟨?_, ?_, ?_, h.totalGasBurnt_le, h.totalSize_le, h.visits_le.trans (Nat.le_succ _),
      uninterrupted_leave h.uninterrupted hlimit group groups v⟩
    · simpa [leave, TransactionGroup.drop, hled] using h.groups_eq
    · intro g hg hg' tx hmem
      rcases List.mem_append.mp hg with hg | hg
      · exact signerLoads_leave (h.loads g hg hg' tx hmem) _ _ _
      · obtain rfl := List.mem_singleton.mp hg
        exact signerLoads_of_visit hvisit hend hmem
    · intro a ha
      rw [h.entries_eq a ha]
      unfold leave
      cases hcache : v.signerCache with
      | none => rfl
      | some signer =>
        have hserves := visitGroup_serves (fun _ h => h) (by simp) hvisit signer hcache
        refine (entries_store_of_ne ?_).symm
        rintro rfl
        simp [hserves.accountId_eq, hled] at ha
  cases hturn with
  | discard hgroups' =>
    obtain ⟨rfl, rfl⟩ := List.cons.inj (hgroups.symm.trans hgroups')
    exact h
  | drain hgroups' hne hvisit hend hlimit =>
    obtain ⟨rfl, rfl⟩ := List.cons.inj (hgroups.symm.trans hgroups')
    exact hleave _ hvisit (by simp [hend]) hlimit
  | select hgroups' hne hvisit hend hgas hlimit =>
    obtain ⟨rfl, rfl⟩ := List.cons.inj (hgroups.symm.trans hgroups')
    have hl := hleave _ hvisit (by simp [hend]) hlimit
    exact { hl with
      totalGasBurnt_le := hl.totalGasBurnt_le.trans (Nat.le_add_right _ _)
      totalSize_le := hl.totalSize_le.trans (Nat.le_add_right _ _) }

theorem Trails.visit (h : Trails ctx led b e) (hled : led group.signerId = false) :
    visitGroup ctx b.stateUpdate b.totalSize none group.transactions =
        visitGroup ctx e.stateUpdate e.totalSize none group.transactions ∨
      ∃ v, visitGroup ctx e.stateUpdate e.totalSize none group.transactions = .ok v ∧
        v.ending = .sizeLimit :=
  visitGroup_of_le _ _ (fun tx hmem => loadSigner_congr <| h.entries_eq _ <|
    (group.same_key tx hmem).1 ▸ hled) h.totalSize_le

/-- The other run takes the same turn when the leading one visits a group that both have. -/
theorem Trails.follow (h : Trails ctx led b e) (hgroups : e.groups = group :: groups)
    (hled : led group.signerId = false) (hturn : Turn ctx e e') :
    ∃ b', b.step ctx = .ok (.inl b') ∧ Trails ctx led b' e' := by
  have hb : b.groups = group :: groups.filter fun g => !led g.signerId := by
    rw [h.groups_eq, hgroups, List.filter_cons_of_pos (by simp [hled])]
  have hrest : ∀ g ∈ groups, led g.signerId = true → ∀ tx ∈ g.transactions,
      SignerLoads e.stateUpdate tx := fun g hg => h.loads g (by simp [hgroups, hg])
  have hleave : ∀ v, e.limit ctx = none → Trails ctx led
      (b.leave group (groups.filter fun g => !led g.signerId) v) (e.leave group groups v) := by
    intro v hlimit
    refine ⟨by simp [leave, TransactionGroup.drop, hled], ?_, ?_, h.totalGasBurnt_le,
      h.totalSize_le, Nat.succ_le_succ h.visits_le,
      uninterrupted_leave h.uninterrupted hlimit group groups v⟩
    · intro g hg hg' tx hmem
      rcases List.mem_append.mp hg with hg | hg
      · exact signerLoads_leave (hrest g hg hg' tx hmem) _ _ _
      · obtain rfl := List.mem_singleton.mp hg
        simp [TransactionGroup.drop, hled] at hg'
    · intro a ha
      unfold leave
      cases v.signerCache with
      | none => exact h.entries_eq a ha
      | some signer => exact entries_store_congr (h.entries_eq a ha)
  have hvisited : ∀ v, visitGroup ctx e.stateUpdate e.totalSize none group.transactions = .ok v →
      v.ending ≠ .sizeLimit →
      visitGroup ctx b.stateUpdate b.totalSize none group.transactions = .ok v := by
    intro v hvisit hend
    rcases h.visit hled with heq | ⟨v', hv', hend'⟩
    · rw [heq, hvisit]
    · cases hvisit.symm.trans hv'
      exact absurd hend' hend
  cases hturn with
  | discard hgroups' hempty =>
    obtain ⟨rfl, rfl⟩ := List.cons.inj (hgroups.symm.trans hgroups')
    refine ⟨{ b with groups := _ }, by unfold step; simp [hb, hempty]; rfl, ?_⟩
    exact { h with groups_eq := rfl, loads := hrest }
  | @drain _ _ v hgroups' hne hvisit hend hlimit =>
    obtain ⟨rfl, rfl⟩ := List.cons.inj (hgroups.symm.trans hgroups')
    refine ⟨_, ?_, hleave v hlimit⟩
    rw [step_of_visit hb hne (h.limit hlimit), hvisited v hvisit (by simp [hend])]
    simp [Except.bind, conclude, hend]
  | @select _ _ v tx gasBurnt hgroups' hne hvisit hend hgas hlimit =>
    obtain ⟨rfl, rfl⟩ := List.cons.inj (hgroups.symm.trans hgroups')
    have hl := hleave v hlimit
    refine ⟨(b.leave group _ v).select tx (b.totalGasBurnt + gasBurnt), ?_, { hl with
      totalGasBurnt_le := Nat.add_le_add_right h.totalGasBurnt_le gasBurnt
      totalSize_le := Nat.add_le_add_right h.totalSize_le _ }⟩
    have hsum : checkedAdd 64 b.totalGasBurnt gasBurnt = some (b.totalGasBurnt + gasBurnt) :=
      checkedAdd_eq_some.mpr ⟨(Nat.add_le_add_right h.totalGasBurnt_le gasBurnt).trans_lt hgas, rfl⟩
    rw [step_of_visit hb hne (h.limit hlimit), hvisited v hvisit (by simp [hend])]
    simp [Except.bind, conclude, hend, hsum, okOr]

theorem Trails.turn (h : Trails ctx led b e) (hstep : e.step ctx = .ok (.inl e')) :
    Trails ctx led b e' ∨ ∃ b', b.step ctx = .ok (.inl b') ∧ Trails ctx led b' e' := by
  have hturn := turn_of_step hstep
  cases hgroups : e.groups with
  | nil => cases hturn <;> simp_all
  | cons group groups =>
    cases hled : led group.signerId with
    | false => exact .inr (h.follow hgroups hled hturn)
    | true =>
      have htail : Trails ctx led b { e with groups } :=
        { h with
          groups_eq := by rw [h.groups_eq, hgroups, List.filter_cons_of_neg (by simp [hled])]
          loads := fun g hg => h.loads g (by simp [hgroups, hg]) }
      exact .inl (htail.lead hgroups hled hturn)

/-- A signer that does not load stops both runs. -/
theorem Trails.stop (h : Trails ctx led b e) (hstep : e.step ctx = .error .invalidTransactions) :
    b.step ctx = .error .invalidTransactions := by
  obtain ⟨tx, hnext, hnot⟩ := step_eq_invalidTransactions.mp hstep
  unfold nextExamined at hnext
  cases hgroups : e.groups with
  | nil => simp [hgroups] at hnext
  | cons group groups =>
    simp only [hgroups, Option.isSome_iff_ne_none, ite_not] at hnext
    split at hnext
    · rename_i hlimit
      have hmem := mem_of_firstExamined hnext
      cases hled : led group.signerId with
      | true => exact absurd (h.loads group (by simp [hgroups]) hled tx hmem) hnot
      | false =>
        have hb : b.groups = group :: groups.filter fun g => !led g.signerId := by
          rw [h.groups_eq, hgroups, List.filter_cons_of_pos (by simp [hled])]
        have herror := visitGroup_eq_invalidTransactions.mpr ⟨tx, hnext, hnot⟩
        rw [step_of_visit hb (List.ne_nil_of_mem hmem) (h.limit hlimit)]
        rcases h.visit hled with heq | ⟨v, hv, -⟩
        · rw [heq, herror]
          rfl
        · cases herror.symm.trans hv
    · cases hnext

theorem Trails.run (h : Trails ctx led b e)
    (hb : (prepareLoop E ctx).run b ≠ .error .invalidTransactions) :
    (prepareLoop E ctx).run e ≠ .error .invalidTransactions := fun he =>
  hb (MeasuredLoop.run_error_of_simulation (fun _ _ _ hR => hR.turn) (fun _ _ hR => hR.stop) h he)

end Trailing

/-! ## Up to the first visit -/

section Inserting

variable {E : Externals} {ctx : PrepareContext} {s s' : PrepareState E} {group : TransactionGroup}

variable {n : Nat}

def insertAt (group : TransactionGroup) (n : Nat) (s : PrepareState E) : PrepareState E :=
  { s with groups := s.groups.insertIdx n group }

theorem insertIdx_append {groups : List TransactionGroup} (h : n ≤ groups.length)
    (last : List TransactionGroup) :
    (groups ++ last).insertIdx n group = groups.insertIdx n group ++ last := by
  induction n generalizing groups with
  | zero => rfl
  | succ n ih =>
    cases groups with
    | nil => simp at h
    | cons => simpa using ih (by simpa using h)

theorem step_insertAt (h : n + 1 ≤ s.groups.length) :
    (s.insertAt group (n + 1)).step ctx = (s.step ctx).map (Sum.map (insertAt group n) id) := by
  cases hgroups : s.groups with
  | nil => simp [hgroups] at h
  | cons head groups =>
    have hn : n ≤ groups.length := by simpa [hgroups] using h
    have hinsert : (s.insertAt group (n + 1)).groups = head :: groups.insertIdx n group := by
      simp [insertAt, hgroups]
    have hleave : ∀ v, (s.insertAt group (n + 1)).leave head (groups.insertIdx n group) v =
        (s.leave head groups v).insertAt group n := by
      intro v
      simp [leave, insertAt, insertIdx_append hn]
    by_cases hempty : head.transactions = []
    · simp [step, hgroups, hinsert, hempty, Except.map]
      rfl
    · cases hlimit : s.limit ctx with
      | some limit =>
        have hlimit' : (s.insertAt group (n + 1)).limit ctx = some limit := hlimit
        simp [step, hgroups, hinsert, hempty, hlimit, hlimit', Except.map]
        rfl
      | none =>
        rw [step_of_visit hgroups hempty hlimit, step_of_visit hinsert hempty hlimit]
        change (visitGroup ctx s.stateUpdate s.totalSize none head.transactions).bind _ = _
        cases visitGroup ctx s.stateUpdate s.totalSize none head.transactions with
        | error e => rfl
        | ok v =>
          have hgas : (s.insertAt group (n + 1)).totalGasBurnt = s.totalGasBurnt := rfl
          simp only [Except.bind, conclude, hleave, hgas]
          cases v.ending with
          | drained => rfl
          | sizeLimit => rfl
          | selected tx gasBurnt =>
            dsimp only
            cases checkedAdd 64 s.totalGasBurnt gasBurnt <;> rfl

theorem length_of_turn (h : n + 1 ≤ s.groups.length) (hturn : Turn ctx s s') :
    n ≤ s'.groups.length := by
  cases hturn with
  | discard hgroups => simpa [hgroups] using h
  | drain hgroups hne hvisit hend =>
    simp [hgroups] at h
    simp [leave]
    omega
  | select hgroups hne hvisit hend hgas =>
    simp [hgroups] at h
    simp [leave, select]
    omega

theorem run_insertAt (h : n ≤ s.groups.length) :
    (prepareLoop E ctx).run (s.insertAt group n) = ((prepareLoop E ctx).after n s).elim
      ((prepareLoop E ctx).run s) fun s' => (prepareLoop E ctx).run (s'.insertAt group 0) :=
  MeasuredLoop.run_map_after (P := fun n s => n ≤ s.groups.length) (fun _ _ => step_insertAt)
    (fun _ _ _ hlen hstep => length_of_turn hlen (turn_of_step hstep)) h

theorem uninterrupted_of_turn (h : ∀ n < s.visits, ctx.interrupted n = none)
    (hturn : Turn ctx s s') : ∀ n < s'.visits, ctx.interrupted n = none := by
  cases hturn with
  | discard => exact h
  | drain hgroups hne hvisit hend hlimit => exact uninterrupted_leave h hlimit _ _ _
  | @select group groups v _ _ hgroups hne hvisit hend hgas hlimit =>
    exact uninterrupted_leave h hlimit group groups v

theorem signers_of_turn {a : AccountId} (h : ∀ g ∈ s.groups, g.signerId ≠ a)
    (hturn : Turn ctx s s') : ∀ g ∈ s'.groups, g.signerId ≠ a := by
  cases hturn with
  | discard hgroups => exact fun g hg => h g (by simp [hgroups, hg])
  | drain hgroups =>
    simp only [leave, List.forall_mem_append, List.forall_mem_singleton]
    simp only [hgroups, List.forall_mem_cons] at h
    exact ⟨h.2, h.1⟩
  | select hgroups =>
    simp only [select, leave, List.forall_mem_append, List.forall_mem_singleton]
    simp only [hgroups, List.forall_mem_cons] at h
    exact ⟨h.2, h.1⟩

/-- Once the group is first in the queue, only its own signer can stop the run. -/
theorem run_ahead (hbase : (prepareLoop E ctx).run s ≠ .error .invalidTransactions)
    (huninterrupted : ∀ n < s.visits, ctx.interrupted n = none)
    (hpool : (∀ g ∈ s.groups, g.signerId ≠ group.signerId) ∨ s.SignersLoad) :
    (prepareLoop E ctx).run (s.insertAt group 0) ≠ .error .invalidTransactions ↔
      ∀ tx, { s with groups := [group] }.nextExamined ctx = some tx →
        SignerLoads s.stateUpdate tx := by
  have hnext : (s.insertAt group 0).nextExamined ctx =
      { s with groups := [group] }.nextExamined ctx := rfl
  constructor
  · intro hrun tx htx
    by_contra hnot
    have hstep : (s.insertAt group 0).step ctx = .error .invalidTransactions :=
      step_eq_invalidTransactions.mpr ⟨tx, hnext ▸ htx, hnot⟩
    exact hrun (MeasuredLoop.run_of_end hstep)
  · intro hloads
    rcases hstep : (prepareLoop E ctx).step (s.insertAt group 0) with e | s' | prepared
    · rw [@MeasuredLoop.run_of_end _ _ _ (prepareLoop E ctx) _ (.error e) hstep]
      rintro ⟨⟩
      obtain ⟨tx, htx, hnot⟩ := (step_eq_invalidTransactions (s := s.insertAt group 0)).mp hstep
      exact hnot (hloads tx htx)
    · rw [MeasuredLoop.run_of_continue hstep]
      rcases hpool with hsigners | hall
      · have htrails : Trails ctx (fun a => decide (a = group.signerId)) s s :=
          ⟨(List.filter_eq_self.mpr fun g hg => by simp [hsigners g hg]).symm,
            fun g hg hled => absurd (of_decide_eq_true hled) (hsigners g hg), fun _ _ => rfl,
            le_rfl, le_rfl, le_rfl, huninterrupted⟩
        exact (htrails.lead (e := s.insertAt group 0) rfl (by simp) (turn_of_step hstep)).run hbase
      · have htrails : Trails ctx (fun _ => true) { s with groups := [] } s :=
          ⟨by simp, fun g hg _ tx htx => hall tx ⟨g, hg, htx⟩, fun _ => nofun,
            le_rfl, le_rfl, le_rfl, huninterrupted⟩
        refine (htrails.lead (e := s.insertAt group 0) rfl rfl (turn_of_step hstep)).run ?_
        rw [@MeasuredLoop.run_of_end _ _ _ (prepareLoop E ctx) _ (.ok _) rfl]
        simp
    · rw [@MeasuredLoop.run_of_end _ _ _ (prepareLoop E ctx) _ (.ok prepared) hstep]
      simp

end Inserting

end PrepareState

/-! ## Pools of two groups -/

def PrepareContext.sample : PrepareContext where
  config := .sample
  protocolVersion := 84
  prevBlockHeight := 4
  nextGasPrice := 1
  transactionsGasLimit := 1000
  sizeLimit := 1000
  skipTxHashes _ := false
  congestionControlAccepts _ := some true
  chainValidate _ := true
  interrupted _ := none

def transferGroup (signerId : AccountId) : TransactionGroup where
  signerId
  publicKey := .ed25519 ⟨List.replicate 32 1, rfl⟩
  nonceIndex := none
  transactions :=
    [{ transaction :=
        { version := .v0
          signerId
          receiverId := "bob"
          actions := [.basic (.transfer 1)]
          publicKey := .ed25519 ⟨List.replicate 32 1, rfl⟩
          nonce := ⟨1, none⟩
          blockHash := []
          index_none := fun _ => rfl }
       signature := .ed25519 [] }]
  same_key := by simp

def aliceTrie : Trie .sample :=
  (Trie.empty.setAccount "alice" ⟨1000, 0, .none, 100⟩).setAccessKey "alice"
    (transferGroup "alice").publicKey ⟨0, .fullAccess⟩

/-- A transfer of a Bitcoin account that has not used its key. -/
def firstUseGroup (receiverId : AccountId) : TransactionGroup where
  signerId := sampleAddress
  publicKey := .secp256k1 sampleKey
  nonceIndex := none
  transactions := [sampleTransaction sampleAddress receiverId 4000001 [.basic (.transfer 0)]]
  same_key := by simp [sampleTransaction]

def twoSignersTrie : Trie .sample :=
  aliceTrie.setAccount sampleAddress ⟨1000, 0, .none, 100⟩

theorem signerLoads_firstUse {t : Trie .sample}
    (h : t.getAccount sampleAddress ≠ none) : ∀ tx ∈ (firstUseGroup "bob").transactions,
      SignerLoads t tx :=
  List.forall_mem_singleton.mpr ⟨h, .inr (by decide +kernel), fun _ h => by cases h⟩

theorem signerLoads_alice : ∀ tx ∈ (transferGroup "alice").transactions,
    SignerLoads twoSignersTrie tx :=
  List.forall_mem_singleton.mpr ⟨by decide +kernel, .inl (by decide +kernel), fun _ h => by cases h⟩

theorem prepare_alice {t : Trie .sample} (h : t = aliceTrie ∨ t = twoSignersTrie) :
    prepareTransactionsExtra .sample t [transferGroup "alice"] =
      .ok ⟨(transferGroup "alice").transactions, .noMoreTxsInPool, []⟩ := by
  unfold prepareTransactionsExtra
  rcases h with rfl | rfl <;>
    rw [MeasuredLoop.run_of_continue rfl, MeasuredLoop.run_of_continue rfl] <;>
    exact MeasuredLoop.run_of_end rfl

/-- The preparation does not give up when every signer in the pool loads from the state. -/
theorem prepareTransactionsExtra_ne_invalidTransactions {E : Externals} {ctx : PrepareContext}
    {t : Trie E} {groups : List TransactionGroup}
    (h : ∀ group ∈ groups, ∀ tx ∈ group.transactions, SignerLoads t tx) :
    prepareTransactionsExtra ctx t groups ≠ .error .invalidTransactions := by
  rw [ne_eq, prepareTransactionsExtra_eq_invalidTransactions]
  rintro ⟨s, tx, hreach, hnext, hnot⟩
  have hstart : (PrepareState.start t groups).SignersLoad := by
    rintro tx ⟨group, hgroup, hmem⟩
    exact h group hgroup tx hmem
  have hs : s.SignersLoad := hreach.invariant _ hstart fun a b ha hstep =>
    ha.turn (PrepareState.turn_of_step hstep)
  exact hnot (hs tx (PrepareState.remaining_of_nextExamined hnext))

theorem prepareTransactionsExtra_ne_invalidTransactions_first_use :
    prepareTransactionsExtra .sample twoSignersTrie [firstUseGroup "bob", transferGroup "alice"] ≠
      .error .invalidTransactions :=
  prepareTransactionsExtra_ne_invalidTransactions <| List.forall_mem_cons.mpr
    ⟨signerLoads_firstUse (by decide +kernel), List.forall_mem_singleton.mpr signerLoads_alice⟩

end BitInfinity
