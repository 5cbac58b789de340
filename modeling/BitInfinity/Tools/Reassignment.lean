import BitInfinity.Tools.GenerateGenesis

/-!
# Reassignment

The loop over the Patoshi addresses walks a set, whose order is not fixed, and changes the map
on the way.  What it leaves depends on the set alone: the addresses of the set are gone, their
balances have been added up, and the number of those that were there has been counted.
-/

namespace BitInfinity.Tools

open Foundation

/-! ## The loop -/

theorem countRemoved_remove (st : RemovalState) (addr : String) : (st.remove addr).countRemoved =
      st.countRemoved + if (st.utxoMap.lookup addr).isSome then 1 else 0 := by
  unfold RemovalState.remove
  cases st.utxoMap.lookup addr <;> rfl

theorem lookup_foldl_remove (st : RemovalState) (addrs : List String) (x : String) :
    (addrs.foldl .remove st).utxoMap.lookup x =
      if x ∈ addrs then none else st.utxoMap.lookup x := by
  induction addrs generalizing st with
  | nil => simp
  | cons addr addrs ih =>
    rw [List.foldl_cons, ih, utxoMap_remove, lookup_erase_eq_ite]
    by_cases hx : x = addr
    · simp [hx]
    · simp [hx]

theorem totalRemoved_foldl_remove {st : RemovalState} (hfits : st.satoshis < 2 ^ 64)
    (addrs : List String) :
    (addrs.foldl .remove st).totalRemoved.toNat =
      st.totalRemoved.toNat + ∑ x ∈ addrs.toFinset, balanceOf st.utxoMap x := by
  induction addrs generalizing st with
  | nil => simp
  | cons addr addrs ih =>
    have hstep : (st.remove addr).satoshis < 2 ^ 64 := by rwa [satoshis_remove hfits]
    have hsum := sum_lookup_cons (fun b : Option UInt64 => (b.getD 0).toNat) rfl st.utxoMap addr
    rw [List.foldl_cons, ih hstep, totalRemoved_remove hfits, utxoMap_remove]
    unfold balanceOf
    rw [hsum, Nat.add_assoc]

theorem countRemoved_foldl_remove (st : RemovalState) (addrs : List String) :
    (addrs.foldl .remove st).countRemoved = st.countRemoved +
        ∑ x ∈ addrs.toFinset, if (st.utxoMap.lookup x).isSome then 1 else 0 := by
  induction addrs generalizing st with
  | nil => simp
  | cons addr addrs ih =>
    have hsum := sum_lookup_cons (fun b : Option UInt64 => if b.isSome then 1 else 0) rfl
      st.utxoMap addr addrs
    rw [List.foldl_cons, ih, countRemoved_remove, utxoMap_remove, hsum, Nat.add_assoc]

theorem foldl_remove_of_absent {st : RemovalState} {addrs : List String}
    (habsent : ∀ x ∈ addrs, st.utxoMap.lookup x = none) :
    addrs.foldl .remove st = st := by
  induction addrs with
  | nil => rfl
  | cons addr addrs ih =>
    have hstep : st.remove addr = st := by
      rw [RemovalState.remove, habsent addr List.mem_cons_self]
    rw [List.foldl_cons, hstep]
    exact ih fun x hx => habsent x (List.mem_cons_of_mem _ hx)

/-! ## The set decides -/

section Reassign

variable {utxoMap : UtxoMap} {addrs addrs' : List String} {patoshi : Finset String}
  (target : String)

theorem lookup_removeAll (haddrs : addrs.toFinset = patoshi) (x : String) :
    (removeAll utxoMap addrs).utxoMap.lookup x =
      if x ∈ patoshi then none else utxoMap.lookup x := by
  rw [removeAll, lookup_foldl_remove, ← haddrs]
  simp only [List.mem_toFinset]

theorem lookup_reassignPatoshi (haddrs : addrs.toFinset = patoshi) {x : String} (hx : x ≠ target) :
    (reassignPatoshi utxoMap addrs target).1.lookup x =
      if x ∈ patoshi then none else utxoMap.lookup x := by
  rw [reassignPatoshi_eq, ← lookup_removeAll haddrs]
  split
  · rw [credit, Finmap.lookup_insert_of_ne _ hx]
  · rfl

section Fits

variable (hfits : totalSatoshis utxoMap < 2 ^ 64)
include hfits

theorem totalSatoshis_removed (haddrs : addrs.toFinset = patoshi) :
    (removeAll utxoMap addrs).totalRemoved.toNat = ∑ x ∈ patoshi, balanceOf utxoMap x := by
  have hsum := @totalRemoved_foldl_remove ⟨utxoMap, 0, 0⟩ hfits addrs
  rw [haddrs] at hsum
  simpa [removeAll] using hsum

theorem removeAll_congr (haddrs : addrs.toFinset = patoshi) (haddrs' : addrs'.toFinset = patoshi) :
    removeAll utxoMap addrs = removeAll utxoMap addrs' := by
  have hmap : (removeAll utxoMap addrs).utxoMap = (removeAll utxoMap addrs').utxoMap := by
    apply Finmap.ext_lookup
    intro x
    rw [lookup_removeAll haddrs, lookup_removeAll haddrs']
  have htotal : (removeAll utxoMap addrs).totalRemoved =
      (removeAll utxoMap addrs').totalRemoved := by
    apply UInt64.toNat_inj.mp
    rw [totalSatoshis_removed hfits haddrs, totalSatoshis_removed hfits haddrs']
  have hcount : (removeAll utxoMap addrs).countRemoved =
      (removeAll utxoMap addrs').countRemoved := by
    rw [removeAll, removeAll, countRemoved_foldl_remove, countRemoved_foldl_remove, haddrs, haddrs']
  exact RemovalState.ext hmap htotal hcount

theorem balanceOf_target (haddrs : addrs.toFinset = patoshi) :
    balanceOf (reassignPatoshi utxoMap addrs target).1 target =
      (if target ∈ patoshi then 0 else balanceOf utxoMap target) +
        (reassignPatoshi utxoMap addrs target).2.totalSatoshis.toNat := by
  rw [balanceOf_target_reassignPatoshi hfits]
  rw [balanceOf, lookup_removeAll haddrs]
  split
  · rfl
  · rfl

theorem reassignPatoshi_again (haddrs : addrs.toFinset = patoshi) :
    (reassignPatoshi (reassignPatoshi utxoMap addrs target).1 addrs target).1 =
      (reassignPatoshi utxoMap addrs target).1 := by
  set after := (reassignPatoshi utxoMap addrs target).1 with hafter
  by_cases htarget : target ∈ patoshi
  · -- the walk takes the target away again, and then there is as much to give back
    have hmap : (removeAll after addrs).utxoMap = (removeAll utxoMap addrs).utxoMap := by
      apply Finmap.ext_lookup
      intro x
      rw [lookup_removeAll haddrs, lookup_removeAll haddrs]
      split
      · rfl
      · rename_i hx
        have hne : x ≠ target := fun h => hx (h ▸ htarget)
        rw [hafter, lookup_reassignPatoshi target haddrs hne, if_neg hx]
    have hkept : totalSatoshis after = totalSatoshis utxoMap :=
      totalSatoshis_reassignPatoshi hfits addrs target
    have hbefore := satoshis_removed hfits addrs
    have hagain := satoshis_removed (hkept ▸ hfits) addrs
    have htotal : (removeAll after addrs).totalRemoved =
        (removeAll utxoMap addrs).totalRemoved := by
      apply UInt64.toNat_inj.mp
      rw [RemovalState.satoshis] at hbefore hagain
      rw [hmap] at hagain
      omega
    rw [reassignPatoshi_eq, hmap, htotal]
    rfl
  · have habsent : ∀ x ∈ addrs, after.lookup x = none := by
      intro x hx
      have hpatoshi : x ∈ patoshi := by rwa [← haddrs, List.mem_toFinset]
      have hne : x ≠ target := fun h => htarget (h ▸ hpatoshi)
      rw [hafter, lookup_reassignPatoshi target haddrs hne, if_pos hpatoshi]
    have hnothing : removeAll after addrs = ⟨after, 0, 0⟩ := foldl_remove_of_absent habsent
    rw [reassignPatoshi_eq, hnothing]
    simp

/-- Reassignment conserves the coins, does the same in every order of the set, and has nothing
left to do a second time. -/
theorem reassignPatoshi_conserves (haddrs : addrs.toFinset = patoshi) {after : UtxoMap}
    {reassignment : PatoshiReassignment}
    (hrun : reassignPatoshi utxoMap addrs target = (after, reassignment)) :
    totalSatoshis after = totalSatoshis utxoMap ∧ (∀ x ∈ patoshi, x ≠ target → x ∉ after) ∧
      (∀ x ∉ patoshi, x ≠ target → after.lookup x = utxoMap.lookup x) ∧
      balanceOf after target = (if target ∈ patoshi then 0 else balanceOf utxoMap target) +
          ∑ x ∈ patoshi, balanceOf utxoMap x ∧
      reassignment.totalSatoshis.toNat = ∑ x ∈ patoshi, balanceOf utxoMap x ∧
      ∀ addrs' : List String, addrs'.toFinset = patoshi →
        reassignPatoshi utxoMap addrs' target = (after, reassignment) ∧
          (reassignPatoshi after addrs' target).1 = after := by
  obtain rfl : (reassignPatoshi utxoMap addrs target).1 = after := congrArg Prod.fst hrun
  obtain rfl : (reassignPatoshi utxoMap addrs target).2 = reassignment := congrArg Prod.snd hrun
  have hremoved : (reassignPatoshi utxoMap addrs target).2.totalSatoshis.toNat =
      ∑ x ∈ patoshi, balanceOf utxoMap x := totalSatoshis_removed hfits haddrs
  have hsame : ∀ addrs' : List String, addrs'.toFinset = patoshi →
      reassignPatoshi utxoMap addrs' target = reassignPatoshi utxoMap addrs target := by
    intro addrs' haddrs'
    rw [reassignPatoshi_eq, removeAll_congr hfits haddrs' haddrs, reassignPatoshi_eq]
  refine ⟨totalSatoshis_reassignPatoshi hfits addrs target, ?_, ?_, ?_, hremoved, ?_⟩
  · intro x hx hne
    rw [← Finmap.lookup_eq_none, lookup_reassignPatoshi target haddrs hne, if_pos hx]
  · intro x hx hne
    rw [lookup_reassignPatoshi target haddrs hne, if_neg hx]
  · rw [← hremoved, balanceOf_target target hfits haddrs]
  · intro addrs' haddrs'
    refine ⟨hsame addrs' haddrs', ?_⟩
    rw [← hsame addrs' haddrs']
    exact reassignPatoshi_again target hfits haddrs'

end Fits

end Reassign

theorem reassignPatoshi_conserves_sample : totalSatoshis
        (reassignPatoshi sampleUtxoMap ["1A1zP1eP5QGefi2DMPTfTL5SLmv7DivfNa"] "target").1 =
      5000250001 := by
  have hfits : totalSatoshis sampleUtxoMap < 2 ^ 64 := by
    decide
  exact (reassignPatoshi_conserves "target" hfits rfl rfl).1

end BitInfinity.Tools
