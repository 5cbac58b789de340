import BitInfinity.Tools.GenesisSupply

/-!
# The genesis command

The command moves the balances of the Patoshi addresses to one target address, registers what it
moved as the target's floor, and hands everything to the builder together with a validator whose
stake and balance are constants of the command.
-/

namespace BitInfinity.Tools

open Foundation

/-! ## Reassignment -/

structure PatoshiReassignment where
  totalSatoshis : UInt64
  addressesRemoved : Nat
  targetAddress : String

@[ext] structure RemovalState where
  utxoMap : UtxoMap
  totalRemoved : UInt64
  countRemoved : Nat

def RemovalState.remove (st : RemovalState) (addr : String) : RemovalState :=
  match st.utxoMap.lookup addr with
  | some balance =>
    { utxoMap := st.utxoMap.erase addr
      totalRemoved := st.totalRemoved + balance
      countRemoved := st.countRemoved + 1 }
  | none => st

/-- `patoshiAddresses` lists the set in the order in which it is walked. -/
def reassignPatoshi (utxoMap : UtxoMap) (patoshiAddresses : List String)
    (targetAddress : String) : UtxoMap × PatoshiReassignment :=
  let st := patoshiAddresses.foldl RemovalState.remove ⟨utxoMap, 0, 0⟩
  let utxoMap :=
    if st.totalRemoved > 0 then
      st.utxoMap.insert targetAddress ((st.utxoMap.lookup targetAddress).getD 0 + st.totalRemoved)
    else
      st.utxoMap
  (utxoMap, ⟨st.totalRemoved, st.countRemoved, targetAddress⟩)

/-! ## The command -/

/-- The options of the command that reach the builder.  The genesis time is in canonical form. -/
structure GenerateGenesis where
  chainId : String
  genesisTime : Option String
  validatorAccount : String
  validatorKey : Option String

def GenerateGenesis.validator (args : GenerateGenesis) : ValidatorConfig where
  accountId := args.validatorAccount
  publicKeyEd25519 := args.validatorKey.getD "ed25519:6E8sCci9badyRkXb3JoRpBj5p8C6Tw41ELDZoiihKEtp"
  stakeYocto := 50000000000000000000000000000000
  balanceYocto := 1000000000000000000000000000000

def patoshiRegistry (reassignment : PatoshiReassignment) : PatoshiRegistry :=
  if reassignment.totalSatoshis > 0 then
    (∅ : PatoshiRegistry).insert reassignment.targetAddress
      (reassignment.totalSatoshis.toNat * yoctoPerSatoshi)
  else
    ∅

/-- `patoshi` holds the listed addresses and the target, when a list is given. -/
def GenerateGenesis.run (B : Base64) (args : GenerateGenesis) (now : String) (utxos : UtxoMap)
    (patoshi : Option (List String × String)) : Except String Genesis :=
  let builder : GenesisBuilder := ⟨args.chainId, args.genesisTime⟩
  match patoshi with
  | none => builder.build args.validator B now utxos ∅
  | some (patoshiAddrs, targetAddress) =>
    let (utxos, reassignment) := reassignPatoshi utxos patoshiAddrs targetAddress
    builder.build args.validator B now utxos (patoshiRegistry reassignment)

/-! ## Balances -/

def balanceOf (balances : UtxoMap) (addr : String) : Nat := ((balances.lookup addr).getD 0).toNat

def credit (balances : UtxoMap) (addr : String) (sats : UInt64) : UtxoMap :=
  balances.insert addr ((balances.lookup addr).getD 0 + sats)

theorem totalSatoshis_erase (balances : UtxoMap) (addr : String) :
    totalSatoshis (balances.erase addr) + balanceOf balances addr = totalSatoshis balances := by
  unfold totalSatoshis balanceOf
  cases hlookup : balances.lookup addr with
  | none => rw [erase_of_lookup_eq_none hlookup]; rfl
  | some balance => rw [sumEntries_erase hlookup]; rfl

section Credit

variable {balances : UtxoMap} {sats : UInt64} (addr : String)
  (hfits : totalSatoshis balances + sats.toNat < 2 ^ 64)
include hfits

theorem balanceOf_credit : balanceOf (credit balances addr sats) addr =
    balanceOf balances addr + sats.toNat := by
  have hle := totalSatoshis_erase balances addr
  rw [credit, balanceOf, Finmap.lookup_insert, Option.getD_some, UInt64.toNat_add]
  exact Nat.mod_eq_of_lt (by unfold balanceOf at hle; omega)

theorem totalSatoshis_credit :
    totalSatoshis (credit balances addr sats) = totalSatoshis balances + sats.toNat := by
  have hbefore := totalSatoshis_erase balances addr
  have hafter := totalSatoshis_erase (credit balances addr sats) addr
  rw [balanceOf_credit addr hfits, credit, erase_insert_self] at hafter
  rw [credit]
  omega

end Credit

/-! ## What reassignment keeps -/

def RemovalState.satoshis (st : RemovalState) : Nat :=
  totalSatoshis st.utxoMap + st.totalRemoved.toNat

theorem utxoMap_remove (st : RemovalState) (addr : String) :
    (st.remove addr).utxoMap = st.utxoMap.erase addr := by
  unfold RemovalState.remove
  cases hlookup : st.utxoMap.lookup addr with
  | none => exact (erase_of_lookup_eq_none hlookup).symm
  | some balance => rfl

theorem totalRemoved_remove {st : RemovalState} (hfits : st.satoshis < 2 ^ 64) (addr : String) :
    (st.remove addr).totalRemoved.toNat = st.totalRemoved.toNat + balanceOf st.utxoMap addr := by
  have hle := totalSatoshis_erase st.utxoMap addr
  unfold RemovalState.satoshis at hfits
  unfold RemovalState.remove balanceOf at *
  cases hlookup : st.utxoMap.lookup addr with
  | none => simp
  | some balance =>
    simp only [hlookup, Option.getD_some] at hle ⊢
    rw [UInt64.toNat_add, Nat.mod_eq_of_lt (by omega)]

theorem satoshis_remove {st : RemovalState} (hfits : st.satoshis < 2 ^ 64) (addr : String) :
    (st.remove addr).satoshis = st.satoshis := by
  have herase := totalSatoshis_erase st.utxoMap addr
  have hremoved := totalRemoved_remove hfits addr
  rw [RemovalState.satoshis, RemovalState.satoshis, utxoMap_remove]
  omega

theorem satoshis_removeAll {st : RemovalState} (hfits : st.satoshis < 2 ^ 64)
    (addrs : List String) : (addrs.foldl .remove st).satoshis = st.satoshis := by
  induction addrs generalizing st with
  | nil => rfl
  | cons addr addrs ih =>
    have hstep := satoshis_remove hfits addr
    rw [List.foldl_cons, ih (by rwa [hstep]), hstep]

def removeAll (utxoMap : UtxoMap) (addrs : List String) : RemovalState :=
  addrs.foldl .remove ⟨utxoMap, 0, 0⟩

theorem reassignPatoshi_eq (utxoMap : UtxoMap) (addrs : List String) (target : String) :
    reassignPatoshi utxoMap addrs target = (if (removeAll utxoMap addrs).totalRemoved > 0 then
        credit (removeAll utxoMap addrs).utxoMap target (removeAll utxoMap addrs).totalRemoved
      else (removeAll utxoMap addrs).utxoMap,
      ⟨(removeAll utxoMap addrs).totalRemoved, (removeAll utxoMap addrs).countRemoved, target⟩) :=
  rfl

section Reassign

variable {utxoMap : UtxoMap} (hfits : totalSatoshis utxoMap < 2 ^ 64) (addrs : List String)
  (target : String)
include hfits

theorem satoshis_removed : (removeAll utxoMap addrs).satoshis = totalSatoshis utxoMap :=
  @satoshis_removeAll ⟨utxoMap, 0, 0⟩ hfits addrs

theorem removed_fits : totalSatoshis (removeAll utxoMap addrs).utxoMap +
    (removeAll utxoMap addrs).totalRemoved.toNat < 2 ^ 64 :=
  (satoshis_removed hfits addrs).trans_lt hfits

theorem totalSatoshis_reassignPatoshi :
    totalSatoshis (reassignPatoshi utxoMap addrs target).1 = totalSatoshis utxoMap := by
  rw [← satoshis_removed hfits addrs, reassignPatoshi_eq, RemovalState.satoshis]
  split
  · exact totalSatoshis_credit target (removed_fits hfits addrs)
  · rename_i hzero
    have hremoved : (removeAll utxoMap addrs).totalRemoved.toNat = 0 := Nat.eq_zero_of_not_pos hzero
    rw [hremoved, Nat.add_zero]

theorem balanceOf_target_reassignPatoshi :
    balanceOf (reassignPatoshi utxoMap addrs target).1 target =
      balanceOf (removeAll utxoMap addrs).utxoMap target +
        (reassignPatoshi utxoMap addrs target).2.totalSatoshis.toNat := by
  rw [reassignPatoshi_eq]
  split
  · exact balanceOf_credit target (removed_fits hfits addrs)
  · rename_i hzero
    have hremoved : (removeAll utxoMap addrs).totalRemoved.toNat = 0 := Nat.eq_zero_of_not_pos hzero
    rw [hremoved, Nat.add_zero]

theorem lookup_target_reassignPatoshi
    (hpos : (reassignPatoshi utxoMap addrs target).2.totalSatoshis > 0) :
    ∃ balance, (reassignPatoshi utxoMap addrs target).1.lookup target = some balance ∧
      (reassignPatoshi utxoMap addrs target).2.totalSatoshis.toNat ≤ balance.toNat := by
  have hbalance := balanceOf_target_reassignPatoshi hfits addrs target
  have hpos' : 0 < (reassignPatoshi utxoMap addrs target).2.totalSatoshis.toNat := hpos
  unfold balanceOf at hbalance
  cases hlookup : (reassignPatoshi utxoMap addrs target).1.lookup target with
  | none =>
    rw [hlookup] at hbalance
    simp at hbalance
    omega
  | some balance =>
    rw [hlookup, Option.getD_some] at hbalance
    exact ⟨balance, rfl, by omega⟩

end Reassign

/-! ## The supply that the command declares -/

theorem baseSupply_validator_eq (args : GenerateGenesis) :
    baseSupply args.validator = 51 * 10 ^ 30 ∨
      baseSupply args.validator = 51 * 10 ^ 30 + 10 ^ 24 := by
  have hvalidator : (addValidator args.validator).totalSupply = 51 * 10 ^ 30 := by
    show wrappingAdd 128 0 (wrappingAdd 128 1000000000000000000000000000000
      50000000000000000000000000000000) = _
    decide
  unfold baseSupply addTreasury
  split
  · right
    show wrappingAdd 128 (addValidator args.validator).totalSupply treasuryBalance = _
    rw [hvalidator]
    decide
  · exact .inl hvalidator

theorem baseSupply_validator (args : GenerateGenesis) : 51 * 10 ^ 30 ≤ baseSupply args.validator ∧
      baseSupply args.validator ≤ 51 * 10 ^ 30 + 10 ^ 24 := by
  have heq := baseSupply_validator_eq args
  omega

theorem builtSupply_validator_lt (args : GenerateGenesis) {utxos : UtxoMap}
    (hcap : totalSatoshis utxos ≤ 21000000 * 10 ^ 8) :
    builtSupply args.validator utxos < 2 ^ 128 := by
  refine Nat.lt_of_le_of_lt (builtSupply_le _ _) ?_
  have hbase := (baseSupply_validator args).2
  unfold yoctoPerSatoshi
  omega

theorem run_eq_ok (B : Base64) (args : GenerateGenesis) (now : String) {utxos : UtxoMap}
    (hcap : totalSatoshis utxos ≤ 21000000 * 10 ^ 8) (patoshi : Option (List String × String)) :
    ∃ utxos' registry, totalSatoshis utxos' = totalSatoshis utxos ∧ args.run B now utxos patoshi =
        .ok (builtGenesis args.validator B ⟨args.chainId, args.genesisTime⟩ now utxos'
          registry) := by
  have hfits : totalSatoshis utxos < 2 ^ 64 := by omega
  obtain ⟨utxos', registry, htotal, hrun⟩ : ∃ utxos' registry,
      totalSatoshis utxos' = totalSatoshis utxos ∧ args.run B now utxos patoshi =
        GenesisBuilder.build args.validator B ⟨args.chainId, args.genesisTime⟩ now utxos'
          registry := by
    cases patoshi with
    | none => exact ⟨utxos, ∅, rfl, rfl⟩
    | some reassigned =>
      obtain ⟨addrs, target⟩ := reassigned
      exact ⟨_, _, totalSatoshis_reassignPatoshi hfits addrs target, rfl⟩
  refine ⟨utxos', registry, htotal, ?_⟩
  rw [hrun, build_eq, if_pos (builtSupply_validator_lt args (by rwa [htotal]))]

/-- The stake and balance of the validator alone exceed the cap of 21 million coins, so that
no snapshot and no validator account keep the declared supply below it. -/
theorem genesis_exceeds_cap (B : Base64) (args : GenerateGenesis) (now : String) (utxos : UtxoMap)
    (hcap : totalSatoshis utxos ≤ 21000000 * 10 ^ 8) (patoshi : Option (List String × String)) :
    ∃ g, args.run B now utxos patoshi = .ok g ∧ 21000000 * 10 ^ 24 < decimal g.totalSupply := by
  obtain ⟨utxos', registry, -, hrun⟩ := run_eq_ok B args now hcap patoshi
  refine ⟨_, hrun, ?_⟩
  have hbase := (baseSupply_validator args).1
  have hdeclared : decimal (builtGenesis args.validator B ⟨args.chainId, args.genesisTime⟩ now
      utxos' registry).totalSupply = builtSupply args.validator utxos' := decimal_toString _
  rw [hdeclared, builtSupply]
  omega

def GenerateGenesis.default : GenerateGenesis :=
  ⟨"bitinfinity-mainnet", none, "validator.bitinfinity", none⟩

theorem genesis_exceeds_cap_sample :
    ∃ g, GenerateGenesis.default.run .bytewise "2026-01-01T00:00:00Z" sampleUtxoMap none =
      .ok g ∧ 21000000 * 10 ^ 24 < decimal g.totalSupply :=
  genesis_exceeds_cap .bytewise .default "2026-01-01T00:00:00Z" sampleUtxoMap
    (by rw [totalSatoshis_sampleUtxoMap]; decide) none

/-- Already without any balance in the snapshot. -/
theorem empty_snapshot_exceeds_cap : totalSatoshis ∅ ≤ 21000000 * 10 ^ 8 ∧
      ∃ g, GenerateGenesis.default.run .bytewise "2026-01-01T00:00:00Z" ∅ none = .ok g ∧
        g.totalSupply = toString (51000001 * 10 ^ 24) ∧
        ¬ decimal g.totalSupply ≤ 21000000 * 10 ^ 24 := by
  have hbase : baseSupply GenerateGenesis.default.validator = 51000001 * 10 ^ 24 := by decide
  have hsupply : builtSupply GenerateGenesis.default.validator ∅ = 51000001 * 10 ^ 24 := by
    rw [builtSupply, hbase, inOrder_empty, creditedEntries, List.filter_nil]
    rfl
  have hrun : GenerateGenesis.default.run .bytewise "2026-01-01T00:00:00Z" ∅ none =
      .ok (builtGenesis GenerateGenesis.default.validator .bytewise
        ⟨"bitinfinity-mainnet", none⟩ "2026-01-01T00:00:00Z" ∅ ∅) := by
    show GenesisBuilder.build _ _ _ _ _ _ = _
    rw [build_eq, if_pos (by rw [hsupply]; decide)]
    rfl
  refine ⟨Nat.zero_le _, _, hrun, ?_, ?_⟩
  · rw [← hsupply]
    rfl
  · rw [builtGenesis, decimal_toString, hsupply]
    decide

end BitInfinity.Tools
