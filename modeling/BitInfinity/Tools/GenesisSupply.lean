import BitInfinity.Tools.GenesisBuilder

/-!
# Supply and credit at genesis

The builder's loop has a closed form: one record for every address that is not passed over, and
a supply that grows by their balances.  From it follow the uniqueness of the account records,
the credit of every address, and that the verifier finds the declared supply in the records.
-/

namespace BitInfinity.Tools

open Foundation

/-! ## What the records hold -/

def decimal (text : String) : Nat := Nat.ofDigitChars 10 text.toList 0

theorem decimal_toString (n : Nat) : decimal (toString n) = n := by
  rw [decimal, Nat.toString_eq_repr, Nat.repr_eq_ofList_toDigits, String.toList_ofList]
  exact Nat.ofDigitChars_toDigits (by omega) le_rfl

def StateRecord.accountId? : StateRecord → Option String
  | .account accountId _ => some accountId
  | .accessKey _ _ _ => none
  | .data _ _ _ => none

def accountIds (records : List StateRecord) : List String :=
  records.filterMap StateRecord.accountId?

def StateRecord.balance : StateRecord → Nat
  | .account _ fields => decimal fields.amount + decimal fields.locked
  | .accessKey _ _ _ => 0
  | .data _ _ _ => 0

def recordsTotal (records : List StateRecord) : Nat := (records.map StateRecord.balance).sum

/-- The balances of an account record were printed by the builder. -/
def StateRecord.Printed : StateRecord → Prop
  | .account _ fields => ∃ amount locked, fields = accountData amount locked
  | .accessKey _ _ _ => True
  | .data _ _ _ => True

@[simp] theorem balance_account (accountId : String) (amount locked : Nat) :
    (StateRecord.account accountId (accountData amount locked)).balance = amount + locked := by
  simp only [StateRecord.balance, accountData, decimal_toString]

@[simp] theorem balance_accessKey (accountId publicKey : String) (accessKey : AccessKeyData) :
    (StateRecord.accessKey accountId publicKey accessKey).balance = 0 := rfl

theorem recordsTotal_append (records records' : List StateRecord) :
    recordsTotal (records ++ records') = recordsTotal records + recordsTotal records' := by
  rw [recordsTotal, List.map_append, List.sum_append]
  rfl

theorem accountIds_append (records records' : List StateRecord) :
    accountIds (records ++ records') = accountIds records ++ accountIds records' :=
  List.filterMap_append

/-! ## The closed form of the builder -/

def baseRecords (validator : ValidatorConfig) : List StateRecord :=
  (addTreasury validator (addValidator validator)).records

def baseSupply (validator : ValidatorConfig) : Nat :=
  (addTreasury validator (addValidator validator)).totalSupply

def isCredited (validator : ValidatorConfig) (addr : String) : Bool :=
  decide (addr ≠ validator.accountId ∧ addr ≠ treasuryAccount)

def creditedEntries (validator : ValidatorConfig) (entries : List (String × UInt64)) :
    List (String × UInt64) :=
  entries.filter fun entry => isCredited validator entry.1

def utxoRecord (entry : String × UInt64) : StateRecord :=
  .account entry.1 (accountData (entry.2.toNat * yoctoPerSatoshi) 0)

def satoshisOf (entries : List (String × UInt64)) : Nat :=
  (entries.map fun entry => entry.2.toNat).sum

theorem satoshisOf_cons (entry : String × UInt64) (entries : List (String × UInt64)) :
    satoshisOf (entry :: entries) = entry.2.toNat + satoshisOf entries := by
  rfl

theorem satoshisOf_creditedEntries_le (validator : ValidatorConfig)
    (entries : List (String × UInt64)) :
    satoshisOf (creditedEntries validator entries) ≤ satoshisOf entries := by
  refine List.Sublist.sum_le_sum (List.Sublist.map _ List.filter_sublist) ?_
  intro n _
  exact Nat.zero_le n

def totalSatoshis (utxoMap : UtxoMap) : Nat := sumEntries (fun _ satoshis => satoshis.toNat) utxoMap

theorem satoshisOf_inOrder (utxoMap : UtxoMap) :
    satoshisOf (inOrder utxoMap) = totalSatoshis utxoMap :=
  sum_inOrder (fun _ (satoshis : UInt64) => satoshis.toNat) utxoMap

theorem recordsTotal_utxoRecords (entries : List (String × UInt64)) :
    recordsTotal (entries.map utxoRecord) = satoshisOf entries * yoctoPerSatoshi := by
  induction entries with
  | nil => rfl
  | cons entry entries ih =>
    rw [satoshisOf_cons, Nat.add_mul, ← ih]
    simp only [recordsTotal, List.map_cons, List.sum_cons, utxoRecord, balance_account,
      Nat.add_zero]

theorem accountIds_utxoRecords (entries : List (String × UInt64)) :
    accountIds (entries.map utxoRecord) = entries.map Prod.fst := by
  rw [accountIds, List.filterMap_map, ← List.filterMap_eq_map]
  rfl

section Builder

variable (validator : ValidatorConfig)

variable {st : BuildState} {entry : String × UInt64}

theorem addUtxo_of_skipped
    (h : isCredited validator entry.1 = false) : addUtxo validator st entry = .ok st := by
  have hskip : entry.1 = validator.accountId ∨ entry.1 = treasuryAccount := by
    simp only [isCredited, decide_eq_false_iff_not] at h
    tauto
  simp only [addUtxo, if_pos hskip]

theorem addUtxo_of_credited (h : isCredited validator entry.1 = true) :
    addUtxo validator st entry =
      if st.totalSupply + entry.2.toNat * yoctoPerSatoshi < 2 ^ 128 then
        .ok
          { totalSupply := st.totalSupply + entry.2.toNat * yoctoPerSatoshi
            records := st.records ++ [utxoRecord entry] }
      else .error "Total supply overflow" := by
  have hkeep : ¬ (entry.1 = validator.accountId ∨ entry.1 = treasuryAccount) := by
    simp only [isCredited, decide_eq_true_eq] at h
    tauto
  simp only [addUtxo, if_neg hkeep, checkedAdd]
  split
  · rfl
  · rfl

theorem foldlM_addUtxo (entries : List (String × UInt64)) (hst : st.totalSupply < 2 ^ 128) :
    entries.foldlM (addUtxo validator) st =
      if st.totalSupply + satoshisOf (creditedEntries validator entries) * yoctoPerSatoshi <
          2 ^ 128 then
        .ok
          { totalSupply := st.totalSupply +
              satoshisOf (creditedEntries validator entries) * yoctoPerSatoshi
            records := st.records ++ (creditedEntries validator entries).map utxoRecord }
      else .error "Total supply overflow" := by
  induction entries generalizing st with
  | nil =>
    have hnil : satoshisOf (creditedEntries validator []) * yoctoPerSatoshi = 0 := by
      rw [creditedEntries, List.filter_nil, satoshisOf, List.map_nil, List.sum_nil, Nat.zero_mul]
    rw [hnil, Nat.add_zero, if_pos hst, creditedEntries, List.filter_nil, List.map_nil,
      List.append_nil]
    rfl
  | cons entry entries ih =>
    rw [List.foldlM_cons]
    cases hcredited : isCredited validator entry.1 with
    | false =>
      have hentries : creditedEntries validator (entry :: entries) =
          creditedEntries validator entries := List.filter_cons_of_neg (by simp [hcredited])
      rw [hentries, addUtxo_of_skipped validator hcredited]
      exact ih hst
    | true =>
      have hentries : creditedEntries validator (entry :: entries) =
          entry :: creditedEntries validator entries := List.filter_cons_of_pos hcredited
      rw [hentries, satoshisOf_cons, Nat.add_mul, ← Nat.add_assoc,
        addUtxo_of_credited validator hcredited]
      by_cases hfits : st.totalSupply + entry.2.toNat * yoctoPerSatoshi < 2 ^ 128
      · rw [if_pos hfits, ok_bind, ih hfits]
        simp only [List.map_cons, List.append_assoc, List.singleton_append]
      · rw [if_neg hfits, error_bind,
          if_neg fun h => hfits (Nat.lt_of_le_of_lt (Nat.le_add_right _ _) h)]

theorem baseSupply_lt : baseSupply validator < 2 ^ 128 := by
  have hwrap : ∀ a b, wrappingAdd 128 a b < 2 ^ 128 := fun a b => Nat.mod_lt _ (by positivity)
  unfold baseSupply addTreasury
  split
  · exact hwrap _ _
  · exact hwrap _ _

def builtSupply (utxoMap : UtxoMap) : Nat :=
  baseSupply validator + satoshisOf (creditedEntries validator (inOrder utxoMap)) * yoctoPerSatoshi

def builtRecords (B : Base64) (utxoMap : UtxoMap) (registry : PatoshiRegistry) : List StateRecord :=
  baseRecords validator ++ (creditedEntries validator (inOrder utxoMap)).map utxoRecord ++
    patoshiRecords B registry

def builtGenesis (B : Base64) (builder : GenesisBuilder) (now : String) (utxoMap : UtxoMap)
    (registry : PatoshiRegistry) : Genesis where
  genesisTime := builder.genesisTime.getD now
  chainId := builder.chainId
  validators := [⟨validator.accountId, validator.publicKeyEd25519, toString validator.stakeYocto⟩]
  totalSupply := toString (builtSupply validator utxoMap)
  protocolTreasuryAccount := treasuryAccount
  records := builtRecords validator B utxoMap registry

theorem builtSupply_le (utxoMap : UtxoMap) : builtSupply validator utxoMap ≤
      baseSupply validator + totalSatoshis utxoMap * yoctoPerSatoshi := by
  rw [← satoshisOf_inOrder]
  exact Nat.add_le_add_left (Nat.mul_le_mul_right _ (satoshisOf_creditedEntries_le validator _)) _

theorem build_eq (B : Base64) (builder : GenesisBuilder) (now : String) (utxoMap : UtxoMap)
    (registry : PatoshiRegistry) :
    builder.build validator B now utxoMap registry =
      if builtSupply validator utxoMap < 2 ^ 128 then
        .ok (builtGenesis validator B builder now utxoMap registry)
      else .error "Total supply overflow" := by
  have hloop : (inOrder utxoMap).foldlM (addUtxo validator)
      (addTreasury validator (addValidator validator)) =
        if builtSupply validator utxoMap < 2 ^ 128 then
          .ok
            { totalSupply := builtSupply validator utxoMap
              records := baseRecords validator ++
                (creditedEntries validator (inOrder utxoMap)).map utxoRecord }
        else .error "Total supply overflow" :=
    foldlM_addUtxo validator _ (baseSupply_lt validator)
  unfold GenesisBuilder.build
  rw [hloop]
  split
  · rfl
  · rfl

end Builder

/-! ## The records of a built genesis -/

section Records

variable {validator : ValidatorConfig} {B : Base64} {utxoMap : UtxoMap} {registry : PatoshiRegistry}

variable {record : StateRecord}

theorem patoshiRecords_data (h : record ∈ patoshiRecords B registry) :
    ∃ accountId dataKey value, record = .data accountId dataKey value := by
  simp only [patoshiRecords] at h
  split at h
  · simp at h
  · rcases List.mem_append.mp h with h | h
    · obtain ⟨_, -, rfl⟩ := List.mem_map.mp h
      exact ⟨_, _, _, rfl⟩
    · rw [List.mem_singleton.mp h]
      exact ⟨_, _, _, rfl⟩

theorem accountIds_patoshiRecords : accountIds (patoshiRecords B registry) = [] := by
  rw [accountIds, List.filterMap_eq_nil_iff]
  intro record hrecord
  obtain ⟨_, _, _, rfl⟩ := patoshiRecords_data hrecord
  rfl

theorem recordsTotal_patoshiRecords : recordsTotal (patoshiRecords B registry) = 0 := by
  refine List.sum_eq_zero fun n hn => ?_
  obtain ⟨_, hrecord, rfl⟩ := List.mem_map.mp hn
  obtain ⟨_, _, _, rfl⟩ := patoshiRecords_data hrecord
  rfl

theorem accountIds_baseRecords (validator : ValidatorConfig) : accountIds (baseRecords validator) =
      if treasuryAccount ≠ validator.accountId then [validator.accountId, treasuryAccount]
      else [validator.accountId] := by
  unfold baseRecords addTreasury
  split
  · rfl
  · rfl

theorem recordsTotal_baseRecords
    (hbound : validator.balanceYocto + validator.stakeYocto + 10 ^ 24 < 2 ^ 128) :
    baseSupply validator = recordsTotal (baseRecords validator) := by
  have htreasury : treasuryBalance = 10 ^ 24 := by decide
  have hvalidator : (addValidator validator).totalSupply =
      validator.balanceYocto + validator.stakeYocto := by
    have hsum : wrappingAdd 128 validator.balanceYocto validator.stakeYocto =
        validator.balanceYocto + validator.stakeYocto := wrappingAdd_eq (by omega)
    show wrappingAdd 128 0 _ = _
    rw [hsum, wrappingAdd_eq (by omega), Nat.zero_add]
  have hrecords : recordsTotal (addValidator validator).records =
      validator.balanceYocto + validator.stakeYocto := by
    simp [recordsTotal, addValidator]
  unfold baseSupply baseRecords addTreasury
  split
  · rw [recordsTotal_append, hrecords, hvalidator, wrappingAdd_eq (by omega)]
    simp [recordsTotal]
  · rw [hrecords, hvalidator]

theorem printed_builtRecords
    (h : record ∈ builtRecords validator B utxoMap registry) : record.Printed := by
  simp only [builtRecords, List.mem_append] at h
  rcases h with (h | h) | h
  · unfold baseRecords addTreasury addValidator at h
    split at h
    · simp only [List.mem_append, List.mem_cons, List.not_mem_nil, or_false] at h
      rcases h with (rfl | rfl) | rfl
      · exact ⟨_, _, rfl⟩
      · exact trivial
      · exact ⟨_, _, rfl⟩
    · simp only [List.mem_cons, List.not_mem_nil, or_false] at h
      rcases h with rfl | rfl
      · exact ⟨_, _, rfl⟩
      · exact trivial
  · obtain ⟨_, -, rfl⟩ := List.mem_map.mp h
    exact ⟨_, _, rfl⟩
  · obtain ⟨_, _, _, rfl⟩ := patoshiRecords_data h
    exact trivial

theorem nodup_builtRecords : (accountIds (builtRecords validator B utxoMap registry)).Nodup := by
  rw [builtRecords, accountIds_append, accountIds_append, accountIds_patoshiRecords,
    List.append_nil, accountIds_utxoRecords, accountIds_baseRecords]
  refine List.Nodup.append ?_ ?_ ?_
  · split
    · next hne => simpa using Ne.symm hne
    · simp
  · exact (List.Sublist.map _ List.filter_sublist).nodup (nodup_keys_inOrder utxoMap)
  · intro id hbase hcredited
    obtain ⟨entry, hentry, rfl⟩ := List.mem_map.mp hcredited
    have hkeep : entry.1 ≠ validator.accountId ∧ entry.1 ≠ treasuryAccount := by
      simpa [isCredited] using (List.mem_filter.mp hentry).2
    split at hbase
    · simp only [List.mem_cons, List.not_mem_nil, or_false] at hbase
      exact hbase.elim hkeep.1 hkeep.2
    · exact hkeep.1 (List.mem_singleton.mp hbase)

theorem recordsTotal_builtRecords
    (hbound : validator.balanceYocto + validator.stakeYocto + 10 ^ 24 < 2 ^ 128) :
    builtSupply validator utxoMap = recordsTotal (builtRecords validator B utxoMap registry) := by
  rw [builtRecords, recordsTotal_append, recordsTotal_append, recordsTotal_patoshiRecords,
    recordsTotal_utxoRecords, ← recordsTotal_baseRecords hbound, Nat.add_zero, builtSupply]

theorem utxoRecord_mem_builtRecords {addr : String} {satoshis : UInt64}
    (hlookup : utxoMap.lookup addr = some satoshis) (hcredited : isCredited validator addr = true) :
    utxoRecord (addr, satoshis) ∈ builtRecords validator B utxoMap registry := by
  have hentry : (addr, satoshis) ∈ creditedEntries validator (inOrder utxoMap) :=
    List.mem_filter.mpr ⟨mem_inOrder.mpr hlookup, hcredited⟩
  exact List.mem_append_left _ (List.mem_append_right _ (List.mem_map.mpr ⟨_, hentry, rfl⟩))

end Records

/-! ## The verifier -/

theorem foldlM_add {records : List StateRecord} {totals : RecordTotals}
    (hprinted : ∀ record ∈ records, record.Printed)
    (hfits : totals.computedTotal + recordsTotal records < 2 ^ 128) :
    ∃ totals', records.foldlM RecordTotals.add totals = .ok totals' ∧
      totals'.computedTotal = totals.computedTotal + recordsTotal records := by
  induction records generalizing totals with
  | nil => exact ⟨totals, rfl, rfl⟩
  | cons record records ih =>
    have htotal : recordsTotal (record :: records) = record.balance + recordsTotal records := by
      rfl
    rw [htotal, ← Nat.add_assoc] at hfits ⊢
    obtain ⟨next, hstep, hnext⟩ : ∃ next, totals.add record = .ok next ∧
        next.computedTotal = totals.computedTotal + record.balance := by
      cases record with
      | accessKey | data => exact ⟨_, rfl, rfl⟩
      | account accountId account =>
        obtain ⟨amount, locked, rfl⟩ := hprinted _ List.mem_cons_self
        rw [balance_account] at hfits ⊢
        have hamount : parseU128 (accountData amount locked).amount = .ok amount :=
          parseU128_toString (by omega)
        have hlocked : parseU128 (accountData amount locked).locked = .ok locked :=
          parseU128_toString (by omega)
        have hadd : checkedAdd 128 totals.computedTotal amount =
            some (totals.computedTotal + amount) := checkedAdd_eq_some.mpr ⟨by omega, rfl⟩
        have hadd' : checkedAdd 128 (totals.computedTotal + amount) locked =
            some (totals.computedTotal + (amount + locked)) :=
          checkedAdd_eq_some.mpr ⟨by omega, by omega⟩
        refine ⟨{ totals with
          computedTotal := totals.computedTotal + (amount + locked)
          accountRecords := totals.accountRecords + 1 }, ?_, rfl⟩
        simp only [RecordTotals.add, hamount, hlocked, Except.mapError, ok_bind, hadd,
          Option.bind_some, hadd', okOr]
    rw [List.foldlM_cons, hstep]
    obtain ⟨totals', hrun, htotals⟩ :=
      ih (fun r hr => hprinted r (List.mem_cons_of_mem _ hr)) (by rwa [hnext])
    exact ⟨totals', hrun, by rw [htotals, hnext]⟩

theorem summarizeGenesis_reconciled {g : Genesis} (hprinted : ∀ record ∈ g.records, record.Printed)
    (hsupply : g.totalSupply = toString (recordsTotal g.records))
    (hfits : recordsTotal g.records < 2 ^ 128) :
    ∃ summary, summarizeGenesis g = .ok summary ∧ summary.reconciled = true ∧
      summary.computedTotalYocto = recordsTotal g.records := by
  obtain ⟨_, hrun, htotals⟩ :=
    @foldlM_add g.records ⟨0, 0, 0, 0⟩ hprinted (by rwa [Nat.zero_add])
  rw [Nat.zero_add] at htotals
  have hdeclared : parseU128 g.totalSupply = .ok (recordsTotal g.records) := by
    rw [hsupply, parseU128_toString hfits]
  refine ⟨_, by rw [summarizeGenesis, hdeclared, hrun]; rfl, ?_, htotals⟩
  rw [htotals]
  exact beq_self_eq_true _

theorem totalSupply_builtGenesis (B : Base64) (builder : GenesisBuilder) (now : String)
    {utxoMap : UtxoMap} {validator : ValidatorConfig} (registry : PatoshiRegistry)
    (hbound : validator.balanceYocto + validator.stakeYocto + 10 ^ 24 < 2 ^ 128) :
    (builtGenesis validator B builder now utxoMap registry).totalSupply =
      toString (recordsTotal (builtRecords validator B utxoMap registry)) := by
  rw [← recordsTotal_builtRecords hbound]
  rfl

theorem summarizeGenesis_builtGenesis (B : Base64) (builder : GenesisBuilder) (now : String)
    {utxoMap : UtxoMap} {validator : ValidatorConfig} (registry : PatoshiRegistry)
    (hbound : validator.balanceYocto + validator.stakeYocto + 10 ^ 24 < 2 ^ 128)
    (hfits : builtSupply validator utxoMap < 2 ^ 128) :
    ∃ summary, summarizeGenesis (builtGenesis validator B builder now utxoMap registry) =
        .ok summary ∧
      summary.reconciled = true ∧
      summary.computedTotalYocto = builtSupply validator utxoMap := by
  have htotal := @recordsTotal_builtRecords validator B utxoMap registry hbound
  obtain ⟨summary, hsummary, hreconciled, hcomputed⟩ :=
    summarizeGenesis_reconciled (fun record => printed_builtRecords)
      (totalSupply_builtGenesis B builder now registry hbound) (htotal ▸ hfits)
  exact ⟨summary, hsummary, hreconciled, hcomputed.trans htotal.symm⟩

/-! ## Supply and credit -/

/-- Every account of a built genesis is recorded once, every address is credited with its
balance, and the declared supply is the sum of what the records hold, which is also what the
verifier finds. -/
theorem genesis_supply_and_credit (B : Base64) (builder : GenesisBuilder) (now : String)
    (utxoMap : UtxoMap) (validator : ValidatorConfig) (registry : PatoshiRegistry) {g : Genesis}
    (hvalidator : validator.accountId ∉ utxoMap) (htreasury : treasuryAccount ∉ utxoMap)
    (hbound : validator.balanceYocto + validator.stakeYocto + 10 ^ 24 < 2 ^ 128)
    (hbuild : builder.build validator B now utxoMap registry = .ok g) :
    (accountIds g.records).Nodup ∧ (∀ addr satoshis, utxoMap.lookup addr = some satoshis →
        ∃ account, .account addr account ∈ g.records ∧
          account.amount = toString (10 ^ 16 * satoshis.toNat) ∧ account.locked = "0") ∧
      g.totalSupply = toString (recordsTotal g.records) ∧
      ∃ summary, summarizeGenesis g = .ok summary ∧ summary.reconciled = true := by
  rw [build_eq] at hbuild
  split at hbuild
  · rename_i hfits
    cases hbuild
    refine ⟨nodup_builtRecords, ?_, totalSupply_builtGenesis B builder now registry hbound, ?_⟩
    · intro addr satoshis hlookup
      have hmem : addr ∈ utxoMap := Finmap.mem_of_lookup_eq_some hlookup
      have hcredited : isCredited validator addr = true := by
        have hne : addr ≠ validator.accountId := fun h => hvalidator (h ▸ hmem)
        have hne' : addr ≠ treasuryAccount := fun h => htreasury (h ▸ hmem)
        exact decide_eq_true ⟨hne, hne'⟩
      refine ⟨_, utxoRecord_mem_builtRecords hlookup hcredited, ?_, rfl⟩
      rw [Nat.mul_comm]
      rfl
    · obtain ⟨summary, hsummary, hreconciled, -⟩ :=
        summarizeGenesis_builtGenesis B builder now registry hbound hfits
      exact ⟨summary, hsummary, hreconciled⟩
  · cases hbuild

def Base64.bytewise : Base64 where
  encode bytes := String.ofList (bytes.map fun b => Char.ofNat b.toNat)
  decode text := some (text.toList.map fun c => UInt8.ofNat c.toNat)
  decode_encode bytes := by
    have hbyte : ∀ b : UInt8, UInt8.ofNat (Char.ofNat b.toNat).toNat = b := by
      intro b
      have hvalid : b.toNat.isValidChar := Or.inl (by have := b.toNat_lt; omega)
      have hchar : (Char.ofNat b.toNat).toNat = b.toNat := by
        rw [Char.ofNat, dif_pos hvalid]
        rfl
      rw [hchar, UInt8.ofNat_toNat]
    rw [String.toList_ofList, List.map_map]
    exact congrArg some (List.map_id'' hbyte bytes)

def sampleValidator : ValidatorConfig :=
  ⟨"validator.near", "ed25519:6E8sCci9badyRkXb3JoRpBj5p8C6Tw41ELDZoiihKEtp", 10 ^ 24, 10 ^ 24⟩

def sampleUtxoMap : UtxoMap :=
  (((∅ : UtxoMap).insert "1A1zP1eP5QGefi2DMPTfTL5SLmv7DivfNa" 5000000000).insert
    "bc1qw508d6qejxtdg4y5r3zarvary0c5xw7kv8f3t4" 250000).insert
    "3J98t1WpEZ73CNmQviecrnyiWrnqRhWNLy" 1

theorem totalSatoshis_sampleUtxoMap : totalSatoshis sampleUtxoMap = 5000250001 := by
  rw [totalSatoshis, sampleUtxoMap, sumEntries_insert (by simp [Finmap.lookup_insert_of_ne]),
    sumEntries_insert (by simp [Finmap.lookup_insert_of_ne]),
    sumEntries_insert (Finmap.lookup_empty _)]
  rfl

theorem genesis_supply_and_credit_sample :
    ∃ g summary, GenesisBuilder.build sampleValidator .bytewise ⟨"bitinfinity", none⟩
        "2026-01-01T00:00:00Z" sampleUtxoMap ∅ = .ok g ∧
      (∃ account, .account "bc1qw508d6qejxtdg4y5r3zarvary0c5xw7kv8f3t4" account ∈ g.records ∧
        account.amount = "2500000000000000000000") ∧
      g.totalSupply = toString (recordsTotal g.records) ∧
      summarizeGenesis g = .ok summary ∧ summary.reconciled = true := by
  have hbase : baseSupply sampleValidator = 3 * 10 ^ 24 := by decide
  have hfits : builtSupply sampleValidator sampleUtxoMap < 2 ^ 128 := by
    refine Nat.lt_of_le_of_lt (builtSupply_le _ _) ?_
    decide
  have hbuild := build_eq sampleValidator .bytewise ⟨"bitinfinity", none⟩
    "2026-01-01T00:00:00Z" sampleUtxoMap ∅
  rw [if_pos hfits] at hbuild
  have hall := genesis_supply_and_credit _ _ _ _ _ _
    (by simp [sampleUtxoMap, sampleValidator, Finmap.notMem_empty])
    (by simp [sampleUtxoMap, treasuryAccount, Finmap.notMem_empty])
    (by decide) hbuild
  obtain ⟨-, hcredit, hsupply, summary, hsummary, hreconciled⟩ := hall
  obtain ⟨account, hmem, hamount, -⟩ := hcredit "bc1qw508d6qejxtdg4y5r3zarvary0c5xw7kv8f3t4"
    250000 (by simp [sampleUtxoMap, Finmap.lookup_insert_of_ne])
  exact ⟨_, summary, hbuild, ⟨account, hmem, hamount.trans (by decide +kernel)⟩, hsupply, hsummary,
    hreconciled⟩

end BitInfinity.Tools
