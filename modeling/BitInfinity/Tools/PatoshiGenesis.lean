import BitInfinity.Bitcoin.DerivedAddresses
import BitInfinity.Tools.GenerateGenesis

/-!
# Patoshi records at genesis

Whatever loads the genesis file, a state that holds its records has the Patoshi data the runtime
relies on: the index can be read and lists exactly the locked accounts, and every locked account
exists with at least its floor.
-/

namespace BitInfinity.Tools

open Foundation

/-! ## States that hold the records of a file -/

/-- The accounts and the contract data of a state are those of the records. -/
structure HoldsRecords {E : Externals} (B : Base64) (records : List StateRecord) (t : Trie E) :
    Prop where
  account : ∀ {id fields}, .account id fields ∈ records →
    ∃ account, t.getAccount id = some account ∧ account.amount = decimal fields.amount ∧
      account.locked = decimal fields.locked
  data : ∀ {id key value}, (t.entries id).contractData key = some value ↔
    ∃ dataKey text, .data id dataKey text ∈ records ∧ B.decode dataKey = some key ∧
      B.decode text = some value

section RecordsState

def StateRecord.accountOf (id : String) : StateRecord → Option Account
  | .account accountId fields =>
    if accountId = id then
      some ⟨decimal fields.amount, decimal fields.locked, .none, fields.storageUsage⟩
    else none
  | .accessKey _ _ _ => none
  | .data _ _ _ => none

def StateRecord.dataOf (B : Base64) (id : String) (key : Bytes) : StateRecord → Option Bytes
  | .account _ _ => none
  | .accessKey _ _ _ => none
  | .data accountId dataKey text =>
    if accountId = id ∧ B.decode dataKey = some key then B.decode text else none

def stateOf (E : Externals) (B : Base64) (records : List StateRecord) : Trie E :=
  { Trie.empty with
    entries := fun id =>
      { Entry.empty with
        account := records.findSome? (StateRecord.accountOf id)
        contractData := fun key => records.findSome? (StateRecord.dataOf B id key) } }

variable {E : Externals} {B : Base64} {records : List StateRecord}

theorem findSome_accountOf (hnodup : (accountIds records).Nodup) {id : String}
    {fields : AccountData} (hmem : .account id fields ∈ records) :
    records.findSome? (StateRecord.accountOf id) =
      some ⟨decimal fields.amount, decimal fields.locked, .none, fields.storageUsage⟩ := by
  induction records with
  | nil => simp at hmem
  | cons record records ih =>
    rw [List.findSome?_cons]
    rcases List.mem_cons.mp hmem with rfl | htail
    · simp [StateRecord.accountOf]
    · have hids : (accountIds records).Nodup :=
        (List.Sublist.filterMap _ (List.sublist_cons_self record records)).nodup hnodup
      have hhead : record.accountOf id = none := by
        cases record with
        | accessKey => rfl
        | data => rfl
        | account accountId fields' =>
          have hid : id ∈ accountIds records := List.mem_filterMap.mpr ⟨_, htail, rfl⟩
          have hnot : accountId ∉ accountIds records := (List.nodup_cons.mp hnodup).1
          exact if_neg fun h : accountId = id => hnot (h ▸ hid)
      rw [hhead]
      exact ih hids htail

theorem holdsRecords_stateOf (hnodup : (accountIds records).Nodup)
    (hunique : ∀ {id dataKey text dataKey' text' key}, .data id dataKey text ∈ records →
      .data id dataKey' text' ∈ records → B.decode dataKey = some key →
      B.decode dataKey' = some key → B.decode text = B.decode text') :
    HoldsRecords B records (stateOf E B records) where
  account hmem := ⟨_, findSome_accountOf hnodup hmem, rfl, rfl⟩
  data := by
    intro id key value
    show records.findSome? (StateRecord.dataOf B id key) = some value ↔ _
    have hdataOf : ∀ {record value}, StateRecord.dataOf B id key record = some value →
        ∃ dataKey text, record = .data id dataKey text ∧ B.decode dataKey = some key ∧
          B.decode text = some value := by
      intro record value h
      cases record with
      | account => cases h
      | accessKey => cases h
      | data accountId dataKey text =>
        simp only [StateRecord.dataOf] at h
        split at h
        · rename_i hmatch
          obtain ⟨rfl, hkey⟩ := hmatch
          exact ⟨dataKey, text, rfl, hkey, h⟩
        · cases h
    constructor
    · intro h
      obtain ⟨record, hmem, hfound⟩ := List.exists_of_findSome?_eq_some h
      obtain ⟨dataKey, text, rfl, hkey, htext⟩ := hdataOf hfound
      exact ⟨dataKey, text, hmem, hkey, htext⟩
    · rintro ⟨dataKey, text, hmem, hkey, htext⟩
      have hsome : StateRecord.dataOf B id key (.data id dataKey text) = some value := by
        rw [StateRecord.dataOf, if_pos ⟨rfl, hkey⟩, htext]
      cases hfound : records.findSome? (StateRecord.dataOf B id key) with
      | none =>
        rw [List.findSome?_eq_none_iff.mp hfound _ hmem] at hsome
        cases hsome
      | some value' =>
        obtain ⟨record, hmem', hrecord⟩ := List.exists_of_findSome?_eq_some hfound
        obtain ⟨dataKey', text', rfl, hkey', htext'⟩ := hdataOf hrecord
        rw [← htext', ← htext, hunique hmem' hmem hkey' hkey]

end RecordsState

/-! ## The data records of the builder -/

section DataRecords

variable {B : Base64} {validator : ValidatorConfig} {utxoMap : UtxoMap} {registry : PatoshiRegistry}

theorem data_mem_builtRecords {id dataKey text : String} :
    .data id dataKey text ∈ builtRecords validator B utxoMap registry ↔
      .data id dataKey text ∈ patoshiRecords B registry := by
  have hbase : .data id dataKey text ∉ baseRecords validator := by
    unfold baseRecords addTreasury addValidator
    split
    · simp
    · simp
  have hutxo : .data id dataKey text ∉
      (creditedEntries validator (inOrder utxoMap)).map utxoRecord := by
    intro h
    obtain ⟨_, -, hentry⟩ := List.mem_map.mp h
    cases hentry
  simp only [builtRecords, List.mem_append, hbase, hutxo, false_or]

theorem data_mem_patoshiRecords {id : String} {key value : Bytes} :
    (∃ dataKey text, .data id dataKey text ∈ patoshiRecords B registry ∧
      B.decode dataKey = some key ∧ B.decode text = some value) ↔
      (key = patoshiRecordDataKey ∧ ∃ balance, registry.lookup id = some balance ∧
        value = PatoshiRecord.encode ⟨balance, true, none⟩) ∨
      (id = treasuryAccount ∧ key = patoshiIndexDataKey ∧ inOrder registry ≠ [] ∧
        value = writeVec writeString ((inOrder registry).map Prod.fst)) := by
  cases hentries : inOrder registry with
  | nil =>
    have hnone : ∀ balance, registry.lookup id ≠ some balance := by
      intro balance hlookup
      have hmem := mem_inOrder.mpr hlookup
      rw [hentries] at hmem
      simp at hmem
    simp [patoshiRecords, hentries, hnone]
  | cons =>
    simp only [patoshiRecords, hentries, List.isEmpty_cons, Bool.false_eq_true, if_false,
      List.mem_append, List.mem_map, List.mem_singleton, StateRecord.data.injEq]
    rw [← hentries]
    constructor
    · rintro ⟨dataKey, text, ⟨⟨_, balance⟩, hmem, rfl, rfl, rfl⟩ | ⟨rfl, rfl, rfl⟩, hkey, htext⟩
      · rw [B.decode_encode] at hkey htext
        exact .inl ⟨(Option.some.inj hkey).symm, balance, mem_inOrder.mp hmem,
          (Option.some.inj htext).symm⟩
      · rw [B.decode_encode] at hkey htext
        exact .inr ⟨rfl, (Option.some.inj hkey).symm, by simp [hentries],
          (Option.some.inj htext).symm⟩
    · rintro (⟨rfl, balance, hlookup, rfl⟩ | ⟨rfl, rfl, -, rfl⟩)
      · exact ⟨_, _, .inl ⟨(id, balance), mem_inOrder.mpr hlookup, rfl, rfl, rfl⟩,
          B.decode_encode _, B.decode_encode _⟩
      · exact ⟨_, _, .inr ⟨rfl, rfl, rfl⟩, B.decode_encode _, B.decode_encode _⟩

theorem patoshiKeys_ne : patoshiRecordDataKey ≠ patoshiIndexDataKey := by
  decide

theorem holdsRecords_builtRecords (E : Externals) (B : Base64) (validator : ValidatorConfig)
    (utxoMap : UtxoMap) (registry : PatoshiRegistry) :
    HoldsRecords B (builtRecords validator B utxoMap registry)
      (stateOf E B (builtRecords validator B utxoMap registry)) := by
  refine holdsRecords_stateOf nodup_builtRecords ?_
  intro id dataKey text dataKey' text' key hmem hmem' hkey hkey'
  rw [data_mem_builtRecords] at hmem hmem'
  have hdecodes : ∀ {dataKey text}, .data id dataKey text ∈ patoshiRecords B registry →
      ∃ value, B.decode text = some value := by
    intro dataKey text h
    simp only [patoshiRecords] at h
    split at h
    · simp at h
    · rcases List.mem_append.mp h with h | h
      · obtain ⟨_, -, hentry⟩ := List.mem_map.mp h
        cases hentry
        exact ⟨_, B.decode_encode _⟩
      · cases List.mem_singleton.mp h
        exact ⟨_, B.decode_encode _⟩
  obtain ⟨value, hvalue⟩ := hdecodes hmem
  obtain ⟨_, hvalue'⟩ := hdecodes hmem'
  have hcase := data_mem_patoshiRecords.mp ⟨dataKey, text, hmem, hkey, hvalue⟩
  have hcase' := data_mem_patoshiRecords.mp ⟨dataKey', text', hmem', hkey', hvalue'⟩
  rw [hvalue, hvalue']
  rcases hcase with ⟨rfl, _, hlookup, rfl⟩ | ⟨-, rfl, -, rfl⟩
  · rcases hcase' with ⟨-, _, hlookup', rfl⟩ | ⟨-, hindex, -, -⟩
    · cases hlookup.symm.trans hlookup'
      rfl
    · exact absurd hindex patoshiKeys_ne
  · rcases hcase' with ⟨hrecord, -⟩ | ⟨-, -, -, rfl⟩
    · exact absurd hrecord.symm patoshiKeys_ne
    · rfl

end DataRecords

/-! ## What the runtime reads -/

section Runtime

variable {E : Externals} {B : Base64} {validator : ValidatorConfig} {utxoMap : UtxoMap}
  {registry : PatoshiRegistry} {t : Trie E}
  (hholds : HoldsRecords B (builtRecords validator B utxoMap registry) t)
include hholds

theorem contractData_iff {id : String} {key value : Bytes} :
    (t.entries id).contractData key = some value ↔
      (key = patoshiRecordDataKey ∧ ∃ balance, registry.lookup id = some balance ∧
        value = PatoshiRecord.encode ⟨balance, true, none⟩) ∨
      (id = treasuryAccount ∧ key = patoshiIndexDataKey ∧ inOrder registry ≠ [] ∧
        value = writeVec writeString ((inOrder registry).map Prod.fst)) := by
  rw [hholds.data, ← data_mem_patoshiRecords (B := B)]
  simp only [data_mem_builtRecords]

theorem getPatoshiRecord_of_holds
    (hbalance : ∀ {id balance}, registry.lookup id = some balance → balance < 2 ^ 128)
    (id : String) :
    getPatoshiRecord t id =
      .ok ((registry.lookup id).map fun balance => ⟨balance, true, none⟩) := by
  unfold getPatoshiRecord Entry.patoshiRecord
  cases hlookup : registry.lookup id with
  | none =>
    have hdata : (t.entries id).contractData patoshiRecordDataKey = none := by
      rw [Option.eq_none_iff_forall_ne_some]
      intro value h
      rcases (contractData_iff hholds).mp h with ⟨-, balance, hsome, -⟩ | ⟨-, hkey, -⟩
      · rw [hlookup] at hsome
        cases hsome
      · exact patoshiKeys_ne hkey
    rw [hdata]
    rfl
  | some balance =>
    have hdata := (contractData_iff hholds).mpr (.inl ⟨rfl, balance, hlookup, rfl⟩)
    have hrange : PatoshiRecord.InRange ⟨balance, true, none⟩ :=
      ⟨hbalance hlookup, fun e he => by cases he⟩
    rw [hdata]
    simp only [PatoshiRecord.decode_encode hrange, Option.map_some]

theorem getPatoshiIndex_of_holds (hlength : (inOrder registry).length < 2 ^ 32)
    (hvalid : ∀ {id balance}, registry.lookup id = some balance →
      AccountId.validate E.toCrypto id = .ok ()) :
    getPatoshiIndex t = .ok ((inOrder registry).map Prod.fst) := by
  unfold getPatoshiIndex
  by_cases hempty : inOrder registry = []
  · have hdata : (t.entries foundationAccountId).contractData patoshiIndexDataKey = none := by
      rw [Option.eq_none_iff_forall_ne_some]
      intro value h
      rcases (contractData_iff hholds).mp h with ⟨hkey, -⟩ | ⟨-, -, hne, -⟩
      · exact patoshiKeys_ne hkey.symm
      · exact hne hempty
    rw [hdata, hempty]
    rfl
  · have hdata : (t.entries foundationAccountId).contractData patoshiIndexDataKey =
        some (writeVec writeString ((inOrder registry).map Prod.fst)) :=
      (contractData_iff hholds).mpr (.inr ⟨rfl, rfl, hempty, rfl⟩)
    have hmemValid : ∀ id ∈ (inOrder registry).map Prod.fst,
        AccountId.validate E.toCrypto id = .ok () := by
      intro id hid
      obtain ⟨_, hentry, rfl⟩ := List.mem_map.mp hid
      exact hvalid (mem_inOrder.mp hentry)
    have hread : decodeAll (readVec readString)
        (writeVec writeString ((inOrder registry).map Prod.fst)) =
          some ((inOrder registry).map Prod.fst) := by
      refine decodeAll_of_read ?_
      have hround := @readVec_writeVec String readString writeString _ (by simpa using hlength)
        (fun id hid rest => readString_writeString
          (Nat.lt_of_le_of_lt (utf8ByteSize_le_of_validate (hmemValid id hid)) (by decide)) rest) []
      rwa [List.append_nil] at hround
    have hparse : ∀ ids : List String, (∀ id ∈ ids, AccountId.validate E.toCrypto id = .ok ()) →
        ids.mapM (parseIndexedAccount E) = .ok ids := by
      intro ids hids
      induction ids with
      | nil => rfl
      | cons id ids ih =>
        have hid : parseIndexedAccount E id = .ok id := by
          rw [parseIndexedAccount, hids id List.mem_cons_self]
        rw [List.mapM_cons, hid, ih fun x hx => hids x (List.mem_cons_of_mem _ hx)]
        rfl
    rw [hdata]
    simp only [hread, okOr]
    exact hparse _ hmemValid

end Runtime

/-! ## The target address -/

/-- Texts of mainnet addresses as the Bitcoin crate prints them: base58 with the version byte of
a key hash or of a script hash, or a SegWit address in lower case. -/
inductive MainnetAddress (C : Crypto) : String → Prop
  | base58 (version : UInt8) (payload : Bytes) : version = 0x00 ∨ version = 0x05 →
      payload.length = 20 → MainnetAddress C (base58checkEncode C version payload)
  | segwit (symbols : Bytes) :
      MainnetAddress C (String.ofList ('b' :: 'c' :: '1' :: symbols.map Bech32.symbol))

section Target

variable {C : Crypto} (hC : StandardEncodings C)
include hC

theorem length_mainnetBase58_bounds {version : UInt8} (hversion : version = 0x00 ∨ version = 0x05)
    {payload : Bytes} (hpayload : payload.length = 20) :
    26 ≤ (Base58.encode (checkedPayload C version payload)).length ∧
      (Base58.encode (checkedPayload C version payload)).length ≤ 35 := by
  rcases hversion with rfl | rfl
  · obtain ⟨hmin, _⟩ := length_base58_bounds hC hpayload
    exact ⟨hmin, by omega⟩
  · refine Base58.length_encode_bounds_of_nonzero (length_checkedPayload hC 5 hpayload) ?_
    simp [Base58.leadingZeros, checkedPayload]

theorem MainnetAddress.validate {target : String} (htarget : MainnetAddress C target)
    (hlength : target.length ≤ 64) :
    AccountId.validate C target = .ok () ∧ target ≠ treasuryAccount := by
  cases htarget with
  | base58 version payload hversion hpayload =>
    have hsize := utf8ByteSize_base58check hC version hpayload
    obtain ⟨hmin, hmax⟩ := length_mainnetBase58_bounds hC hversion hpayload
    have hknown : version ∈ ([0x00, 0x05, 0x6f, 0xc4] : List UInt8) := by
      rcases hversion with rfl | rfl
      · decide
      · decide
    refine ⟨(validate_of_isBitcoinImplicit
      (isBitcoinImplicit_of_version hC hknown hpayload hmin hmax) (by omega) (by omega)).1, ?_⟩
    intro htreasury
    have hnear : treasuryAccount.utf8ByteSize = 4 := by decide
    rw [htreasury, hnear] at hsize
    omega
  | segwit symbols =>
    have halnum : ∀ c ∈ 'b' :: 'c' :: '1' :: symbols.map Bech32.symbol,
        AccountId.isLowerAlphanumeric c = true := by
      intro c hc
      simp only [List.mem_cons, List.mem_map] at hc
      rcases hc with rfl | rfl | rfl | ⟨d, -, rfl⟩
      · decide
      · decide
      · decide
      · exact isLowerAlphanumeric_symbol d
    rw [String.length_ofList] at hlength
    refine ⟨validate_of_lower halnum (by simp) hlength, ?_⟩
    intro htreasury
    have htext := congrArg String.toList htreasury
    rw [String.toList_ofList] at htext
    cases htext

end Target

/-! ## The preconditions -/

/-- The Patoshi data of a state: the index can be read, lists exactly the accounts with a record,
and each of them parses, exists and holds at least its floor. -/
structure PatoshiPreconditions {E : Externals} (t : Trie E) : Prop where
  index : ∃ ids, getPatoshiIndex t = .ok ids ∧
    (∀ id ∈ ids, AccountId.validate E.toCrypto id = .ok ()) ∧
    ∀ id, id ∈ ids ↔ ∃ record, getPatoshiRecord t id = .ok (some record)
  floor : ∀ {id record}, getPatoshiRecord t id = .ok (some record) →
    ∃ account, t.getAccount id = some account ∧
      record.genesisBalance ≤ account.amount + account.locked

section Preconditions

variable {E : Externals} {B : Base64} {validator : ValidatorConfig} {utxoMap : UtxoMap}
  {registry : PatoshiRegistry} {t : Trie E}

theorem patoshiPreconditions_of_holds
    (hholds : HoldsRecords B (builtRecords validator B utxoMap registry) t)
    (hlength : (inOrder registry).length < 2 ^ 32)
    (hbalance : ∀ {id balance}, registry.lookup id = some balance → balance < 2 ^ 128)
    (hvalid : ∀ {id balance}, registry.lookup id = some balance →
      AccountId.validate E.toCrypto id = .ok ())
    (hfloor : ∀ {id balance}, registry.lookup id = some balance →
      ∃ fields, .account id fields ∈ builtRecords validator B utxoMap registry ∧
        balance ≤ decimal fields.amount + decimal fields.locked) : PatoshiPreconditions t where
  index := by
    refine ⟨_, getPatoshiIndex_of_holds hholds hlength hvalid, ?_, ?_⟩
    · intro id hid
      obtain ⟨entry, hentry, rfl⟩ := List.mem_map.mp hid
      exact hvalid (mem_inOrder.mp hentry)
    · intro id
      rw [getPatoshiRecord_of_holds hholds hbalance]
      constructor
      · intro hid
        obtain ⟨entry, hentry, rfl⟩ := List.mem_map.mp hid
        rw [mem_inOrder.mp hentry]
        exact ⟨_, rfl⟩
      · rintro ⟨record, hrecord⟩
        obtain ⟨balance, hlookup, -⟩ := Option.map_eq_some_iff.mp (Except.ok.inj hrecord)
        exact List.mem_map.mpr ⟨(id, balance), mem_inOrder.mpr hlookup, rfl⟩
  floor := by
    intro id record hrecord
    rw [getPatoshiRecord_of_holds hholds hbalance] at hrecord
    obtain ⟨balance, hlookup, rfl⟩ := Option.map_eq_some_iff.mp (Except.ok.inj hrecord)
    obtain ⟨fields, hmem, hle⟩ := hfloor hlookup
    obtain ⟨account, haccount, hamount, hlocked⟩ := hholds.account hmem
    exact ⟨account, haccount, by rw [hamount, hlocked]; exact hle⟩

end Preconditions

theorem lookup_patoshiRegistry {reassignment : PatoshiReassignment} {id : String} {balance : Nat}
    (h : (patoshiRegistry reassignment).lookup id = some balance) :
    reassignment.totalSatoshis > 0 ∧ id = reassignment.targetAddress ∧
      balance = reassignment.totalSatoshis.toNat * yoctoPerSatoshi := by
  unfold patoshiRegistry at h
  split at h
  · rename_i hpos
    by_cases hid : id = reassignment.targetAddress
    · subst hid
      rw [Finmap.lookup_insert] at h
      exact ⟨hpos, rfl, (Option.some.inj h).symm⟩
    · rw [Finmap.lookup_insert_of_ne _ hid, Finmap.lookup_empty] at h
      cases h
  · cases h

theorem length_patoshiRegistry_le (reassignment : PatoshiReassignment) :
    (inOrder (patoshiRegistry reassignment)).length ≤ 1 := by
  unfold patoshiRegistry
  split
  · rw [inOrder_insert_empty]
    rfl
  · rw [inOrder_empty]
    exact Nat.zero_le 1

theorem validator_mem_builtRecords (args : GenerateGenesis) (B : Base64) (utxoMap : UtxoMap)
    (registry : PatoshiRegistry) :
    .account args.validatorAccount (accountData 1000000000000000000000000000000
      50000000000000000000000000000000) ∈ builtRecords args.validator B utxoMap registry := by
  refine List.mem_append_left _ (List.mem_append_left _ ?_)
  unfold baseRecords addTreasury
  split
  · exact List.mem_append_left _ List.mem_cons_self
  · exact List.mem_cons_self

theorem registered_floor {utxos : UtxoMap} (hcap : totalSatoshis utxos ≤ 21000000 * 10 ^ 8)
    {addrs : List String} {target id : String} {balance : Nat}
    (h : (patoshiRegistry (reassignPatoshi utxos addrs target).2).lookup id = some balance) :
    id = target ∧ balance ≤ 21000000 * 10 ^ 24 ∧
      ∃ satoshis, (reassignPatoshi utxos addrs target).1.lookup target = some satoshis ∧
        balance ≤ satoshis.toNat * yoctoPerSatoshi := by
  have hfits : totalSatoshis utxos < 2 ^ 64 := by omega
  obtain ⟨hpos, hid, rfl⟩ := lookup_patoshiRegistry h
  obtain ⟨satoshis, hsatoshis, hle⟩ := lookup_target_reassignPatoshi hfits addrs target hpos
  have hsum : satoshis.toNat ≤ totalSatoshis (reassignPatoshi utxos addrs target).1 := by
    rw [totalSatoshis, sumEntries_erase hsatoshis]
    exact Nat.le_add_left _ _
  rw [totalSatoshis_reassignPatoshi hfits] at hsum
  refine ⟨hid, ?_, satoshis, hsatoshis, Nat.mul_le_mul_right _ hle⟩
  exact Nat.le_trans (Nat.mul_le_mul_right _ (Nat.le_trans hle (Nat.le_trans hsum hcap)))
    (by decide)

/-- The genesis that the command writes establishes what the runtime expects of the Patoshi
data, in every state that holds its records. -/
theorem genesis_patoshi_preconditions (E : Externals) (hC : StandardEncodings E.toCrypto)
    (B : Base64) (args : GenerateGenesis) (now : String) (utxos : UtxoMap)
    (hcap : totalSatoshis utxos ≤ 21000000 * 10 ^ 8) (patoshiAddrs : List String) (target : String)
    (htarget : MainnetAddress E.toCrypto target) (hlength : target.length ≤ 64) :
    ∃ g, args.run B now utxos (some (patoshiAddrs, target)) = .ok g ∧
      (∃ t : Trie E, HoldsRecords B g.records t) ∧
      ∀ t : Trie E, HoldsRecords B g.records t → PatoshiPreconditions t := by
  have hfits : totalSatoshis utxos < 2 ^ 64 := by omega
  obtain ⟨hvalid, hne⟩ := htarget.validate hC hlength
  have hsupply : builtSupply args.validator (reassignPatoshi utxos patoshiAddrs target).1 <
      2 ^ 128 := by
    refine builtSupply_validator_lt args ?_
    rw [totalSatoshis_reassignPatoshi hfits]
    exact hcap
  have hrun : args.run B now utxos (some (patoshiAddrs, target)) =
      .ok (builtGenesis args.validator B ⟨args.chainId, args.genesisTime⟩ now
        (reassignPatoshi utxos patoshiAddrs target).1
        (patoshiRegistry (reassignPatoshi utxos patoshiAddrs target).2)) :=
    (build_eq _ _ _ _ _ _).trans (if_pos hsupply)
  refine ⟨_, hrun, ⟨_, holdsRecords_builtRecords E B _ _ _⟩, ?_⟩
  intro t hholds
  refine patoshiPreconditions_of_holds hholds ?_ ?_ ?_ ?_
  · exact Nat.lt_of_le_of_lt (length_patoshiRegistry_le _) (by decide)
  · intro id balance hregistered
    exact Nat.lt_of_le_of_lt (registered_floor hcap hregistered).2.1 (by decide)
  · intro id balance hregistered
    rw [(registered_floor hcap hregistered).1]
    exact hvalid
  · intro id balance hregistered
    obtain ⟨rfl, _, _, hsatoshis, hfloor⟩ := registered_floor hcap hregistered
    by_cases hvalidator : id = args.validatorAccount
    · subst hvalidator
      refine ⟨_, validator_mem_builtRecords args B _ _, ?_⟩
      simp only [accountData, decimal_toString]
      omega
    · refine ⟨_, utxoRecord_mem_builtRecords hsatoshis (decide_eq_true ⟨hvalidator, hne⟩), ?_⟩
      simp only [accountData, decimal_toString, Nat.add_zero]
      exact hfloor

/-- The coins of the first block, moved to a SegWit address. -/
theorem genesis_patoshi_preconditions_sample :
    ∃ g, GenerateGenesis.default.run .bytewise "2026-01-01T00:00:00Z" sampleUtxoMap
        (some (["1A1zP1eP5QGefi2DMPTfTL5SLmv7DivfNa"],
          String.ofList ('b' :: 'c' :: '1' :: (List.replicate 39 0).map Bech32.symbol))) = .ok g ∧
      (∃ t : Trie { Externals.sample with toCrypto := .standard },
        HoldsRecords .bytewise g.records t) ∧
      ∀ t : Trie { Externals.sample with toCrypto := .standard },
        HoldsRecords .bytewise g.records t → PatoshiPreconditions t :=
  genesis_patoshi_preconditions _ standardEncodings_standard .bytewise .default
    "2026-01-01T00:00:00Z" sampleUtxoMap (by rw [totalSatoshis_sampleUtxoMap]; decide) _ _
    (.segwit _) (by rw [String.length_ofList]; simp)

end BitInfinity.Tools
