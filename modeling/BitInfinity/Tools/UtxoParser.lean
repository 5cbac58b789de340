import BitInfinity.Bitcoin.Scripts
import BitInfinity.Tools.GenerateGenesis

/-!
# Reading a snapshot

The records of a UTXO snapshot are added up by address.  Records whose script has no address are
counted and otherwise passed over.  The text of every address becomes an account id of the
genesis, so that one address that the account id parser refuses makes the file unusable.
-/

namespace BitInfinity.Tools

open Foundation

/-! ## The parser -/

structure UtxoEntry where
  amount : UInt64
  scriptPubkey : Script
  deriving DecidableEq, Repr

def UtxoEntry.address (item : UtxoEntry) : Option BitcoinAddress :=
  BitcoinAddress.fromScript item.scriptPubkey

structure UtxoParser where
  expectedUtxoCount : UInt64

/-- The part of the check of the header that is about its contents. -/
def UtxoParser.new (utxoSetSize : UInt64) : Except String UtxoParser :=
  if utxoSetSize = 0 then .error "UTXO snapshot header reports zero coins"
  else .ok ⟨utxoSetSize⟩

structure AggregateState where
  addressBalances : UtxoMap
  totalUtxos : UInt64
  skippedNoAddress : UInt64
  totalSatoshis : UInt64

def AggregateState.start : AggregateState := ⟨∅, 0, 0, 0⟩

def AggregateState.add (C : Crypto) (st : AggregateState) (item : UtxoEntry) : AggregateState :=
  let st :=
    { st with
      totalUtxos := st.totalUtxos + 1
      totalSatoshis := st.totalSatoshis + item.amount }
  match item.address with
  | some addr =>
    { st with addressBalances := credit st.addressBalances (addr.toText C) item.amount }
  | none => { st with skippedNoAddress := st.skippedNoAddress + 1 }

def UtxoParser.parseAndAggregate (C : Crypto) (parser : UtxoParser) (dump : List UtxoEntry) :
    Except String UtxoMap :=
  let st := dump.foldl (AggregateState.add C) .start
  if st.totalUtxos ≠ parser.expectedUtxoCount then
    .error ("UTXO count mismatch: parsed " ++ toString st.totalUtxos ++
      " records, header reported " ++ toString parser.expectedUtxoCount)
  else .ok st.addressBalances

/-! ## What aggregation keeps -/

section Aggregate

variable {C : Crypto}

variable {parser : UtxoParser} {dump : List UtxoEntry} {utxos : UtxoMap} {addr : String}
  {st : AggregateState}

theorem addressBalances_add (st : AggregateState) (item : UtxoEntry) :
    (st.add C item).addressBalances = match item.address with
      | some addr => credit st.addressBalances (addr.toText C) item.amount
      | none => st.addressBalances := by
  unfold AggregateState.add
  cases item.address <;> rfl

theorem eq_of_parseAndAggregate (h : parser.parseAndAggregate C dump = .ok utxos) :
    utxos = (dump.foldl (AggregateState.add C) .start).addressBalances := by
  unfold UtxoParser.parseAndAggregate at h
  dsimp only at h
  split at h
  · cases h
  · exact (Except.ok.inj h).symm

theorem mem_credit {balances : UtxoMap} {addr' : String} {sats : UInt64} :
    addr ∈ credit balances addr' sats ↔ addr = addr' ∨ addr ∈ balances := by
  rw [credit, Finmap.mem_insert]

theorem mem_add {item : UtxoEntry} : addr ∈ (st.add C item).addressBalances ↔
      addr ∈ item.address.map (BitcoinAddress.toText C) ∨ addr ∈ st.addressBalances := by
  rw [addressBalances_add]
  cases item.address with
  | none => simp
  | some a => simp [mem_credit, eq_comm]

theorem mem_aggregate : addr ∈ (dump.foldl (.add C) st).addressBalances ↔
      (∃ item ∈ dump, addr ∈ item.address.map (BitcoinAddress.toText C)) ∨
        addr ∈ st.addressBalances := by
  induction dump generalizing st with
  | nil => simp
  | cons item dump ih =>
    rw [List.foldl_cons, ih, mem_add]
    simp only [List.mem_cons, exists_eq_or_imp]
    rw [or_left_comm, or_assoc]

def snapshotSatoshis (dump : List UtxoEntry) : Nat := (dump.map fun item => item.amount.toNat).sum

def addressedSatoshis (dump : List UtxoEntry) : Nat :=
  snapshotSatoshis (dump.filter fun item => item.address.isSome)

theorem addressedSatoshis_le (dump : List UtxoEntry) :
    addressedSatoshis dump ≤ snapshotSatoshis dump :=
  ((List.filter_sublist (l := dump)).map _).sum_le_sum (fun _ _ => Nat.zero_le _)

theorem totalSatoshis_aggregate
    (hfits : totalSatoshis st.addressBalances + addressedSatoshis dump < 2 ^ 64) :
    totalSatoshis (dump.foldl (.add C) st).addressBalances =
      totalSatoshis st.addressBalances + addressedSatoshis dump := by
  induction dump generalizing st with
  | nil => rfl
  | cons item dump ih =>
    have hstep := addressBalances_add (C := C) st item
    cases haddress : item.address with
    | none =>
      have hskip : addressedSatoshis (item :: dump) = addressedSatoshis dump := by
        simp [addressedSatoshis, haddress]
      rw [haddress] at hstep
      rw [hskip] at hfits ⊢
      rw [List.foldl_cons, ih (by rwa [hstep]), hstep]
    | some a =>
      have hcount : addressedSatoshis (item :: dump) =
          item.amount.toNat + addressedSatoshis dump := by
        simp [addressedSatoshis, snapshotSatoshis, haddress]
      rw [haddress] at hstep
      rw [hcount] at hfits ⊢
      have hcredit : totalSatoshis (st.add C item).addressBalances =
          totalSatoshis st.addressBalances + item.amount.toNat := by
        rw [hstep]
        exact totalSatoshis_credit _ (by omega)
      rw [List.foldl_cons, ih (by omega), hcredit, Nat.add_assoc]

theorem totalSatoshis_parseAndAggregate (h : parser.parseAndAggregate C dump = .ok utxos)
    (hfits : addressedSatoshis dump < 2 ^ 64) : totalSatoshis utxos = addressedSatoshis dump := by
  have hstart : totalSatoshis AggregateState.start.addressBalances = 0 := rfl
  rw [eq_of_parseAndAggregate h, totalSatoshis_aggregate (by rwa [hstart, Nat.zero_add]), hstart,
    Nat.zero_add]

theorem mem_parseAndAggregate (h : parser.parseAndAggregate C dump = .ok utxos) :
    addr ∈ utxos ↔ ∃ item ∈ dump, addr ∈ item.address.map (BitcoinAddress.toText C) := by
  rw [eq_of_parseAndAggregate h, mem_aggregate]
  simp [AggregateState.start, Finmap.notMem_empty]

end Aggregate

/-! ## Snapshot addresses as account ids -/

theorem mem_accountIds_of_mem {validator : ValidatorConfig} {B : Base64}
    {builder : GenesisBuilder} {now : String} {utxoMap : UtxoMap} {registry : PatoshiRegistry}
    {g : Genesis} (hbuild : builder.build validator B now utxoMap registry = .ok g)
    {addr : String} (hmem : addr ∈ utxoMap) : addr ∈ accountIds g.records := by
  rw [build_eq] at hbuild
  split at hbuild
  · obtain rfl := Except.ok.inj hbuild
    have hrecords : accountIds (builtRecords validator B utxoMap registry) =
        accountIds (baseRecords validator) ++
          (creditedEntries validator (inOrder utxoMap)).map Prod.fst := by
      rw [builtRecords, accountIds_append, accountIds_append, accountIds_patoshiRecords,
        List.append_nil, accountIds_utxoRecords]
    change addr ∈ accountIds (builtRecords validator B utxoMap registry)
    rw [hrecords, accountIds_baseRecords, List.mem_append]
    cases hcredited : isCredited validator addr with
    | true =>
      obtain ⟨satoshis, hlookup⟩ := Finmap.mem_iff.mp hmem
      exact .inr (List.mem_map.mpr ⟨(addr, satoshis),
        List.mem_filter.mpr ⟨mem_inOrder.mpr hlookup, hcredited⟩, rfl⟩)
    | false =>
      left
      simp only [isCredited, decide_eq_false_iff_not, not_and_or, not_not] at hcredited
      split
      · simpa using hcredited
      · rename_i heq
        rw [not_not] at heq
        rw [heq, or_self] at hcredited
        simp [hcredited]
  · cases hbuild

/-- The text of an address of the snapshot becomes an account id of the genesis, and the parser
accepts it as a Bitcoin account exactly when the script has at most 35 bytes. -/
theorem snapshot_account_legal_iff {C : Crypto} (hC : StandardEncodings C) (hbip : FollowsBip350 C)
    {parser : UtxoParser} {dump : List UtxoEntry} {utxos : UtxoMap}
    (hparse : parser.parseAndAggregate C dump = .ok utxos) {item : UtxoEntry} (hitem : item ∈ dump)
    {a : BitcoinAddress} (haddress : item.address = some a) {validator : ValidatorConfig}
    {B : Base64} {builder : GenesisBuilder} {now : String} {registry : PatoshiRegistry}
    {g : Genesis} (hbuild : builder.build validator B now utxos registry = .ok g) :
    a.toText C ∈ utxos ∧ a.toText C ∈ accountIds g.records ∧
      (AccountId.validate C (a.toText C) = .ok () ∧
          AccountId.getAccountType C (a.toText C) = .btcImplicitAccount ↔
        item.scriptPubkey.length ≤ 35) := by
  have hmem : a.toText C ∈ utxos :=
    (mem_parseAndAggregate hparse).mpr ⟨item, hitem, by rw [haddress]; rfl⟩
  refine ⟨hmem, mem_accountIds_of_mem hbuild hmem, ?_⟩
  rw [address_text_legal_iff hC hbip, BitcoinAddress.scriptPubkey_of_fromScript haddress]

theorem parseAndAggregate_singleton (C : Crypto) {item : UtxoEntry} {a : BitcoinAddress}
    (haddress : item.address = some a) :
    UtxoParser.parseAndAggregate C ⟨1⟩ [item] =
      .ok ((∅ : UtxoMap).insert (a.toText C) item.amount) := by
  have hadd : (AggregateState.start.add C item).addressBalances =
      (∅ : UtxoMap).insert (a.toText C) item.amount := by
    rw [addressBalances_add, haddress]
    simp [credit, AggregateState.start]
  have hcount : (AggregateState.start.add C item).totalUtxos = 1 := by
    unfold AggregateState.add
    cases item.address <;> rfl
  rw [← hadd]
  exact if_neg (not_not.mpr hcount)

def payToAnchor : BitcoinAddress :=
  .witness ⟨1, [0x4e, 0x73], by decide, by decide, by decide, by decide⟩

theorem snapshot_account_legal_anchor :
    ∃ utxos g, UtxoParser.parseAndAggregate .bip350 ⟨1⟩ [⟨240, payToAnchor.scriptPubkey⟩] =
        .ok utxos ∧
      GenesisBuilder.build sampleValidator .bytewise ⟨"bitinfinity", none⟩
        "2026-01-01T00:00:00Z" utxos ∅ = .ok g ∧
      AccountId.validate .bip350 (payToAnchor.toText .bip350) = .ok () := by
  have haddress := BitcoinAddress.fromScript_scriptPubkey payToAnchor
  have hparse := parseAndAggregate_singleton .bip350
    (show UtxoEntry.address ⟨240, payToAnchor.scriptPubkey⟩ = some payToAnchor from haddress)
  have hfits : builtSupply sampleValidator
      ((∅ : UtxoMap).insert (payToAnchor.toText .bip350) 240) < 2 ^ 128 := by
    refine Nat.lt_of_le_of_lt (builtSupply_le _ _) ?_
    rw [totalSatoshis, sumEntries_insert (Finmap.lookup_empty _)]
    decide
  have hbuild := (build_eq sampleValidator .bytewise ⟨"bitinfinity", none⟩
    "2026-01-01T00:00:00Z" _ ∅).trans (if_pos hfits)
  have hlegal := snapshot_account_legal_iff standardEncodings_bip350 followsBip350_bip350 hparse
    (List.mem_singleton.mpr rfl) haddress hbuild
  exact ⟨_, _, hparse, hbuild, (hlegal.2.2.mpr (by decide)).1⟩

/-- A program of 34 bytes has an address of 65 characters. -/
theorem snapshot_account_too_long : ∃ a utxos, UtxoParser.parseAndAggregate .bip350 ⟨1⟩
        [⟨240, 0x52 :: 34 :: List.replicate 34 0⟩] = .ok utxos ∧
      a ∈ utxos ∧ AccountId.validate .bip350 a = .error ⟨.tooLong, none⟩ := by
  let a : BitcoinAddress :=
    .witness ⟨2, List.replicate 34 0, by decide, by decide, by decide, by decide⟩
  have haddress := BitcoinAddress.fromScript_scriptPubkey a
  refine ⟨a.toText .bip350, _, parseAndAggregate_singleton .bip350 haddress, ?_, ?_⟩
  · exact Finmap.mem_insert.mpr (.inl rfl)
  · decide +kernel

end BitInfinity.Tools
