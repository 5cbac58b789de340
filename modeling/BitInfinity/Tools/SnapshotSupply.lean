import BitInfinity.Tools.Txoutsetinfo
import BitInfinity.Tools.UtxoParser

/-!
# The supply check before launch

The command compares the total of a genesis file with the total that a Bitcoin node reports for
the snapshot, and fails when they differ by more than the tolerance.  The total of the file
includes the coins of the validator and of the treasury, which are not in the snapshot, while the
records of the snapshot that have no address are not in the file.
-/

namespace BitInfinity.Tools

open Foundation Foundation.Json

/-! ## The command -/

def yoctoToSatoshisExact (yocto : Nat) : Except String Nat :=
  if yocto % yoctoPerSatoshi ≠ 0 then
    .error ("Yocto amount is not an exact satoshi multiple: " ++ toString yocto)
  else
    .ok (yocto / yoctoPerSatoshi)

def absDiff (a b : Nat) : Nat := if a < b then b - a else a - b

def defaultToleranceSats : Nat := 1

def supplyFailure (diffSatoshis toleranceSats : Nat) : String :=
  "Snapshot supply reconciliation failed: diff " ++ toString diffSatoshis ++
    " sats exceeds tolerance " ++ toString toleranceSats ++ " sats"

def verifySnapshotSupply (fromStr : String → Except String Value) (genesis : Genesis)
    (txoutsetinfo : String) (toleranceSats : Nat) : Except String Unit := do
  let genesisSummary ← summarizeGenesis genesis
  ensure genesisSummary.reconciled
    "Genesis must reconcile internally before snapshot supply comparison"
  let txoutsetSummary ← summarizeTxoutsetinfo fromStr txoutsetinfo
  let genesisTotalSatoshis ← yoctoToSatoshisExact genesisSummary.computedTotalYocto
  let snapshotTotalSatoshis := txoutsetSummary.totalSatoshis
  let diffSatoshis := absDiff genesisTotalSatoshis snapshotTotalSatoshis
  ensure (decide (diffSatoshis ≤ toleranceSats)) (supplyFailure diffSatoshis toleranceSats)

/-! ## The totals that are compared -/

theorem yoctoToSatoshisExact_mul (n : Nat) :
    yoctoToSatoshisExact (n * yoctoPerSatoshi) = .ok n := by
  rw [yoctoToSatoshisExact, if_neg (by simp),
    Nat.mul_div_cancel n (by decide : 0 < yoctoPerSatoshi)]

theorem verifySnapshotSupply_eq {fromStr : String → Except String Value} {genesis : Genesis}
    {content : String} {summary : GenesisSupplySummary} {info : TxoutsetSupplySummary} {n : Nat}
    (hgenesis : summarizeGenesis genesis = .ok summary) (hreconciled : summary.reconciled = true)
    (hcomputed : summary.computedTotalYocto = n * yoctoPerSatoshi)
    (hinfo : summarizeTxoutsetinfo fromStr content = .ok info) (toleranceSats : Nat) :
    verifySnapshotSupply fromStr genesis content toleranceSats =
      if absDiff n info.totalSatoshis ≤ toleranceSats then .ok ()
      else .error (supplyFailure (absDiff n info.totalSatoshis) toleranceSats) := by
  rw [verifySnapshotSupply, hgenesis, ok_bind, hreconciled, hinfo, hcomputed,
    yoctoToSatoshisExact_mul]
  simp [ensure]

theorem exists_builtSupply_eq (args : GenerateGenesis) (utxos : UtxoMap) :
    ∃ n, builtSupply args.validator utxos = n * yoctoPerSatoshi ∧ 51 * 10 ^ 14 ≤ n := by
  have hbase := baseSupply_validator_eq args
  rw [builtSupply]
  generalize satoshisOf (creditedEntries args.validator (inOrder utxos)) = credited
  unfold yoctoPerSatoshi
  rcases hbase with hbase | hbase
  · exact ⟨51 * 10 ^ 14 + credited, by rw [hbase]; ring, by omega⟩
  · exact ⟨51 * 10 ^ 14 + 10 ^ 8 + credited, by rw [hbase]; ring, by omega⟩

/-- The coins of the validator alone are more than the snapshot can hold, so that no file the
generator writes passes the check. -/
theorem snapshot_supply_never_verified {C : Crypto} {parser : UtxoParser} {dump : List UtxoEntry}
    {utxos : UtxoMap} (hparse : parser.parseAndAggregate C dump = .ok utxos)
    (hcap : snapshotSatoshis dump ≤ 21000000 * 10 ^ 8) {fromStr : String → Except String Value}
    {content : String} {info : TxoutsetSupplySummary}
    (hinfo : summarizeTxoutsetinfo fromStr content = .ok info)
    (htotal : info.totalSatoshis = snapshotSatoshis dump) (B : Base64) (args : GenerateGenesis)
    (now : String) (patoshi : Option (List String × String)) :
    ∃ g diff, args.run B now utxos patoshi = .ok g ∧ defaultToleranceSats < diff ∧
      verifySnapshotSupply fromStr g content defaultToleranceSats =
        .error (supplyFailure diff defaultToleranceSats) := by
  have haddressed := addressedSatoshis_le dump
  have hutxos : totalSatoshis utxos ≤ 21000000 * 10 ^ 8 := by
    rw [totalSatoshis_parseAndAggregate hparse (by omega)]
    omega
  obtain ⟨utxos', registry, hkept, hrun⟩ := run_eq_ok B args now hutxos patoshi
  have hfits := builtSupply_validator_lt args (hkept ▸ hutxos)
  have hbound : args.validator.balanceYocto + args.validator.stakeYocto + 10 ^ 24 < 2 ^ 128 := by
    show 1000000000000000000000000000000 + 50000000000000000000000000000000 + 10 ^ 24 < 2 ^ 128
    decide
  obtain ⟨_, hsummary, hreconciled, hcomputed⟩ :=
    summarizeGenesis_builtGenesis B ⟨args.chainId, args.genesisTime⟩ now registry hbound hfits
  obtain ⟨n, hn, _⟩ := exists_builtSupply_eq args utxos'
  have hdiff : defaultToleranceSats < absDiff n info.totalSatoshis := by
    rw [htotal, absDiff, defaultToleranceSats, if_neg (by omega)]
    omega
  refine ⟨_, absDiff n info.totalSatoshis, hrun, hdiff, ?_⟩
  rw [verifySnapshotSupply_eq hsummary hreconciled (hcomputed.trans hn) hinfo,
    if_neg (Nat.not_le.mpr hdiff)]

def sampleInfo : String := String.ofList (txoutsetinfo heightMember "19687500.00000001".toList).text

theorem summarizeTxoutsetinfo_sampleInfo : summarizeTxoutsetinfo readJson sampleInfo =
    .ok ⟨some 840000, none, "19687500.00000001", 1968750000000001⟩ := by
  decide +kernel

def sampleDump : List UtxoEntry := [⟨1968750000000001, payToAnchor.scriptPubkey⟩]

theorem parse_sampleDump : UtxoParser.parseAndAggregate .bip350 ⟨1⟩ sampleDump =
    .ok ((∅ : UtxoMap).insert (payToAnchor.toText .bip350) 1968750000000001) :=
  parseAndAggregate_singleton .bip350 (BitcoinAddress.fromScript_scriptPubkey payToAnchor)

theorem snapshot_supply_never_verified_sample :
    ∃ utxos g diff, UtxoParser.parseAndAggregate .bip350 ⟨1⟩ sampleDump = .ok utxos ∧
      GenerateGenesis.default.run .bytewise "2026-01-01T00:00:00Z" utxos none = .ok g ∧
      verifySnapshotSupply readJson g sampleInfo 1 = .error (supplyFailure diff 1) := by
  obtain ⟨g, diff, hrun, -, hverify⟩ := snapshot_supply_never_verified parse_sampleDump
    (by decide) summarizeTxoutsetinfo_sampleInfo rfl .bytewise .default
    "2026-01-01T00:00:00Z" none
  exact ⟨_, g, diff, parse_sampleDump, hrun, hverify⟩

/-- Although every record has an address, the totals differ by the 51000001 coins of the
validator and the treasury. -/
theorem sample_snapshot_refused :
    ∃ utxos g, UtxoParser.parseAndAggregate .bip350 ⟨1⟩ sampleDump = .ok utxos ∧
      GenerateGenesis.default.run .bytewise "2026-01-01T00:00:00Z" utxos none = .ok g ∧
      snapshotSatoshis sampleDump = 1968750000000001 ∧
      summarizeTxoutsetinfo readJson sampleInfo =
        .ok ⟨some 840000, none, "19687500.00000001", 1968750000000001⟩ ∧
      verifySnapshotSupply readJson g sampleInfo defaultToleranceSats =
        .error (supplyFailure (51000001 * 10 ^ 8) 1) := by
  have hbase : baseSupply GenerateGenesis.default.validator = 51000001 * 10 ^ 24 := by decide
  have hcredited : isCredited GenerateGenesis.default.validator
      (payToAnchor.toText .bip350) = true := by decide +kernel
  have hsupply : builtSupply GenerateGenesis.default.validator
      ((∅ : UtxoMap).insert (payToAnchor.toText .bip350) 1968750000000001) =
      (51000001 * 10 ^ 8 + 1968750000000001) * yoctoPerSatoshi := by
    rw [builtSupply, hbase, inOrder_insert_empty, creditedEntries, List.filter_singleton, hcredited]
    rfl
  have hfits : builtSupply GenerateGenesis.default.validator
      ((∅ : UtxoMap).insert (payToAnchor.toText .bip350) 1968750000000001) < 2 ^ 128 := by
    rw [hsupply]
    decide
  have hrun := (build_eq GenerateGenesis.default.validator .bytewise
    ⟨"bitinfinity-mainnet", none⟩ "2026-01-01T00:00:00Z" _ ∅).trans (if_pos hfits)
  obtain ⟨_, hsummary, hreconciled, hcomputed⟩ := summarizeGenesis_builtGenesis
    .bytewise ⟨"bitinfinity-mainnet", none⟩ "2026-01-01T00:00:00Z" ∅ (by decide) hfits
  refine ⟨_, _, parse_sampleDump, hrun, rfl, summarizeTxoutsetinfo_sampleInfo, ?_⟩
  rw [verifySnapshotSupply_eq hsummary hreconciled (hcomputed.trans hsupply)
    summarizeTxoutsetinfo_sampleInfo]
  rfl

end BitInfinity.Tools
