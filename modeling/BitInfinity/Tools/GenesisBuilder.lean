import BitInfinity.Foundation.Decimal
import BitInfinity.Foundation.FinmapSum
import BitInfinity.Runtime.BitcoinTx
import Mathlib.Data.String.Basic

/-!
# The genesis builder

The tool turns aggregated UTXO balances, a validator and the Patoshi registry into the records
of a genesis file, and reads such a file back to compare the declared supply with the balances
of its accounts.  Balances are decimal texts in the file.  Fields of the file that neither
function looks at are left out.
-/

namespace BitInfinity.Tools

open Foundation

/-! ## Texts -/

variable {n m : Nat} {digits : List Char}

structure Base64 where
  encode : Bytes → String
  decode : String → Option Bytes
  decode_encode : ∀ bytes, decode (encode bytes) = some bytes

def pushDigit (n : Nat) (c : Char) : Except String Nat := do
  ensure c.isDigit "invalid digit found in string"
  let n ← okOr (checkedMul 128 n 10) "number too large to fit in target type"
  okOr (checkedAdd 128 n (c.toNat - '0'.toNat)) "number too large to fit in target type"

def parseU128 (text : String) : Except String Nat :=
  match text.toList with
  | [] => .error "cannot parse integer from empty string"
  | ['+'] => .error "invalid digit found in string"
  | '+' :: digits => digits.foldlM pushDigit 0
  | digits => digits.foldlM pushDigit 0

theorem pushDigit_eq_ok {c : Char} : pushDigit n c = .ok m ↔
      c.isDigit = true ∧ 10 * n + (c.toNat - '0'.toNat) < 2 ^ 128 ∧
        m = 10 * n + (c.toNat - '0'.toNat) := by
  simp only [pushDigit, bind_eq_ok, ensure_eq_ok, okOr_eq_ok, checkedMul_eq_some,
    checkedAdd_eq_some]
  constructor
  · rintro ⟨-, hdigit, -, ⟨-, rfl⟩, hlt, rfl⟩
    exact ⟨hdigit, by omega, by omega⟩
  · rintro ⟨hdigit, hlt, rfl⟩
    exact ⟨(), hdigit, _, ⟨by omega, rfl⟩, by omega, by omega⟩

theorem foldlM_pushDigit_eq_ok (hn : n < 2 ^ 128) : digits.foldlM pushDigit n = .ok m ↔
      (∀ c ∈ digits, c.isDigit = true) ∧ m = Nat.ofDigitChars 10 digits n ∧ m < 2 ^ 128 := by
  induction digits generalizing n with
  | nil =>
    simp only [List.foldlM_nil, pure, Except.pure, Except.ok.injEq, List.not_mem_nil,
      false_imp_iff, implies_true, true_and, Nat.ofDigitChars, List.foldl_nil]
    constructor
    · rintro rfl
      exact ⟨rfl, hn⟩
    · rintro ⟨rfl, -⟩
      rfl
  | cons c digits ih =>
    rw [foldlM_cons_eq_ok, Nat.ofDigitChars_cons, List.forall_mem_cons]
    constructor
    · rintro ⟨_, hpush, hrest⟩
      obtain ⟨hdigit, hlt, rfl⟩ := pushDigit_eq_ok.mp hpush
      obtain ⟨hdigits, hm⟩ := (ih hlt).mp hrest
      exact ⟨⟨hdigit, hdigits⟩, hm⟩
    · rintro ⟨⟨hdigit, hdigits⟩, rfl, hlt⟩
      have hstep := Nat.lt_of_le_of_lt (le_ofDigitChars digits _) hlt
      exact ⟨_, pushDigit_eq_ok.mpr ⟨hdigit, hstep, rfl⟩, (ih hstep).mpr ⟨hdigits, rfl, hlt⟩⟩

theorem parseU128_digits (hne : digits ≠ []) (hdigits : ∀ c ∈ digits, c.isDigit = true) :
    parseU128 (String.ofList digits) = .ok n ↔ n = Nat.ofDigitChars 10 digits 0 ∧ n < 2 ^ 128 := by
  have hfold : digits.foldlM pushDigit 0 = .ok n ↔ _ := foldlM_pushDigit_eq_ok (by decide)
  unfold parseU128
  rw [String.toList_ofList]
  split
  · next hnil => exact absurd rfl hne
  · exact absurd (hdigits '+' (by simp)) (by decide)
  · exact absurd (hdigits '+' (by simp)) (by decide)
  · rw [hfold]
    exact and_iff_right hdigits

theorem parseU128_toString (hn : n < 2 ^ 128) : parseU128 (toString n) = .ok n := by
  refine (parseU128_digits Nat.toDigits_ne_nil fun c => ?_).mpr ⟨?_, hn⟩
  · exact Nat.isDigit_of_mem_toDigits (by omega) le_rfl
  · exact Nat.ofDigitChars_ten_toDigits.symm

/-! ## Records -/

structure AccountData where
  amount : String
  locked : String
  codeHash : String
  storageUsage : Nat
  version : String
  deriving DecidableEq, Repr

structure AccessKeyData where
  nonce : Nat
  permission : String
  deriving DecidableEq, Repr

inductive StateRecord
  | account (accountId : String) (account : AccountData)
  | accessKey (accountId publicKey : String) (accessKey : AccessKeyData)
  | data (accountId dataKey value : String)
  deriving DecidableEq, Repr

structure ValidatorInfo where
  accountId : String
  publicKey : String
  amount : String
  deriving DecidableEq, Repr

structure Genesis where
  genesisTime : String
  chainId : String
  validators : List ValidatorInfo
  totalSupply : String
  protocolTreasuryAccount : String
  records : List StateRecord
  deriving DecidableEq, Repr

/-! ## Building -/

structure GenesisBuilder where
  chainId : String
  genesisTime : Option String

structure ValidatorConfig where
  accountId : String
  publicKeyEd25519 : String
  stakeYocto : Nat
  balanceYocto : Nat

/-- Balances in satoshis by address. -/
abbrev UtxoMap := Finmap fun _ : String => UInt64

/-- Floors in yoctoBIT by account. -/
abbrev PatoshiRegistry := Finmap fun _ : String => Nat

def noCodeHash : String := "11111111111111111111111111111111"
def treasuryAccount : String := "near"
def treasuryBalance : Nat := 1000000000000000000000000
def yoctoPerSatoshi : Nat := 10 ^ 16

def accountData (amount locked : Nat) : AccountData where
  amount := toString amount
  locked := toString locked
  codeHash := noCodeHash
  storageUsage := 0
  version := "V1"

structure BuildState where
  totalSupply : Nat
  records : List StateRecord

section Build

variable (validator : ValidatorConfig)

def addValidator : BuildState where
  totalSupply := wrappingAdd 128 0 (wrappingAdd 128 validator.balanceYocto validator.stakeYocto)
  records :=
    [.account validator.accountId (accountData validator.balanceYocto validator.stakeYocto),
      .accessKey validator.accountId validator.publicKeyEd25519 ⟨0, "FullAccess"⟩]

def addTreasury (st : BuildState) : BuildState :=
  if treasuryAccount ≠ validator.accountId then
    { totalSupply := wrappingAdd 128 st.totalSupply treasuryBalance
      records := st.records ++ [.account treasuryAccount (accountData treasuryBalance 0)] }
  else
    st

/-- Addresses that would collide with the two accounts above are passed over. -/
def addUtxo (st : BuildState) (entry : String × UInt64) : Except String BuildState :=
  let (addr, satoshis) := entry
  if addr = validator.accountId ∨ addr = treasuryAccount then .ok st
  else do
    let yocto := satoshis.toNat * yoctoPerSatoshi
    let totalSupply ← okOr (checkedAdd 128 st.totalSupply yocto) "Total supply overflow"
    .ok { totalSupply, records := st.records ++ [.account addr (accountData yocto 0)] }

/-- The lock records, then the index of their accounts under the treasury account. -/
def patoshiRecords (B : Base64) (registry : PatoshiRegistry) : List StateRecord :=
  let entries := inOrder registry
  if entries.isEmpty then []
  else
    entries.map (fun (accountId, genesisBalance) =>
        .data accountId (B.encode patoshiRecordDataKey)
          (B.encode (PatoshiRecord.encode ⟨genesisBalance, true, none⟩))) ++
      [.data treasuryAccount (B.encode patoshiIndexDataKey)
        (B.encode (writeVec writeString (entries.map Prod.fst)))]

def GenesisBuilder.build (B : Base64) (builder : GenesisBuilder) (now : String)
    (utxoMap : UtxoMap) (patoshiRegistry : PatoshiRegistry) : Except String Genesis := do
  let st ← (inOrder utxoMap).foldlM (addUtxo validator) (addTreasury validator
    (addValidator validator))
  .ok
    { genesisTime := builder.genesisTime.getD now
      chainId := builder.chainId
      validators :=
        [⟨validator.accountId, validator.publicKeyEd25519, toString validator.stakeYocto⟩]
      totalSupply := toString st.totalSupply
      protocolTreasuryAccount := treasuryAccount
      records := st.records ++ patoshiRecords B patoshiRegistry }

end Build

/-! ## Reading a file back -/

structure GenesisSupplySummary where
  chainId : String
  genesisTime : String
  declaredTotalYocto : Nat
  computedTotalYocto : Nat
  reconciled : Bool
  totalRecords : Nat
  accountRecords : Nat
  accessKeyRecords : Nat
  dataRecords : Nat
  deriving DecidableEq, Repr

structure RecordTotals where
  computedTotal : Nat
  accountRecords : Nat
  accessKeyRecords : Nat
  dataRecords : Nat

def RecordTotals.add (totals : RecordTotals) : StateRecord → Except String RecordTotals
  | .account _ account => do
    let amount ← (parseU128 account.amount).mapError ("Invalid account.amount: " ++ ·)
    let locked ← (parseU128 account.locked).mapError ("Invalid account.locked: " ++ ·)
    let computedTotal ← okOr ((checkedAdd 128 totals.computedTotal amount).bind
      (checkedAdd 128 · locked)) "Computed account total overflowed u128"
    .ok { totals with computedTotal, accountRecords := totals.accountRecords + 1 }
  | .accessKey _ _ _ => .ok { totals with accessKeyRecords := totals.accessKeyRecords + 1 }
  | .data _ _ _ => .ok { totals with dataRecords := totals.dataRecords + 1 }

def summarizeGenesis (parsed : Genesis) : Except String GenesisSupplySummary := do
  let declaredTotal ← (parseU128 parsed.totalSupply).mapError
    ("Invalid genesis total_supply: " ++ ·)
  let totals ← parsed.records.foldlM RecordTotals.add ⟨0, 0, 0, 0⟩
  .ok
    { chainId := parsed.chainId
      genesisTime := parsed.genesisTime
      declaredTotalYocto := declaredTotal
      computedTotalYocto := totals.computedTotal
      reconciled := declaredTotal == totals.computedTotal
      totalRecords := parsed.records.length
      accountRecords := totals.accountRecords
      accessKeyRecords := totals.accessKeyRecords
      dataRecords := totals.dataRecords }

end BitInfinity.Tools
