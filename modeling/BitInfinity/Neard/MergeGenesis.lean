import BitInfinity.Foundation.Json
import BitInfinity.Tools.GenesisBuilder

/-!
# Merging records into a genesis file

The node's launcher appends the records of a payload file to `genesis.json` and adds their
balances to the declared total supply.  Files stand here as what reading and parsing them gives.
-/

namespace BitInfinity.Neard

open Foundation Foundation.Json
open Tools (parseU128 parseU128_toString)

variable {records : List Value} {total : Nat} {genesis v merged payload : Value} {C : Crypto}
  {path : String}

inductive MergeError
  | text (message : String)
  | invalidAccountId (idx : Nat) (accountId : List Char) (error : ParseAccountError)
  deriving DecidableEq, Repr

def getKey (v : Value) (key : String) : Option Value := v.get key.toList

def getStr (v : Value) (key : String) : Option (List Char) := (getKey v key).bind Value.asStr

def setKey (v : Value) (key : String) (value : Value) : Value := v.insert key.toList value

def loadRecordsPayload : Value → Except MergeError (List Value)
  | .array records => .ok records
  | .object members => do
    let records ← okOr (getKey (.object members) "records")
      (.text "Invalid genesis records payload: expected array or object with records")
    okOr records.asArray (.text "Invalid genesis records payload: records must be an array")
  | _ => .error (.text "Invalid genesis records payload: expected JSON array/object")

def recordVariants : List String :=
  ["Account", "AccessKey", "Data", "Contract", "ReceivedData", "GasKeyNonce"]

def extractRecordAccountId (record : Value) : Option (List Char) :=
  recordVariants.findSome? fun kind => (getKey record kind).bind (getStr · "account_id")

def validateRecordAccountId (C : Crypto) (record : Value) (idx : Nat) : Except MergeError PUnit :=
  match extractRecordAccountId record with
  | some accountId =>
    (AccountId.validate C (String.ofList accountId)).mapError (.invalidAccountId idx accountId)
  | none => .ok ()

def validateRecordAccountIds (C : Crypto) (records : List Value) : Except MergeError PUnit :=
  records.zipIdx.forM fun (record, idx) => validateRecordAccountId C record idx

def parseBalance (field : String) (text : List Char) : Except MergeError Nat :=
  (parseU128 (String.ofList text)).mapError fun e =>
    .text ("Invalid Account " ++ field ++ " " ++ String.ofList text ++ ": " ++ e)

def recordAccount (record : Value) : Option Value :=
  ((getKey record "Account").bind (getKey · "account")).filter fun account =>
    account.asObject.isSome

def accountRecordSupply (record : Value) : Except MergeError Nat :=
  match recordAccount record with
  | none => .ok 0
  | some account => do
    let amountStr ← okOr (getStr account "amount") (.text "Account record missing amount string")
    let lockedStr ← okOr (getStr account "locked") (.text "Account record missing locked string")
    let amount ← parseBalance "amount" amountStr
    let locked ← parseBalance "locked" lockedStr
    okOr (checkedAdd 128 amount locked) (.text "overflow computing Account amount + locked")

def addRecordSupply (acc : Nat) (record : Value) : Except MergeError Nat := do
  let delta ← accountRecordSupply record
  okOr (checkedAdd 128 acc delta) (.text "total supply overflow while merging records")

/-- The records of the genesis file; a file without the key has none. -/
def recordsArray (genesis : Value) : Except MergeError (List Value) :=
  match getKey genesis "records" with
  | none => .ok []
  | some records => okOr records.asArray (.text "Invalid genesis.json: records must be an array")

def addTotalSupply (genesis : Value) (addedSupply : Nat) : Except MergeError Value :=
  if 0 < addedSupply then do
    let text ← okOr (getStr genesis "total_supply")
      (.text "Invalid genesis.json: total_supply must be a string")
    let currentTotal ← (parseU128 (String.ofList text)).mapError fun e =>
      .text ("Invalid genesis.json total_supply value: " ++ e)
    let newTotal ← okOr (checkedAdd 128 currentTotal addedSupply)
      (.text "total_supply overflow while merging records")
    .ok (setKey genesis "total_supply" (.string (toString newTotal).toList))
  else .ok genesis

/-- What is written back to `genesis.json`.  There is no `recordsFile` where the path does not
exist. -/
def mergeGenesisRecords (C : Crypto) (recordsPath : String)
    (recordsFile : Option (Except MergeError Value)) (genesisFile : Except MergeError Value) :
    Except MergeError Value := do
  let recordsFile ← okOr recordsFile (.text ("Genesis records file not found: " ++ recordsPath))
  let genesis ← genesisFile
  ensure genesis.asObject.isSome (.text "Invalid genesis.json: expected object")
  let payload ← recordsFile
  let incoming ← loadRecordsPayload payload
  validateRecordAccountIds C incoming
  let addedSupply ← incoming.foldlM addRecordSupply 0
  let records ← recordsArray genesis
  addTotalSupply (setKey genesis "records" (.array (records ++ incoming))) addedSupply

/-! ## What a genesis file says -/

def accountOf (record : Value) : Option (List Char) :=
  (getKey record "Account").bind (getStr · "account_id")

def balanceField (account : Value) (field : String) : Option Nat :=
  (getStr account field).bind fun text => (parseU128 (String.ofList text)).toOption

/-- The amount and the locked balance of an Account record together, nothing for other records. -/
def balanceOf (record : Value) : Option Nat :=
  match recordAccount record with
  | none => some 0
  | some account =>
    (balanceField account "amount").bind fun amount =>
      (balanceField account "locked").map (amount + ·)

def sumBalances : List Value → Option Nat
  | [] => some 0
  | record :: records =>
    (balanceOf record).bind fun balance => (sumBalances records).map (balance + ·)

def genesisRecords (genesis : Value) : List Value :=
  ((getKey genesis "records").bind Value.asArray).getD []

def totalSupply (genesis : Value) : Option Nat := balanceField genesis "total_supply"

def genesisAccounts (genesis : Value) : List (List Char) :=
  (genesisRecords genesis).filterMap accountOf

/-- The declared total is the sum of the balances. -/
def SupplyMatches (genesis : Value) : Prop :=
  ∃ total, totalSupply genesis = some total ∧ sumBalances (genesisRecords genesis) = some total

/-- No account has two Account records, and the declared total is the sum of the balances. -/
structure Consistent (genesis : Value) : Prop where
  nodup : (genesisAccounts genesis).Nodup
  supply : SupplyMatches genesis

/-! ## Sums -/

theorem sumBalances_append {xs ys : List Value} {a b : Nat} (hxs : sumBalances xs = some a)
    (hys : sumBalances ys = some b) : sumBalances (xs ++ ys) = some (a + b) := by
  induction xs generalizing a with
  | nil =>
    cases hxs
    simpa using hys
  | cons record xs ih =>
    simp only [sumBalances, Option.bind_eq_some_iff, Option.map_eq_some_iff] at hxs
    obtain ⟨_, hbalance, _, hrest, rfl⟩ := hxs
    simp [sumBalances, hbalance, ih hrest, Nat.add_assoc]

theorem parseBalance_eq_ok {field : String} {text : List Char} {n : Nat} :
    parseBalance field text = .ok n ↔ parseU128 (String.ofList text) = .ok n :=
  mapError_eq_ok

theorem balanceOf_of_accountRecordSupply {record : Value} {delta : Nat}
    (h : accountRecordSupply record = .ok delta) : balanceOf record = some delta := by
  unfold accountRecordSupply at h
  unfold balanceOf
  cases haccount : recordAccount record with
  | none =>
    rw [haccount] at h
    cases h
    rfl
  | some account =>
    rw [haccount] at h
    simp only [bind_eq_ok, okOr_eq_ok, parseBalance_eq_ok, checkedAdd_eq_some] at h
    obtain ⟨_, hamountStr, _, hlockedStr, _, hamount, _, hlocked,
      -, rfl⟩ := h
    simp [balanceField, hamountStr, hlockedStr, hamount, hlocked, Except.toOption]

theorem sumBalances_of_foldlM {acc : Nat} (h : records.foldlM addRecordSupply acc = .ok total) :
    ∃ added, sumBalances records = some added ∧ total = acc + added := by
  induction records generalizing acc with
  | nil =>
    cases h
    exact ⟨0, rfl, rfl⟩
  | cons record records ih =>
    obtain ⟨_, hnext, hrest⟩ := foldlM_cons_eq_ok.mp h
    simp only [addRecordSupply, bind_eq_ok, okOr_eq_ok, checkedAdd_eq_some] at hnext
    obtain ⟨delta, hdelta, -, rfl⟩ := hnext
    obtain ⟨added, hadded, rfl⟩ := ih hrest
    refine ⟨delta + added, ?_, Nat.add_assoc acc delta added⟩
    simp [sumBalances, balanceOf_of_accountRecordSupply hdelta, hadded]

/-! ## The merged file -/

theorem recordsArray_eq_ok
    (h : recordsArray genesis = .ok records) : genesisRecords genesis = records := by
  unfold recordsArray at h
  unfold genesisRecords
  cases hvalue : getKey genesis "records" with
  | none =>
    rw [hvalue] at h
    cases h
    rfl
  | some value =>
    rw [hvalue] at h
    have harray := okOr_eq_ok.mp h
    simp [harray]

theorem asObject_setKey (h : v.asObject.isSome) (key : String) (value : Value) :
    (setKey v key value).asObject.isSome := by
  cases v with
  | object members => rfl
  | _ => cases h

theorem getKey_setKey (h : v.asObject.isSome) (key other : String) (value : Value) :
    getKey (setKey v key value) other = if other = key then some value else getKey v other := by
  cases v with
  | object members =>
    split
    · rename_i heq
      rw [heq, getKey, setKey, Value.get_insert_self]
    · rename_i hne
      rw [getKey, getKey, setKey, Value.get_insert_of_ne]
      intro hlist
      exact hne (String.toList_injective hlist)
  | _ => cases h

theorem addTotalSupply_spec {added : Nat} (hobject : genesis.asObject.isSome)
    (htotal : totalSupply genesis = some total) (h : addTotalSupply genesis added = .ok merged) :
    totalSupply merged = some (total + added) ∧ genesisRecords merged = genesisRecords genesis := by
  unfold addTotalSupply at h
  split at h
  · simp only [bind_eq_ok, okOr_eq_ok, mapError_eq_ok, checkedAdd_eq_some] at h
    obtain ⟨_, htext, current, hcurrent, _, ⟨hfits, rfl⟩, hmerged⟩ := h
    cases hmerged
    have hcurrentTotal : current = total := by
      simpa [totalSupply, balanceField, htext, hcurrent, Except.toOption] using htotal
    subst hcurrentTotal
    constructor
    · have hparse := parseU128_toString hfits
      simp only [totalSupply, balanceField, getStr, getKey_setKey hobject, if_pos,
        Option.bind_some, Value.asStr, String.ofList_toList]
      rw [hparse]
      rfl
    · simp [genesisRecords, getKey_setKey hobject]
  · cases h
    have hadded : added = 0 := by omega
    exact ⟨by simpa [hadded] using htotal, rfl⟩

theorem mergeGenesisRecords_cases
    (h : mergeGenesisRecords C path (some (.ok payload)) (.ok genesis) = .ok merged) :
    ∃ incoming added, genesis.asObject.isSome ∧ loadRecordsPayload payload = .ok incoming ∧
      incoming.foldlM addRecordSupply 0 = .ok added ∧
      addTotalSupply (setKey genesis "records" (.array (genesisRecords genesis ++ incoming)))
        added = .ok merged := by
  simp only [mergeGenesisRecords, bind_eq_ok, okOr_eq_ok, ensure_eq_ok, Option.some.injEq] at h
  obtain ⟨_, rfl, g, hgenesis, _, hobject, p, hpayload, incoming, hincoming, _, -, added, hadded,
    records, hrecords, hmerged⟩ := h
  cases hgenesis
  cases hpayload
  rw [← recordsArray_eq_ok hrecords] at hmerged
  exact ⟨incoming, added, hobject, hincoming, hadded, hmerged⟩

theorem genesisRecords_merged {incoming : List Value} (hconsistent : SupplyMatches genesis)
    (hincoming : loadRecordsPayload payload = .ok incoming)
    (h : mergeGenesisRecords C path (some (.ok payload)) (.ok genesis) = .ok merged) :
    genesisRecords merged = genesisRecords genesis ++ incoming ∧ SupplyMatches merged := by
  obtain ⟨_, _, hobject, hincoming', hadded, hmerged⟩ := mergeGenesisRecords_cases h
  rw [hincoming] at hincoming'
  cases hincoming'
  obtain ⟨total, htotal, hsum⟩ := hconsistent
  obtain ⟨_, hsumIncoming, rfl⟩ := sumBalances_of_foldlM hadded
  -- the records are appended first, which leaves the declared total as it was
  have htotal' : totalSupply (setKey genesis "records"
      (.array (genesisRecords genesis ++ incoming))) = some total := by
    rw [← htotal]
    simp [totalSupply, balanceField, getStr, getKey_setKey hobject]
  obtain ⟨htotalMerged, hrecords⟩ :=
    addTotalSupply_spec (asObject_setKey hobject _ _) htotal' hmerged
  have hrecords' : genesisRecords merged = genesisRecords genesis ++ incoming := by
    rw [hrecords]
    simp [genesisRecords, getKey_setKey hobject, Value.asArray]
  refine ⟨hrecords', _, htotalMerged, ?_⟩
  rw [hrecords', Nat.zero_add]
  exact sumBalances_append hsum hsumIncoming

/-- The supply always comes out right; that no account is there twice is left to the payload. -/
theorem merged_consistent_iff {C : Crypto} {path : String} {genesis payload merged : Value}
    {incoming : List Value} (hconsistent : Consistent genesis)
    (hincoming : loadRecordsPayload payload = .ok incoming)
    (h : mergeGenesisRecords C path (some (.ok payload)) (.ok genesis) = .ok merged) :
    SupplyMatches merged ∧ (Consistent merged ↔ (incoming.filterMap accountOf).Nodup ∧
        ∀ id ∈ incoming.filterMap accountOf, id ∉ genesisAccounts genesis) := by
  obtain ⟨hrecords, hsupply⟩ := genesisRecords_merged hconsistent.supply hincoming h
  have haccounts : genesisAccounts merged =
      genesisAccounts genesis ++ incoming.filterMap accountOf := by
    simp [genesisAccounts, hrecords]
  refine ⟨hsupply, ?_⟩
  constructor
  · intro hmerged
    have hnodup := hmerged.nodup
    rw [haccounts, List.nodup_append] at hnodup
    obtain ⟨-, hincomingNodup, hdisjoint⟩ := hnodup
    exact ⟨hincomingNodup, fun id hid hgenesis => hdisjoint id hgenesis id hid rfl⟩
  · rintro ⟨hnodup, hdisjoint⟩
    refine ⟨?_, hsupply⟩
    rw [haccounts, List.nodup_append]
    refine ⟨hconsistent.nodup, hnodup, ?_⟩
    intro a ha b hb hab
    exact hdisjoint b hb (hab ▸ ha)

def sampleRecord (accountId amount : String) : Value :=
  .object [("Account".toList, .object [ ("account_id".toList, .string accountId.toList),
    ("account".toList, .object [("amount".toList, .string amount.toList),
      ("locked".toList, .string ['0'])])])]

def sampleGenesis (records : List Value) (total : String) : Value :=
  .object [("records".toList, .array records), ("total_supply".toList, .string total.toList)]

theorem consistent_sampleGenesis : Consistent (sampleGenesis [sampleRecord "alice" "5"] "5") where
  nodup := by decide
  supply := ⟨5, by decide, by decide⟩

/-- The payload names the account that the genesis has already. -/
theorem merged_twice : Consistent (sampleGenesis [sampleRecord "alice" "5"] "5") ∧
      mergeGenesisRecords .sample "records.json"
        (some (.ok (.array [sampleRecord "alice" "5"])))
        (.ok (sampleGenesis [sampleRecord "alice" "5"] "5")) =
          .ok (sampleGenesis [sampleRecord "alice" "5", sampleRecord "alice" "5"] "10") ∧
      ¬ Consistent (sampleGenesis [sampleRecord "alice" "5", sampleRecord "alice" "5"] "10") := by
  refine ⟨consistent_sampleGenesis, rfl, ?_⟩
  intro h
  exact absurd h.nodup (by decide)

theorem merged_consistent_bob : mergeGenesisRecords .sample "records.json"
        (some (.ok (.array [sampleRecord "bob" "7"])))
        (.ok (sampleGenesis [sampleRecord "alice" "5"] "5")) =
          .ok (sampleGenesis [sampleRecord "alice" "5", sampleRecord "bob" "7"] "12") ∧
      Consistent (sampleGenesis [sampleRecord "alice" "5", sampleRecord "bob" "7"] "12") := by
  have hmerge : mergeGenesisRecords .sample "records.json"
      (some (.ok (.array [sampleRecord "bob" "7"])))
      (.ok (sampleGenesis [sampleRecord "alice" "5"] "5")) =
        .ok (sampleGenesis [sampleRecord "alice" "5", sampleRecord "bob" "7"] "12") := rfl
  have hiff := merged_consistent_iff consistent_sampleGenesis rfl hmerge
  exact ⟨hmerge, hiff.2.mpr ⟨by decide, by decide⟩⟩

end BitInfinity.Neard
