import BitInfinity.Foundation.FinmapSum
import BitInfinity.Ledger.Keys

/-!
# The storage that an account pays for

An account pays for its record, its keys, its contract and its data.  Every step keeps this
covered by its storage usage, except for a registration, which stores a key and charges nothing,
and for the scheduling of an unlock, which does so with data.
-/

namespace BitInfinity

open Foundation

section Cost

variable {config : StorageUsageConfig} {e e' : Entry} {pk : PublicKey} {key key' : AccessKey}
  {acc acc' : Account} {result : VerificationResult}

def Entry.keysCost (config : StorageUsageConfig) (e : Entry) : StorageUsage :=
  sumEntries (keyStorageCost config) e.accessKeys

theorem keyStorageCost_of_sameShape (h : key.SameShape key') :
    keyStorageCost config pk key' = keyStorageCost config pk key := by
  obtain ⟨hlen, hnonces⟩ := h
  unfold keyStorageCost gasKeyStorageCost accessKeyStorageUsage
  rw [hlen]
  cases hinfo : key.gasKeyInfo <;> cases hinfo' : key'.gasKeyInfo <;>
    simp [hinfo, hinfo'] at hnonces ⊢
  rw [hnonces]

@[simp] theorem keyStorageCost_setNonce (nonce : Nonce) :
    keyStorageCost config pk (key.setNonce nonce) = keyStorageCost config pk key :=
  keyStorageCost_of_sameShape (AccessKey.sameShape_setNonce key nonce)

theorem Entry.keysCost_congr (h : e'.accessKeys = e.accessKeys) :
    e'.keysCost config = e.keysCost config := by
  unfold Entry.keysCost
  rw [h]

@[simp] theorem Entry.keysCost_setAccount (account : Option Account) :
    (e.setAccount account).keysCost config = e.keysCost config := rfl

@[simp] theorem Entry.keysCost_setContractCode (code : Option Bytes) :
    (e.setContractCode code).keysCost config = e.keysCost config := rfl

theorem Entry.keysCost_setAccessKey_of_none (h : e.getAccessKey pk = none) :
    (e.setAccessKey pk key).keysCost config = e.keysCost config + keyStorageCost config pk key :=
  sumEntries_insert h

theorem Entry.keysCost_setAccessKey_of_some (h : e.getAccessKey pk = some key)
    (hshape : key.SameShape key') : (e.setAccessKey pk key').keysCost config = e.keysCost config :=
  sumEntries_replace h (keyStorageCost_of_sameShape hshape)

theorem Entry.keysCost_removeAccessKey (h : e.getAccessKey pk = some key) : e.keysCost config =
      (e.removeAccessKey pk).keysCost config + keyStorageCost config pk key :=
  sumEntries_erase h

theorem Entry.keysCost_charge (h : e.getAccessKey pk = some key)
    (hshape : key.SameShape (result.applyAccessKey key')) :
    (e.charge pk acc key' result).keysCost config = e.keysCost config := by
  unfold Entry.charge
  cases result.gasKeyNonceUpdate <;>
    exact (Entry.keysCost_setAccessKey_of_some h hshape).trans (Entry.keysCost_congr rfl)

@[simp] theorem Entry.charge_contractCode (e : Entry) (pk : PublicKey) (acc : Account)
    (key : AccessKey) (result : VerificationResult) :
    (e.charge pk acc key result).contractCode = e.contractCode := by
  unfold Entry.charge
  cases result.gasKeyNonceUpdate <;> rfl

@[simp] theorem Entry.schedule_contractCode (e : Entry) (scheduled : Option PatoshiRecord) :
    (e.schedule scheduled).contractCode = e.contractCode := by
  cases scheduled <;> rfl

theorem setGasKeyNonces_contract (e : Entry) (pk : PublicKey) (count : Nat) (nonce : Option Nonce) :
    (setGasKeyNonces e pk count nonce).contractCode = e.contractCode ∧
      (setGasKeyNonces e pk count nonce).contractData = e.contractData := by
  unfold setGasKeyNonces
  induction List.range count generalizing e with
  | nil => exact ⟨rfl, rfl⟩
  | cons i indices ih => exact ih _

theorem contractStorageUsage_congr (hcontract : acc'.contract = acc.contract)
    (hcode : e'.contractCode = e.contractCode) :
    contractStorageUsage e' acc' = contractStorageUsage e acc := by
  unfold contractStorageUsage
  rw [hcontract, hcode]

end Cost

/-! ## One step -/

section Step

variable {E : Externals} {V : ContractRunner} {config : StorageUsageConfig} {a : AccountId}
  {e e' : Entry} {event : EntryEvent} {acc acc' : Account} {created : Prop}

variable {usage usage' base cost : StorageUsage}

def Entry.baseUsage (config : StorageUsageConfig) (e : Entry) (acc : Account) : StorageUsage :=
  config.numBytesAccount + e.keysCost config + contractStorageUsage e acc

/-! ### What the VM charges -/

/-- The storage usage after `storage_write`, given the value that it evicts. -/
def storageWrite (config : StorageUsageConfig) (usage : StorageUsage) (key value : Bytes) :
    Option Bytes → Option StorageUsage
  | some old => (checkedSub usage old.length).bind (checkedAdd 64 · value.length)
  | none => checkedAdd 64 usage (value.length + key.length + config.numExtraBytesRecord)

/-- The storage usage after `storage_remove`, given the value that it removes. -/
def storageRemove (config : StorageUsageConfig) (usage : StorageUsage) (key : Bytes) :
    Option Bytes → Option StorageUsage
  | some old => checkedSub usage (old.length + key.length + config.numExtraBytesRecord)
  | none => some usage

def chargeWrite (config : StorageUsageConfig) (e : Entry) (usage : StorageUsage) (key : Bytes) :
    Option Bytes → Option StorageUsage
  | some value => storageWrite config usage key value (e.contractData key)
  | none => storageRemove config usage key (e.contractData key)

/-- The storage usage after the writes of a call. -/
def chargeWrites (config : StorageUsageConfig) :
    Entry → StorageUsage → List (Bytes × Option Bytes) → Option StorageUsage
  | _, usage, [] => some usage
  | e, usage, (key, value) :: writes =>
    (chargeWrite config e usage key value).bind fun usage =>
      chargeWrites config (e.setContractData key value) usage writes

/-- A call that succeeds ends with the usage that its writes are charged for. -/
def ContractRunner.ChargesWrites (V : ContractRunner) (config : StorageUsageConfig) : Prop :=
  ∀ context outcome, V context = .ok outcome → outcome.aborted = none →
    chargeWrites config context.state.view context.account.storageUsage outcome.writes =
      some outcome.storageUsage

theorem chargeWrite_eq_some {key : Bytes} {value : Option Bytes}
    (h : chargeWrite config e usage key value = some usage') :
    usage + recordCost config key value = usage' + recordCost config key (e.contractData key) := by
  unfold chargeWrite at h
  unfold StorageUsage at *
  cases value with
  | some value =>
    cases hold : e.contractData key with
    | some old =>
      rw [hold] at h
      obtain ⟨_, hsub, hadd⟩ := Option.bind_eq_some_iff.mp h
      rw [checkedSub_eq_some] at hsub
      rw [checkedAdd_eq_some] at hadd
      simp only [recordCost, Option.elim_some]
      omega
    | none =>
      simp [storageWrite, hold] at h
      simp only [recordCost, Option.elim_some, Option.elim_none]
      omega
  | none =>
    cases hold : e.contractData key with
    | some old =>
      simp [storageRemove, hold] at h
      simp only [recordCost, Option.elim_some, Option.elim_none]
      omega
    | none =>
      cases (show some usage = some usage' by simpa [storageRemove, hold] using h)
      rfl

theorem DataCovered.chargeWrites
    {writes : List (Bytes × Option Bytes)} (h : DataCovered config e.contractData base usage)
    (hcharge : chargeWrites config e usage writes = some usage') :
    DataCovered config (applyWrites e writes).contractData base usage' := by
  induction writes generalizing e usage with
  | nil =>
    cases hcharge
    exact h
  | cons write writes ih =>
    obtain ⟨_, hwrite, hrest⟩ := Option.bind_eq_some_iff.mp hcharge
    exact ih (h.write (chargeWrite_eq_some hwrite).le) hrest

/-! ### The invariant -/

/-- The usage covers keys, contract and data; a `created` account without contract pays for
nothing but its keys. -/
structure StorageInv (config : StorageUsageConfig) (created : Prop) (e : Entry) : Prop where
  covered : ∀ acc, e.account = some acc →
    DataCovered config e.contractData (e.baseUsage config acc) acc.storageUsage
  vacant : e.account = none → e.accessKeys = ∅ ∧ ∀ key, e.contractData key = none
  exact : created → ∀ acc, e.account = some acc → acc.contract = .none →
    acc.storageUsage = config.numBytesAccount + e.keysCost config

theorem StorageInv.of_account (hacc : e.account = some acc)
    (hcovered : DataCovered config e.contractData (e.baseUsage config acc) acc.storageUsage)
    (hexact : created → acc.contract = .none →
      acc.storageUsage = config.numBytesAccount + e.keysCost config) :
    StorageInv config created e := by
  refine ⟨fun x hx => ?_, fun hnone => ?_, fun hcreated x hx => ?_⟩
  · rw [hacc] at hx
    cases hx
    exact hcovered
  · rw [hacc] at hnone
    cases hnone
  · rw [hacc] at hx
    cases hx
    exact hexact hcreated

theorem dataCovered_of_none {data : Bytes → Option Bytes}
    (h : ∀ key, data key = none) (hle : base ≤ usage) : DataCovered config data base usage := by
  intro keys
  simpa [h, recordCost] using hle

/-- The usage of the account changes as the cost of its keys does. -/
theorem StorageInv.shift (h : StorageInv config created e) (hacc : e.account = some acc)
    (hacc' : e'.account = some acc')
    (husage : acc'.storageUsage + e.keysCost config = acc.storageUsage + e'.keysCost config)
    (hcontract : acc'.contract = acc.contract) (hcode : e'.contractCode = e.contractCode)
    (hdata : e'.contractData = e.contractData) : StorageInv config created e' := by
  refine .of_account hacc' (fun keys => ?_) fun hcreated hnone => ?_
  · have hcovered := h.covered acc hacc keys
    unfold Entry.baseUsage at *
    rw [contractStorageUsage_congr hcontract hcode, hdata]
    unfold StorageUsage at *
    omega
  · have hexact := h.exact hcreated acc hacc (hcontract ▸ hnone)
    unfold StorageUsage at *
    omega

theorem StorageInv.of_same (h : StorageInv config created e) (hacc : e.account = some acc)
    (hacc' : e'.account = some acc') (husage : acc'.storageUsage = acc.storageUsage)
    (hcontract : acc'.contract = acc.contract) (hcode : e'.contractCode = e.contractCode)
    (hdata : e'.contractData = e.contractData)
    (hcost : e'.keysCost config = e.keysCost config) : StorageInv config created e' :=
  h.shift hacc hacc' (by rw [husage, hcost]) hcontract hcode hdata

theorem StorageInv.keysCost_of_none (h : StorageInv config created e)
    (hnone : e.account = none) : e.keysCost config = 0 := by
  rw [Entry.keysCost, (h.vacant hnone).1, sumEntries_empty]

theorem StorageInv.of_keys (hacc : e.account = some acc) (hcontract : acc.contract = .none)
    (hdata : ∀ key, e.contractData key = none)
    (husage : acc.storageUsage = config.numBytesAccount + e.keysCost config) :
    StorageInv config created e := by
  refine .of_account hacc (dataCovered_of_none hdata ?_) fun _ _ => husage
  rw [Entry.baseUsage, contractStorageUsage, hcontract, husage]
  exact le_rfl

theorem StorageInv.add (h : StorageInv config created e) (hacc : e.account = some acc)
    (hacc' : e'.account = some acc') (husage : acc'.storageUsage = acc.storageUsage + cost)
    (hcontract : acc'.contract = acc.contract) (hcode : e'.contractCode = e.contractCode)
    (hdata : e'.contractData = e.contractData)
    (hcost : e'.keysCost config = e.keysCost config + cost) : StorageInv config created e' :=
  h.shift hacc hacc' (by rw [husage, hcost, Nat.add_assoc, Nat.add_comm cost]) hcontract hcode hdata

theorem StorageInv.remove (h : StorageInv config created e) (hacc : e.account = some acc)
    (hacc' : e'.account = some acc') (husage : acc'.storageUsage = acc.storageUsage - cost)
    (hcontract : acc'.contract = acc.contract) (hcode : e'.contractCode = e.contractCode)
    (hdata : e'.contractData = e.contractData)
    (hcost : e.keysCost config = e'.keysCost config + cost) : StorageInv config created e' := by
  refine h.shift hacc hacc' ?_ hcontract hcode hdata
  have hcovered := h.covered acc hacc ∅
  unfold Entry.baseUsage at hcovered
  unfold StorageUsage at *
  omega

theorem StorageInv.replaceContract (h : StorageInv config created e) (hacc : e.account = some acc)
    (hacc' : e'.account = some acc') (hcontract : acc'.contract ≠ .none)
    (husage : acc'.storageUsage =
      acc.storageUsage - contractStorageUsage e acc + contractStorageUsage e' acc')
    (hdata : e'.contractData = e.contractData)
    (hcost : e'.keysCost config = e.keysCost config) : StorageInv config created e' := by
  refine .of_account hacc' (fun keys => ?_) fun _ hnone => absurd hnone hcontract
  have hcovered := h.covered acc hacc keys
  unfold Entry.baseUsage at *
  rw [hcost, husage, hdata]
  unfold StorageUsage at *
  omega

theorem EntryStep.storage (hstep : EntryStep E V config a e event e') (hV : V.ChargesWrites config)
    (h : StorageInv config created e) (hevent : ∀ pk nonce, event ≠ .register pk nonce)
    (hsame : ∀ as tx, event = .accept as tx ∨ event = .drop as tx →
      e'.contractData = e.contractData) : StorageInv config created e' := by
  cases hstep with
  | receive amount hacc hkey =>
    cases hkey with
    | refl => exact h.of_same hacc rfl rfl rfl rfl rfl rfl
    | update key' hkey hshape =>
      exact h.of_same hacc rfl rfl rfl rfl rfl (Entry.keysCost_setAccessKey_of_some hkey hshape)
  | restake amount locked hacc | sweep amount hacc | burn amount hacc =>
    exact h.of_same hacc rfl rfl rfl rfl rfl rfl
  | register nonce => exact absurd rfl (hevent _ nonce)
  | accept as tx hsigner hacc hkey hverified =>
    refine h.of_same hacc (Entry.charge_account ..) rfl rfl (by simp) (hsame as tx (.inl rfl)) ?_
    rw [Entry.keysCost_charge ((Entry.schedule_getAccessKey ..).trans hkey) hverified.sameShape]
    exact Entry.keysCost_congr (Entry.schedule_accessKeys ..)
  | drop as tx hsigner hacc =>
    exact h.of_same hacc ((Entry.schedule_account ..).trans hacc) rfl rfl (by simp)
      (hsame as tx (.inr rfl)) (Entry.keysCost_congr (Entry.schedule_accessKeys ..))
  | payGas tx hsigner hacc hkey hverified =>
    exact h.of_same hacc (Entry.charge_account ..) rfl rfl (by simp) (Entry.charge_contractData ..)
      (Entry.keysCost_charge hkey hverified.sameShape)
  | delegate epochHeight actions nonce hacc hrecord hunlocked hkey =>
    exact h.of_same hacc hacc rfl rfl rfl rfl
      (Entry.keysCost_setAccessKey_of_some hkey (AccessKey.sameShape_setNonce ..))
  | create amount hnone =>
    refine .of_keys rfl rfl (h.vacant hnone).2 ?_
    rw [Entry.keysCost_setAccount, h.keysCost_of_none hnone, Nat.add_zero]
  | createWithKey amount pk nonce hnone =>
    have habsent : e.getAccessKey pk = none := by
      rw [Entry.getAccessKey, (h.vacant hnone).1, Finmap.lookup_empty]
    have hcost : (e.setAccessKey pk (AccessKey.fullAccess.setNonce nonce)).keysCost config =
        keyStorageCost config pk .fullAccess := by
      rw [Entry.keysCost_setAccessKey_of_none habsent, h.keysCost_of_none hnone,
        keyStorageCost_setNonce, Nat.zero_add]
    exact .of_keys rfl rfl (h.vacant hnone).2 (congrArg _ hcost.symm)
  | createWithCode amount hash usage code hnone htype husage =>
    refine .of_account rfl (dataCovered_of_none (h.vacant hnone).2 ?_) fun _ hnone => ?_
    · rw [Entry.baseUsage, Entry.keysCost_setAccount, Entry.keysCost_setContractCode,
        h.keysCost_of_none hnone]
      exact husage
    · cases hnone
  | setContract contract usage code hacc hcontract husage =>
    exact h.replaceContract hacc rfl hcontract husage rfl rfl
  | call hacc hcontract haccount hview hrun haborted =>
    refine .of_account rfl ?_ fun _ hnone => absurd hnone hcontract
    have hcharge := hV _ _ hrun haborted
    rw [haccount, hview] at hcharge
    exact (h.covered _ hacc).chargeWrites hcharge
  | stateInit acc data code hdet hcontract hnone husage =>
    refine .of_account rfl ?_ fun _ hnone => absurd hnone hcontract
    refine husage (config.numBytesAccount + e.keysCost config) ?_
    cases haccount : e.account with
    | none =>
      rw [h.keysCost_of_none haccount]
      exact dataCovered_of_none (h.vacant haccount).2 le_rfl
    | some old =>
      exact fun keys => (Nat.add_le_add_right (Nat.le_add_right _ _) _).trans
        (h.covered old haccount keys)
  | addKey nonce hacc habsent =>
    refine h.add hacc rfl rfl rfl rfl rfl ?_
    exact (Entry.keysCost_setAccessKey_of_none habsent).trans (by rw [keyStorageCost_setNonce])
  | addGasKey nonce hacc habsent =>
    have hsame := setGasKeyNonces_contract
    refine h.add hacc rfl rfl rfl (hsame ..).1 (hsame ..).2 ?_
    refine (Entry.keysCost_congr (setGasKeyNonces_accessKeys ..)).trans ?_
    exact (Entry.keysCost_setAccessKey_of_none habsent).trans (by rw [keyStorageCost_setNonce])
  | deleteKey hacc hkey =>
    exact h.remove hacc rfl rfl rfl rfl rfl (Entry.keysCost_removeAccessKey hkey)
  | deleteGasKey hacc hkey =>
    have hsame := setGasKeyNonces_contract
    refine h.remove hacc rfl rfl rfl (hsame ..).1 (hsame ..).2 ?_
    rw [Entry.keysCost_removeAccessKey hkey]
    exact congrArg (· + _) (Entry.keysCost_congr (congrArg (Finmap.erase _)
      (setGasKeyNonces_accessKeys ..).symm))
  | delete =>
    exact ⟨fun x hx => (by cases hx), fun _ => ⟨rfl, fun _ => rfl⟩, fun _ x hx => (by cases hx)⟩

end Step

end BitInfinity
