import BitInfinity.Ledger.Passive

/-!
# The keys of an account

Which steps of an account store a key that was not there, and which may remove one.
-/

namespace BitInfinity

open Foundation

section Steps

variable {E : Externals} {V : ContractRunner} {config : StorageUsageConfig} {a : AccountId}
  {e e' : Entry} {event : EntryEvent} {pk pk' : PublicKey} {key key' : AccessKey} {acc : Account}
  {result : VerificationResult} {nonce : Nonce}

def EntryEvent.newKey : EntryEvent → Option (PublicKey × Nonce)
  | .register publicKey nonce => some (publicKey, nonce)
  | .addKey publicKey nonce => some (publicKey, nonce)
  | .addGasKey publicKey nonce => some (publicKey, nonce)
  | _ => none

@[simp] theorem Entry.schedule_account (e : Entry) (scheduled : Option PatoshiRecord) :
    (e.schedule scheduled).account = e.account := by
  cases scheduled <;> rfl

@[simp] theorem Entry.schedule_accessKeys (e : Entry) (scheduled : Option PatoshiRecord) :
    (e.schedule scheduled).accessKeys = e.accessKeys := by
  cases scheduled <;> rfl

@[simp] theorem Entry.schedule_gasKeyNonces (e : Entry) (scheduled : Option PatoshiRecord) :
    (e.schedule scheduled).gasKeyNonces = e.gasKeyNonces := by
  cases scheduled <;> rfl

@[simp] theorem Entry.schedule_getAccessKey (e : Entry) (scheduled : Option PatoshiRecord)
    (pk : PublicKey) : (e.schedule scheduled).getAccessKey pk = e.getAccessKey pk := by
  cases scheduled <;> rfl

theorem EntryStep.newKey_absent (h : EntryStep E V config a e event e')
    (hnew : event.newKey = some (pk, nonce)) : e.getAccessKey pk = none := by
  cases h with
  | register n hacc hbtc hderives habsent | addKey n hacc habsent hinfo
  | addGasKey n hacc habsent => cases hnew; exact habsent
  | _ => cases hnew

def EntryEvent.Removes (pk : PublicKey) : EntryEvent → Prop
  | .deleteKey publicKey => pk = publicKey
  | .delete => True
  | _ => False

theorem EntryEvent.Passive.not_removes {epochHeight : EpochHeight}
    (h : event.Passive epochHeight) : ¬ event.Removes pk := by
  cases event <;> first | exact id | exact h.elim

theorem Entry.isSome_setAccessKey : ((e.setAccessKey pk' key).getAccessKey pk).isSome = true ↔
      (e.getAccessKey pk).isSome = true ∨ pk' = pk := by
  rw [Entry.getAccessKey_setAccessKey]
  split
  · next h => simp [h]
  · next h => simp [Ne.symm h]

theorem Entry.isSome_setAccessKey_of_some (h : e.getAccessKey pk' = some key') :
    ((e.setAccessKey pk' key).getAccessKey pk).isSome = true ↔
      (e.getAccessKey pk).isSome = true := by
  rw [Entry.isSome_setAccessKey]
  exact or_iff_left_of_imp fun hpk => by simp [← hpk, h]

theorem Entry.isSome_charge (h : e.getAccessKey pk' = some key') :
    ((e.charge pk' acc key result).getAccessKey pk).isSome = true ↔
      (e.getAccessKey pk).isSome = true := by
  unfold Entry.charge
  cases result.gasKeyNonceUpdate <;> exact Entry.isSome_setAccessKey_of_some h

theorem Entry.isSome_removeAccessKey : ((e.removeAccessKey pk').getAccessKey pk).isSome = true ↔
      (e.getAccessKey pk).isSome = true ∧ pk ≠ pk' := by
  rw [Entry.getAccessKey_removeAccessKey]
  split
  · next h => simp [h]
  · next h => simp [h]

@[simp] theorem setGasKeyNonces_accessKeys (e : Entry) (pk : PublicKey) (count : Nat)
    (nonce : Option Nonce) : (setGasKeyNonces e pk count nonce).accessKeys = e.accessKeys := by
  unfold setGasKeyNonces
  induction List.range count generalizing e with
  | nil => rfl
  | cons i indices ih => exact (ih _).trans rfl

@[simp] theorem getAccessKey_setGasKeyNonces (e : Entry) (pk pk' : PublicKey) (count : Nat)
    (nonce : Option Nonce) :
    (setGasKeyNonces e pk' count nonce).getAccessKey pk = e.getAccessKey pk := by
  simp [Entry.getAccessKey]

/-- The keys that are there after a step of a Bitcoin account: those that it does not remove,
and those that it stores. -/
theorem EntryStep.isSome_iff (h : EntryStep E V config a e event e')
    (hbtc : isBitcoinAddress E.toCrypto a = true) :
    (e'.getAccessKey pk).isSome = true ↔ ((e.getAccessKey pk).isSome = true ∧ ¬ event.Removes pk) ∨
        ∃ nonce, event.newKey = some (pk, nonce) := by
  simp only [EntryEvent.Removes, EntryEvent.newKey]
  cases h with
  | receive amount hacc hkey =>
    cases hkey with
    | refl => simp
    | update key' hkey => simp [Entry.isSome_setAccessKey_of_some hkey]
  | register nonce | addKey nonce | addGasKey nonce => simp [Entry.isSome_setAccessKey]
  | accept as tx hsigner hacc hkey =>
    simp [Entry.isSome_charge ((Entry.schedule_getAccessKey e _ _).trans hkey)]
  | payGas tx hsigner hacc hkey => simp [Entry.isSome_charge hkey]
  | delegate epochHeight actions nonce hacc hrecord hunlocked hkey =>
    simp [Entry.isSome_setAccessKey_of_some hkey]
  | createWithKey amount publicKey nonce hnone htype =>
    rw [isBitcoinAddress_iff.mp hbtc] at htype
    cases htype
  | call | stateInit => simp [Entry.getAccessKey]
  | deleteKey | deleteGasKey => simp [Entry.isSome_removeAccessKey]
  | delete => simp [Entry.getAccessKey, Entry.empty]
  | _ => simp

end Steps

/-! ## Who stores a key -/

section Causes

variable {E : Externals} {a : AccountId}

variable {as : ApplyState} {step : EntryEvent} {publicKey : PublicKey}

variable {p p' : ProcessingState E} {item : SignedTransaction × Bool}

theorem TxCause.not_removes (h : TxCause as p item p' a step) : ¬ step.Removes publicKey := by
  cases step <;> first | exact id | exact h.elim

theorem TxCause.registers {nonce : Nonce} (h : TxCause as p item p' a step)
    (hnew : step.newKey = some (publicKey, nonce)) :
    item.1.transaction.signerId = a ∧ Registers as p item publicKey nonce := by
  cases step with
  | register => cases hnew; exact h
  | addKey => exact h.elim
  | addGasKey => exact h.elim
  | _ => cases hnew

theorem ReceiptCause.addsKey {e : Entry} {receipt : Receipt} {r : ActionReceipt} {nonce : Nonce}
    {status : Except ActionError ReturnData} (h : ReceiptCause E as e receipt r status step)
    (hnew : step.newKey = some (publicKey, nonce))
    (hbtc : isBitcoinAddress E.toCrypto receipt.receiverId = true) :
    receipt.predecessorId = receipt.receiverId ∧ nonce = initialNonceValue as.blockHeight ∧
      (∃ data, status = .ok data) ∧ ∃ key, .basic (.addKey publicKey key) ∈ r.actions := by
  have hself : MayAct E e receipt → receipt.predecessorId = receipt.receiverId := by
    rintro (hself | ⟨-, hfalse⟩)
    · exact hself
    · rw [hbtc] at hfalse
      cases hfalse
  rcases h with rfl | ⟨hstatus, action, hmem, hcause⟩
  · cases hnew
  · cases step with
    | register => exact hcause.elim
    | addKey | addGasKey =>
      cases hnew
      obtain ⟨hacts, hnonce, key, rfl⟩ := hcause
      exact ⟨hself hacts, hnonce, hstatus, key, hmem⟩
    | _ => cases hnew

end Causes

end BitInfinity
