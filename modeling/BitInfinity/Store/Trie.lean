import BitInfinity.Runtime.Validation
import Mathlib.Data.Finmap

/-!
# The state trie

Almost every trie key starts with an account id.  The trie is therefore a map from account ids
to the values stored under that id: an `Entry` for what the account owns, and a `Mailbox` for
the receipts and data that wait for it.  A stored receipt has passed validation, which is the
invariant of `ValidReceipt`.
-/

namespace BitInfinity

/-- A receipt that passed `validateReceipt` when it reached its receiver. -/
structure ValidReceipt (E : Externals) where
  receipt : Receipt
  valid : ∃ limits version, validateReceipt E limits version receipt .existingReceipt = .ok ()

/-- What is stored under an account: the columns Account, AccessKey (with the nonces of gas
keys), ContractData and ContractCode. -/
structure Entry where
  account : Option Account
  accessKeys : Finmap fun _ : PublicKey => AccessKey
  gasKeyNonces : PublicKey → NonceIndex → Option Nonce
  contractData : Bytes → Option Bytes
  contractCode : Option Bytes

def Entry.empty : Entry where
  account := none
  accessKeys := ∅
  gasKeyNonces := fun _ _ => none
  contractData := fun _ => none
  contractCode := none

inductive PromiseYieldStatus
  | yielded
  | resumeInitiated
  deriving DecidableEq, Repr

/-- Receipts and data kept for an account until they can be processed. -/
structure Mailbox (E : Externals) where
  receivedData : CryptoHash → Option (Option Bytes)
  postponedReceiptId : CryptoHash → Option CryptoHash
  pendingDataCount : CryptoHash → Option Nat
  postponedReceipt : CryptoHash → Option (ValidReceipt E)
  promiseYieldReceipt : CryptoHash → Option (ValidReceipt E)
  promiseYieldStatus : CryptoHash → Option PromiseYieldStatus

structure Globals where
  contractCode : GlobalContractIdentifier → Option Bytes
  contractNonce : GlobalContractIdentifier → Nat

structure Trie (E : Externals) where
  entries : AccountId → Entry
  mailboxes : AccountId → Mailbox E
  globals : Globals

def Mailbox.empty {E : Externals} : Mailbox E where
  receivedData _ := none
  postponedReceiptId _ := none
  pendingDataCount _ := none
  postponedReceipt _ := none
  promiseYieldReceipt _ := none
  promiseYieldStatus _ := none

def Trie.empty {E : Externals} : Trie E where
  entries _ := .empty
  mailboxes _ := .empty
  globals := ⟨fun _ => none, fun _ => 0⟩

/-! ## Entries -/

namespace Entry

def getAccessKey (e : Entry) (publicKey : PublicKey) : Option AccessKey :=
  e.accessKeys.lookup publicKey

def setAccessKey (e : Entry) (publicKey : PublicKey) (key : AccessKey) : Entry :=
  { e with accessKeys := e.accessKeys.insert publicKey key }

def removeAccessKey (e : Entry) (publicKey : PublicKey) : Entry :=
  { e with accessKeys := e.accessKeys.erase publicKey }

def setAccount (e : Entry) (account : Option Account) : Entry := { e with account }

def setGasKeyNonce (e : Entry) (publicKey : PublicKey) (index : NonceIndex)
    (nonce : Option Nonce) : Entry :=
  { e with gasKeyNonces := fun pk i =>
      if pk = publicKey ∧ i = index then nonce else e.gasKeyNonces pk i }

def setContractData (e : Entry) (key : Bytes) (value : Option Bytes) : Entry :=
  { e with contractData := Function.update e.contractData key value }

def setContractCode (e : Entry) (code : Option Bytes) : Entry := { e with contractCode := code }

section Lemmas

variable (e : Entry) (pk pk' : PublicKey) (key : AccessKey) (account : Option Account)
  (i : NonceIndex) (n : Option Nonce) (k : Bytes) (v : Option Bytes)

@[simp] theorem setAccessKey_gasKeyNonces :
    (e.setAccessKey pk key).gasKeyNonces = e.gasKeyNonces := rfl
@[simp] theorem setAccount_account : (e.setAccount account).account = account := rfl
@[simp] theorem setAccount_accessKeys : (e.setAccount account).accessKeys = e.accessKeys := rfl
@[simp] theorem setAccount_gasKeyNonces :
    (e.setAccount account).gasKeyNonces = e.gasKeyNonces := rfl

@[simp] theorem setAccount_self : e.setAccount e.account = e := rfl

theorem getAccessKey_setAccessKey : (e.setAccessKey pk key).getAccessKey pk' =
      if pk' = pk then some key else e.getAccessKey pk' := by
  unfold getAccessKey setAccessKey
  split
  · next h => rw [h, Finmap.lookup_insert]
  · next h => rw [Finmap.lookup_insert_of_ne _ h]

theorem getAccessKey_removeAccessKey : (e.removeAccessKey pk).getAccessKey pk' =
      if pk' = pk then none else e.getAccessKey pk' := by
  unfold getAccessKey removeAccessKey
  split
  · next h => rw [h, Finmap.lookup_erase]
  · next h => rw [Finmap.lookup_erase_ne h]

theorem setAccessKey_self (h : e.getAccessKey pk = some key) : e.setAccessKey pk key = e := by
  have hkeys : e.accessKeys.insert pk key = e.accessKeys := by
    apply Finmap.ext_lookup
    intro x
    by_cases hx : x = pk
    · rw [hx, Finmap.lookup_insert, ← h, getAccessKey]
    · rw [Finmap.lookup_insert_of_ne _ hx]
  rw [setAccessKey, hkeys]

theorem setAccessKey_setAccessKey (key' : AccessKey) :
    (e.setAccessKey pk key).setAccessKey pk key' = e.setAccessKey pk key' := by
  unfold setAccessKey
  rw [Finmap.insert_insert]

@[simp] theorem getAccessKey_setAccount :
    (e.setAccount account).getAccessKey pk = e.getAccessKey pk := rfl
@[simp] theorem getAccessKey_setGasKeyNonce :
    (e.setGasKeyNonce pk i n).getAccessKey pk' = e.getAccessKey pk' := rfl
@[simp] theorem getAccessKey_setContractData :
    (e.setContractData k v).getAccessKey pk = e.getAccessKey pk := rfl
@[simp] theorem getAccessKey_setContractCode :
    (e.setContractCode v).getAccessKey pk = e.getAccessKey pk := rfl

end Lemmas

end Entry

/-! ## The trie -/

namespace Trie

variable {E : Externals}

def setEntry (t : Trie E) (a : AccountId) (e : Entry) : Trie E :=
  { t with entries := Function.update t.entries a e }

def setMailbox (t : Trie E) (a : AccountId) (m : Mailbox E) : Trie E :=
  { t with mailboxes := Function.update t.mailboxes a m }

def getAccount (t : Trie E) (a : AccountId) : Option Account := (t.entries a).account

def getAccessKey (t : Trie E) (a : AccountId) (publicKey : PublicKey) : Option AccessKey :=
  (t.entries a).getAccessKey publicKey

def getGasKeyNonce (t : Trie E) (a : AccountId) (publicKey : PublicKey) (index : NonceIndex) :
    Option Nonce :=
  (t.entries a).gasKeyNonces publicKey index

def setAccount (t : Trie E) (a : AccountId) (account : Account) : Trie E :=
  t.setEntry a ((t.entries a).setAccount (some account))

def setAccessKey (t : Trie E) (a : AccountId) (publicKey : PublicKey) (key : AccessKey) : Trie E :=
  t.setEntry a ((t.entries a).setAccessKey publicKey key)

def setGasKeyNonce (t : Trie E) (a : AccountId) (publicKey : PublicKey) (index : NonceIndex)
    (nonce : Nonce) : Trie E :=
  t.setEntry a ((t.entries a).setGasKeyNonce publicKey index (some nonce))

def setContractData (t : Trie E) (a : AccountId) (key value : Bytes) : Trie E :=
  t.setEntry a ((t.entries a).setContractData key (some value))

section Lemmas

variable (t : Trie E) (a b : AccountId) (e : Entry) (m : Mailbox E)

@[simp] theorem setEntry_entries_self : (t.setEntry a e).entries a = e := by
  simp [setEntry]

@[simp] theorem setEntry_entries_of_ne (h : b ≠ a) : (t.setEntry a e).entries b = t.entries b := by
  simp [setEntry, h]

theorem setEntry_entries : (t.setEntry a e).entries b = if b = a then e else t.entries b := by
  simp [setEntry, Function.update_apply]

@[simp] theorem setEntry_mailboxes : (t.setEntry a e).mailboxes = t.mailboxes := rfl
@[simp] theorem setMailbox_entries : (t.setMailbox a m).entries = t.entries := rfl

@[simp] theorem setEntry_setEntry (e' : Entry) :
    (t.setEntry a e).setEntry a e' = t.setEntry a e' := by
  simp [setEntry]

@[simp] theorem setEntry_self : t.setEntry a (t.entries a) = t := by
  simp [setEntry]

variable (pk pk' : PublicKey) (key : AccessKey) (acc : Account) (i j : NonceIndex) (n : Nonce)
  (k v : Bytes)

theorem setEntry_entries_apply {α : Type} (f : Entry → α) (e : Entry)
    (h : f e = f (t.entries a)) : f ((t.setEntry a e).entries b) = f (t.entries b) := by
  rw [setEntry_entries]
  split
  · next hb => rw [hb, h]
  · rfl

theorem getAccessKey_setAccessKey : (t.setAccessKey a pk key).getAccessKey b pk' =
      if b = a ∧ pk' = pk then some key else t.getAccessKey b pk' := by
  unfold setAccessKey getAccessKey
  by_cases hb : b = a
  · simp [hb, Entry.getAccessKey_setAccessKey]
  · simp [hb]

@[simp] theorem getAccount_setAccessKey : (t.setAccessKey a pk key).getAccount b = t.getAccount b :=
  t.setEntry_entries_apply a b Entry.account _ rfl

@[simp] theorem getGasKeyNonce_setAccessKey :
    (t.setAccessKey a pk key).getGasKeyNonce b pk' i = t.getGasKeyNonce b pk' i :=
  t.setEntry_entries_apply a b (fun e => e.gasKeyNonces pk' i) _ rfl

theorem getAccount_setAccount :
    (t.setAccount a acc).getAccount b = if b = a then some acc else t.getAccount b := by
  unfold setAccount getAccount
  rw [setEntry_entries]
  split <;> rfl

@[simp] theorem getAccessKey_setAccount :
    (t.setAccount a acc).getAccessKey b pk = t.getAccessKey b pk :=
  t.setEntry_entries_apply a b (fun e => e.getAccessKey pk) _ rfl

@[simp] theorem getGasKeyNonce_setAccount :
    (t.setAccount a acc).getGasKeyNonce b pk i = t.getGasKeyNonce b pk i :=
  t.setEntry_entries_apply a b (fun e => e.gasKeyNonces pk i) _ rfl

theorem getGasKeyNonce_setGasKeyNonce : (t.setGasKeyNonce a pk i n).getGasKeyNonce b pk' j =
      if b = a ∧ pk' = pk ∧ j = i then some n else t.getGasKeyNonce b pk' j := by
  unfold setGasKeyNonce getGasKeyNonce
  by_cases hb : b = a
  · simp [hb, Entry.setGasKeyNonce]
  · simp [hb]

@[simp] theorem getAccount_setGasKeyNonce :
    (t.setGasKeyNonce a pk i n).getAccount b = t.getAccount b :=
  t.setEntry_entries_apply a b Entry.account _ rfl

@[simp] theorem getAccessKey_setGasKeyNonce :
    (t.setGasKeyNonce a pk i n).getAccessKey b pk' = t.getAccessKey b pk' :=
  t.setEntry_entries_apply a b (fun e => e.getAccessKey pk') _ rfl

@[simp] theorem getAccessKey_setAccessKey_self :
    (t.setAccessKey a pk key).getAccessKey a pk = some key := by
  simp [getAccessKey_setAccessKey]

@[simp] theorem getAccount_setContractData :
    (t.setContractData a k v).getAccount b = t.getAccount b :=
  t.setEntry_entries_apply a b Entry.account _ rfl

@[simp] theorem getAccessKey_setContractData :
    (t.setContractData a k v).getAccessKey b pk = t.getAccessKey b pk :=
  t.setEntry_entries_apply a b (fun e => e.getAccessKey pk) _ rfl

@[simp] theorem getGasKeyNonce_setContractData :
    (t.setContractData a k v).getGasKeyNonce b pk i = t.getGasKeyNonce b pk i :=
  t.setEntry_entries_apply a b (fun e => e.gasKeyNonces pk i) _ rfl

end Lemmas

end Trie

end BitInfinity
