import BitInfinity.Foundation.Borsh
import BitInfinity.Primitives.AccountId

/-!
# Accounts and access keys
-/

namespace BitInfinity

inductive AccountContract
  | none
  | localCode (hash : CryptoHash)
  | globalCode (hash : CryptoHash)
  | globalByAccount (id : AccountId)
  deriving DecidableEq, Repr

structure Account where
  amount : Balance
  locked : Balance
  contract : AccountContract
  storageUsage : StorageUsage
  deriving DecidableEq, Repr

def Account.total (account : Account) : Balance := account.amount + account.locked

structure FunctionCallPermission where
  allowance : Option Balance
  receiverId : String
  methodNames : List String
  deriving DecidableEq, Repr

structure GasKeyInfo where
  balance : Balance
  numNonces : NonceIndex
  deriving DecidableEq, Repr

def GasKeyInfo.maxBalanceToBurn : Balance := 10 ^ 24

inductive AccessKeyPermission
  | functionCall (permission : FunctionCallPermission)
  | fullAccess
  | gasKeyFunctionCall (info : GasKeyInfo) (permission : FunctionCallPermission)
  | gasKeyFullAccess (info : GasKeyInfo)
  deriving DecidableEq, Repr

def AccessKeyPermission.maxNoncesForGasKey : NonceIndex := 1024

def AccessKeyPermission.functionCallPermission : AccessKeyPermission → Option FunctionCallPermission
  | .functionCall permission => some permission
  | .gasKeyFunctionCall _ permission => some permission
  | _ => none

def AccessKeyPermission.setAllowance (allowance : Option Balance) :
    AccessKeyPermission → AccessKeyPermission
  | .functionCall permission => .functionCall { permission with allowance }
  | .gasKeyFunctionCall info permission => .gasKeyFunctionCall info { permission with allowance }
  | permission => permission

def AccessKeyPermission.setGasKeyBalance (balance : Balance) :
    AccessKeyPermission → AccessKeyPermission
  | .gasKeyFunctionCall info permission => .gasKeyFunctionCall { info with balance } permission
  | .gasKeyFullAccess info => .gasKeyFullAccess { info with balance }
  | permission => permission

structure AccessKey where
  nonce : Nonce
  permission : AccessKeyPermission
  deriving DecidableEq, Repr

namespace AccessKey

def accessKeyNonceRangeMultiplier : Nat := 1000000

def fullAccess : AccessKey := ⟨0, .fullAccess⟩

def gasKeyInfo (key : AccessKey) : Option GasKeyInfo :=
  match key.permission with
  | .gasKeyFunctionCall info _ => some info
  | .gasKeyFullAccess info => some info
  | _ => none

def setNonce (key : AccessKey) (nonce : Nonce) : AccessKey := { key with nonce }

def setGasKeyBalance (key : AccessKey) (balance : Balance) : AccessKey :=
  { key with permission := key.permission.setGasKeyBalance balance }

end AccessKey

/-! ## Serialised texts and sizes -/

section Strings

open Foundation

def readString : Reader String := fun bytes => do
  let (length, bytes) ← readLE 4 bytes
  let (text, bytes) ← readBytes length bytes
  let s ← String.fromUTF8? ⟨text.toArray⟩
  some (s, bytes)

def writeString (s : String) : Bytes := writeLE 4 s.utf8ByteSize ++ s.toUTF8.data.toList

theorem length_toUTF8 (s : String) : s.toUTF8.data.toList.length = s.utf8ByteSize := by
  rfl

theorem fromUTF8_toUTF8 (s : String) :
    String.fromUTF8? ⟨s.toUTF8.data.toList.toArray⟩ = some s := by
  exact dif_pos s.isValidUTF8

theorem readString_writeString {s : String} (h : s.utf8ByteSize < 2 ^ 32) (rest : Bytes) :
    readString (writeString s ++ rest) = some (s, rest) := by
  rw [readString, writeString, List.append_assoc, readLE_writeLE (by simpa using h)]
  simp only [Option.bind_eq_bind, Option.bind_some]
  rw [← length_toUTF8, readBytes_append]
  simp only [Option.bind_some, fromUTF8_toUTF8]

theorem eq_writeString_of_readString {bytes rest : Bytes} {s : String}
    (h : readString bytes = some (s, rest)) : bytes = writeString s ++ rest := by
  simp only [readString, Option.bind_eq_bind, Option.bind_eq_some_iff, Prod.exists,
    Option.some.injEq, Prod.mk.injEq] at h
  obtain ⟨length, _, hlength, text, _, htext, s', hs, rfl, rfl⟩ := h
  obtain ⟨rfl, rfl⟩ := eq_append_of_readBytes htext
  have hbytes : s'.toUTF8 = ⟨text.toArray⟩ := by
    unfold String.fromUTF8? at hs
    split at hs
    · cases hs
      rfl
    · cases hs
  have hsize : s'.utf8ByteSize = text.length := by
    rw [← String.size_toByteArray, ← String.toUTF8_eq_toByteArray, hbytes]
    simp [ByteArray.size]
  rw [eq_writeLE_of_readLE hlength, writeString, hsize, hbytes]
  simp

end Strings

def borshStringLen (s : String) : Nat := 4 + s.utf8ByteSize

def FunctionCallPermission.borshLen (p : FunctionCallPermission) : Nat :=
  (match p.allowance with | some _ => 17 | none => 1) + borshStringLen p.receiverId +
    (4 + (p.methodNames.map borshStringLen).sum)

def AccessKeyPermission.borshLen : AccessKeyPermission → Nat
  | .functionCall permission => 1 + permission.borshLen
  | .fullAccess => 1
  | .gasKeyFunctionCall _ permission => 1 + 18 + permission.borshLen
  | .gasKeyFullAccess _ => 1 + 18

def AccessKey.borshLen (key : AccessKey) : Nat := 8 + key.permission.borshLen

/-- Two keys that differ at most in nonce, remaining allowance and gas key balance: what using
a key may change of it. -/
def AccessKey.SameShape (key key' : AccessKey) : Prop :=
  key'.borshLen = key.borshLen ∧
    key'.gasKeyInfo.map GasKeyInfo.numNonces = key.gasKeyInfo.map GasKeyInfo.numNonces

theorem AccessKey.SameShape.refl (key : AccessKey) : key.SameShape key := ⟨rfl, rfl⟩

theorem AccessKey.SameShape.trans {k₁ k₂ k₃ : AccessKey} (h₁ : k₁.SameShape k₂)
    (h₂ : k₂.SameShape k₃) : k₁.SameShape k₃ :=
  ⟨h₂.1.trans h₁.1, h₂.2.trans h₁.2⟩

@[simp] theorem AccessKey.gasKeyInfo_setNonce (key : AccessKey) (n : Nonce) :
    (key.setNonce n).gasKeyInfo = key.gasKeyInfo := rfl

theorem AccessKey.sameShape_setNonce (key : AccessKey) (n : Nonce) :
    key.SameShape (key.setNonce n) := ⟨rfl, rfl⟩

theorem AccessKey.sameShape_setGasKeyBalance (key : AccessKey) (b : Balance) :
    key.SameShape (key.setGasKeyBalance b) := by
  obtain ⟨_, permission⟩ := key
  cases permission <;> exact ⟨rfl, rfl⟩

@[simp] theorem AccessKeyPermission.setAllowance_setAllowance (permission : AccessKeyPermission)
    (a b : Option Balance) : (permission.setAllowance a).setAllowance b =
      permission.setAllowance b := by
  cases permission <;> rfl

theorem AccessKey.sameShape_setAllowance {key : AccessKey} {old : Balance}
    (h : key.permission.functionCallPermission.bind FunctionCallPermission.allowance = some old)
    (n : Nonce) (allowance : Balance) :
    key.SameShape ⟨n, key.permission.setAllowance (some allowance)⟩ := by
  obtain ⟨_, permission⟩ := key
  cases permission with
  | functionCall fc | gasKeyFunctionCall info fc =>
    have hold : fc.allowance = some old := h
    constructor
    · simp [AccessKey.borshLen, AccessKeyPermission.borshLen, AccessKeyPermission.setAllowance,
        FunctionCallPermission.borshLen, hold]
    · rfl
  | fullAccess => cases h
  | gasKeyFullAccess info => cases h

end BitInfinity
