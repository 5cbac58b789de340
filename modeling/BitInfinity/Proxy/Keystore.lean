import BitInfinity.Foundation.Fallible
import BitInfinity.Primitives.Crypto
import Mathlib.Data.Finmap

/-!
# The keystore and the wallet file

The keys of the wallet in memory, and the file that keeps them.  The file is modelled by what
can be read from it: salt, nonce and cipher of an encrypted file are left out, and it opens
with the passphrase that it was written with and with no other.
-/

namespace BitInfinity.Proxy

open BitInfinity Foundation

/-! ## Key entries -/

structure KeyEntry where
  privateKeyHex : String
  publicKeyCompressedHex : String
  publicKeyUncompressedHex : String
  deriving DecidableEq, Repr

def hexValue (c : Char) : Option Nat :=
  if '0' ≤ c ∧ c ≤ '9' then some (c.toNat - 48)
  else if 'a' ≤ c ∧ c ≤ 'f' then some (c.toNat - 87)
  else if 'A' ≤ c ∧ c ≤ 'F' then some (c.toNat - 55)
  else none

def hexDecodeChars : List Char → Option Bytes
  | [] => some []
  | [_] => none
  | high :: low :: rest => do
    let h ← hexValue high
    let l ← hexValue low
    let bytes ← hexDecodeChars rest
    some (UInt8.ofNat (16 * h + l) :: bytes)

def hexDecode (text : String) : Option Bytes := hexDecodeChars text.toList

theorem hexValue_hexDigit : ∀ n : Fin 16, hexValue (hexDigit n) = some n.val := by
  decide

theorem hexDecodeChars_hexEncode (bytes : Bytes) :
    hexDecodeChars (hexEncode bytes) = some bytes := by
  induction bytes with
  | nil => rfl
  | cons b bytes ih =>
    have hhigh := hexValue_hexDigit ⟨b.toNat / 16, by have := b.toNat_lt; omega⟩
    have hlow := hexValue_hexDigit ⟨b.toNat % 16, by omega⟩
    have hbyte : 16 * (b.toNat / 16) + b.toNat % 16 = b.toNat := by omega
    have hrest : hexEncode (b :: bytes) =
        hexDigit (b.toNat / 16) :: hexDigit (b.toNat % 16) :: hexEncode bytes := rfl
    rw [hrest, hexDecodeChars, hhigh, hlow, ih]
    change some (UInt8.ofNat (16 * (b.toNat / 16) + b.toNat % 16) :: bytes) = some (b :: bytes)
    rw [hbyte, UInt8.ofNat_toNat]

@[simp] theorem hexDecode_hexEncode (bytes : Bytes) :
    hexDecode (String.ofList (hexEncode bytes)) = some bytes := by
  rw [hexDecode, String.toList_ofList, hexDecodeChars_hexEncode]

def hexBytes (text : String) (length : Nat) (invalid wrongLength : String) : Except String Bytes :=
  match hexDecode text with
  | none => .error invalid
  | some bytes => if bytes.length = length then .ok bytes else .error wrongLength

namespace KeyEntry

def privateKeyBytes (k : KeyEntry) : Except String Bytes :=
  hexBytes k.privateKeyHex 32 "Invalid private key hex" "Private key must be 32 bytes"

def publicKeyUncompressedBytes (k : KeyEntry) : Except String Bytes :=
  hexBytes k.publicKeyUncompressedHex 64 "Invalid public key hex"
    "Uncompressed public key must be 64 bytes"

def nearPublicKeyString (C : Crypto) (k : KeyEntry) : Except String String := do
  let bytes ← k.publicKeyUncompressedBytes
  .ok ("secp256k1:" ++ C.bs58Encode bytes)

end KeyEntry

/-! ## The keystore -/

structure Keystore where
  keys : Finmap fun _ : String => KeyEntry
  watchOnly : List String
  encrypted : Bool

namespace Keystore

def default : Keystore := ⟨∅, [], false⟩

def emptyEncrypted : Keystore := ⟨∅, [], true⟩

def insert (ks : Keystore) (address : String) (entry : KeyEntry) : Keystore :=
  { ks with keys := ks.keys.insert address entry }

def get (ks : Keystore) (address : String) : Option KeyEntry := ks.keys.lookup address

def addWatchOnly (ks : Keystore) (address : String) : Keystore :=
  if address ∈ ks.watchOnly then ks else { ks with watchOnly := ks.watchOnly ++ [address] }

def Tracks (ks : Keystore) (address : String) : Prop := address ∈ ks.keys ∨ address ∈ ks.watchOnly

instance (ks : Keystore) (address : String) : Decidable (ks.Tracks address) :=
  inferInstanceAs (Decidable (_ ∨ _))

end Keystore

/-! ## The file -/

inductive WalletFile
  | absent
  /-- Not the JSON of a wallet. -/
  | invalid
  | plain (ks : Keystore)
  | encrypted (passphrase : String) (ks : Keystore)

namespace Keystore

/-- Without a passphrase nothing but the encryption of the file is known. -/
def load : WalletFile → Keystore
  | .absent => default
  | .invalid => default
  | .plain ks => ks
  | .encrypted _ _ => emptyEncrypted

def loadEncrypted (passphrase : String) : WalletFile → Except String Keystore
  | .absent => .error "Failed to read wallet file"
  | .invalid => .error "Wallet file is not encrypted"
  | .plain _ => .error "Wallet file is not encrypted"
  | .encrypted key ks =>
    if passphrase = key then .ok { ks with encrypted := true }
    else .error "Incorrect passphrase"

def save (ks : Keystore) : WalletFile := .plain ks

def saveEncrypted (ks : Keystore) (passphrase : String) : WalletFile :=
  .encrypted passphrase { ks with encrypted := false }

end Keystore

def WalletFile.contents : WalletFile → Keystore
  | .absent => .default
  | .invalid => .default
  | .plain ks => ks
  | .encrypted _ ks => ks

section Lemmas

variable {ks : Keystore} {address address' : String} {entry : KeyEntry} {passphrase : String}
  {file : WalletFile}

theorem Keystore.loadEncrypted_eq_ok : Keystore.loadEncrypted passphrase file = .ok ks ↔
      ∃ stored, file = .encrypted passphrase stored ∧ ks = { stored with encrypted := true } := by
  cases file with
  | absent | invalid | plain stored => simp [Keystore.loadEncrypted]
  | encrypted key stored =>
    by_cases hkey : passphrase = key
    · subst hkey
      simp [Keystore.loadEncrypted, eq_comm]
    · have hne : key ≠ passphrase := fun h => hkey h.symm
      simp [Keystore.loadEncrypted, hkey, hne]

@[simp] theorem Keystore.insert_watchOnly : (ks.insert address entry).watchOnly = ks.watchOnly :=
  rfl

@[simp] theorem Keystore.insert_encrypted : (ks.insert address entry).encrypted = ks.encrypted :=
  rfl

@[simp] theorem Keystore.addWatchOnly_encrypted :
    (ks.addWatchOnly address).encrypted = ks.encrypted := by
  unfold Keystore.addWatchOnly
  split <;> rfl

theorem Keystore.tracks_insert :
    (ks.insert address entry).Tracks address' ↔ address' = address ∨ ks.Tracks address' := by
  unfold Keystore.Tracks Keystore.insert
  rw [Finmap.mem_insert, or_assoc]

theorem Keystore.tracks_addWatchOnly :
    (ks.addWatchOnly address).Tracks address' ↔ address' = address ∨ ks.Tracks address' := by
  unfold Keystore.Tracks Keystore.addWatchOnly
  split
  · rename_i hmem
    constructor
    · intro h
      exact .inr h
    · rintro (rfl | h)
      · exact .inr hmem
      · exact h
  · simp only [List.mem_append, List.mem_singleton]
    tauto

end Lemmas

end BitInfinity.Proxy
