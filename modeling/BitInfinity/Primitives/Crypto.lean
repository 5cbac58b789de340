import Mathlib.Tactic

/-!
# Keys, signatures and the third-party cryptography

The runtime calls hash functions, text encodings and signature schemes from crates outside the
repository.  They are collected in `Crypto` and every definition that uses them takes it as
an argument.
-/

namespace BitInfinity

abbrev Bytes := List UInt8
abbrev CryptoHash := Bytes

abbrev Balance := Nat
abbrev Gas := Nat
abbrev Nonce := Nat
abbrev NonceIndex := Nat
abbrev BlockHeight := Nat
abbrev EpochHeight := Nat
abbrev StorageUsage := Nat
abbrev ProtocolVersion := Nat


/-- A secp256k1 public key: the two coordinates, without the leading `0x04`. -/
structure Secp256K1PublicKey where
  bytes : Bytes
  length_eq : bytes.length = 64
  deriving DecidableEq, Repr

structure ED25519PublicKey where
  bytes : Bytes
  length_eq : bytes.length = 32
  deriving DecidableEq, Repr

inductive PublicKey
  | ed25519 (key : ED25519PublicKey)
  | secp256k1 (key : Secp256K1PublicKey)
  deriving DecidableEq, Repr

/-- The number of bytes of a serialised key: one byte for the curve, then the key. -/
def PublicKey.len : PublicKey → Nat
  | .ed25519 _ => 33
  | .secp256k1 _ => 65

inductive Signature
  | ed25519 (bytes : Bytes)
  | secp256k1 (bytes : Bytes)
  deriving DecidableEq, Repr

/-- Code from other crates that the runtime relies on. -/
structure Crypto where
  sha256 : Bytes → CryptoHash
  ripemd160 : Bytes → Bytes
  keccak256 : Bytes → Bytes
  keccak256_length : ∀ data, (keccak256 data).length = 32
  bs58Encode : Bytes → String
  bs58Decode : String → Option Bytes
  /-- The human readable part of a text that decodes as a SegWit address. -/
  segwitDecode : String → Option String
  /-- Recovery of the signing key from a recoverable signature over a 32 byte message. -/
  recoverSecp256k1 : Bytes → Bytes → Option Secp256K1PublicKey
  verify : Signature → Bytes → PublicKey → Bool
  /-- The key decompresses to a torsion free curve point. -/
  convertsToRistretto : ED25519PublicKey → Bool

def isValidStakingKey (C : Crypto) : PublicKey → Bool
  | .ed25519 key => C.convertsToRistretto key
  | .secp256k1 _ => false

/-! ## Text helpers -/

theorem utf8ByteSize_ofList_of_ascii {text : List Char} (h : ∀ c ∈ text, c.val ≤ 127) :
    (String.ofList text).utf8ByteSize = text.length := by
  induction text with
  | nil => rfl
  | cons c text ih =>
    rw [String.ofList_cons, String.utf8ByteSize_append, ih fun x hx => h x (by simp [hx])]
    simp [Char.utf8Size, h c (by simp)]
    omega

def hexDigit (n : Nat) : Char := Char.ofNat (if n < 10 then 48 + n else 87 + n)

def hexEncode (data : Bytes) : List Char :=
  data.flatMap fun b => [hexDigit (b.toNat / 16), hexDigit (b.toNat % 16)]

def isLowerHex (c : Char) : Bool := ('a' ≤ c && c ≤ 'f') || ('0' ≤ c && c ≤ '9')

theorem isLowerHex_hexDigit {n : Nat} (hn : n < 16) : isLowerHex (hexDigit n) = true := by
  interval_cases n <;> decide

theorem length_hexEncode (data : Bytes) : (hexEncode data).length = 2 * data.length := by
  induction data with
  | nil => rfl
  | cons b data ih =>
    have hcons : hexEncode (b :: data) =
        [hexDigit (b.toNat / 16), hexDigit (b.toNat % 16)] ++ hexEncode data := rfl
    rw [hcons, List.length_append, ih, List.length_cons]
    simp only [List.length_cons, List.length_nil]
    omega

theorem isLowerHex_of_mem_hexEncode {data : Bytes} {c : Char} (hc : c ∈ hexEncode data) :
    isLowerHex c = true := by
  obtain ⟨b, -, hmem⟩ := List.mem_flatMap.mp hc
  have hb : b.toNat < 256 := b.toNat_lt
  simp only [List.mem_cons, List.not_mem_nil, or_false] at hmem
  rcases hmem with rfl | rfl
  · exact isLowerHex_hexDigit (by omega)
  · exact isLowerHex_hexDigit (by omega)

/-- A toy instance to evaluate the model with: a digest keeps the length and the second byte,
and a signature is the key that made it. -/
def Crypto.sample : Crypto where
  sha256 data := [UInt8.ofNat data.length, data.getD 1 0]
  ripemd160 data := data
  keccak256 _ := List.replicate 32 0
  keccak256_length _ := rfl
  bs58Encode data := String.ofList ('1' :: hexEncode data ++ List.replicate 20 'a')
  bs58Decode _ := none
  segwitDecode _ := none
  recoverSecp256k1 signature _ := if h : signature.length = 64 then some ⟨signature, h⟩ else none
  verify _ _ _ := true
  convertsToRistretto _ := true

end BitInfinity
