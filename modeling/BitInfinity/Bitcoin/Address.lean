import BitInfinity.Primitives.AccountId

/-!
# Bitcoin addresses of a public key

The address derivation of the runtime, with the third-party hash functions and the base58
encoder as parameters.  `bech32Encode` is the repository's own encoder and is modelled in full,
on 32 bit words.
-/

namespace BitInfinity

/-! ## Bech32 -/

namespace Bech32

def charset : List Char := "qpzry9x8gf2tvdw0s3jn54khce6mua7l".toList

def generator : List UInt32 := [0x3b6a57b2, 0x26508e6d, 0x1ea119fa, 0x3d4233dd, 0x2a1462b3]

def polymodStep (chk : UInt32) (v : UInt8) : UInt32 :=
  let b := chk >>> 25
  let chk := ((chk &&& 0x1ffffff) <<< 5) ^^^ v.toUInt32
  (generator.zipIdx).foldl
    (fun chk (g, i) => if (b >>> (UInt32.ofNat i)) &&& 1 == 1 then chk ^^^ g else chk) chk

def polymod (values : List UInt8) : UInt32 := values.foldl polymodStep 1

def hrpExpand (hrp : String) : List UInt8 :=
  let bytes : List UInt8 := hrp.toUTF8.data.toList
  bytes.map (fun b : UInt8 => b >>> 5) ++ 0 :: bytes.map fun b => b &&& 31

/-- The inner loop: emit five bit groups while at least five bits are pending. -/
def emitGroups (acc : UInt32) : Nat → Nat → Nat × List UInt8
  | 0, bits => (bits, [])
  | fuel + 1, bits =>
    if 5 ≤ bits then
      let (bits', out) := emitGroups acc fuel (bits - 5)
      (bits', ((acc >>> UInt32.ofNat (bits - 5)) &&& 31).toUInt8 :: out)
    else
      (bits, [])

/-- Regroup bytes into groups of five bits, from the pending bits of `acc` on. -/
def convertBits : UInt32 → Nat → List UInt8 → List UInt8
  | acc, bits, [] => if 0 < bits then [((acc <<< UInt32.ofNat (5 - bits)) &&& 31).toUInt8] else []
  | acc, bits, byte :: program =>
    let acc := (acc <<< 8) ||| byte.toUInt32
    let (bits', out) := emitGroups acc (bits + 8) (bits + 8)
    out ++ convertBits acc bits' program

def encode (hrp : String) (witnessVersion : UInt8) (program : List UInt8) : String :=
  let data5 := witnessVersion :: convertBits 0 0 program
  let poly := polymod (hrpExpand hrp ++ data5 ++ [0, 0, 0, 0, 0, 0]) ^^^ 1
  let checksum := (List.range 6).map fun i => ((poly >>> UInt32.ofNat (5 * (5 - i))) &&& 31).toUInt8
  String.ofList (hrp.toList ++ '1' :: (data5 ++ checksum).map fun d => charset.getD d.toNat 'q')

theorem toList_encode (hrp : String) (version : UInt8) (program : List UInt8) :
    ∃ rest, (encode hrp version program).toList = hrp.toList ++ '1' :: rest := by
  exact ⟨_, String.toList_ofList⟩

end Bech32

/-! ## Addresses of a key -/

section Derivation

variable (C : Crypto) (pubkey : Secp256K1PublicKey)

/-- The 33 byte form: parity of the second coordinate, then the first coordinate. -/
def compressPublicKey : Bytes :=
  (if pubkey.bytes.getD 63 0 &&& 1 == 0 then 0x02 else 0x03) :: pubkey.bytes.take 32

def uncompressedPublicKey : Bytes := 0x04 :: pubkey.bytes

def hash160 (data : Bytes) : Bytes := C.ripemd160 (C.sha256 data)

def base58checkEncode (version : UInt8) (payload : Bytes) : String :=
  let versioned := version :: payload
  let checksum := (C.sha256 (C.sha256 versioned)).take 4
  C.bs58Encode (versioned ++ checksum)

def deriveBitcoinAddressFromPubkey : String :=
  base58checkEncode C 0x00 (hash160 C (compressPublicKey pubkey))

def deriveBitcoinP2wpkhFromPubkey : String :=
  Bech32.encode "bc" 0 (hash160 C (compressPublicKey pubkey))

def toLowercase (s : String) : String := String.ofList (s.toList.map Char.toLower)

def deriveAllBitcoinAddresses : List String :=
  let p2pkh := deriveBitcoinAddressFromPubkey C pubkey
  let p2wpkh := deriveBitcoinP2wpkhFromPubkey C pubkey
  let p2pkhLegacy := toLowercase p2pkh
  if p2pkhLegacy ≠ p2pkh then [p2pkh, p2wpkh, p2pkhLegacy] else [p2pkh, p2wpkh]

/-- The key may sign for the account: one of its derived addresses is the account id. -/
def DerivesAddress (publicKey : PublicKey) (id : AccountId) : Prop :=
  ∃ key, publicKey = .secp256k1 key ∧ id ∈ deriveAllBitcoinAddresses C key

theorem mem_deriveAllBitcoinAddresses {id : String} : id ∈ deriveAllBitcoinAddresses C pubkey ↔
      id = deriveBitcoinAddressFromPubkey C pubkey ∨ id = deriveBitcoinP2wpkhFromPubkey C pubkey ∨
        id = toLowercase (deriveBitcoinAddressFromPubkey C pubkey) := by
  unfold deriveAllBitcoinAddresses
  dsimp only
  split
  · simp
  · rename_i h
    rw [not_not] at h
    simp only [List.mem_cons, List.not_mem_nil, or_false, h]
    tauto

end Derivation

/-! ## Lower case -/

theorem toLower_toLower (c : Char) : c.toLower.toLower = c.toLower := by
  unfold Char.toLower
  split
  · rename_i h
    have hle : c.val.toNat ≤ 90 := UInt32.le_iff_toNat_le.mp h.2
    have hval : (c.val + ('a'.val - 'A'.val)).toNat = c.val.toNat + 32 := by
      change (c.val.toNat + 32) % 2 ^ 32 = _
      omega
    rw [dif_neg]
    intro hupper
    have hge : 65 ≤ c.val.toNat := UInt32.le_iff_toNat_le.mp h.1
    have hle' : (c.val + ('a'.val - 'A'.val)).toNat ≤ 90 := UInt32.le_iff_toNat_le.mp hupper.2
    omega
  · rfl

@[simp] theorem toLowercase_toLowercase (text : String) :
    toLowercase (toLowercase text) = toLowercase text := by
  rw [toLowercase, toLowercase, String.toList_ofList, List.map_map]
  congr 1
  exact List.map_congr_left fun c _ => toLower_toLower c

theorem Bech32.getD_mem_charset (n : Nat) : charset.getD n 'q' ∈ charset := by
  rw [List.getD_eq_getElem?_getD]
  cases h : charset[n]? with
  | none => exact List.mem_cons_self
  | some c => exact List.mem_of_getElem? h

theorem Bech32.toLower_charset (n : Nat) : (charset.getD n 'q').toLower = charset.getD n 'q' := by
  have hall : charset.all (fun c => c.toLower == c) = true := by decide +kernel
  exact beq_iff_eq.mp (List.all_eq_true.mp hall _ (getD_mem_charset n))

theorem toLowercase_bech32 (version : UInt8) (program : List UInt8) :
    toLowercase (Bech32.encode "bc" version program) = Bech32.encode "bc" version program := by
  rw [toLowercase, Bech32.encode, String.toList_ofList]
  congr 1
  rw [List.map_append, List.map_cons, List.map_map]
  congr 1
  congr 1
  exact List.map_congr_left fun d _ => Bech32.toLower_charset d.toNat

def sampleKey : Secp256K1PublicKey := ⟨List.replicate 64 7, rfl⟩

def sampleAddress : AccountId := deriveBitcoinAddressFromPubkey .sample sampleKey

end BitInfinity
