import BitInfinity.Foundation.Utf8
import BitInfinity.Proxy.Keystore

/-!
# Opening a wallet file

The bytes behind an encrypted `wallet.json`: the key is derived from the passphrase and the
salt of the file, and the data is decrypted by an authenticated cipher or, in old files, by
exclusive or with a chain of hashes and a comparison with the hash of the plaintext.
-/

namespace BitInfinity.Proxy.LegacyWallet

open BitInfinity Foundation

abbrev Block := Vector UInt8 32

structure EncryptedWallet where
  encrypted : Bool
  salt : String
  data : String
  check : String
  nonce : String
  scheme : String
  deriving DecidableEq, Repr

/-- Code from other crates: the hash, the authenticated cipher and the JSON parsers. -/
structure WalletExternals where
  sha256 : Bytes → Block
  aeadDecrypt : (key : Block) → (nonce ciphertext : Bytes) → Option Bytes
  parseWallet : String → Option EncryptedWallet
  parseKeystore : String → Option Keystore

/-! ## Encryption -/

section Encryption

variable (sha256 : Bytes → Block)

def deriveKey (passphrase : String) (salt : Bytes) : Block :=
  (fun hash : Block => sha256 (hash.toList ++ salt))^[100000]
    (sha256 (Foundation.utf8Bytes passphrase.toList ++ salt))

/-- The loop over the blocks of the data; a block that reaches over the end is cut there. -/
def xorBlocks (data : Bytes) (key block : Block) (offset : Nat) : Bytes :=
  if offset < data.length then
    List.zipWith (· ^^^ ·) (data.drop offset) block.toList ++
      xorBlocks data key (sha256 (block.toList ++ key.toList.take 16)) (offset + 32)
  else []
termination_by data.length - offset

def xorEncrypt (data : Bytes) (key : Block) : Bytes := xorBlocks sha256 data key key 0

def hashHex (data : Bytes) : String := String.ofList (hexEncode (sha256 data).toList)

end Encryption

/-! ## Opening -/

section Opening

variable (X : WalletExternals)

def decryptAead (key : Block) (nonceHex : String) (ciphertext : Bytes) : Except String Bytes := do
  let nonce ← okOr (hexDecode nonceHex) "Invalid nonce in wallet file"
  ensure (nonce.length == 12) "Invalid nonce length"
  okOr (X.aeadDecrypt key nonce ciphertext) "Incorrect passphrase"

def decryptWallet (enc : EncryptedWallet) (key : Block) (encryptedData : Bytes) :
    Except String Bytes :=
  if enc.scheme = "aead" then decryptAead X key enc.nonce encryptedData
  else
    let decrypted := xorEncrypt X.sha256 encryptedData key
    if hashHex X.sha256 decrypted ≠ enc.check then .error "Incorrect passphrase"
    else .ok decrypted

/-- What becomes of the plaintext: it is handed to the parser as a text. -/
def readPlaintext (plaintext : Bytes) : Except String Keystore := do
  let jsonStr ← okOr (String.fromUTF8? ⟨plaintext.toArray⟩) "Incorrect passphrase (invalid UTF-8)"
  let ks ← okOr (X.parseKeystore jsonStr) "Incorrect passphrase (invalid JSON)"
  .ok { ks with encrypted := true }

def loadEncrypted (passphrase : String) (file : Except String String) : Except String Keystore := do
  let contents ← file.mapError ("Failed to read wallet file: " ++ ·)
  let enc ← okOr (X.parseWallet contents) "Wallet file is not encrypted"
  ensure enc.encrypted "Wallet is not encrypted"
  let salt ← okOr (hexDecode enc.salt) "Invalid salt in wallet file"
  let encryptedData ← okOr (hexDecode enc.data) "Invalid encrypted data in wallet file"
  let plaintext ← decryptWallet X enc (deriveKey X.sha256 passphrase salt) encryptedData
  readPlaintext X plaintext

end Opening

/-! ## The keystream -/

variable (sha256 : Bytes → Block)

def keystreamBlock (key : Block) : Nat → Block
  | 0 => key
  | j + 1 => sha256 ((keystreamBlock key j).toList ++ key.toList.take 16)

def keystream (key : Block) (i : Nat) : UInt8 :=
  (keystreamBlock sha256 key (i / 32)).toList.getD (i % 32) 0

variable {sha256} {key : Block} {data : Bytes}

theorem getElem?_block {j i : Nat} (hi : i < 32) :
    (keystreamBlock sha256 key j).toList[i]? = some (keystream sha256 key (32 * j + i)) := by
  have hblock : (32 * j + i) / 32 = j := by omega
  have hindex : (32 * j + i) % 32 = i := by omega
  have hlt : i < (keystreamBlock sha256 key j).toList.length := by simpa using hi
  rw [keystream, hblock, hindex, List.getD_eq_getElem?_getD, List.getElem?_eq_getElem hlt]
  rfl

theorem getElem?_xorBlocks (j i : Nat) :
    (xorBlocks sha256 data key (keystreamBlock sha256 key j) (32 * j))[i]? =
      data[32 * j + i]?.map (· ^^^ keystream sha256 key (32 * j + i)) := by
  induction hsize : data.length - 32 * j using Nat.strongRecOn generalizing j i with
  | ind size ih =>
    rw [xorBlocks]
    split
    · have hrest := @ih (data.length - 32 * (j + 1)) (by omega) (j + 1)
      have hlength : (List.zipWith (· ^^^ ·) (data.drop (32 * j))
          (keystreamBlock sha256 key j).toList).length = min (data.length - 32 * j) 32 := by
        simp
      rw [List.getElem?_append, hlength]
      split
      · rw [List.getElem?_zipWith, List.getElem?_drop, getElem?_block (by omega)]
        cases data[32 * j + i]? <;> rfl
      · have hnext := hrest (i - min (data.length - 32 * j) 32) rfl
        rw [keystreamBlock, Nat.mul_succ] at hnext
        rw [hnext]
        by_cases hlast : data.length ≤ 32 * j + 32
        · rw [List.getElem?_eq_none (by omega), List.getElem?_eq_none (by omega)]
          rfl
        · rw [show 32 * j + 32 + (i - min (data.length - 32 * j) 32) = 32 * j + i by omega]
    · rw [List.getElem?_eq_none (by omega : data.length ≤ 32 * j + i)]
      rfl

theorem xorEncrypt_eq :
    xorEncrypt sha256 data key = data.mapIdx fun i b => b ^^^ keystream sha256 key i := by
  apply List.ext_getElem?
  intro i
  have hblocks := @getElem?_xorBlocks sha256 key data 0 i
  rw [Nat.mul_zero, Nat.zero_add] at hblocks
  rw [List.getElem?_mapIdx]
  exact hblocks

theorem length_xorEncrypt : (xorEncrypt sha256 data key).length = data.length := by
  rw [xorEncrypt_eq, List.length_mapIdx]

theorem xorEncrypt_xorEncrypt : xorEncrypt sha256 (xorEncrypt sha256 data key) key = data := by
  rw [xorEncrypt_eq, xorEncrypt_eq]
  apply List.ext_getElem?
  intro i
  rw [List.getElem?_mapIdx, List.getElem?_mapIdx, Option.map_map]
  cases data[i]? with
  | none => rfl
  | some b =>
    rw [Option.map_some, Function.comp_apply, UInt8.xor_assoc, UInt8.xor_self, UInt8.xor_zero]

theorem take_xorEncrypt {common : Bytes} (h : common <+: data) :
    (xorEncrypt sha256 data key).take common.length = xorEncrypt sha256 common key := by
  obtain ⟨_, rfl⟩ := h
  rw [xorEncrypt_eq, xorEncrypt_eq, List.mapIdx_append]
  exact List.take_left' List.length_mapIdx

/-! ## Old files -/

variable (sha256) in
/-- An old file: `scheme` and `nonce` have no part in it. -/
def legacyWallet (plaintext : Bytes) (passphrase : String) (salt : Bytes)
    (scheme nonce : String) : EncryptedWallet where
  encrypted := true
  salt := String.ofList (hexEncode salt)
  data := String.ofList (hexEncode (xorEncrypt sha256 plaintext (deriveKey sha256 passphrase salt)))
  check := hashHex sha256 plaintext
  nonce := nonce
  scheme := scheme

section Opening

variable {X : WalletExternals} {plaintext salt : Bytes} {passphrase scheme nonce contents : String}

theorem decryptWallet_legacyWallet (hscheme : scheme ≠ "aead") :
    decryptWallet X (legacyWallet X.sha256 plaintext passphrase salt scheme nonce)
      (deriveKey X.sha256 passphrase salt)
      (xorEncrypt X.sha256 plaintext (deriveKey X.sha256 passphrase salt)) = .ok plaintext := by
  rw [decryptWallet, if_neg (show ¬ (legacyWallet X.sha256 plaintext passphrase salt scheme
    nonce).scheme = "aead" from hscheme)]
  rw [xorEncrypt_xorEncrypt]
  exact if_neg (not_not.mpr rfl)

theorem loadEncrypted_legacyWallet (hscheme : scheme ≠ "aead") (hparse : X.parseWallet contents =
      some (legacyWallet X.sha256 plaintext passphrase salt scheme nonce)) :
    loadEncrypted X passphrase (.ok contents) = readPlaintext X plaintext := by
  have hsalt : hexDecode (legacyWallet X.sha256 plaintext passphrase salt scheme nonce).salt =
      some salt := hexDecode_hexEncode salt
  have hdata : hexDecode (legacyWallet X.sha256 plaintext passphrase salt scheme nonce).data =
      some (xorEncrypt X.sha256 plaintext (deriveKey X.sha256 passphrase salt)) :=
    hexDecode_hexEncode _
  refine (bind_of_eq_ok rfl _).trans ?_
  rw [hparse]
  refine (bind_of_eq_ok rfl _).trans ?_
  refine (bind_of_eq_ok rfl _).trans ?_
  rw [hsalt]
  refine (bind_of_eq_ok rfl _).trans ?_
  rw [hdata]
  refine (bind_of_eq_ok rfl _).trans ?_
  rw [decryptWallet_legacyWallet hscheme]
  rfl

theorem fromUTF8_toUTF8 (text : String) :
    String.fromUTF8? ⟨text.toUTF8.data.toList.toArray⟩ = some text := by
  exact dif_pos text.isValidUTF8

theorem readPlaintext_toUTF8 (text : String) : readPlaintext X text.toUTF8.data.toList =
    (okOr (X.parseKeystore text) "Incorrect passphrase (invalid JSON)").map
      ({ · with encrypted := true }) := by
  rw [readPlaintext, fromUTF8_toUTF8]
  refine (bind_of_eq_ok rfl _).trans ?_
  cases X.parseKeystore text <;> rfl

/-- The keystore model opens a file as its contents are opened: not at all when it is not an
encrypted wallet, and under the passphrase that it was written with. -/
theorem loadEncrypted_eq_keystore :
    (X.parseWallet contents = none → loadEncrypted X passphrase (.ok contents) =
      Keystore.loadEncrypted passphrase .invalid) ∧
    ∀ text ks, scheme ≠ "aead" → X.parseKeystore text = some ks → X.parseWallet contents = some
        (legacyWallet X.sha256 text.toUTF8.data.toList passphrase salt scheme nonce) →
      loadEncrypted X passphrase (.ok contents) =
        Keystore.loadEncrypted passphrase (.encrypted passphrase ks) := by
  refine ⟨fun hnone => ?_, fun text ks hscheme hks hparse => ?_⟩
  · rw [loadEncrypted]
    refine (bind_of_eq_ok rfl _).trans ?_
    rw [hnone]
    rfl
  · rw [loadEncrypted_legacyWallet hscheme hparse, readPlaintext_toUTF8, hks,
      Keystore.loadEncrypted, if_pos rfl]
    rfl

end Opening

theorem legacy_wallet_decrypts (X : WalletExternals) (key : Block) :
    (∀ d, xorEncrypt X.sha256 (xorEncrypt X.sha256 d key) key = d ∧
      (xorEncrypt X.sha256 d key).length = d.length) ∧
    (∃ stream : Nat → UInt8, ∀ d, xorEncrypt X.sha256 d key = d.mapIdx fun i b => b ^^^ stream i) ∧
    (∀ common d₁ d₂ : Bytes, common <+: d₁ → common <+: d₂ →
      (xorEncrypt X.sha256 d₁ key).take common.length =
        (xorEncrypt X.sha256 d₂ key).take common.length) ∧
    ∀ (plaintext : Bytes) (passphrase : String) (salt : Bytes) (scheme nonce contents : String),
      scheme ≠ "aead" →
      X.parseWallet contents = some (legacyWallet X.sha256 plaintext passphrase salt scheme nonce) →
      decryptWallet X (legacyWallet X.sha256 plaintext passphrase salt scheme nonce)
        (deriveKey X.sha256 passphrase salt)
        (xorEncrypt X.sha256 plaintext (deriveKey X.sha256 passphrase salt)) = .ok plaintext ∧
      loadEncrypted X passphrase (.ok contents) = readPlaintext X plaintext ∧
      ∀ text : String, plaintext = text.toUTF8.data.toList →
        loadEncrypted X passphrase (.ok contents) =
          (okOr (X.parseKeystore text) "Incorrect passphrase (invalid JSON)").map
            ({ · with encrypted := true }) := by
  refine ⟨fun d => ⟨xorEncrypt_xorEncrypt, length_xorEncrypt⟩,
    ⟨keystream X.sha256 key, fun d => xorEncrypt_eq⟩, ?_, ?_⟩
  · intro common d₁ d₂ h₁ h₂
    rw [take_xorEncrypt h₁, take_xorEncrypt h₂]
  · intro plaintext passphrase salt scheme nonce contents hscheme hparse
    have hload := loadEncrypted_legacyWallet hscheme hparse
    refine ⟨decryptWallet_legacyWallet hscheme, hload, ?_⟩
    rintro text rfl
    rw [hload, readPlaintext_toUTF8]

/-- The sample hash keeps the length of the data only. -/
def sampleHash (data : Bytes) : Block := .replicate 32 (UInt8.ofNat data.length)

def sampleExternals : WalletExternals where
  sha256 := sampleHash
  aeadDecrypt _ _ _ := none
  parseWallet _ :=
    some (legacyWallet sampleHash "\x7b\x7d".toUTF8.data.toList "secret" [1, 2, 3] "xor" "")
  parseKeystore text := if text = "\x7b\x7d" then some .default else none

theorem legacy_wallet_decrypts_sample :
    loadEncrypted sampleExternals "secret" (.ok "wallet.json") = .ok .emptyEncrypted :=
  ((legacy_wallet_decrypts sampleExternals (Vector.replicate 32 0)).2.2.2 _ "secret" [1, 2, 3]
    "xor" "" "wallet.json" (by decide) rfl).2.2 "\x7b\x7d" rfl

end BitInfinity.Proxy.LegacyWallet
