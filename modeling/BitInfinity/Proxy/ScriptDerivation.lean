import BitInfinity.Bitcoin.Scripts
import BitInfinity.Proxy.Psbt
import BitInfinity.Proxy.SegwitText

/-!
# Output scripts of addresses

The proxy finds the output script of an address in three places, each by the first letters of the
text and without a look at its checksum.  The scripts are hex texts; below the definitions each is
written as the text of its bytes.
-/

namespace BitInfinity.Proxy

open BitInfinity Foundation

/-! ## The request handlers -/

def isSegwitText (bech32Hrp addr : String) : Bool :=
  AccountId.startsWith addr (bech32Hrp ++ "1q") || AccountId.startsWith addr (bech32Hrp ++ "1p")

/-- The values of the characters of the alphabet; other characters are passed over. -/
def symbolValues (dataPart : List Char) : List UInt8 :=
  dataPart.filterMap fun c => (Bech32.charset.idxOf? c).map UInt8.ofNat

def segwitScriptHex (witnessVersion : UInt8) (dataPart : List Char) : String :=
  let data5 := symbolValues dataPart
  if 6 < data5.length then
    let program := regroupSymbols 0 0 (data5.take (data5.length - 6))
    if program.length = 20 then hexText [witnessVersion] ++ "14" ++ hexText program
    else if program.length = 32 then hexText [witnessVersion] ++ "20" ++ hexText program
    else ""
  else ""

/-- The text starts with one of the letters and is the base58 form of at least 25 bytes. -/
def base58ScriptHex (C : Crypto) (letters : List Char) (opening closing addr : String) :
    Option String :=
  if addr.toList.head?.any (· ∈ letters) then do
    let decoded ← C.bs58Decode addr
    if 25 ≤ decoded.length then some (opening ++ hexText ((decoded.drop 1).take 20) ++ closing)
    else none
  else none

def deriveScriptPubKeyHex (C : Crypto) (addr bech32Hrp : String) : String :=
  if isSegwitText bech32Hrp addr then
    let witnessVersion := if AccountId.startsWith addr (bech32Hrp ++ "1p") then 1 else 0
    segwitScriptHex witnessVersion (addr.toList.drop (bech32Hrp.toList.length + 2))
  else
    (base58ScriptHex C ['1', 'm', 'n'] "76a914" "88ac" addr <|>
      base58ScriptHex C ['3', '2'] "a914" "87" addr).getD ""

/-! ## Synthetic outputs -/

namespace SyntheticUtxo

def accountToPubkeyHash (C : Crypto) (accountId : String) : Bytes :=
  (C.sha256 accountId.toUTF8.data.toList).take 20

def segwitScript (openings : List String) (length : Nat) (opening accountId : String) :
    Option String :=
  if openings.any (AccountId.startsWith accountId) then do
    let program ← decodeBech32Program accountId
    if program.length = length then some (opening ++ hexText program) else none
  else none

def deriveScriptPubKey (C : Crypto) (accountId : String) : String :=
  (segwitScript ["bc1q", "tb1q", "bcrt1q"] 20 "0014" accountId <|>
    segwitScript ["bc1p", "tb1p", "bcrt1p"] 32 "5120" accountId <|>
    base58ScriptHex C ['3', '2'] "a914" "87" accountId <|>
    base58ScriptHex C ['1', 'm', 'n'] "76a914" "88ac" accountId).getD
      ("76a914" ++ hexText (accountToPubkeyHash C accountId) ++ "88ac")

end SyntheticUtxo

/-! ## `createpsbt` -/

def hrpGuess (addr : String) : String :=
  let before := addr.toList.takeWhile (· ≠ '1')
  if '1' ∈ addr.toList ∧ before ≠ [] then String.ofList before else "bc"

def createpsbtScript (C : Crypto) (addr : String) : Bytes :=
  let scriptHex := deriveScriptPubKeyHex C addr (hrpGuess addr)
  if scriptHex = "" then [] else (hexDecode scriptHex).getD []

/-! ## The same as bytes -/

theorem hexText_append (data data' : Bytes) :
    hexText (data ++ data') = hexText data ++ hexText data' := by
  refine String.toList_inj.mp ?_
  simp [hexText, hexEncode]

theorem hexText_inj {data data' : Bytes} : hexText data = hexText data' ↔ data = data' := by
  refine ⟨fun h => ?_, congrArg hexText⟩
  have hdecode := congrArg hexDecode h
  rw [hexText, hexText, hexDecode_hexEncode, hexDecode_hexEncode] at hdecode
  exact Option.some.inj hdecode

theorem hexText_eq_empty {data : Bytes} : hexText data = "" ↔ data = [] := @hexText_inj data []

theorem p2pkh_hex (hash : Bytes) :
    "76a914" ++ hexText hash ++ "88ac" = hexText (p2pkhScript hash) := by
  rw [p2pkhScript, hexText_append, hexText_append]
  rfl

theorem p2sh_hex (hash : Bytes) : "a914" ++ hexText hash ++ "87" = hexText (p2shScript hash) := by
  rw [p2shScript, hexText_append, hexText_append]
  rfl

def readProgram (dataPart : List Char) : Bytes :=
  regroupSymbols 0 0 ((symbolValues dataPart).take ((symbolValues dataPart).length - 6))

theorem fitsWidth_symbolValues (dataPart : List Char) : FitsWidth 5 (symbolValues dataPart) := by
  intro d hd
  obtain ⟨c, -, hc⟩ := List.mem_filterMap.mp hd
  obtain ⟨i, hi, rfl⟩ := Option.map_eq_some_iff.mp hc
  have hlt : i < Bech32.charset.length := List.findIdx?_eq_some_iff_findIdx_eq.mp hi |>.1
  have hlength : Bech32.charset.length = 32 := by decide
  rw [UInt8.toNat_ofNat']
  omega

theorem length_readProgram (dataPart : List Char) :
    (readProgram dataPart).length = 5 * ((symbolValues dataPart).length - 6) / 8 := by
  obtain ⟨_, _, hbits⟩ := @regroupSymbols_bits
    ((symbolValues dataPart).take ((symbolValues dataPart).length - 6))
    (fun d hd => fitsWidth_symbolValues dataPart d (List.mem_of_mem_take hd)) 0 0 (by omega)
  have hlength := congrArg List.length hbits
  simp only [List.length_append, length_symbolBits, length_bitsOf, List.length_take] at hlength
  rw [readProgram]
  omega

/-- The script of a SegWit text, if its program has one of the two usual lengths. -/
def segwitBytes (witnessVersion : UInt8) (dataPart : List Char) : Bytes :=
  if (symbolValues dataPart).length ∈ [38, 39, 58] then
    witnessVersion :: UInt8.ofNat (readProgram dataPart).length :: readProgram dataPart
  else []

theorem segwitScriptHex_eq (witnessVersion : UInt8) (dataPart : List Char) :
    segwitScriptHex witnessVersion dataPart = hexText (segwitBytes witnessVersion dataPart) := by
  have hlength := length_readProgram dataPart
  have htext : ∀ b : UInt8,
      hexText [witnessVersion] ++ hexText [b] ++ hexText (readProgram dataPart) =
        hexText (witnessVersion :: b :: readProgram dataPart) := by
    intro b
    rw [← hexText_append, ← hexText_append]
    rfl
  unfold segwitScriptHex segwitBytes
  simp only [List.mem_cons, List.not_mem_nil, or_false]
  change (if 6 < (symbolValues dataPart).length then
    if (readProgram dataPart).length = 20 then
      hexText [witnessVersion] ++ "14" ++ hexText (readProgram dataPart)
    else if (readProgram dataPart).length = 32 then
      hexText [witnessVersion] ++ "20" ++ hexText (readProgram dataPart)
    else "" else "") = _
  by_cases h20 : (readProgram dataPart).length = 20
  · rw [if_pos (by omega), if_pos h20, if_pos (by omega), h20]
    exact htext 0x14
  · rw [if_neg h20]
    by_cases h32 : (readProgram dataPart).length = 32
    · rw [if_pos (by omega), if_pos h32, if_pos (by omega), h32]
      exact htext 0x20
    · rw [if_neg h32, ite_self, if_neg (by omega)]
      rfl

/-- The bytes of a base58 text of at least 25 bytes that starts with one of the letters. -/
def base58Bytes (C : Crypto) (letters : List Char) (addr : String) : Option Bytes :=
  (C.bs58Decode addr).filter fun decoded =>
    addr.toList.head?.any (· ∈ letters) && 25 ≤ decoded.length

theorem base58ScriptHex_eq (C : Crypto) (letters : List Char) (opening closing addr : String) :
    base58ScriptHex C letters opening closing addr = (base58Bytes C letters addr).map
      fun decoded => opening ++ hexText ((decoded.drop 1).take 20) ++ closing := by
  unfold base58ScriptHex base58Bytes
  cases C.bs58Decode addr with
  | none =>
    split
    · rfl
    · rfl
  | some decoded =>
    cases hletter : addr.toList.head?.any (· ∈ letters) with
    | false => simp
    | true =>
      by_cases hlength : 25 ≤ decoded.length
      · simp [hlength]
      · have hlt := Nat.not_le.mp hlength
        simp [hlength, hlt]

/-- The script that the handlers give to an address; no bytes stand for none. -/
def derivedScript (C : Crypto) (addr bech32Hrp : String) : Bytes :=
  if isSegwitText bech32Hrp addr then
    segwitBytes (if AccountId.startsWith addr (bech32Hrp ++ "1p") then 1 else 0)
      (addr.toList.drop (bech32Hrp.toList.length + 2))
  else
    match base58Bytes C ['1', 'm', 'n'] addr, base58Bytes C ['3', '2'] addr with
    | some decoded, _ => p2pkhScript ((decoded.drop 1).take 20)
    | none, some decoded => p2shScript ((decoded.drop 1).take 20)
    | none, none => []

theorem deriveScriptPubKeyHex_eq (C : Crypto) (addr bech32Hrp : String) :
    deriveScriptPubKeyHex C addr bech32Hrp = hexText (derivedScript C addr bech32Hrp) := by
  unfold deriveScriptPubKeyHex derivedScript
  split
  · exact segwitScriptHex_eq _ _
  · rw [base58ScriptHex_eq, base58ScriptHex_eq]
    cases base58Bytes C ['1', 'm', 'n'] addr with
    | some decoded => exact p2pkh_hex _
    | none =>
      cases base58Bytes C ['3', '2'] addr with
      | some decoded => exact p2sh_hex _
      | none => rfl

theorem createpsbtScript_eq (C : Crypto) (addr : String) :
    createpsbtScript C addr = derivedScript C addr (hrpGuess addr) := by
  unfold createpsbtScript
  simp only [deriveScriptPubKeyHex_eq, hexText_eq_empty]
  split
  · next hnil => exact hnil.symm
  · rw [hexText, hexDecode_hexEncode, Option.getD_some]

theorem head_derivedScript (C : Crypto) (addr bech32Hrp : String) :
    (isSegwitText bech32Hrp addr = true ∧ ((derivedScript C addr bech32Hrp).head? = none ∨
          (derivedScript C addr bech32Hrp).head? = some 0 ∨
          (derivedScript C addr bech32Hrp).head? = some 1)) ∨
      (isSegwitText bech32Hrp addr = false ∧ ((derivedScript C addr bech32Hrp).head? = none ∨
          (derivedScript C addr bech32Hrp).head? = some 0x76 ∨
          (derivedScript C addr bech32Hrp).head? = some 0xa9)) := by
  unfold derivedScript
  cases isSegwitText bech32Hrp addr with
  | true =>
    refine .inl ⟨rfl, ?_⟩
    rw [if_pos rfl, segwitBytes]
    split
    · split
      · exact .inr (.inr rfl)
      · exact .inr (.inl rfl)
    · exact .inl rfl
  | false =>
    refine .inr ⟨rfl, ?_⟩
    rw [if_neg (by decide)]
    split
    · exact .inr (.inl rfl)
    · exact .inr (.inr rfl)
    · exact .inl rfl

theorem take_synthetic (C : Crypto) (accountId : String) :
    ∃ script : Bytes, SyntheticUtxo.deriveScriptPubKey C accountId = hexText script ∧
      script.take 2 ∈ [[0x00, 0x14], [0x51, 0x20], [0xa9, 0x14], [0x76, 0xa9]] := by
  have hsegwit : ∀ openings length opening text,
      SyntheticUtxo.segwitScript openings length opening accountId = some text →
        ∃ program, text = opening ++ hexText program := by
    intro openings length opening text h
    unfold SyntheticUtxo.segwitScript at h
    split at h
    · obtain ⟨program, -, h⟩ := Option.bind_eq_some_iff.mp h
      split at h
      · cases h
        exact ⟨program, rfl⟩
      · cases h
    · cases h
  unfold SyntheticUtxo.deriveScriptPubKey
  rw [base58ScriptHex_eq, base58ScriptHex_eq]
  cases hkey : SyntheticUtxo.segwitScript ["bc1q", "tb1q", "bcrt1q"] 20 "0014" accountId with
  | some text =>
    obtain ⟨program, rfl⟩ := hsegwit _ _ _ _ hkey
    refine ⟨[0x00, 0x14] ++ program, ?_, by simp⟩
    rw [hexText_append]
    rfl
  | none =>
    cases htap : SyntheticUtxo.segwitScript ["bc1p", "tb1p", "bcrt1p"] 32 "5120" accountId with
    | some text =>
      obtain ⟨program, rfl⟩ := hsegwit _ _ _ _ htap
      refine ⟨[0x51, 0x20] ++ program, ?_, by simp⟩
      rw [hexText_append]
      rfl
    | none =>
      cases base58Bytes C ['3', '2'] accountId with
      | some decoded => exact ⟨p2shScript _, p2sh_hex _, by simp [p2shScript]⟩
      | none =>
        cases base58Bytes C ['1', 'm', 'n'] accountId with
        | some decoded | none => exact ⟨p2pkhScript _, p2pkh_hex _, by simp [p2pkhScript]⟩

end BitInfinity.Proxy
