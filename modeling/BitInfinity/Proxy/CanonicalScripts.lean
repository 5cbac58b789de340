import BitInfinity.Proxy.ScriptDerivation

/-!
# The scripts of standard addresses

The output scripts that the proxy gives to the text of a standard address, compared with the script
that Bitcoin gives it, and what becomes of texts that are no address.
-/

/-! ## Standard addresses -/

namespace BitInfinity.BitcoinAddress

def textOn (C : Crypto) (network : Network) : BitcoinAddress → String
  | p2pkh hash => base58checkEncode C network.pubkeyHashVersion hash.bytes
  | p2sh hash => base58checkEncode C network.scriptHashVersion hash.bytes
  | witness w => String.ofList (Segwit.encode network.hrp w)

/-- The texts of an address: SegWit allows capital letters throughout. -/
def texts (C : Crypto) (network : Network) : BitcoinAddress → List String
  | p2pkh hash => [(p2pkh hash).textOn C network]
  | p2sh hash => [(p2sh hash).textOn C network]
  | witness w => [(witness w).textOn C network,
      String.ofList ((Segwit.encode network.hrp w).map Char.toUpper)]

/-- One of the types P2PKH, P2SH, P2WPKH, P2WSH and P2TR. -/
def IsStandard : BitcoinAddress → Prop
  | p2pkh _ => True
  | p2sh _ => True
  | witness w => w.version = 0 ∨ (w.version = 1 ∧ w.program.length = 32)

def scriptType : BitcoinAddress → String
  | p2pkh _ => "pubkeyhash"
  | p2sh _ => "scripthash"
  | witness w =>
    if w.version = 0 then
      if w.program.length = 20 then "witness_v0_keyhash" else "witness_v0_scripthash"
    else "witness_v1_taproot"

end BitInfinity.BitcoinAddress

namespace BitInfinity.Proxy

open BitInfinity Foundation

/-! ## Base58 addresses -/

theorem startsWith_of_head {text start : String} (hne : start.toList ≠ [])
    (hhead : text.toList.head? ≠ start.toList.head?) : AccountId.startsWith text start = false := by
  rw [Bool.eq_false_iff]
  intro h
  obtain ⟨_, hrest⟩ := List.isPrefixOf_iff_prefix.mp h
  rw [← hrest] at hhead
  exact hhead (List.head?_append_of_ne_nil _ hne)

theorem isSegwitText_of_head {bech32Hrp addr : String} (hne : bech32Hrp.toList ≠ [])
    (hhead : addr.toList.head? ≠ bech32Hrp.toList.head?) : isSegwitText bech32Hrp addr = false := by
  have hstart : ∀ tail : String, AccountId.startsWith addr (bech32Hrp ++ tail) = false := by
    intro tail
    refine startsWith_of_head ?_ ?_
    · simp [hne]
    · rwa [String.toList_append, List.head?_append_of_ne_nil _ hne]
  rw [isSegwitText, hstart, hstart, Bool.or_false]

theorem isSegwitText_network {network : BitInfinity.Network} {addr : String} {c : Char}
    (hhead : addr.toList.head? = some c) (hc : 'b' ≠ c ∧ 't' ≠ c) :
    isSegwitText network.hrp addr = false := by
  refine isSegwitText_of_head ?_ ?_
  · cases network with
    | bitcoin | testnet | regtest => decide
  · rw [hhead]
    cases network with
    | bitcoin | regtest => exact fun h => hc.1 (Option.some.inj h).symm
    | testnet => exact fun h => hc.2 (Option.some.inj h).symm

theorem segwitScript_of_head {openings : List String} {length : Nat} {opening accountId : String}
    {c : Char} (hhead : accountId.toList.head? = some c)
    (hopenings : ∀ start ∈ openings, start.toList ≠ [] ∧ start.toList.head? ≠ some c) :
    SyntheticUtxo.segwitScript openings length opening accountId = none := by
  refine if_neg ?_
  rw [Bool.not_eq_true, List.any_eq_false]
  intro start hstart
  obtain ⟨hne, hfirst⟩ := hopenings start hstart
  rw [startsWith_of_head hne (hhead ▸ hfirst.symm)]
  decide

section Base58

variable {C : Crypto} (hC : StandardEncodings C) (network : BitInfinity.Network) (hash : Hash160)
include hC

theorem bs58Decode_base58checkEncode (version : UInt8) :
    C.bs58Decode (base58checkEncode C version hash.bytes) =
      some (checkedPayload C version hash.bytes) :=
  hC.bs58Decode_encode _ (length_checkedPayload hC version hash.length_eq)

theorem toList_base58checkEncode (version : UInt8) :
    (base58checkEncode C version hash.bytes).toList =
      Base58.encode (checkedPayload C version hash.bytes) := by
  rw [base58checkEncode_eq hC version hash.length_eq, String.toList_ofList]

theorem head_base58checkEncode {version : UInt8} {k low high : Nat} (hversion : version ≠ 0)
    (hpos : 0 < low) (hhigh : high < 58) (hle : low * 58 ^ k ≤ 256 ^ 24 * version.toNat)
    (hlt : 256 ^ 24 * (version.toNat + 1) ≤ (high + 1) * 58 ^ k) :
    ∃ d, (base58checkEncode C version hash.bytes).toList.head? = some (Base58.digit d) ∧
      low ≤ d ∧ d ≤ high := by
  have hlength := length_checkedPayload hC version hash.length_eq
  rw [checkedPayload, List.cons_append, List.length_cons] at hlength
  have hrest : (hash.bytes ++ (C.sha256 (C.sha256 (version :: hash.bytes))).take 4).length =
      24 := by
    omega
  obtain ⟨d, _, hencode, hbounds⟩ := Base58.encode_cons_of_bounds hversion hpos hhigh
    (by rw [hrest]; exact hle) (by rw [hrest]; exact hlt)
  refine ⟨d, ?_, hbounds⟩
  rw [toList_base58checkEncode hC, checkedPayload, List.cons_append, hencode, List.head?_cons]

theorem head_p2pkh : ∃ c ∈ ['1', 'm', 'n'],
    (base58checkEncode C network.pubkeyHashVersion hash.bytes).toList.head? = some c := by
  have htest : ∃ c ∈ ['1', 'm', 'n'],
      (base58checkEncode C 0x6f hash.bytes).toList.head? = some c := by
    obtain ⟨d, hhead, _, _⟩ := @head_base58checkEncode C hC hash 0x6f 33 44 45 (by decide)
      (by decide) (by decide) (by decide) (by decide)
    refine ⟨_, ?_, hhead⟩
    obtain rfl | rfl : d = 44 ∨ d = 45 := by omega
    · decide
    · decide
  cases network with
  | bitcoin =>
    obtain ⟨_, hrest⟩ := Base58.encode_zero_cons
      (hash.bytes ++ (C.sha256 (C.sha256 (0 :: hash.bytes))).take 4)
    refine ⟨'1', by decide, ?_⟩
    rw [BitInfinity.Network.pubkeyHashVersion, toList_base58checkEncode hC, checkedPayload,
      List.cons_append, hrest, List.head?_cons]
  | testnet => exact htest
  | regtest => exact htest

theorem head_p2sh : ∃ c ∈ ['3', '2'],
    (base58checkEncode C network.scriptHashVersion hash.bytes).toList.head? = some c := by
  have htest : ∃ c ∈ ['3', '2'], (base58checkEncode C 0xc4 hash.bytes).toList.head? = some c := by
    obtain ⟨d, hhead, hle, hge⟩ := @head_base58checkEncode C hC hash 0xc4 34 1 1 (by decide)
      (by decide) (by decide) (by decide) (by decide)
    obtain rfl : d = 1 := by omega
    exact ⟨_, by decide, hhead⟩
  cases network with
  | bitcoin =>
    obtain ⟨d, hhead, hle, hge⟩ := @head_base58checkEncode C hC hash 0x05 33 2 2 (by decide)
      (by decide) (by decide) (by decide) (by decide)
    obtain rfl : d = 2 := by omega
    exact ⟨_, by decide, hhead⟩
  | testnet => exact htest
  | regtest => exact htest

theorem base58Bytes_text {letters : List Char} {version : UInt8} {c : Char}
    (hhead : (base58checkEncode C version hash.bytes).toList.head? = some c) :
    (base58Bytes C letters (base58checkEncode C version hash.bytes)).map
        (fun decoded => (decoded.drop 1).take 20) =
      if c ∈ letters then some hash.bytes else none := by
  have hlength := length_checkedPayload hC version hash.length_eq
  have hpayload : ((checkedPayload C version hash.bytes).drop 1).take 20 = hash.bytes := by
    rw [checkedPayload, List.cons_append, List.drop_succ_cons, List.drop_zero,
      List.take_left' hash.length_eq]
  rw [base58Bytes, bs58Decode_base58checkEncode hC, hhead]
  by_cases hc : c ∈ letters
  · rw [List.drop_one] at hpayload
    simp [hc, hlength, hpayload]
  · simp [hc]

theorem base58Bytes_of_head {letters others : List Char} {version : UInt8}
    (hother : ∀ c ∈ letters, c ∉ others)
    (hfirst : ∃ c ∈ letters, (base58checkEncode C version hash.bytes).toList.head? = some c) :
    base58Bytes C others (base58checkEncode C version hash.bytes) = none ∧
      ∃ decoded, base58Bytes C letters (base58checkEncode C version hash.bytes) = some decoded ∧
        (decoded.drop 1).take 20 = hash.bytes := by
  obtain ⟨c, hc, hhead⟩ := hfirst
  constructor
  · have hnone := @base58Bytes_text C hC hash others _ c hhead
    rwa [if_neg (hother c hc), Option.map_eq_none_iff] at hnone
  · have hsome := @base58Bytes_text C hC hash letters _ c hhead
    rwa [if_pos hc, Option.map_eq_some_iff] at hsome

end Base58

/-! ## SegWit addresses -/

section Witness

variable (network : BitInfinity.Network) (w : Segwit.WitnessProgram)

theorem toList_hrp : ∃ c rest, network.hrp.toList = c :: rest ∧ c ∈ ['b', 't'] ∧
    '1' ∉ network.hrp.toList := by
  cases network with
  | bitcoin | regtest => exact ⟨'b', _, rfl, by decide, by decide⟩
  | testnet => exact ⟨'t', _, rfl, by decide, by decide⟩

theorem hrpGuess_encode (hrp : String) (hne : hrp.toList ≠ []) (hone : '1' ∉ hrp.toList)
    (rest : List Char) : hrpGuess (String.ofList (hrp.toList ++ '1' :: rest)) = hrp := by
  have hall : ∀ c ∈ hrp.toList, (decide (c ≠ '1')) = true := by
    intro c hc
    rw [decide_eq_true_eq]
    rintro rfl
    exact hone hc
  have hbefore : (hrp.toList ++ '1' :: rest).takeWhile (· ≠ '1') = hrp.toList := by
    rw [List.takeWhile_append_of_pos hall]
    simp
  rw [hrpGuess, String.toList_ofList]
  simp only [hbefore]
  rw [if_pos ⟨by simp, hne⟩, String.ofList_toList]

theorem startsWith_encode (hrp : String) (hversion : w.version = 0) :
    AccountId.startsWith (String.ofList (Segwit.encode hrp w)) (hrp ++ "1q") = true := by
  refine List.isPrefixOf_iff_prefix.mpr ?_
  rw [String.toList_ofList, String.toList_append, Segwit.encode, Segwit.symbols, hversion]
  exact ⟨_, List.append_assoc _ _ _⟩

theorem derivedScript_witness {hrp : String} (hversion : w.version = 0)
    (hlength : w.program.length = 20 ∨ w.program.length = 32) (C : Crypto) :
    derivedScript C (String.ofList (Segwit.encode hrp w)) hrp = witnessScript w := by
  set data5 := Bech32.convertBits 0 0 w.program with hdata
  set sum := Segwit.checksum hrp 0 data5 with hsum
  have htext : Segwit.encode hrp w =
      hrp.toList ++ "1q".toList ++ (data5 ++ sum).map Bech32.symbol := by
    rw [Segwit.encode, Segwit.symbols, hversion, List.map_cons, List.append_assoc]
    rfl
  have hp : AccountId.startsWith (String.ofList (Segwit.encode hrp w)) (hrp ++ "1p") = false := by
    rw [Bool.eq_false_iff]
    intro h
    obtain ⟨_, hrest⟩ := List.isPrefixOf_iff_prefix.mp h
    rw [String.toList_ofList, String.toList_append, htext, List.append_assoc,
      List.append_assoc] at hrest
    have hcons := List.append_cancel_left hrest
    exact absurd (List.cons.inj (List.cons.inj hcons).2).1 (by decide)
  have hdrop : (String.ofList (Segwit.encode hrp w)).toList.drop (hrp.toList.length + 2) =
      (data5 ++ sum).map Bech32.symbol := by
    rw [String.toList_ofList, htext]
    exact List.drop_left' (by rw [List.length_append]; rfl)
  have hfits : FitsWidth 5 (data5 ++ sum) := by
    intro s hs
    refine Segwit.fitsWidth_symbols hrp w s ?_
    rw [Segwit.symbols, hversion]
    exact List.mem_cons_of_mem _ hs
  have hvalues : symbolValues ((data5 ++ sum).map Bech32.symbol) = data5 ++ sum :=
    filterMap_symbols hfits
  have hsix : sum.length = 6 := Segwit.length_checksum hrp 0 data5
  have hprogram : readProgram ((data5 ++ sum).map Bech32.symbol) = w.program := by
    rw [readProgram, hvalues, List.length_append, hsix, Nat.add_sub_cancel, List.take_left, hdata,
      regroupSymbols_convertBits]
  have hcount : (symbolValues ((data5 ++ sum).map Bech32.symbol)).length ∈ [38, 39, 58] := by
    have hread := length_readProgram ((data5 ++ sum).map Bech32.symbol)
    rw [hprogram] at hread
    simp only [List.mem_cons, List.not_mem_nil, or_false]
    omega
  rw [derivedScript, isSegwitText, startsWith_encode w hrp hversion, Bool.true_or, if_pos rfl, hp,
    hdrop, segwitBytes, if_pos hcount, hprogram, witnessScript, hversion]
  rfl

theorem synthetic_witness (C : Crypto) (hversion : w.version = 0)
    (hlength : w.program.length = 20) :
    SyntheticUtxo.deriveScriptPubKey C (String.ofList (Segwit.encode network.hrp w)) =
      hexText (witnessScript w) := by
  have hprogram : decodeBech32Program (String.ofList (Segwit.encode network.hrp w)) =
      some w.program := by
    rw [Segwit.encode_zero network.hrp hversion]
    refine decodeBech32Program_encode network.hrp fun hnil => ?_
    rw [hnil] at hlength
    cases hlength
  have hany : ["bc1q", "tb1q", "bcrt1q"].any
      (AccountId.startsWith (String.ofList (Segwit.encode network.hrp w))) = true := by
    refine List.any_eq_true.mpr ⟨network.hrp ++ "1q", ?_,
      startsWith_encode w network.hrp hversion⟩
    cases network with
    | bitcoin | testnet | regtest => decide
  have hsegwit : SyntheticUtxo.segwitScript ["bc1q", "tb1q", "bcrt1q"] 20 "0014"
      (String.ofList (Segwit.encode network.hrp w)) = some ("0014" ++ hexText w.program) := by
    rw [SyntheticUtxo.segwitScript, if_pos hany, hprogram]
    exact if_pos hlength
  have hscript : witnessScript w = [0x00, 0x14] ++ w.program := by
    rw [witnessScript, hversion, hlength]
    rfl
  rw [SyntheticUtxo.deriveScriptPubKey, hsegwit, hscript, hexText_append]
  rfl

theorem derivedScript_upper (C : Crypto) :
    derivedScript C (String.ofList ((Segwit.encode network.hrp w).map Char.toUpper))
      network.hrp = [] := by
  obtain ⟨c, _, hhrp, hc, -⟩ := toList_hrp network
  have hhead : (String.ofList ((Segwit.encode network.hrp w).map Char.toUpper)).toList.head? =
      some c.toUpper := by
    rw [String.toList_ofList, Segwit.encode, hhrp]
    rfl
  have hletters : c.toUpper ∉ ['1', 'm', 'n'] ∧ c.toUpper ∉ ['3', '2'] ∧ 'b' ≠ c.toUpper ∧
      't' ≠ c.toUpper := by
    simp only [List.mem_cons, List.not_mem_nil, or_false] at hc
    rcases hc with rfl | rfl
    · decide
    · decide
  have hnone : ∀ letters : List Char, c.toUpper ∉ letters → base58Bytes C letters
      (String.ofList ((Segwit.encode network.hrp w).map Char.toUpper)) = none := by
    intro letters hmem
    rw [base58Bytes, hhead, Option.filter_eq_none_iff]
    intro decoded _
    simp [hmem]
  rw [derivedScript, isSegwitText_network hhead hletters.2.2, if_neg (by decide),
    hnone _ hletters.1, hnone _ hletters.2.1]

end Witness

/-! ## The type of a script -/

theorem hexEncode_append (data data' : Bytes) :
    hexEncode (data ++ data') = hexEncode data ++ hexEncode data' :=
  List.flatMap_append

theorem classify_fst (hexStr : List Char) : (classifyScriptPubKeyHex hexStr).1 =
      if hexStr.isEmpty then "nonstandard"
      else if ['0', '0', '1', '4'].isPrefixOf hexStr && hexStr.length == 44 then
        "witness_v0_keyhash"
      else if ['0', '0', '2', '0'].isPrefixOf hexStr && hexStr.length == 68 then
        "witness_v0_scripthash"
      else if ['5', '1', '2', '0'].isPrefixOf hexStr && hexStr.length == 68 then
        "witness_v1_taproot"
      else if ['7', '6', 'a', '9', '1', '4'].isPrefixOf hexStr &&
          ['8', '8', 'a', 'c'].isSuffixOf hexStr && hexStr.length == 50 then "pubkeyhash"
      else if ['a', '9', '1', '4'].isPrefixOf hexStr && ['8', '7'].isSuffixOf hexStr &&
          hexStr.length == 46 then "scripthash"
      else if ['6', 'a'].isPrefixOf hexStr then "nulldata"
      else "nonstandard" := by
  unfold classifyScriptPubKeyHex
  simp only [apply_ite Prod.fst]
  rfl

theorem classify_scriptPubkey (a : BitcoinAddress) (ha : a.IsStandard) :
    (classifyScriptPubKeyHex (hexEncode a.scriptPubkey)).1 = a.scriptType := by
  cases a with
  | p2pkh hash =>
    have htext : hexEncode (p2pkhScript hash.bytes) =
        ['7', '6', 'a', '9', '1', '4'] ++ hexEncode hash.bytes ++ ['8', '8', 'a', 'c'] := by
      rw [p2pkhScript, hexEncode_append, hexEncode_append]
      rfl
    have hends : ['8', '8', 'a', 'c'].isSuffixOf (['7', '6', 'a', '9', '1', '4'] ++
        hexEncode hash.bytes ++ ['8', '8', 'a', 'c']) = true :=
      List.isSuffixOf_iff_suffix.mpr ⟨_, rfl⟩
    rw [BitcoinAddress.scriptPubkey, htext, classify_fst, hends]
    simp [length_hexEncode, hash.length_eq, BitcoinAddress.scriptType]
  | p2sh hash =>
    have htext : hexEncode (p2shScript hash.bytes) =
        ['a', '9', '1', '4'] ++ hexEncode hash.bytes ++ ['8', '7'] := by
      rw [p2shScript, hexEncode_append, hexEncode_append]
      rfl
    have hends : ['8', '7'].isSuffixOf (['a', '9', '1', '4'] ++ hexEncode hash.bytes ++
        ['8', '7']) = true := List.isSuffixOf_iff_suffix.mpr ⟨_, rfl⟩
    rw [BitcoinAddress.scriptPubkey, htext, classify_fst, hends]
    simp [length_hexEncode, hash.length_eq, BitcoinAddress.scriptType]
  | witness w =>
    rw [BitcoinAddress.scriptPubkey, classify_fst, BitcoinAddress.scriptType, witnessScript]
    rcases ha with hversion | ⟨hversion, hprogram⟩
    · rcases w.length_zero hversion with hprogram | hprogram
      · have htext : hexEncode (versionOpcode 0 :: UInt8.ofNat 20 :: w.program) =
            '0' :: '0' :: '1' :: '4' :: hexEncode w.program := rfl
        rw [hversion, hprogram, htext]
        simp [length_hexEncode, hprogram]
      · have htext : hexEncode (versionOpcode 0 :: UInt8.ofNat 32 :: w.program) =
            '0' :: '0' :: '2' :: '0' :: hexEncode w.program := rfl
        rw [hversion, hprogram, htext]
        simp [length_hexEncode, hprogram]
    · have htext : hexEncode (versionOpcode 1 :: UInt8.ofNat 32 :: w.program) =
          '5' :: '1' :: '2' :: '0' :: hexEncode w.program := rfl
      rw [hversion, hprogram, htext]
      simp [length_hexEncode, hprogram]

/-! ## The canonical scripts -/

/-- All places give the script of the address to its text, and its type to the script. -/
structure CanonicalScripts (C : Crypto) (network : BitInfinity.Network) (a : BitcoinAddress)
    (text : String) : Prop where
  derive : deriveScriptPubKeyHex C text network.hrp = hexText a.scriptPubkey
  synthetic : SyntheticUtxo.deriveScriptPubKey C text = hexText a.scriptPubkey
  classify : (classifyScriptPubKeyHex (hexEncode a.scriptPubkey)).1 = a.scriptType
  createpsbt : createpsbtScript C text = a.scriptPubkey

/-- Base58 addresses that `createpsbt` does not take for SegWit texts, and addresses of key
hashes of version zero in small letters. -/
def ScriptsAgree (C : Crypto) (network : BitInfinity.Network) (text : String) :
    BitcoinAddress → Prop
  | .p2pkh _ => isSegwitText (hrpGuess text) text = false
  | .p2sh _ => isSegwitText (hrpGuess text) text = false
  | .witness w => w.version = 0 ∧ w.program.length = 20 ∧
      text = (BitcoinAddress.witness w).textOn C network

/-- The text has a valid checksum of one of the formats. -/
def HasValidChecksum (C : Crypto) (text : String) : Prop :=
  AccountId.hasValidBase58checkAddress C text = true ∨
    ∃ network : BitInfinity.Network, ∃ w, Segwit.decode text.toList = some (network.hrp, w)

/-- The text has the first letters and the length that the handlers ask for. -/
def LooksLikeAddress (C : Crypto) (text bech32Hrp : String) : Prop :=
  if isSegwitText bech32Hrp text then
    (symbolValues (text.toList.drop (bech32Hrp.toList.length + 2))).length ∈ [38, 39, 58]
  else
    ∃ decoded, C.bs58Decode text = some decoded ∧ 25 ≤ decoded.length ∧
      text.toList.head?.any (· ∈ ['1', 'm', 'n', '3', '2']) = true

theorem derive_eq_empty_iff (C : Crypto) (text bech32Hrp : String) :
    deriveScriptPubKeyHex C text bech32Hrp = "" ↔ ¬ LooksLikeAddress C text bech32Hrp := by
  rw [deriveScriptPubKeyHex_eq, hexText_eq_empty, derivedScript, LooksLikeAddress]
  cases isSegwitText bech32Hrp text with
  | true =>
    rw [if_pos rfl, if_pos rfl, segwitBytes]
    split
    · next hcount => simp [hcount]
    · next hcount => simp [hcount]
  | false =>
    have hfirst : text.toList.head?.any (· ∈ ['1', 'm', 'n', '3', '2']) =
        (text.toList.head?.any (· ∈ ['1', 'm', 'n']) ||
          text.toList.head?.any (· ∈ ['3', '2'])) := by
      cases text.toList.head? with
      | none => rfl
      | some c => simp [Bool.or_assoc]
    cases hdecode : C.bs58Decode text with
    | none => simp [base58Bytes, hdecode]
    | some decoded =>
      simp only [base58Bytes, hdecode, Option.some.injEq, exists_eq_left', hfirst]
      cases text.toList.head?.any (· ∈ ['1', 'm', 'n']) <;>
        cases text.toList.head?.any (· ∈ ['3', '2']) <;>
        by_cases hlength : 25 ≤ decoded.length <;>
        simp [Option.filter, hlength, p2pkhScript, p2shScript]

section Canonical

variable {C : Crypto} {network : BitInfinity.Network} {text : String}

/-- The text is read as a key hash or as a script hash, whose script is that of the address. -/
inductive ReadsBase58 (C : Crypto) (text : String) (a : BitcoinAddress) : Prop
  | keyHash {decoded} (hkey : base58Bytes C ['1', 'm', 'n'] text = some decoded)
      (hscript : base58Bytes C ['3', '2'] text = none)
      (ha : a.scriptPubkey = p2pkhScript ((decoded.drop 1).take 20))
  | scriptHash {decoded} (hkey : base58Bytes C ['1', 'm', 'n'] text = none)
      (hscript : base58Bytes C ['3', '2'] text = some decoded)
      (ha : a.scriptPubkey = p2shScript ((decoded.drop 1).take 20))

/-- A base58 text is read right in every place but `createpsbt`, which guesses the human readable
part from the text. -/
theorem canonical_base58_iff {a : BitcoinAddress} (ha : a.IsStandard) {c : Char}
    (hhead : text.toList.head? = some c) (hc : 'b' ≠ c ∧ 't' ≠ c) (hreads : ReadsBase58 C text a) :
    CanonicalScripts C network a text ↔ isSegwitText (hrpGuess text) text = false := by
  have hderived : ∀ bech32Hrp, isSegwitText bech32Hrp text = false →
      derivedScript C text bech32Hrp = a.scriptPubkey := by
    intro bech32Hrp hother
    rw [derivedScript, hother, if_neg (by decide)]
    cases hreads with
    | keyHash hkey hscript hread | scriptHash hkey hscript hread => rw [hkey, hscript, hread]
  have hsynthetic : SyntheticUtxo.deriveScriptPubKey C text = hexText a.scriptPubkey := by
    rw [SyntheticUtxo.deriveScriptPubKey, segwitScript_of_head hhead (by simp [hc]),
      segwitScript_of_head hhead (by simp [hc]), base58ScriptHex_eq, base58ScriptHex_eq]
    cases hreads with
    | keyHash hkey hscript hread =>
      rw [hkey, hscript, hread]
      exact p2pkh_hex _
    | scriptHash hkey hscript hread =>
      rw [hscript, hread]
      exact p2sh_hex _
  constructor
  · intro h
    rcases head_derivedScript C text (hrpGuess text) with ⟨-, hcases⟩ | ⟨hother, -⟩
    · rw [← createpsbtScript_eq, h.createpsbt] at hcases
      cases hreads with
      | keyHash hkey hscript hread | scriptHash hkey hscript hread =>
        rw [hread] at hcases
        exact absurd hcases (by simp [p2pkhScript, p2shScript])
    · exact hother
  · intro hother
    refine ⟨?_, hsynthetic, classify_scriptPubkey a ha, ?_⟩
    · rw [deriveScriptPubKeyHex_eq, hderived _ (isSegwitText_network hhead hc)]
    · rw [createpsbtScript_eq, hderived _ hother]

theorem canonical_p2pkh_iff (hC : StandardEncodings C) (hash : Hash160) :
    CanonicalScripts C network (.p2pkh hash) ((BitcoinAddress.p2pkh hash).textOn C network) ↔
      isSegwitText (hrpGuess ((BitcoinAddress.p2pkh hash).textOn C network))
        ((BitcoinAddress.p2pkh hash).textOn C network) = false := by
  have hfirst := head_p2pkh hC network hash
  obtain ⟨hscript, _, hkey, hpayload⟩ :=
    @base58Bytes_of_head C hC hash _ ['3', '2'] _ (by simp) hfirst
  obtain ⟨c, hc, hhead⟩ := hfirst
  have hletters : ∀ c ∈ ['1', 'm', 'n'], 'b' ≠ c ∧ 't' ≠ c := by simp
  exact canonical_base58_iff trivial hhead (hletters c hc)
    (.keyHash hkey hscript (congrArg p2pkhScript hpayload.symm))

theorem canonical_p2sh_iff (hC : StandardEncodings C) (hash : Hash160) :
    CanonicalScripts C network (.p2sh hash) ((BitcoinAddress.p2sh hash).textOn C network) ↔
      isSegwitText (hrpGuess ((BitcoinAddress.p2sh hash).textOn C network))
        ((BitcoinAddress.p2sh hash).textOn C network) = false := by
  have hfirst := head_p2sh hC network hash
  obtain ⟨hkey, _, hscript, hpayload⟩ :=
    @base58Bytes_of_head C hC hash _ ['1', 'm', 'n'] _ (by simp) hfirst
  obtain ⟨c, hc, hhead⟩ := hfirst
  have hletters : ∀ c ∈ ['3', '2'], 'b' ≠ c ∧ 't' ≠ c := by simp
  exact canonical_base58_iff trivial hhead (hletters c hc)
    (.scriptHash hkey hscript (congrArg p2shScript hpayload.symm))

theorem canonical_witness_iff {w : Segwit.WitnessProgram}
    (hw : (BitcoinAddress.witness w).IsStandard)
    (htext : text ∈ (BitcoinAddress.witness w).texts C network) :
    CanonicalScripts C network (.witness w) text ↔ w.version = 0 ∧ w.program.length = 20 ∧
        text = (BitcoinAddress.witness w).textOn C network := by
  constructor
  · intro h
    have hderive := h.derive
    rw [deriveScriptPubKeyHex_eq, hexText_inj, BitcoinAddress.scriptPubkey] at hderive
    have hversion : w.version = 0 := by
      rcases hw with hversion | ⟨hversion, -⟩
      · exact hversion
      · -- the handlers write the version itself, not the opcode that pushes it
        have hhead : (derivedScript C text network.hrp).head? = some 0x51 := by
          rw [hderive, witnessScript, hversion]
          rfl
        rcases head_derivedScript C text network.hrp with ⟨-, hcases⟩ | ⟨-, hcases⟩
        · rw [hhead] at hcases
          exact absurd hcases (by decide)
        · rw [hhead] at hcases
          exact absurd hcases (by decide)
    have hprogram : w.program.length = 20 := by
      rcases w.length_zero hversion with hlength | hlength
      · exact hlength
      · obtain ⟨_, hscript, htake⟩ := take_synthetic C text
        rw [h.synthetic, hexText_inj] at hscript
        rw [← hscript, BitcoinAddress.scriptPubkey, witnessScript, hversion, hlength] at htake
        have hopening : [0x00, 0x20] ∈
            [[0x00, 0x14], [0x51, 0x20], [0xa9, 0x14], ([0x76, 0xa9] : Bytes)] := htake
        exact absurd hopening (by decide)
    refine ⟨hversion, hprogram, ?_⟩
    rcases List.mem_cons.mp htext with hlower | hupper
    · exact hlower
    · rw [List.mem_singleton.mp hupper, derivedScript_upper] at hderive
      cases hderive
  · rintro ⟨hversion, hprogram, rfl⟩
    obtain ⟨c, _, hhrp, -, hone⟩ := toList_hrp network
    refine ⟨?_, synthetic_witness network w C hversion hprogram, classify_scriptPubkey _ hw, ?_⟩
    · rw [deriveScriptPubKeyHex_eq]
      exact congrArg hexText (derivedScript_witness w hversion (.inl hprogram) C)
    · have hguess := hrpGuess_encode network.hrp (by rw [hhrp]; exact List.cons_ne_nil _ _) hone
      rw [createpsbtScript_eq, BitcoinAddress.textOn, Segwit.encode, hguess]
      exact derivedScript_witness w hversion (.inl hprogram) C

end Canonical

/-- The scripts of a standard address are canonical in all places for the base58 addresses that
are not taken for SegWit texts and for P2WPKH only; a text without a valid checksum has no script
only when it does not look like an address. -/
theorem canonical_scripts_iff {C : Crypto} (hC : StandardEncodings C) :
    (∀ network (a : BitcoinAddress) text, a.IsStandard → text ∈ a.texts C network →
      (CanonicalScripts C network a text ↔ ScriptsAgree C network text a)) ∧
    ∀ text bech32Hrp, (¬ HasValidChecksum C text → deriveScriptPubKeyHex C text bech32Hrp = "") ↔
        (HasValidChecksum C text ∨ ¬ LooksLikeAddress C text bech32Hrp) := by
  constructor
  · intro network a text ha htext
    cases a with
    | p2pkh hash =>
      rw [List.mem_singleton.mp htext]
      exact canonical_p2pkh_iff hC hash
    | p2sh hash =>
      rw [List.mem_singleton.mp htext]
      exact canonical_p2sh_iff hC hash
    | witness w => exact canonical_witness_iff ha htext
  · intro text bech32Hrp
    rw [derive_eq_empty_iff]
    exact or_iff_not_imp_left.symm

def zerosProgram (version : UInt8) (h : version.toNat ≤ 16) : Segwit.WitnessProgram where
  version := version
  program := List.replicate 32 0
  version_le := h
  two_le_length := by decide
  length_le := by decide
  length_zero _ := .inr rfl

/-- The script of a P2TR address starts with the version in place of its opcode, that of a P2WSH
address is one of a key hash where outputs are synthetic, `createpsbt` finds no script for a base58
address that it takes for a SegWit text, and a text with a wrong checksum has a script. -/
theorem scripts_not_canonical : deriveScriptPubKeyHex .standard
        ((BitcoinAddress.witness (zerosProgram 1 (by decide))).textOn .standard .bitcoin) "bc" =
          hexText (0x01 :: 0x20 :: List.replicate 32 0) ∧
      hexText (0x01 :: 0x20 :: List.replicate 32 0) ≠
        hexText (BitcoinAddress.witness (zerosProgram 1 (by decide))).scriptPubkey ∧
      SyntheticUtxo.deriveScriptPubKey .standard
        ((BitcoinAddress.witness (zerosProgram 0 (by decide))).textOn .standard .bitcoin) ≠
          hexText (BitcoinAddress.witness (zerosProgram 0 (by decide))).scriptPubkey ∧
      deriveScriptPubKeyHex .standard "mfWxJ45yp2SFn7UciZyNpvDKrzbn1pKNid" "tb" =
        hexText (BitcoinAddress.p2pkh ⟨List.replicate 19 0 ++ [0x24], rfl⟩).scriptPubkey ∧
      createpsbtScript .standard "mfWxJ45yp2SFn7UciZyNpvDKrzbn1pKNid" = [] ∧
      ¬ HasValidChecksum .standard (String.ofList ("bc1q".toList ++ List.replicate 38 'q')) ∧
      deriveScriptPubKeyHex .standard
        (String.ofList ("bc1q".toList ++ List.replicate 38 'q')) "bc" =
          hexText (0x00 :: 0x14 :: List.replicate 20 0) := by
  refine ⟨by decide +kernel, by decide +kernel, by decide +kernel, by decide +kernel,
    by decide +kernel, ?_, by decide +kernel⟩
  have hbase58 : AccountId.hasValidBase58checkAddress .standard
      (String.ofList ("bc1q".toList ++ List.replicate 38 'q')) = false := by decide +kernel
  have hsegwit : Segwit.decode (String.ofList ("bc1q".toList ++ List.replicate 38 'q')).toList =
      none := by decide +kernel
  rintro (h | ⟨network, w, h⟩)
  · cases h
  · rw [hsegwit] at h
    cases h

def zerosKeyHash : Segwit.WitnessProgram where
  version := 0
  program := List.replicate 20 0
  version_le := by decide
  two_le_length := by decide
  length_le := by decide
  length_zero _ := .inl rfl

theorem canonical_scripts_zeros : CanonicalScripts .standard .bitcoin (.witness zerosKeyHash)
      ((BitcoinAddress.witness zerosKeyHash).textOn .standard .bitcoin) :=
  ((canonical_scripts_iff standardEncodings_standard).1 .bitcoin (.witness zerosKeyHash) _
    (.inl rfl) List.mem_cons_self).mpr ⟨rfl, rfl, rfl⟩

end BitInfinity.Proxy
