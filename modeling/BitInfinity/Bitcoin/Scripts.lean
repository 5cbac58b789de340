import BitInfinity.Bitcoin.AccountTypes

/-!
# Scripts and the texts that denote them

A strictly validated account id denotes a script on a network.  Two texts denote the same script
exactly when they are the lower and the upper case of one SegWit address: the base58 check admits
one text for each script, and the bech32 crate folds the case.
-/

namespace BitInfinity

open Foundation

/-! ## Scripts -/

abbrev Script := Bytes

def p2pkhScript (hash : Bytes) : Script := [0x76, 0xa9, 0x14] ++ hash ++ [0x88, 0xac]

def p2shScript (hash : Bytes) : Script := [0xa9, 0x14] ++ hash ++ [0x87]

def versionOpcode (version : UInt8) : UInt8 := if version = 0 then 0 else 0x50 + version

def witnessScript (w : Segwit.WitnessProgram) : Script :=
  versionOpcode w.version :: UInt8.ofNat w.program.length :: w.program

theorem versionOpcode_cases {version : UInt8} (h : version.toNat ≤ 16) :
    (versionOpcode version).toNat = if version.toNat = 0 then 0 else 0x50 + version.toNat := by
  have hall : ∀ n < 17, (versionOpcode (UInt8.ofNat n)).toNat =
      if (UInt8.ofNat n).toNat = 0 then 0 else 0x50 + (UInt8.ofNat n).toNat := by decide
  have hversion := hall version.toNat (by omega)
  rwa [UInt8.ofNat_toNat] at hversion

theorem witnessScript_inj {w w' : Segwit.WitnessProgram} (h : witnessScript w = witnessScript w') :
    w = w' := by
  simp only [witnessScript, List.cons.injEq] at h
  have hopcode := congrArg UInt8.toNat h.1
  rw [versionOpcode_cases w.version_le, versionOpcode_cases w'.version_le] at hopcode
  refine Segwit.WitnessProgram.ext (UInt8.toNat_inj.mp ?_) h.2.2
  split at hopcode <;> split at hopcode <;> omega

theorem witnessScript_ne_base58 (w : Segwit.WitnessProgram) (hash : Bytes) :
    witnessScript w ≠ p2pkhScript hash ∧ witnessScript w ≠ p2shScript hash := by
  have hopcode := versionOpcode_cases w.version_le
  have hversion := w.version_le
  constructor
  · intro h
    have hhead := congrArg UInt8.toNat (List.cons.inj h).1
    rw [hopcode] at hhead
    change _ = 118 at hhead
    split at hhead <;> omega
  · intro h
    have hhead := congrArg UInt8.toNat (List.cons.inj h).1
    rw [hopcode] at hhead
    change _ = 169 at hhead
    split at hhead <;> omega

theorem p2pkhScript_ne_p2shScript (hash hash' : Bytes) : p2pkhScript hash ≠ p2shScript hash' := by
  intro h
  exact absurd (List.cons.inj h).1 (by decide)

theorem p2pkhScript_inj {hash hash' : Bytes} (h : p2pkhScript hash = p2pkhScript hash') :
    hash = hash' :=
  List.append_cancel_left (List.append_cancel_right h)

theorem p2shScript_inj {hash hash' : Bytes} (h : p2shScript hash = p2shScript hash') :
    hash = hash' :=
  List.append_cancel_left (List.append_cancel_right h)

/-! ## Networks -/

inductive Network
  | bitcoin
  | testnet
  | regtest
  deriving DecidableEq, Repr

namespace Network

def hrp : Network → String
  | bitcoin => "bc"
  | testnet => "tb"
  | regtest => "bcrt"

def pubkeyHashVersion : Network → UInt8
  | bitcoin => 0x00
  | testnet => 0x6f
  | regtest => 0x6f

def scriptHashVersion : Network → UInt8
  | bitcoin => 0x05
  | testnet => 0xc4
  | regtest => 0xc4

end Network

/-! ## Texts that denote a script -/

/-- The text denotes the script on the network. -/
inductive Denotes (C : Crypto) (network : Network) (id : AccountId) : Script → Prop
  | pubkeyHash {decoded} (hvalid : AccountId.hasValidBase58checkAddress C id = true)
      (hdecode : C.bs58Decode id = some decoded)
      (hversion : decoded.head? = some network.pubkeyHashVersion) :
      Denotes C network id (p2pkhScript ((decoded.take 21).drop 1))
  | scriptHash {decoded} (hvalid : AccountId.hasValidBase58checkAddress C id = true)
      (hdecode : C.bs58Decode id = some decoded)
      (hversion : decoded.head? = some network.scriptHashVersion) :
      Denotes C network id (p2shScript ((decoded.take 21).drop 1))
  | witness {w} (hvalid : AccountId.hasValidSegwitAddress C id = true)
      (hdecode : Segwit.decode id.toList = some (network.hrp, w)) :
      Denotes C network id (witnessScript w)

theorem strict_iff_denotes {C : Crypto} (hC : FollowsBip350 C) (id : AccountId) :
    (AccountId.hasValidBase58checkAddress C id || AccountId.hasValidSegwitAddress C id) = true ↔
      ∃ network script, Denotes C network id script := by
  rw [Bool.or_eq_true]
  constructor
  · rintro (hbase58 | hsegwit)
    · obtain ⟨_, _, hdecode, hversion, -⟩ := AccountId.decoded_of_base58check hbase58
      simp only [List.mem_cons, List.not_mem_nil, or_false] at hversion
      rcases hversion with rfl | rfl | rfl | rfl
      · exact ⟨.bitcoin, _, .pubkeyHash hbase58 hdecode rfl⟩
      · exact ⟨.bitcoin, _, .scriptHash hbase58 hdecode rfl⟩
      · exact ⟨.testnet, _, .pubkeyHash hbase58 hdecode rfl⟩
      · exact ⟨.testnet, _, .scriptHash hbase58 hdecode rfl⟩
    · obtain ⟨_, w, hhrp, hdecode⟩ := (hasValidSegwitAddress_iff hC).mp hsegwit
      simp only [List.mem_cons, List.not_mem_nil, or_false] at hhrp
      rcases hhrp with rfl | rfl | rfl
      · exact ⟨.bitcoin, _, .witness hsegwit hdecode⟩
      · exact ⟨.testnet, _, .witness hsegwit hdecode⟩
      · exact ⟨.regtest, _, .witness hsegwit hdecode⟩
  · rintro ⟨network, script, hdenotes⟩
    cases hdenotes with
    | pubkeyHash hvalid | scriptHash hvalid => exact .inl hvalid
    | witness hvalid _ => exact .inr hvalid

/-! ## Addresses of scripts -/

structure Hash160 where
  bytes : Bytes
  length_eq : bytes.length = 20
  deriving DecidableEq, Repr

inductive BitcoinAddress
  | p2pkh (hash : Hash160)
  | p2sh (hash : Hash160)
  | witness (w : Segwit.WitnessProgram)
  deriving DecidableEq, Repr

def isP2pkh (script : Script) : Bool :=
  script.length == 25 && script.take 3 == [0x76, 0xa9, 0x14] && script.drop 23 == [0x88, 0xac]

def isP2sh (script : Script) : Bool :=
  script.length == 23 && script.take 2 == [0xa9, 0x14] && script.drop 22 == [0x87]

def opcodeVersion (opcode : UInt8) : Option UInt8 :=
  if opcode = 0 then some 0
  else if 0x51 ≤ opcode ∧ opcode ≤ 0x60 then some (opcode - 0x50)
  else none

namespace BitcoinAddress

def scriptPubkey : BitcoinAddress → Script
  | p2pkh hash => p2pkhScript hash.bytes
  | p2sh hash => p2shScript hash.bytes
  | witness w => witnessScript w

def toText (C : Crypto) : BitcoinAddress → String
  | p2pkh hash => base58checkEncode C 0x00 hash.bytes
  | p2sh hash => base58checkEncode C 0x05 hash.bytes
  | witness w => String.ofList (Segwit.encode "bc" w)

def fromScript (script : Script) : Option BitcoinAddress :=
  if h : isP2pkh script = true then
    some (.p2pkh ⟨(script.drop 3).take 20, by
      simp only [isP2pkh, Bool.and_eq_true, beq_iff_eq] at h
      rw [List.length_take, List.length_drop]
      omega⟩)
  else if h : isP2sh script = true then
    some (.p2sh ⟨(script.drop 2).take 20, by
      simp only [isP2sh, Bool.and_eq_true, beq_iff_eq] at h
      rw [List.length_take, List.length_drop]
      omega⟩)
  else
    match script with
    | opcode :: push :: program =>
      if push.toNat = program.length then
        (opcodeVersion opcode).bind fun version =>
          (Segwit.WitnessProgram.new version program).map .witness
      else none
    | _ => none

end BitcoinAddress

theorem eq_p2pkhScript {script : Script} (h : isP2pkh script = true) :
    script = p2pkhScript ((script.drop 3).take 20) := by
  simp only [isP2pkh, Bool.and_eq_true, beq_iff_eq] at h
  rw [p2pkhScript, ← h.1.2, ← h.2, List.append_assoc, ← List.drop_drop (i := 20) (j := 3),
    List.take_append_drop, List.take_append_drop]

theorem eq_p2shScript {script : Script} (h : isP2sh script = true) :
    script = p2shScript ((script.drop 2).take 20) := by
  simp only [isP2sh, Bool.and_eq_true, beq_iff_eq] at h
  rw [p2shScript, ← h.1.2, ← h.2, List.append_assoc, ← List.drop_drop (i := 20) (j := 2),
    List.take_append_drop, List.take_append_drop]

theorem opcodeVersion_eq_some {opcode version : UInt8} :
    opcodeVersion opcode = some version ↔ version.toNat ≤ 16 ∧ opcode = versionOpcode version := by
  constructor
  · intro h
    have hall : ∀ n < 256, (opcodeVersion (UInt8.ofNat n)).all (fun version =>
        version.toNat ≤ 16 && UInt8.ofNat n == versionOpcode version) = true := by
      decide +kernel
    have hopcode := hall opcode.toNat opcode.toNat_lt
    rw [UInt8.ofNat_toNat, h] at hopcode
    simpa using hopcode
  · rintro ⟨_, rfl⟩
    have hall : ∀ n < 17, opcodeVersion (versionOpcode (UInt8.ofNat n)) = some (UInt8.ofNat n) := by
      decide
    have h := hall version.toNat (by omega)
    rwa [UInt8.ofNat_toNat] at h

namespace BitcoinAddress

theorem scriptPubkey_of_fromScript {script : Script} {a : BitcoinAddress}
    (h : fromScript script = some a) : a.scriptPubkey = script := by
  unfold fromScript at h
  split at h
  · rename_i hp2pkh
    obtain rfl := Option.some.inj h
    exact (eq_p2pkhScript hp2pkh).symm
  · split at h
    · rename_i hp2sh
      obtain rfl := Option.some.inj h
      exact (eq_p2shScript hp2sh).symm
    · split at h
      · split at h
        · rename_i hpush
          obtain ⟨_, hversion, h⟩ := Option.bind_eq_some_iff.mp h
          obtain ⟨w, hnew, rfl⟩ := Option.map_eq_some_iff.mp h
          obtain ⟨rfl, rfl⟩ := Segwit.WitnessProgram.new_eq_some.mp hnew
          rw [scriptPubkey, witnessScript, ← hpush, UInt8.ofNat_toNat,
            (opcodeVersion_eq_some.mp hversion).2]
        · cases h
      · cases h

theorem fromScript_scriptPubkey (a : BitcoinAddress) : fromScript a.scriptPubkey = some a := by
  cases a with
  | p2pkh hash =>
    obtain ⟨bytes, hlength⟩ := hash
    have hp2pkh : isP2pkh (p2pkhScript bytes) = true := by
      simp [isP2pkh, p2pkhScript, hlength]
    rw [scriptPubkey, fromScript, dif_pos hp2pkh]
    simp [p2pkhScript, hlength]
  | p2sh hash =>
    obtain ⟨bytes, hlength⟩ := hash
    have hp2pkh : ¬ isP2pkh (p2shScript bytes) = true := fun h =>
      p2pkhScript_ne_p2shScript _ _ (eq_p2pkhScript h).symm
    have hp2sh : isP2sh (p2shScript bytes) = true := by
      simp [isP2sh, p2shScript, hlength]
    rw [scriptPubkey, fromScript, dif_neg hp2pkh, dif_pos hp2sh]
    simp [p2shScript, hlength]
  | witness w =>
    have hp2pkh : ¬ isP2pkh (witnessScript w) = true := fun h =>
      (witnessScript_ne_base58 w _).1 (eq_p2pkhScript h)
    have hp2sh : ¬ isP2sh (witnessScript w) = true := fun h =>
      (witnessScript_ne_base58 w _).2 (eq_p2shScript h)
    have hlength := w.length_le
    have hpush : (UInt8.ofNat w.program.length).toNat = w.program.length := by
      exact Nat.mod_eq_of_lt (by omega)
    rw [scriptPubkey, fromScript, dif_neg hp2pkh, dif_neg hp2sh]
    change (if (UInt8.ofNat w.program.length).toNat = w.program.length then _ else _) = _
    rw [if_pos hpush, opcodeVersion_eq_some.mpr ⟨w.version_le, rfl⟩, Option.bind_some,
      Segwit.WitnessProgram.new_eq_some.mpr ⟨rfl, rfl⟩, Option.map_some]

end BitcoinAddress

/-! ## The text of an address -/

theorem length_encode (hrp : String) (w : Segwit.WitnessProgram) :
    (Segwit.encode hrp w).length = hrp.toList.length + 8 + (8 * w.program.length + 4) / 5 := by
  obtain ⟨-, _, _, hbits⟩ := @Bech32.convertBits_bits w.program 0 0 (by omega)
  have hgroups := congrArg List.length hbits
  simp only [List.length_append, length_symbolBits, List.length_replicate, length_bitsOf] at hgroups
  simp only [Segwit.encode, Segwit.symbols, List.length_append, List.length_cons, List.length_map,
    Segwit.length_checksum]
  omega

theorem decode_encode_bc (w : Segwit.WitnessProgram) :
    Segwit.decode (Segwit.encode "bc" w) = some ("bc", w) := by
  have hlower := isLowerAlphanumeric_encode (by simp : "bc" ∈ ["bc", "tb", "bcrt"]) w
  have hupper : (Segwit.encode "bc" w).any Char.isUpper = false := by
    rw [List.any_eq_false]
    intro c hc
    rw [(AccountId.isLowerAlphanumeric_iff.mp (hlower c hc)).2]
    decide
  have hlength := length_encode "bc" w
  have hprogram := w.length_le
  have hhrp : "bc".toList.length = 2 := by decide
  refine Segwit.decode_eq_some.mpr ⟨by omega, ?_, by decide, ?_⟩
  · rw [Segwit.isMixedCase, hupper, Bool.false_and]
  · exact AccountId.map_toLower_of_lower hlower

section Texts

variable {C : Crypto} (hC : StandardEncodings C)
include hC

theorem length_scriptHash_bounds {payload : Bytes} (hpayload : payload.length = 20) :
    26 ≤ (Base58.encode (checkedPayload C 0x05 payload)).length ∧
      (Base58.encode (checkedPayload C 0x05 payload)).length ≤ 35 :=
  Base58.length_encode_bounds_of_nonzero (length_checkedPayload hC 0x05 hpayload)
    (by simp [Base58.leadingZeros, checkedPayload])

theorem denotes_toText (hbip : FollowsBip350 C) (a : BitcoinAddress) :
    Denotes C .bitcoin (a.toText C) a.scriptPubkey := by
  have hpayload : ∀ (version : UInt8) (hash : Hash160),
      (((checkedPayload C version hash.bytes).take 21).drop 1) = hash.bytes := by
    intro version hash
    rw [checkedPayload, List.take_left' (by simp [hash.length_eq])]
    rfl
  have hdecode : ∀ (version : UInt8) (hash : Hash160),
      C.bs58Decode (base58checkEncode C version hash.bytes) =
        some (checkedPayload C version hash.bytes) := fun version hash =>
    hC.bs58Decode_encode _ (length_checkedPayload hC version hash.length_eq)
  cases a with
  | p2pkh hash =>
    obtain ⟨hmin, hmax⟩ := length_base58_bounds hC hash.length_eq
    have hvalid := hasValidBase58check_of_version hC (by simp) hash.length_eq hmin (by omega)
    have h := @Denotes.pubkeyHash C .bitcoin _ _ hvalid (hdecode 0x00 hash) rfl
    rwa [hpayload] at h
  | p2sh hash =>
    obtain ⟨hmin, hmax⟩ := length_scriptHash_bounds hC hash.length_eq
    have hvalid := hasValidBase58check_of_version hC (by simp) hash.length_eq hmin hmax
    have h := @Denotes.scriptHash C .bitcoin _ _ hvalid (hdecode 0x05 hash) rfl
    rwa [hpayload] at h
  | witness w =>
    have hdecode : Segwit.decode (BitcoinAddress.toText C (.witness w)).toList =
        some ("bc", w) := by
      rw [BitcoinAddress.toText, String.toList_ofList, decode_encode_bc]
    exact .witness ((hasValidSegwitAddress_iff hbip).mpr ⟨_, w, by simp, hdecode⟩) hdecode

theorem utf8ByteSize_toText (a : BitcoinAddress) :
    26 ≤ (a.toText C).utf8ByteSize ∧ (a.toText C).utf8ByteSize ≤ 35 ∧ a.scriptPubkey.length ≤ 35 ∨
      (a.toText C).utf8ByteSize = 10 + (8 * (a.scriptPubkey.length - 2) + 4) / 5 := by
  cases a with
  | p2pkh hash =>
    obtain ⟨hmin, hmax⟩ := length_base58_bounds hC hash.length_eq
    rw [BitcoinAddress.toText, utf8ByteSize_base58check hC _ hash.length_eq]
    simp only [BitcoinAddress.scriptPubkey, p2pkhScript, List.length_append, hash.length_eq,
      List.length_cons, List.length_nil]
    omega
  | p2sh hash =>
    obtain ⟨hmin, hmax⟩ := length_scriptHash_bounds hC hash.length_eq
    rw [BitcoinAddress.toText, utf8ByteSize_base58check hC _ hash.length_eq]
    simp only [BitcoinAddress.scriptPubkey, p2shScript, List.length_append, hash.length_eq,
      List.length_cons, List.length_nil]
    omega
  | witness w =>
    have hlower := isLowerAlphanumeric_encode (by simp : "bc" ∈ ["bc", "tb", "bcrt"]) w
    have hhrp : "bc".toList.length = 2 := by decide
    right
    rw [BitcoinAddress.toText, utf8ByteSize_ofList_of_ascii fun c hc =>
      isLowerAlphanumeric_ascii (hlower c hc), length_encode, hhrp]
    rfl

theorem address_text_legal_iff (hbip : FollowsBip350 C) (a : BitcoinAddress) :
    AccountId.validate C (a.toText C) = .ok () ∧
        AccountId.getAccountType C (a.toText C) = .btcImplicitAccount ↔
      a.scriptPubkey.length ≤ 35 := by
  have hstrict := (strict_iff_denotes hbip _).mpr ⟨_, _, denotes_toText hC hbip a⟩
  have hbitcoin : AccountId.isBitcoinImplicit C (a.toText C) = true := by
    rw [AccountId.isBitcoinImplicit, hstrict, Bool.true_or]
  have htype : AccountId.getAccountType C (a.toText C) = .btcImplicitAccount := by
    rw [AccountId.getAccountType, if_pos hbitcoin]
  rw [AccountId.validate_eq_ok]
  simp only [hbitcoin, htype, true_or, and_true]
  rcases utf8ByteSize_toText hC a with ⟨_, _, _⟩ | hsize
  · omega
  · omega

end Texts

/-! ## One script, one account -/

def BechSpelling (network : Network) (id : AccountId) : Prop :=
  ∃ w, Segwit.decode id.toList = some (network.hrp, w)

section OneAccount

variable {C : Crypto} {network : Network} {s t : AccountId}

variable {w : Segwit.WitnessProgram}

theorem eq_of_base58
    (hbs58 : ∀ s t data, C.bs58Decode s = some data → C.bs58Decode t = some data → s = t)
    {decoded decoded' : Bytes} (hs : AccountId.hasValidBase58checkAddress C s = true)
    (ht : AccountId.hasValidBase58checkAddress C t = true) (hdecode : C.bs58Decode s = some decoded)
    (hdecode' : C.bs58Decode t = some decoded') (hversion : decoded.head? = decoded'.head?)
    (hhash : (decoded.take 21).drop 1 = (decoded'.take 21).drop 1) : s = t := by
  obtain ⟨v, rest, hv, -, hsum⟩ := AccountId.decoded_of_base58check hs
  obtain ⟨v', rest', hv', -, hsum'⟩ := AccountId.decoded_of_base58check ht
  obtain rfl := Option.some.inj (hdecode.symm.trans hv)
  obtain rfl := Option.some.inj (hdecode'.symm.trans hv')
  obtain rfl : v = v' := by simpa using hversion
  have hpayload : (v :: rest).take 21 = (v :: rest').take 21 := by
    simpa using hhash
  have hdecoded : v :: rest = v :: rest' := by
    rw [← List.take_append_drop 21 (v :: rest), ← List.take_append_drop 21 (v :: rest'), hsum,
      hsum', hpayload]
  exact hbs58 s t _ hv (hdecoded ▸ hv')

theorem witness_of_denotes (h : Denotes C network s (witnessScript w)) :
    Segwit.decode s.toList = some (network.hrp, w) := by
  generalize hscript : witnessScript w = script at h
  cases h with
  | pubkeyHash => exact absurd hscript (witnessScript_ne_base58 w _).1
  | scriptHash => exact absurd hscript (witnessScript_ne_base58 w _).2
  | witness _ hdecode => rwa [witnessScript_inj hscript]

theorem toLowercase_eq_of_decode (hs : Segwit.decode s.toList = some (network.hrp, w))
    (ht : Segwit.decode t.toList = some (network.hrp, w)) : toLowercase s = toLowercase t := by
  rw [toLowercase, toLowercase, (Segwit.decode_eq_some.mp hs).2.2.2,
    (Segwit.decode_eq_some.mp ht).2.2.2]

theorem decode_of_toLowercase (hs : Segwit.decode s.toList = some (network.hrp, w))
    (ht : BechSpelling network t) (hlower : toLowercase s = toLowercase t) :
    Segwit.decode t.toList = some (network.hrp, w) := by
  obtain ⟨_, ht⟩ := ht
  obtain ⟨hlength, hcase, hhrp, -⟩ := Segwit.decode_eq_some.mp ht
  have hfold : s.toList.map Char.toLower = t.toList.map Char.toLower := by
    have h := congrArg String.toList hlower
    rwa [toLowercase, toLowercase, String.toList_ofList, String.toList_ofList] at h
  refine Segwit.decode_eq_some.mpr ⟨hlength, hcase, hhrp, ?_⟩
  rw [← hfold, (Segwit.decode_eq_some.mp hs).2.2.2]

/-- Two different texts denote different scripts on a network unless they are two spellings of
one SegWit address. -/
theorem one_script_one_account_iff (hC : FollowsBip350 C)
    (hbs58 : ∀ s t data, C.bs58Decode s = some data → C.bs58Decode t = some data → s = t)
    (network : Network) (hne : s ≠ t) :
    (∀ script script', Denotes C network s script → Denotes C network t script' →
        script ≠ script') ↔
      ¬ (BechSpelling network s ∧ BechSpelling network t ∧ toLowercase s = toLowercase t) := by
  have hhrp : network.hrp ∈ ["bc", "tb", "bcrt"] := by cases network <;> decide
  constructor
  · rintro hdifferent ⟨⟨w, hs⟩, ht, hlower⟩
    have ht' := decode_of_toLowercase hs ht hlower
    exact hdifferent _ _ (.witness ((hasValidSegwitAddress_iff hC).mpr ⟨_, w, hhrp, hs⟩) hs)
      (.witness ((hasValidSegwitAddress_iff hC).mpr ⟨_, w, hhrp, ht'⟩) ht') rfl
  · rintro hspelling script script' hs ht rfl
    cases hs with
    | pubkeyHash hvalid hdecode hversion =>
      generalize hscript : p2pkhScript _ = script at ht
      cases ht with
      | pubkeyHash hvalid' hdecode' hversion' =>
        exact hne (eq_of_base58 hbs58 hvalid hvalid' hdecode hdecode'
          (hversion.trans hversion'.symm) (p2pkhScript_inj hscript))
      | scriptHash => exact p2pkhScript_ne_p2shScript _ _ hscript
      | witness => exact (witnessScript_ne_base58 _ _).1 hscript.symm
    | scriptHash hvalid hdecode hversion =>
      generalize hscript : p2shScript _ = script at ht
      cases ht with
      | pubkeyHash => exact p2pkhScript_ne_p2shScript _ _ hscript.symm
      | scriptHash hvalid' hdecode' hversion' =>
        exact hne (eq_of_base58 hbs58 hvalid hvalid' hdecode hdecode'
          (hversion.trans hversion'.symm) (p2shScript_inj hscript))
      | witness => exact (witnessScript_ne_base58 _ _).2 hscript.symm
    | witness _ hdecode =>
      have hdecode' := witness_of_denotes ht
      exact hspelling ⟨⟨_, hdecode⟩, ⟨_, hdecode'⟩, toLowercase_eq_of_decode hdecode hdecode'⟩

end OneAccount

theorem bs58Decode_bip350_inj (s t : String) (data : Bytes)
    (hs : Crypto.bip350.bs58Decode s = some data) (ht : Crypto.bip350.bs58Decode t = some data) :
    s = t := by
  have hcanonical : ∀ text : String, Crypto.bip350.bs58Decode text = some data →
      Base58.encode data = text.toList := by
    intro text htext
    simp only [Crypto.bip350, Option.ite_none_right_eq_some, Option.some.injEq] at htext
    rw [← htext.2, htext.1]
  exact String.toList_inj.mp ((hcanonical s hs).symm.trans (hcanonical t ht))

/-- Two SegWit addresses of different programs. -/
theorem one_script_one_account_sample :
    toLowercase "bc1qw508d6qejxtdg4y5r3zarvary0c5xw7kv8f3t4" ≠ toLowercase "bc1pfeessrawgf" ∧
      ∀ script script',
        Denotes .bip350 .bitcoin "bc1qw508d6qejxtdg4y5r3zarvary0c5xw7kv8f3t4" script →
        Denotes .bip350 .bitcoin "bc1pfeessrawgf" script' → script ≠ script' := by
  have hlower : toLowercase "bc1qw508d6qejxtdg4y5r3zarvary0c5xw7kv8f3t4" ≠
      toLowercase "bc1pfeessrawgf" := by decide +kernel
  exact ⟨hlower, (one_script_one_account_iff followsBip350_bip350 bs58Decode_bip350_inj .bitcoin
    (by decide)).mpr fun h => hlower h.2.2⟩

/-- The address of a witness program in capital letters is another account for its script. -/
theorem upper_case_same_script :
    ∃ script, Denotes .bip350 .bitcoin "bc1qw508d6qejxtdg4y5r3zarvary0c5xw7kv8f3t4" script ∧
      Denotes .bip350 .bitcoin "BC1QW508D6QEJXTDG4Y5R3ZARVARY0C5XW7KV8F3T4" script := by
  have hsome : (Segwit.decode "bc1qw508d6qejxtdg4y5r3zarvary0c5xw7kv8f3t4".toList).isSome =
      true := by decide +kernel
  obtain ⟨⟨hrp, w⟩, hdecode⟩ := Option.isSome_iff_exists.mp hsome
  have hlower : (Segwit.decode "bc1qw508d6qejxtdg4y5r3zarvary0c5xw7kv8f3t4".toList).map Prod.fst =
      some "bc" := by decide +kernel
  have hsame : Segwit.decode "BC1QW508D6QEJXTDG4Y5R3ZARVARY0C5XW7KV8F3T4".toList =
      Segwit.decode "bc1qw508d6qejxtdg4y5r3zarvary0c5xw7kv8f3t4".toList := by decide +kernel
  obtain rfl : hrp = "bc" := by
    rw [hdecode] at hlower
    exact Option.some.inj hlower
  have hvalid : ∀ text : String, Segwit.decode text.toList = some ("bc", w) →
      Denotes .bip350 .bitcoin text (witnessScript w) := fun text htext =>
    .witness ((hasValidSegwitAddress_iff followsBip350_bip350).mpr ⟨_, w, by simp, htext⟩) htext
  exact ⟨witnessScript w, hvalid _ hdecode, hvalid _ (hsame.trans hdecode)⟩

end BitInfinity
