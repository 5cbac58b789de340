import BitInfinity.Proxy.Base64
import BitInfinity.Proxy.BitcoinTransaction
import BitInfinity.Proxy.PsbtDocument
import BitInfinity.Proxy.ScriptDerivation
import BitInfinity.Tools.GenesisSupply

/-!
# `createpsbt`

The handler writes an unsigned transaction and puts it into a PSBT with empty maps.  The parsers of
the same program read back what was written: the proofs follow the cursor through the bytes that
still lie behind it.
-/

namespace BitInfinity.Proxy

open BitInfinity Foundation

/-! ## The handler -/

variable {pairs : List (String × Nat)}

/-- The address and the satoshis of each field; data outputs are passed over. -/
def psbtOutputFields : List (String × Json) → Except String (List (String × Nat))
  | [] => .ok []
  | (addr, amountVal) :: fields =>
    if addr = "data" then psbtOutputFields fields
    else do
      let amount ← okOr amountVal.asAmount "Output amounts must be positive numbers"
      let satoshis ← okOr amount "Output amounts must be positive and satoshi-precise"
      let pairs ← psbtOutputFields fields
      .ok ((addr, satoshis.toNat) :: pairs)

def psbtOutputObjects : List Json → Except String (List (String × Nat))
  | [] => .ok []
  | .object fields :: outs => do
    let pairs ← psbtOutputFields fields
    let more ← psbtOutputObjects outs
    .ok (pairs ++ more)
  | _ :: _ => .error "Each output entry must be an object"

def psbtOutputs : Json → Except String (List (String × Nat))
  | .array outs => psbtOutputObjects outs
  | .object fields => psbtOutputFields fields
  | _ => .error "Invalid outputs format"

def parsePsbtOutputPairs (outputsParam : Option Json) : Except String (List (String × Nat)) := do
  let outputs ← okOr outputsParam "Missing outputs parameter"
  let outputPairs ← psbtOutputs outputs
  ensure (outputPairs != []) "At least one destination output is required"
  .ok outputPairs

/-- The previous output as it is written: the bytes of the txid, last byte first. -/
def inputTxid (inp : Json) : Bytes :=
  let txidHex := ((inp.get "txid").bind Json.asStr).getD (String.ofList (List.replicate 64 '0'))
  match hexDecode txidHex with
  | some txidBytes => txidBytes.reverse
  | none => List.replicate 32 0

def inputVout (inp : Json) : Nat := ((inp.get "vout").bind Json.asU64).getD 0 % 2 ^ 32

def rbfSequence : Nat := 0xFFFFFFFD

def writeInput (txid : Bytes) (vout : Nat) : Bytes :=
  txid ++ (writeLE 4 vout ++ ([0x00] ++ writeLE 4 rbfSequence))

def writeScript (scriptHex : String) : Bytes :=
  if scriptHex = "" then [0x00]
  else
    match hexDecode scriptHex with
    | some scriptBytes => writeCompactSize scriptBytes.length ++ scriptBytes
    | none => [0x00]

def writeOutput (C : Crypto) (addr : String) (satoshis : Nat) : Bytes :=
  writeLE 8 satoshis ++ writeScript (deriveScriptPubKeyHex C addr (hrpGuess addr))

def unsignedTx (C : Crypto) (inputs : List Json) (outputPairs : List (String × Nat))
    (locktime : Nat) : Bytes :=
  writeLE 4 2 ++ (writeCompactSize inputs.length ++
    (inputs.flatMap (fun inp => writeInput (inputTxid inp) (inputVout inp)) ++
      (writeCompactSize outputPairs.length ++
        (outputPairs.flatMap (fun o => writeOutput C o.1 o.2) ++ writeLE 4 locktime))))

/-- The global map with the transaction, and empty maps for the inputs and the outputs. -/
def psbtOf (tx : Bytes) (numInputs numOutputs : Nat) : Bytes :=
  psbtMagic ++ ([0x01, 0x00] ++ (writeCompactSize tx.length ++ (tx ++ ([0x00] ++
    (List.replicate numInputs 0x00 ++ List.replicate numOutputs 0x00)))))

/-- The helpers of the proxy, as the format in which PSBTs travel. -/
def proxyBase64 : Tools.Base64 where
  encode := base64Encode
  decode text := (base64Decode text).toOption
  decode_encode x := by rw [base64Decode_base64Encode]; rfl

def handleCreatepsbt (C : Crypto) (params : List Json) : Except RpcError String := do
  let inputs := (params[0]?.bind Json.asArray).getD []
  let outputPairs ← (parsePsbtOutputPairs params[1]?).mapError (⟨-32602, ·⟩)
  let locktime := (params[2]?.bind Json.asU64).getD 0 % 2 ^ 32
  let tx := unsignedTx C inputs outputPairs locktime
  .ok (proxyBase64.encode (psbtOf tx inputs.length outputPairs.length))

/-! ## The unsigned transaction -/

theorem writeScript_hexText (script : Bytes) :
    writeScript (hexText script) = writeCompactSize script.length ++ script := by
  unfold writeScript
  split
  · rename_i hempty
    rw [hexText_eq_empty.mp hempty]
    rfl
  · rw [hexText, hexDecode_hexEncode]

theorem writeOutput_eq (C : Crypto) (addr : String) (satoshis : Nat) :
    writeOutput C addr satoshis = writeLE 8 satoshis ++
      (writeCompactSize (createpsbtScript C addr).length ++ createpsbtScript C addr) := by
  rw [writeOutput, deriveScriptPubKeyHex_eq, writeScript_hexText, createpsbtScript_eq]

/-! ## Hex texts in either case -/

theorem hexDigit_of_hexValue {c : Char} {v : Nat} (h : hexValue c = some v) :
    v < 16 ∧ hexDigit v = c.toLower := by
  have hascii : c.toNat < 128 := by
    unfold hexValue at h
    have hbounds : c ≤ '9' ∨ c ≤ 'f' ∨ c ≤ 'F' := by
      split at h
      · next hdigit => exact .inl hdigit.2
      · split at h
        · next hlower => exact .inr (.inl hlower.2)
        · split at h
          · next hupper => exact .inr (.inr hupper.2)
          · cases h
    rcases hbounds with hle | hle | hle
    · exact Nat.lt_of_le_of_lt (Char.le_def.mp hle) (by decide)
    · exact Nat.lt_of_le_of_lt (Char.le_def.mp hle) (by decide)
    · exact Nat.lt_of_le_of_lt (Char.le_def.mp hle) (by decide)
  have hall : ∀ n < 128, ∀ v, hexValue (Char.ofNat n) = some v →
      v < 16 ∧ hexDigit v = (Char.ofNat n).toLower := by
    intro n hn v hv
    have htable : ∀ n < 128, (hexValue (Char.ofNat n)).all (fun v =>
        v < 16 && hexDigit v == (Char.ofNat n).toLower) = true := by decide
    have hrow := htable n hn
    rw [hv] at hrow
    simpa using hrow
  have hrow := hall c.toNat hascii v
  rw [Char.ofNat_toNat] at hrow
  exact hrow h

theorem hexEncode_of_hexDecodeChars {text : List Char} {bytes : Bytes}
    (h : hexDecodeChars text = some bytes) : hexEncode bytes = text.map Char.toLower := by
  fun_induction hexDecodeChars text generalizing bytes with
  | case1 =>
    cases h
    rfl
  | case2 => cases h
  | case3 high low rest ih =>
    simp only [Option.bind_eq_bind, Option.bind_eq_some_iff, Option.some.injEq] at h
    obtain ⟨x, hx, y, hy, bytes, hbytes, rfl⟩ := h
    obtain ⟨_, hhigh⟩ := hexDigit_of_hexValue hx
    obtain ⟨_, hlow⟩ := hexDigit_of_hexValue hy
    have hbyte : (UInt8.ofNat (16 * x + y)).toNat = 16 * x + y := by
      rw [UInt8.toNat_ofNat']
      omega
    have hcons : hexEncode (UInt8.ofNat (16 * x + y) :: bytes) =
        hexDigit ((UInt8.ofNat (16 * x + y)).toNat / 16) ::
          hexDigit ((UInt8.ofNat (16 * x + y)).toNat % 16) :: hexEncode bytes := rfl
    rw [hcons, hbyte, show (16 * x + y) / 16 = x by omega, show (16 * x + y) % 16 = y by omega,
      hhigh, hlow, ih hbytes]
    rfl

theorem exists_hexDecodeChars {text : List Char} {length : Nat}
    (hlength : text.length = 2 * length) (hhex : ∀ c ∈ text, (hexValue c).isSome) :
    ∃ bytes, hexDecodeChars text = some bytes ∧ bytes.length = length := by
  induction length generalizing text with
  | zero =>
    rw [List.length_eq_zero_iff.mp hlength]
    exact ⟨[], rfl, rfl⟩
  | succ length ih =>
    obtain ⟨high, low, rest, rfl⟩ : ∃ high low rest, text = high :: low :: rest := by
      match text, hlength with
      | high :: low :: rest, _ => exact ⟨high, low, rest, rfl⟩
    obtain ⟨x, hx⟩ := Option.isSome_iff_exists.mp (hhex high (by simp))
    obtain ⟨y, hy⟩ := Option.isSome_iff_exists.mp (hhex low (by simp))
    simp only [List.length_cons] at hlength
    obtain ⟨bytes, hbytes, hcount⟩ := @ih rest (by omega) fun c hc => hhex c (by simp [hc])
    refine ⟨UInt8.ofNat (16 * x + y) :: bytes, ?_, by rw [List.length_cons, hcount]⟩
    rw [hexDecodeChars, hx, hy, hbytes]
    rfl

/-! ## The round trip -/

/-- The item of the request names an input: a txid of 64 hex digits and an index of 32 bits. -/
structure NamesInput (inp : Json) (input : String × Nat) : Prop where
  txid : (inp.get "txid").bind Json.asStr = some input.1
  vout : (inp.get "vout").bind Json.asU64 = some input.2
  txid_length : input.1.toList.length = 64
  txid_hex : ∀ c ∈ input.1.toList, (hexValue c).isSome
  vout_lt : input.2 < 2 ^ 32

theorem NamesInput.written {inp : Json} {input : String × Nat} (h : NamesInput inp input) :
    (inputTxid inp).length = 32 ∧ inputVout inp < 2 ^ 32 ∧
      (⟨hexText (inputTxid inp).reverse, inputVout inp, rbfSequence⟩ : PsbtVin) =
        ⟨toLowercase input.1, input.2, rbfSequence⟩ := by
  obtain ⟨bytes, hbytes, hlength⟩ := @exists_hexDecodeChars input.1.toList 32 h.txid_length
    h.txid_hex
  have htxid : inputTxid inp = bytes.reverse := by
    rw [inputTxid, h.txid, Option.getD_some, hexDecode, hbytes]
  have hvout : inputVout inp = input.2 := by
    rw [inputVout, h.vout, Option.getD_some, Nat.mod_eq_of_lt h.vout_lt]
  rw [htxid, hvout, List.length_reverse, List.reverse_reverse, hexText,
    hexEncode_of_hexDecodeChars hbytes]
  exact ⟨hlength, h.vout_lt, rfl⟩

theorem psbtOutputFields_lt {fields : List (String × Json)}
    (h : psbtOutputFields fields = .ok pairs) : ∀ o ∈ pairs, o.2 < 2 ^ 64 := by
  induction fields generalizing pairs with
  | nil =>
    cases h
    simp
  | cons field fields ih =>
    rw [psbtOutputFields] at h
    split at h
    · exact ih h
    · obtain ⟨_, -, h⟩ := bind_eq_ok.mp h
      obtain ⟨satoshis, -, h⟩ := bind_eq_ok.mp h
      obtain ⟨_, hmore, h⟩ := bind_eq_ok.mp h
      cases h
      intro o ho
      rcases List.mem_cons.mp ho with rfl | ho
      · exact satoshis.toNat_lt
      · exact ih hmore o ho

theorem psbtOutputObjects_lt {outs : List Json}
    (h : psbtOutputObjects outs = .ok pairs) : ∀ o ∈ pairs, o.2 < 2 ^ 64 := by
  induction outs generalizing pairs with
  | nil =>
    cases h
    simp
  | cons out outs ih =>
    cases out with
    | object fields =>
      obtain ⟨_, hfirst, h⟩ := bind_eq_ok.mp h
      obtain ⟨_, hmore, h⟩ := bind_eq_ok.mp h
      cases h
      intro o ho
      rcases List.mem_append.mp ho with ho | ho
      · exact psbtOutputFields_lt hfirst o ho
      · exact ih hmore o ho
    | null | bool value | number | string text | array items => cases h

theorem parsePsbtOutputPairs_lt {outputs : Option Json}
    (h : parsePsbtOutputPairs outputs = .ok pairs) : ∀ o ∈ pairs, o.2 < 2 ^ 64 := by
  obtain ⟨value, -, h⟩ := bind_eq_ok.mp h
  obtain ⟨_, hfound, h⟩ := bind_eq_ok.mp h
  obtain ⟨-, -, h⟩ := bind_eq_ok.mp h
  cases h
  cases value with
  | array outs => exact psbtOutputObjects_lt hfound
  | object fields => exact psbtOutputFields_lt hfound
  | null | bool value | number | string text => cases hfound

theorem exists_inputs {items : List Json} {inputs : List (String × Nat)}
    (h : List.Forall₂ NamesInput items inputs) :
    ∃ ins : List UnsignedTxInput, ins.flatMap UnsignedTxInput.write =
        items.flatMap (fun inp => writeInput (inputTxid inp) (inputVout inp)) ∧
      ins.map UnsignedTxInput.vin = inputs.map fun i => ⟨toLowercase i.1, i.2, rbfSequence⟩ := by
  induction h with
  | nil => exact ⟨[], rfl, rfl⟩
  | @cons inp input items inputs hinput _ ih =>
    obtain ⟨ins, hwrite, hvin⟩ := ih
    obtain ⟨hlength, hvout, hparsed⟩ := hinput.written
    have hword : (UInt32.ofNat (inputVout inp)).toNat = inputVout inp :=
      UInt32.toNat_ofNat_of_lt hvout
    refine ⟨⟨inputTxid inp, UInt32.ofNat (inputVout inp), 0xFFFFFFFD, hlength⟩ :: ins, ?_, ?_⟩
    · rw [List.flatMap_cons, List.flatMap_cons, hwrite, UnsignedTxInput.write, writeInput, hword]
      rfl
    · rw [List.map_cons, List.map_cons, hvin, UnsignedTxInput.vin, hword, ← hparsed]
      rfl

theorem flatMap_writeOutput (C : Crypto) (hpairs : ∀ o ∈ pairs, o.2 < 2 ^ 64) :
    (pairs.map fun o => (⟨UInt64.ofNat o.2, createpsbtScript C o.1⟩ : UnsignedTxOutput)).flatMap
        UnsignedTxOutput.write = pairs.flatMap (fun o => writeOutput C o.1 o.2) := by
  rw [List.flatMap_map]
  refine List.flatMap_congr fun o ho => ?_
  have hvalue : (UInt64.ofNat o.2).toNat = o.2 := UInt64.toNat_ofNat_of_lt (hpairs o ho)
  rw [writeOutput_eq, UnsignedTxOutput.write, hvalue]

theorem noEntries_keyType : ∀ e ∈ ([] : List PsbtEntry), e.keyType ≠ 0x00 := by simp

def PsbtDocument.bare (tx : UnsignedTx) : PsbtDocument where
  tx := tx
  before := []
  after := []
  inputs := List.replicate tx.inputs.length []
  outputs := List.replicate tx.outputs.length []
  before_type := noEntries_keyType
  after_type := noEntries_keyType
  inputs_length := List.length_replicate
  outputs_length := List.length_replicate

theorem PsbtDocument.write_bare (tx : UnsignedTx) :
    (PsbtDocument.bare tx).write = psbtOf tx.write tx.inputs.length tx.outputs.length := by
  rw [PsbtDocument.write, PsbtDocument.bare, flatMap_writePsbtMap_replicate,
    flatMap_writePsbtMap_replicate, psbtOf]
  simp [PsbtDocument.globalMap, writePsbtMap, PsbtEntry.write]
  rfl

/-- What `createpsbt` writes is read back: the inputs with their txids in lower case, the outputs
with the scripts that were written, and an empty map for each input. -/
theorem createpsbt_round_trip (C : Crypto) {params items : List Json}
    {inputs : List (String × Nat)} {pairs : List (String × Nat)} {locktime : Nat}
    (hitems : params[0]? = some (.array items)) (hinputs : List.Forall₂ NamesInput items inputs)
    (hpairs : parsePsbtOutputPairs params[1]? = .ok pairs)
    (hlocktime : params[2]?.bind Json.asU64 = some locktime) (hword : locktime < 2 ^ 32)
    (hsize : (psbtOf (unsignedTx C items pairs locktime) items.length pairs.length).length <
      2 ^ 32) :
    ∃ text psbt, handleCreatepsbt C params = .ok text ∧ proxyBase64.decode text = some psbt ∧
      ∀ mode fuel, psbt.length < fuel → parsePsbtUnsignedTx mode fuel psbt = .ok
          ⟨inputs.map fun i => ⟨toLowercase i.1, i.2, 0xFFFFFFFD⟩,
            pairs.zipIdx.map fun o => voutOf o.1.2 (createpsbtScript C o.1.1) o.2, 2, locktime⟩ ∧
        extractUnsignedTxHex mode fuel psbt = .ok (hexText (unsignedTx C items pairs locktime)) ∧
        parsePsbtInputMaps mode fuel psbt inputs.length =
          .ok (List.replicate inputs.length .empty) := by
  obtain ⟨ins, hwrite, hvin⟩ := exists_inputs hinputs
  have hcount : ins.length = items.length := by
    rw [hinputs.length_eq, ← List.length_map (f := UnsignedTxInput.vin), hvin, List.length_map]
  set tx : UnsignedTx := ⟨2, ins, pairs.map fun o => ⟨UInt64.ofNat o.2, createpsbtScript C o.1⟩,
    UInt32.ofNat locktime⟩ with htx
  have hoffered := parsePsbtOutputPairs_lt hpairs
  have htime : (UInt32.ofNat locktime).toNat = locktime := UInt32.toNat_ofNat_of_lt hword
  have hbytes : unsignedTx C items pairs locktime = tx.write := by
    rw [UnsignedTx.write, unsignedTx, htx, hwrite, flatMap_writeOutput C hoffered, hcount,
      List.length_map, htime]
    rfl
  have hdocument : psbtOf (unsignedTx C items pairs locktime) items.length pairs.length =
      (PsbtDocument.bare tx).write := by
    rw [PsbtDocument.write_bare, hbytes, ← hcount, htx, List.length_map]
  have hhandler : handleCreatepsbt C params =
      .ok (proxyBase64.encode (PsbtDocument.bare tx).write) := by
    rw [handleCreatepsbt, hitems, hpairs, hlocktime, ← hdocument]
    simp only [Option.bind_some, Json.asArray, Option.getD_some, Except.mapError,
      Nat.mod_eq_of_lt hword, ok_bind]
  rw [hdocument] at hsize
  have hparsed : tx.parsed = ⟨inputs.map fun i => ⟨toLowercase i.1, i.2, 0xFFFFFFFD⟩,
      pairs.zipIdx.map fun o => voutOf o.1.2 (createpsbtScript C o.1.1) o.2, 2, locktime⟩ := by
    rw [UnsignedTx.parsed, htx, hvin, htime, List.zipIdx_map, List.map_map]
    congr 1
    refine List.map_congr_left fun o ho => ?_
    have hvalue : (UInt64.ofNat o.1.2).toNat = o.1.2 :=
      UInt64.toNat_ofNat_of_lt (hoffered o.1 (List.fst_mem_of_mem_zipIdx ho))
    simp only [Function.comp_apply, Prod.map_fst, Prod.map_snd, id_eq, hvalue]
  refine ⟨proxyBase64.encode (PsbtDocument.bare tx).write, (PsbtDocument.bare tx).write, hhandler,
    proxyBase64.decode_encode _, ?_⟩
  intro mode fuel hfuel
  have hword : (PsbtDocument.bare tx).write.length < 2 ^ 63 := by omega
  refine ⟨?_, ?_, ?_⟩
  · rw [← hparsed]
    exact PsbtDocument.parsePsbtUnsignedTx_write hword hfuel
  · rw [hbytes]
    exact PsbtDocument.extractUnsignedTxHex_write hword hfuel
  · have hmaps := @PsbtDocument.parsePsbtInputMaps_write _ mode _ hword hfuel
    rw [PsbtDocument.bare, List.map_replicate] at hmaps
    rw [← hinputs.length_eq, ← hcount]
    exact hmaps

def samplePsbtAddress : String := "bc1qqurswpc8qurswpc8qurswpc8qurswpc89fe3yv"

/-- One input with the given txid, and one satoshi to a P2WPKH address. -/
def samplePsbtParams (txid : String) : List Json :=
  [.array [.object [("txid", .string txid), ("vout", .number (some 1) none)]],
    .object [(samplePsbtAddress, .number none (some 1))], .number (some 7) none]

theorem createpsbt_round_trip_sample : ∃ text psbt, handleCreatepsbt .sample
        (samplePsbtParams (String.ofList (List.replicate 64 'a'))) = .ok text ∧
      proxyBase64.decode text = some psbt ∧
      parsePsbtUnsignedTx .panics (psbt.length + 1) psbt =
        .ok ⟨[⟨String.ofList (List.replicate 64 'a'), 1, 0xFFFFFFFD⟩],
          [voutOf 1 (0x00 :: 0x14 :: List.replicate 20 7) 0], 2, 7⟩ := by
  have hinputs : List.Forall₂ NamesInput
      [.object [("txid", .string (String.ofList (List.replicate 64 'a'))),
        ("vout", .number (some 1) none)]]
      [(String.ofList (List.replicate 64 'a'), 1)] :=
    .cons ⟨rfl, rfl, by simp, by simp; decide, by decide⟩ .nil
  obtain ⟨text, psbt, htext, hdecode, hparse⟩ := @createpsbt_round_trip .sample
    (samplePsbtParams (String.ofList (List.replicate 64 'a'))) _ _ [(samplePsbtAddress, 1)] 7 rfl
    hinputs (by decide +kernel) rfl (by decide) (by decide +kernel)
  refine ⟨text, psbt, htext, hdecode, ?_⟩
  rw [(hparse .panics (psbt.length + 1) (Nat.lt_succ_self _)).1]
  decide +kernel

/-- A txid in capital letters comes back in small ones. -/
theorem createpsbt_lowers_txid :
    ∃ text psbt, NamesInput (.object [("txid", .string (String.ofList (List.replicate 64 'A'))),
        ("vout", .number (some 1) none)]) (String.ofList (List.replicate 64 'A'), 1) ∧
      handleCreatepsbt .sample
        (samplePsbtParams (String.ofList (List.replicate 64 'A'))) = .ok text ∧
      proxyBase64.decode text = some psbt ∧
      (parsePsbtUnsignedTx .panics 200 psbt).map (·.vin) =
        .ok [⟨String.ofList (List.replicate 64 'a'), 1, 0xFFFFFFFD⟩] ∧
      String.ofList (List.replicate 64 'a') ≠ String.ofList (List.replicate 64 'A') := by
  refine ⟨_, psbtOf (unsignedTx .sample [.object [("txid", .string (String.ofList
    (List.replicate 64 'A'))), ("vout", .number (some 1) none)]] [(samplePsbtAddress, 1)] 7) 1 1,
    ⟨rfl, rfl, by simp, by simp; decide, by decide⟩, rfl, proxyBase64.decode_encode _,
    by decide +kernel, by decide +kernel⟩

end BitInfinity.Proxy
