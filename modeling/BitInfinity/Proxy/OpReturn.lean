import BitInfinity.Foundation.Utf8
import BitInfinity.Primitives.Account
import BitInfinity.Proxy.BitcoinTransaction

/-!
# Function calls in `OP_RETURN` outputs

A call is the text `near:<contract_id>:<method_name>:<base64_args>` in one push behind
`OP_RETURN`.  The header of a push is one byte for a short payload, and two, three or five bytes
for a longer one; the proxy skips one byte in every case.
-/

namespace BitInfinity.Proxy

open BitInfinity Foundation

/-- The header of the shortest push of a payload of at least two bytes. -/
def pushHeader (length : Nat) : Bytes :=
  if length ≤ 75 then [UInt8.ofNat length]
  else if length ≤ 0xff then 0x4c :: writeLE 1 length
  else if length ≤ 0xffff then 0x4d :: writeLE 2 length
  else 0x4e :: writeLE 4 length

def opReturnScript (payload : Bytes) : Bytes := 0x6a :: (pushHeader payload.length ++ payload)

namespace NearFunctionCall

def text (call : NearFunctionCall) : List Char :=
  "near:".toList ++ (call.contractId.toList ++
    ':' :: (call.methodName.toList ++ ':' :: call.argsBase64.toList))

def payload (call : NearFunctionCall) : Bytes := utf8Bytes call.text

end NearFunctionCall

/-! ## Texts and their bytes -/

variable {bytes : Bytes} {text : String}

theorem splitColon_append {before : List Char} (h : ':' ∉ before) (rest : List Char) :
    splitColon (before ++ ':' :: rest) = (before, some rest) := by
  have hspan : (before ++ ':' :: rest).span (· ≠ ':') = (before, ':' :: rest) := by
    rw [List.span_eq_takeWhile_dropWhile]
    have hall : ∀ c ∈ before, (decide (c ≠ ':')) = true := by
      intro c hc
      rw [decide_eq_true_eq]
      rintro rfl
      exact h hc
    rw [List.takeWhile_append_of_pos hall, List.dropWhile_append_of_pos hall]
    simp
  rw [splitColon, hspan]

theorem fromUtf8_utf8Bytes (text : List Char) :
    fromUtf8 (utf8Bytes text) = some (String.ofList text) := by
  have hbytes := toList_toUTF8 (String.ofList text)
  rw [String.toList_ofList] at hbytes
  rw [fromUtf8, ← hbytes, fromUTF8_toUTF8]

theorem eq_utf8Bytes_of_fromUtf8
    (h : fromUtf8 bytes = some text) : bytes = utf8Bytes text.toList := by
  unfold fromUtf8 String.fromUTF8? at h
  split at h
  · cases h
    rw [← toList_toUTF8]
    rfl
  · cases h

theorem near_bytes_of_startsWith
    (hbytes : fromUtf8 bytes = some text) (hstart : AccountId.startsWith text "near:" = true) :
    ∃ rest, bytes = [110, 101, 97, 114, 58] ++ rest := by
  obtain ⟨rest, hrest⟩ := List.isPrefixOf_iff_prefix.mp hstart
  refine ⟨utf8Bytes rest, ?_⟩
  rw [eq_utf8Bytes_of_fromUtf8 hbytes, ← hrest, utf8Bytes_append]
  rfl

/-! ## The decoded call -/

section Calls

variable {X : TranslatorExternals} {bech32Hrp : String} {tx : BitcoinTx}
  {parsed : ParsedBitcoinTx} {call : NearFunctionCall}

theorem opReturnData_eq {value : Nat} {script : Bytes}
    (houtputs : parsed.outputs = tx.output.map (extractOutput X bech32Hrp))
    (hfirst : tx.output.find? (·.isOpReturn) = some ⟨value, script⟩)
    (hlength : 2 < script.length) : parsed.opReturnData = some (script.drop 2) := by
  have hfound : (⟨value, script⟩ : TxOut).isOpReturn = true :=
    @List.find?_some _ (fun o : TxOut => o.isOpReturn) _ _ hfirst
  rw [ParsedBitcoinTx.opReturnData, houtputs, List.find?_map]
  simp only [Function.comp_def, extractOutput_isOpReturn, hfirst, Option.map_some, Option.bind_some]
  simp only [extractOutput, hfound, if_true, hlength]

theorem decode_of_payload (hcontract : ':' ∉ call.contractId.toList)
    (hmethod : ':' ∉ call.methodName.toList) (hdata : parsed.opReturnData = some call.payload) :
    parsed.decodeNearFunctionCall = some call := by
  have hstart : AccountId.startsWith (String.ofList call.text) "near:" = true := by
    refine List.isPrefixOf_iff_prefix.mpr ?_
    rw [@String.toList_ofList call.text]
    exact List.prefix_append _ _
  have hdrop : (String.ofList call.text).toList.drop 5 = call.contractId.toList ++
      ':' :: (call.methodName.toList ++ ':' :: call.argsBase64.toList) := by
    rw [String.toList_ofList]
    rfl
  rw [ParsedBitcoinTx.decodeNearFunctionCall, hdata]
  simp only [Option.bind_eq_bind, Option.bind_some, NearFunctionCall.payload, fromUtf8_utf8Bytes,
    hstart, if_true, hdrop, splitColon_append hcontract, splitColon_append hmethod,
    Option.getD_some, String.ofList_toList]

theorem decode_eq_none {data : Bytes} (hdata : parsed.opReturnData = some data)
    (hother : ∀ rest, data ≠ [110, 101, 97, 114, 58] ++ rest) :
    parsed.decodeNearFunctionCall = none := by
  rw [ParsedBitcoinTx.decodeNearFunctionCall, hdata]
  simp only [Option.bind_eq_bind, Option.bind_some]
  cases htext : fromUtf8 data with
  | none => rfl
  | some text =>
    simp only [Option.bind_some]
    by_cases hstart : AccountId.startsWith text "near:" = true
    · obtain ⟨rest, hrest⟩ := near_bytes_of_startsWith htext hstart
      exact absurd hrest (hother rest)
    · rw [if_neg hstart]

end Calls

theorem payload_eq (call : NearFunctionCall) :
    ∃ rest, call.payload = 110 :: 101 :: 97 :: 114 :: 58 :: rest := by
  exact ⟨_, rfl⟩

/-- A call in the first `OP_RETURN` output is decoded exactly when its text fits in a direct
push; a longer text is no call to the proxy. -/
theorem call_decoded_iff (X : TranslatorExternals) (bech32Hrp : String) {tx : BitcoinTx}
    {parsed : ParsedBitcoinTx} {call : NearFunctionCall} {value : Nat}
    (hcontract : ':' ∉ call.contractId.toList) (hmethod : ':' ∉ call.methodName.toList)
    (houtputs : parsed.outputs = tx.output.map (extractOutput X bech32Hrp))
    (hfirst : tx.output.find? (·.isOpReturn) = some ⟨value, opReturnScript call.payload⟩) :
    (parsed.decodeNearFunctionCall = some call ↔ call.payload.length ≤ 75) ∧
      (75 < call.payload.length → parsed.decodeNearFunctionCall = none) := by
  obtain ⟨rest, hpayload⟩ := payload_eq call
  have hlength : 2 < (opReturnScript call.payload).length := by
    rw [opReturnScript, List.length_cons, List.length_append, hpayload]
    simp only [List.length_cons]
    omega
  have hdata := opReturnData_eq houtputs hfirst hlength
  have hlong : 75 < call.payload.length → parsed.decodeNearFunctionCall = none := by
    intro hlt
    refine decode_eq_none hdata fun rest' => ?_
    -- the rest of the header pushes the first letter to a place where another one is needed
    simp only [opReturnScript, pushHeader]
    rw [if_neg (Nat.not_le.mpr hlt)]
    split
    · simp [writeLE, hpayload]
    · split
      · simp [writeLE, hpayload]
      · simp [writeLE, hpayload]
  refine ⟨⟨fun hsome => ?_, fun hle => ?_⟩, hlong⟩
  · by_contra hgt
    rw [hlong (Nat.not_le.mp hgt)] at hsome
    cases hsome
  · refine decode_of_payload hcontract hmethod ?_
    rw [hdata, opReturnScript, pushHeader, if_pos hle]
    rfl

def sampleParsed (call : NearFunctionCall) : ParsedBitcoinTx :=
  ⟨"", "", [], [extractOutput .sample "bc" ⟨0, opReturnScript call.payload⟩]⟩

theorem call_decoded_short :
    (sampleParsed ⟨"c", "m", "aa"⟩).decodeNearFunctionCall = some ⟨"c", "m", "aa"⟩ := by
  have hfirst : ([⟨0, opReturnScript (NearFunctionCall.payload ⟨"c", "m", "aa"⟩)⟩] :
      List TxOut).find? (·.isOpReturn) =
        some ⟨0, opReturnScript (NearFunctionCall.payload ⟨"c", "m", "aa"⟩)⟩ := by decide +kernel
  exact (@call_decoded_iff .sample "bc" ⟨2, 0, [], _⟩ _ _ _ (by decide) (by decide) rfl
    hfirst).1.mpr (by decide)

/-- With an argument of 67 letters the payload has 76 bytes, and the header of its push two. -/
theorem call_of_76_bytes_lost :
    let call : NearFunctionCall := ⟨"c", "m", String.ofList (List.replicate 67 'a')⟩
    call.payload.length = 76 ∧ (sampleParsed call).decodeNearFunctionCall = none := by
  decide +kernel

end BitInfinity.Proxy
