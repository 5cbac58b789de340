import BitInfinity.Foundation.FinmapUnion
import BitInfinity.Proxy.CreatePsbt

/-!
# `combinepsbt`

The handler collects the partial signatures of the given PSBTs input by input and writes a new
PSBT of the same transaction with them.  On well-formed PSBTs whose signatures do not contradict
each other it computes a union.
-/

namespace BitInfinity.Proxy

open BitInfinity Foundation

/-! ## The handler -/

/-- A request that reads PSBTs ends in an answer, in an error or not at all. -/
inductive PsbtFailure
  | halt (h : Halt)
  | error (e : RpcError)
  deriving DecidableEq, Repr

structure Combination where
  referenceUnsignedTx : Option String
  referenceUnsignedTxBytes : Bytes
  expectedInputs : Nat
  expectedOutputs : Nat
  mergedSignatures : List (Finmap fun _ : String => String)
  sawValidCandidate : Bool

namespace Combination

def start : Combination := ⟨none, [], 0, 0, [], false⟩

def differentTransactions : RpcError := ⟨-8, "PSBTs do not refer to the same transaction"⟩

/-- The first candidate says which transaction the others must have. -/
def refer (c : Combination) (unsignedTxHex : String) (unsignedTxBytes : Bytes) (tx : PsbtTx) :
    Except RpcError Combination :=
  match c.referenceUnsignedTx with
  | some reference => if reference ≠ unsignedTxHex then .error differentTransactions else .ok c
  | none =>
    .ok { c with
      referenceUnsignedTx := some unsignedTxHex
      referenceUnsignedTxBytes := unsignedTxBytes
      expectedInputs := tx.vin.length
      expectedOutputs := tx.vout.length
      mergedSignatures := List.replicate tx.vin.length ∅ }

def merge (c : Combination) (inputMaps : List PsbtInput) : Combination :=
  { c with
    mergedSignatures :=
      List.zipWith insertAll c.mergedSignatures (inputMaps.map (·.partialSignatures))
    sawValidCandidate := true }

def writeSignature (pubkeyHex sigHex : String) : Bytes :=
  match hexDecode pubkeyHex, hexDecode sigHex with
  | some pubkeyBytes, some sigBytes =>
    writeCompactSize (1 + pubkeyBytes.length) ++ ([0x02] ++ (pubkeyBytes ++
      (writeCompactSize sigBytes.length ++ sigBytes)))
  | _, _ => []

def combinedPsbt (c : Combination) : Bytes :=
  psbtMagic ++ ([0x01, 0x00] ++ (writeCompactSize c.referenceUnsignedTxBytes.length ++
    (c.referenceUnsignedTxBytes ++ ([0x00] ++ (c.mergedSignatures.flatMap (fun inputSigMap =>
          (inOrder inputSigMap).flatMap (fun entry => writeSignature entry.1 entry.2) ++ [0x00]) ++
        List.replicate c.expectedOutputs 0x00)))))

end Combination

section Handler

variable (mode : Overflow) (fuel : Nat)

def combineUnsignedTx (c : Combination) (bytes : Bytes) (unsignedTxHex : String)
    (unsignedTxBytes : Bytes) : Except PsbtFailure Combination := do
  let tx ← (parsePsbtUnsignedTx mode fuel bytes).mapError .halt
  let c ← (c.refer unsignedTxHex unsignedTxBytes tx).mapError .error
  ensure (tx.vin.length == c.expectedInputs && tx.vout.length == c.expectedOutputs)
    (.error Combination.differentTransactions)
  let inputMaps ← (parsePsbtInputMaps mode fuel bytes c.expectedInputs).mapError .halt
  .ok (c.merge inputMaps)

def combineBytes (c : Combination) (bytes : Bytes) : Except PsbtFailure Combination :=
  if bytes.take 5 ≠ psbtMagic then .ok c
  else do
    let unsignedTxHex ← (extractUnsignedTxHex mode fuel bytes).mapError .halt
    if unsignedTxHex = "" then .ok c
    else
      match hexDecode unsignedTxHex with
      | none => .ok c
      | some unsignedTxBytes => combineUnsignedTx mode fuel c bytes unsignedTxHex unsignedTxBytes

def combineText (c : Combination) (psbt : String) : Except PsbtFailure Combination :=
  match proxyBase64.decode psbt with
  | none => .ok c
  | some bytes => combineBytes mode fuel c bytes

def handleCombinepsbt (params : List Json) : Except PsbtFailure String := do
  let psbtArray ← okOr (params[0]?.bind Json.asArray) (.error ⟨-32602, "Missing PSBTs array"⟩)
  let psbts := psbtArray.filterMap Json.asStr
  ensure (psbts != []) (.error ⟨-32602, "Empty PSBTs array"⟩)
  let c ← psbts.foldlM (combineText mode fuel) .start
  ensure (c.sawValidCandidate && c.referenceUnsignedTx.isSome)
    (.error ⟨-22, "Invalid PSBT: no valid candidates"⟩)
  .ok (proxyBase64.encode c.combinedPsbt)

end Handler

/-! ## The merged signatures -/

namespace PsbtDocument

def signaturesAt (d : PsbtDocument) (i : Nat) : Finmap fun _ : String => String :=
  signaturesIn (d.inputs.getD i [])

theorem map_inputs {α : Type} (d : PsbtDocument) (f : List PsbtEntry → α) :
    d.inputs.map f = (List.range d.tx.inputs.length).map fun i => f (d.inputs.getD i []) := by
  apply List.ext_getElem
  · rw [List.length_map, List.length_map, List.length_range, d.inputs_length]
  · intro i hi _
    rw [List.length_map] at hi
    rw [List.getElem_map, List.getElem_map, List.getElem_range, List.getD_eq_getElem?_getD,
      List.getElem?_eq_getElem hi, Option.getD_some]

end PsbtDocument

/-- For each input, the union of its signatures in the documents. -/
def unionSignatures (count : Nat) (docs : List PsbtDocument) :
    List (Finmap fun _ : String => String) :=
  (List.range count).map fun i => unionAll (docs.map (·.signaturesAt i))

theorem unionSignatures_nil (count : Nat) : unionSignatures count [] = List.replicate count ∅ := by
  simp [unionSignatures, unionAll]

theorem zipWith_unionSignatures (docs : List PsbtDocument) (d : PsbtDocument) :
    List.zipWith insertAll (unionSignatures d.tx.inputs.length docs) (d.inputs.map signaturesIn) =
      unionSignatures d.tx.inputs.length (docs ++ [d]) := by
  rw [d.map_inputs, unionSignatures, unionSignatures, List.zipWith_map, List.zipWith_self]
  refine List.map_congr_left fun i _ => ?_
  rw [List.map_append, unionAll, unionAll, List.foldl_append]
  rfl

/-! ## The loop over the texts -/

def Combination.after (tx : UnsignedTx) (docs : List PsbtDocument) : Combination where
  referenceUnsignedTx := some (hexText tx.write)
  referenceUnsignedTxBytes := tx.write
  expectedInputs := tx.inputs.length
  expectedOutputs := tx.outputs.length
  mergedSignatures := unionSignatures tx.inputs.length docs
  sawValidCandidate := true

theorem UnsignedTx.hexText_write_ne (tx : UnsignedTx) : hexText tx.write ≠ "" := by
  intro h
  have hlength := congrArg List.length (hexText_eq_empty.mp h)
  rw [UnsignedTx.write, List.length_append, length_writeLE, List.length_nil] at hlength
  omega

section Loop

variable {mode : Overflow} {fuel : Nat} {d : PsbtDocument}

theorem combineBytes_write (hsize : d.write.length < 2 ^ 63) (hfuel : d.write.length < fuel)
    {c referred : Combination}
    (hrefer : c.refer (hexText d.tx.write) d.tx.write d.tx.parsed = .ok referred)
    (hinputs : referred.expectedInputs = d.tx.inputs.length)
    (houtputs : referred.expectedOutputs = d.tx.outputs.length) :
    combineBytes mode fuel c d.write = .ok (referred.merge (d.inputs.map psbtInputOf)) := by
  have hextract := @PsbtDocument.extractUnsignedTxHex_write d mode fuel hsize hfuel
  have hparse := @PsbtDocument.parsePsbtUnsignedTx_write d mode fuel hsize hfuel
  have hmaps := @PsbtDocument.parsePsbtInputMaps_write d mode fuel hsize hfuel
  have hcounts : (d.tx.parsed.vin.length == referred.expectedInputs &&
      d.tx.parsed.vout.length == referred.expectedOutputs) = true := by
    rw [hinputs, houtputs]
    simp [UnsignedTx.parsed]
  rw [combineBytes, d.take_write, if_neg (fun h => h rfl), hextract, Except.mapError, ok_bind,
    if_neg d.tx.hexText_write_ne, hexText, hexDecode_hexEncode]
  dsimp only
  rw [combineUnsignedTx, hparse, Except.mapError, ok_bind, ← hexText, hrefer, Except.mapError,
    ok_bind, bind_of_eq_ok ((ensure_eq_ok (u := ())).mpr hcounts), hinputs, hmaps, Except.mapError,
    ok_bind]

theorem combineText_first {psbt : String} (hdecode : proxyBase64.decode psbt = some d.write)
    (hsize : d.write.length < 2 ^ 63) (hfuel : d.write.length < fuel) :
    combineText mode fuel .start psbt = .ok (.after d.tx [d]) := by
  have hstep := @combineBytes_write mode fuel d hsize hfuel .start _ rfl
    (List.length_map _) (by simp [UnsignedTx.parsed])
  rw [combineText, hdecode]
  refine hstep.trans ?_
  have hmerged := zipWith_unionSignatures [] d
  rw [unionSignatures_nil, List.nil_append] at hmerged
  rw [Combination.merge, Combination.after, ← hmerged, List.map_map]
  simp only [UnsignedTx.parsed, List.length_map, List.length_zipIdx]
  rfl

theorem combineText_next {psbt : String} (hdecode : proxyBase64.decode psbt = some d.write)
    (hsize : d.write.length < 2 ^ 63) (hfuel : d.write.length < fuel) (docs : List PsbtDocument) :
    combineText mode fuel (.after d.tx docs) psbt = .ok (.after d.tx (docs ++ [d])) := by
  have hrefer : (Combination.after d.tx docs).refer (hexText d.tx.write) d.tx.write d.tx.parsed =
      .ok (.after d.tx docs) := if_neg (fun h => h rfl)
  have hstep := @combineBytes_write mode fuel d hsize hfuel _ _ hrefer rfl rfl
  rw [combineText, hdecode]
  refine hstep.trans ?_
  rw [Combination.merge, List.map_map]
  exact congrArg (fun merged => Except.ok { Combination.after d.tx docs with
    mergedSignatures := merged }) (zipWith_unionSignatures docs d)

variable {tx : UnsignedTx} {docs : List PsbtDocument} {texts : List String}

theorem foldlM_combineText (htx : ∀ d ∈ docs, d.tx = tx)
    (hsize : ∀ d ∈ docs, d.write.length < 2 ^ 63) (hfuel : ∀ d ∈ docs, d.write.length < fuel)
    (htexts : List.Forall₂ (fun text d => proxyBase64.decode text = some d.write) texts docs)
    (seen : List PsbtDocument) :
    texts.foldlM (combineText mode fuel) (.after tx seen) = .ok (.after tx (seen ++ docs)) := by
  induction htexts generalizing seen with
  | nil => rw [List.append_nil]; rfl
  | @cons text d texts docs hdecode _ ih =>
    rw [List.forall_mem_cons] at htx hsize hfuel
    have hstep := @combineText_next mode fuel d text hdecode hsize.1 hfuel.1 seen
    rw [htx.1] at hstep
    have hrest := ih htx.2 hsize.2 hfuel.2 (seen ++ [d])
    rw [List.append_assoc] at hrest
    exact foldlM_cons_eq_ok.mpr ⟨_, hstep, hrest⟩

end Loop

/-! ## The combined document -/

def signatureEntry (entry : String × String) : Option PsbtEntry :=
  match hexDecode entry.1, hexDecode entry.2 with
  | some pubkeyBytes, some sigBytes => some ⟨0x02, pubkeyBytes, sigBytes⟩
  | _, _ => none

def signatureEntries (signatures : Finmap fun _ : String => String) : List PsbtEntry :=
  (inOrder signatures).filterMap signatureEntry

def combined (tx : UnsignedTx) (docs : List PsbtDocument) : PsbtDocument where
  tx := tx
  before := []
  after := []
  inputs := (unionSignatures tx.inputs.length docs).map signatureEntries
  outputs := List.replicate tx.outputs.length []
  before_type := noEntries_keyType
  after_type := noEntries_keyType
  inputs_length := by simp [unionSignatures]
  outputs_length := (PsbtDocument.bare tx).outputs_length

theorem flatMap_writeSignature (signatures : Finmap fun _ : String => String) :
    (inOrder signatures).flatMap (fun entry => Combination.writeSignature entry.1 entry.2) =
      (signatureEntries signatures).flatMap PsbtEntry.write := by
  rw [signatureEntries]
  induction inOrder signatures with
  | nil => rfl
  | cons entry entries ih =>
    rw [List.flatMap_cons, List.filterMap_cons, ih, Combination.writeSignature, signatureEntry]
    cases hexDecode entry.1 with
    | none => rfl
    | some pubkeyBytes =>
      cases hexDecode entry.2 with
      | none => rfl
      | some sigBytes =>
        dsimp only
        rw [List.flatMap_cons, PsbtEntry.write, Nat.add_comm 1]
        rfl

theorem combinedPsbt_after (tx : UnsignedTx) (docs : List PsbtDocument) :
    (Combination.after tx docs).combinedPsbt = (combined tx docs).write := by
  have hinputs : (unionSignatures tx.inputs.length docs).flatMap (fun inputSigMap =>
      (inOrder inputSigMap).flatMap (fun entry => Combination.writeSignature entry.1 entry.2) ++
        [0x00]) = (combined tx docs).inputs.flatMap writePsbtMap := by
    rw [combined, List.flatMap_map]
    refine List.flatMap_congr fun signatures _ => ?_
    rw [flatMap_writeSignature, writePsbtMap]
  have houtputs : (combined tx docs).outputs.flatMap writePsbtMap =
      List.replicate tx.outputs.length 0x00 := flatMap_writePsbtMap_replicate _
  rw [Combination.combinedPsbt, Combination.after, hinputs, PsbtDocument.write, houtputs]
  simp [PsbtDocument.globalMap, combined, writePsbtMap, PsbtEntry.write]
  rfl

section Combined

variable {tx : UnsignedTx} {docs : List PsbtDocument}

variable {signatures : Finmap fun _ : String => String}

/-- The keys and values of a map are hexadecimal texts. -/
def HexEntries (signatures : Finmap fun _ : String => String) : Prop :=
  ∀ key signature, signatures.lookup key = some signature →
    ∃ pubkeyBytes sigBytes, hexText pubkeyBytes = key ∧ hexText sigBytes = signature

theorem hexEntries_unionAll (docs : List PsbtDocument) (i : Nat) :
    HexEntries (unionAll (docs.map (·.signaturesAt i))) := by
  intro key signature h
  obtain ⟨_, hmem, hlookup⟩ := exists_lookup_of_unionAll h
  obtain ⟨d, -, rfl⟩ := List.mem_map.mp hmem
  obtain ⟨e, -, -, hkey, hvalue⟩ := exists_of_lookup_signaturesIn hlookup
  exact ⟨e.keyData, e.value, hkey, hvalue⟩

theorem signatureEntry_hexText (pubkeyBytes sigBytes : Bytes) :
    signatureEntry (hexText pubkeyBytes, hexText sigBytes) =
      some ⟨0x02, pubkeyBytes, sigBytes⟩ := by
  rw [signatureEntry, hexText, hexText, hexDecode_hexEncode, hexDecode_hexEncode]

theorem signs_signatureEntries (hhex : HexEntries signatures) {key signature : String} :
    (∃ e ∈ signatureEntries signatures, e.Signs key signature) ↔
      signatures.lookup key = some signature := by
  constructor
  · rintro ⟨e, he, -, rfl, rfl⟩
    obtain ⟨⟨key, signature⟩, hmem, hentry⟩ := List.mem_filterMap.mp he
    have hlookup := mem_inOrder.mp hmem
    obtain ⟨pubkeyBytes, sigBytes, rfl, rfl⟩ := hhex key signature hlookup
    rw [signatureEntry_hexText] at hentry
    cases hentry
    exact hlookup
  · intro h
    obtain ⟨pubkeyBytes, sigBytes, rfl, rfl⟩ := hhex key signature h
    refine ⟨⟨0x02, pubkeyBytes, sigBytes⟩, ?_, rfl, rfl, rfl⟩
    exact List.mem_filterMap.mpr ⟨_, mem_inOrder.mpr h, signatureEntry_hexText _ _⟩

theorem signaturesIn_signatureEntries
    (hhex : HexEntries signatures) : signaturesIn (signatureEntries signatures) = signatures := by
  apply Finmap.ext_lookup
  intro key
  ext signature
  rw [lookup_signaturesIn_iff, signs_signatureEntries hhex]
  intro e he e' he' signature signature' hsigns hsigns'
  have hfirst := (signs_signatureEntries hhex).mp ⟨e, he, hsigns⟩
  rw [(signs_signatureEntries hhex).mp ⟨e', he', hsigns'⟩, Option.some.injEq] at hfirst
  exact hfirst.symm

theorem signaturesAt_eq_empty {d : PsbtDocument} {i : Nat} (h : d.tx.inputs.length ≤ i) :
    d.signaturesAt i = ∅ := by
  rw [PsbtDocument.signaturesAt, List.getD_eq_default _ _ (by rw [d.inputs_length]; exact h)]
  rfl

theorem inputs_combined {i : Nat} (hi : i < tx.inputs.length) :
    (combined tx docs).inputs.getD i [] =
      signatureEntries (unionAll (docs.map (·.signaturesAt i))) := by
  rw [combined, List.getD_eq_getElem?_getD, List.getElem?_map, unionSignatures, List.getElem?_map,
    List.getElem?_range hi, Option.map_some, Option.map_some, Option.getD_some]

theorem signaturesAt_combined (htx : ∀ d ∈ docs, d.tx = tx) (i : Nat) :
    (combined tx docs).signaturesAt i = unionAll (docs.map (·.signaturesAt i)) := by
  by_cases hi : i < tx.inputs.length
  · rw [PsbtDocument.signaturesAt, inputs_combined hi,
      signaturesIn_signatureEntries (hexEntries_unionAll docs i)]
  · rw [signaturesAt_eq_empty (Nat.not_lt.mp hi)]
    apply Finmap.ext_lookup
    intro key
    cases hlookup : (unionAll (docs.map (·.signaturesAt i))).lookup key with
    | none => rfl
    | some signature =>
      obtain ⟨_, hmem, hfound⟩ := exists_lookup_of_unionAll hlookup
      obtain ⟨d, hd, rfl⟩ := List.mem_map.mp hmem
      rw [signaturesAt_eq_empty (by rw [htx d hd]; exact Nat.not_lt.mp hi),
        Finmap.lookup_empty] at hfound
      cases hfound

end Combined

/-! ## The union -/

/-- No input has two different signatures of one public key. -/
def SignaturesAgree (docs : List PsbtDocument) : Prop :=
  ∀ d ∈ docs, ∀ d' ∈ docs, ∀ i key signature signature',
    d.Signs i key signature → d'.Signs i key signature' → signature = signature'

/-- The first parameter of a request is an array, and the texts in it encode the documents. -/
structure RequestsCombination (docs : List PsbtDocument) (params : List Json) :
    Prop where
  encodes : ∃ items texts, params[0]? = some (.array items) ∧ items.filterMap Json.asStr = texts ∧
    List.Forall₂ (fun text d => proxyBase64.decode text = some d.write) texts docs

section Union

variable {tx : UnsignedTx} {docs docs' : List PsbtDocument} (hagree : SignaturesAgree docs)
  {i : Nat} {key signature : String}
include hagree

theorem lookup_signaturesAt_iff {d : PsbtDocument} (hd : d ∈ docs) :
    (d.signaturesAt i).lookup key = some signature ↔ d.Signs i key signature := by
  refine lookup_signaturesIn_iff fun e he e' he' signature signature' hsigns hsigns' => ?_
  exact hagree d hd d hd i key signature signature' ⟨e, he, hsigns⟩ ⟨e', he', hsigns'⟩

theorem exists_lookup_signaturesAt_iff :
    (∃ signatures ∈ docs.map (·.signaturesAt i), signatures.lookup key = some signature) ↔
      ∃ d ∈ docs, d.Signs i key signature := by
  constructor
  · rintro ⟨signatures, hmem, hlookup⟩
    obtain ⟨d, hd, rfl⟩ := List.mem_map.mp hmem
    exact ⟨d, hd, (lookup_signaturesAt_iff hagree hd).mp hlookup⟩
  · rintro ⟨d, hd, hsigns⟩
    exact ⟨d.signaturesAt i, List.mem_map_of_mem hd, (lookup_signaturesAt_iff hagree hd).mpr hsigns⟩

theorem agree_signaturesAt (i : Nat) : Agree (docs.map (·.signaturesAt i)) := by
  intro first hfirst second hsecond key signature signature' h h'
  obtain ⟨d, hd, rfl⟩ := List.mem_map.mp hfirst
  obtain ⟨d', hd', rfl⟩ := List.mem_map.mp hsecond
  exact hagree d hd d' hd' i key signature signature' ((lookup_signaturesAt_iff hagree hd).mp h)
    ((lookup_signaturesAt_iff hagree hd').mp h')

theorem lookup_unionAll_signatures :
    (unionAll (docs.map (·.signaturesAt i))).lookup key = some signature ↔
      ∃ d ∈ docs, d.Signs i key signature :=
  (lookup_unionAll_iff (agree_signaturesAt hagree i)).trans (exists_lookup_signaturesAt_iff hagree)

theorem write_combined_eq (h : ∀ i key signature,
      (∃ signatures ∈ docs'.map (·.signaturesAt i), signatures.lookup key = some signature) ↔
        ∃ signatures ∈ docs.map (·.signaturesAt i), signatures.lookup key = some signature) :
    (combined tx docs').write = (combined tx docs).write := by
  have hunion : unionSignatures tx.inputs.length docs' = unionSignatures tx.inputs.length docs :=
    List.map_congr_left fun i _ => unionAll_eq (agree_signaturesAt hagree i) (h i)
  rw [← combinedPsbt_after, ← combinedPsbt_after, Combination.after, Combination.after, hunion]

theorem write_combined_again (htx : ∀ d ∈ docs, d.tx = tx)
    (hmem : combined tx docs ∈ docs') (hgiven : ∀ d ∈ docs', d = combined tx docs ∨ d ∈ docs) :
    (combined tx docs').write = (combined tx docs).write := by
  refine write_combined_eq hagree fun i key signature => ?_
  rw [← lookup_unionAll_iff (agree_signaturesAt hagree i)]
  constructor
  · rintro ⟨_, hsignatures, hlookup⟩
    obtain ⟨d, hd, rfl⟩ := List.mem_map.mp hsignatures
    rcases hgiven d hd with rfl | hd
    · rwa [signaturesAt_combined htx] at hlookup
    · exact (lookup_unionAll_iff (agree_signaturesAt hagree i)).mpr
        ⟨_, List.mem_map_of_mem hd, hlookup⟩
  · intro hlookup
    refine ⟨_, List.mem_map_of_mem hmem, ?_⟩
    rwa [signaturesAt_combined htx]

end Union

theorem handleCombinepsbt_eq {mode : Overflow} {fuel : Nat} {tx : UnsignedTx}
    {docs : List PsbtDocument} {params : List Json} (hne : docs ≠ [])
    (htx : ∀ d ∈ docs, d.tx = tx) (hsize : ∀ d ∈ docs, d.write.length < 2 ^ 63)
    (hfuel : ∀ d ∈ docs, d.write.length < fuel) (hparams : RequestsCombination docs params) :
    handleCombinepsbt mode fuel params = .ok (proxyBase64.encode (combined tx docs).write) := by
  obtain ⟨_, texts, hitems, htexts, hencode⟩ := hparams.encodes
  have hfold : texts.foldlM (combineText mode fuel) .start = .ok (.after tx docs) := by
    cases hencode with
    | nil => exact absurd rfl hne
    | @cons text d texts docs hdecode hrest =>
      rw [List.forall_mem_cons] at htx hsize hfuel
      have hfirst := @combineText_first mode fuel d text hdecode hsize.1 hfuel.1
      rw [htx.1] at hfirst
      exact foldlM_cons_eq_ok.mpr ⟨_, hfirst, foldlM_combineText htx.2 hsize.2 hfuel.2 hrest [d]⟩
  have htextsNe : (texts != []) = true := by
    rw [bne_iff_ne]
    rintro rfl
    cases hencode
    exact hne rfl
  rw [handleCombinepsbt, hitems, Option.bind_some, Json.asArray, okOr, ok_bind, htexts,
    bind_of_eq_ok ((ensure_eq_ok (u := ())).mpr htextsNe), hfold, ok_bind,
    ← combinedPsbt_after]
  rfl

/-! ## The size of the result -/

theorem length_writePsbtMap (entries : List PsbtEntry) :
    (writePsbtMap entries).length = (entries.map (·.write.length)).sum + 1 := by
  rw [writePsbtMap, List.length_append, List.length_flatMap]
  rfl

def PsbtDocument.inputLength (d : PsbtDocument) (i : Nat) : Nat :=
  ((d.inputs.getD i []).map (·.write.length)).sum

theorem PsbtDocument.length_inputs (d : PsbtDocument) : (d.inputs.flatMap writePsbtMap).length =
      ((List.range d.tx.inputs.length).map d.inputLength).sum + d.tx.inputs.length := by
  have hlength : ∀ i, (writePsbtMap (d.inputs.getD i [])).length = d.inputLength i + 1 :=
    fun _ => length_writePsbtMap _
  simp only [List.length_flatMap, d.map_inputs, hlength, List.sum_map_add]
  simp

theorem sum_map_le_of_nodup {α : Type} {items items' : List α} (weight : α → Nat)
    (hnodup : items.Nodup) (hsubset : items ⊆ items') :
    (items.map weight).sum ≤ (items'.map weight).sum := by
  obtain ⟨_, hperm, hsub⟩ := List.subperm_of_subset hnodup hsubset
  rw [← (hperm.map weight).sum_eq]
  exact (hsub.map weight).sum_le_sum (by simp)

theorem nodup_signatureEntries {signatures : Finmap fun _ : String => String}
    (hhex : HexEntries signatures) : (signatureEntries signatures).Nodup := by
  rw [signatureEntries, List.Nodup, List.pairwise_filterMap]
  refine (List.pairwise_map.mp (nodup_keys_inOrder signatures)).imp_of_mem ?_
  rintro ⟨key, signature⟩ ⟨key', signature'⟩ hmem hmem' hne e he _ he' rfl
  obtain ⟨_, _, rfl, rfl⟩ := hhex key signature (mem_inOrder.mp hmem)
  obtain ⟨_, _, rfl, rfl⟩ := hhex key' signature' (mem_inOrder.mp hmem')
  rw [signatureEntry_hexText] at he he'
  cases he
  cases he'
  exact hne rfl

theorem signatureEntries_subset {docs : List PsbtDocument} (hagree : SignaturesAgree docs)
    (i : Nat) : signatureEntries (unionAll (docs.map (·.signaturesAt i))) ⊆
      docs.flatMap (·.inputs.getD i []) := by
  intro e he
  obtain ⟨⟨_, _⟩, hmem, hentry⟩ := List.mem_filterMap.mp he
  obtain ⟨d, hd, _, he', htype, rfl, rfl⟩ :=
    (lookup_unionAll_signatures hagree).mp (mem_inOrder.mp hmem)
  rw [signatureEntry_hexText, ← htype] at hentry
  cases hentry
  exact List.mem_flatMap.mpr ⟨d, hd, he'⟩

theorem inputLength_combined_le {tx : UnsignedTx} {docs : List PsbtDocument}
    (hagree : SignaturesAgree docs) {i : Nat} (hi : i < tx.inputs.length) :
    (combined tx docs).inputLength i ≤ (docs.map (·.inputLength i)).sum := by
  have hflat : (docs.map (·.inputLength i)).sum =
      ((docs.flatMap (·.inputs.getD i [])).map (·.write.length)).sum := by
    rw [List.map_flatMap, List.flatMap_def, List.sum_flatten, List.map_map]
    rfl
  rw [PsbtDocument.inputLength, inputs_combined hi, hflat]
  exact sum_map_le_of_nodup _ (nodup_signatureEntries (hexEntries_unionAll docs i))
    (signatureEntries_subset hagree i)

theorem sum_inputLength_swap (count : Nat) (docs : List PsbtDocument) :
    ((List.range count).map fun i => (docs.map (·.inputLength i)).sum).sum =
      (docs.map fun d => ((List.range count).map d.inputLength).sum).sum := by
  induction docs with
  | nil => simp
  | cons d docs ih => simp only [List.map_cons, List.sum_cons, List.sum_map_add, ih]

/-- The bytes of a document without the entries of its inputs, and without those that the global
map and the outputs need not have. -/
def frameLength (tx : UnsignedTx) : Nat :=
  5 + (writePsbtMap [⟨0x00, [], tx.write⟩]).length + tx.inputs.length + tx.outputs.length

theorem PsbtDocument.frameLength_le (d : PsbtDocument) :
    frameLength d.tx + ((List.range d.tx.inputs.length).map d.inputLength).sum ≤
      d.write.length := by
  have hglobal : (writePsbtMap [⟨0x00, [], d.tx.write⟩]).length ≤
      (writePsbtMap d.globalMap).length := by
    simp only [length_writePsbtMap, PsbtDocument.globalMap, List.map_append, List.map_cons,
      List.sum_append, List.sum_cons, List.map_nil, List.sum_nil]
    omega
  have houtputs : d.outputs.length ≤ (d.outputs.flatMap writePsbtMap).length :=
    length_le_flatMap fun entries _ => by
      rw [length_writePsbtMap]
      omega
  have hlength := length_of_drop d.drop_write d.magic_le
  rw [List.length_append, d.length_inputs] at hlength
  rw [d.outputs_length] at houtputs
  rw [frameLength]
  omega

theorem length_combined (tx : UnsignedTx) (docs : List PsbtDocument) :
    (combined tx docs).write.length = frameLength tx +
      ((List.range tx.inputs.length).map (combined tx docs).inputLength).sum := by
  have hlength := length_of_drop (combined tx docs).drop_write (combined tx docs).magic_le
  have houtputs : (combined tx docs).outputs.flatMap writePsbtMap =
      List.replicate tx.outputs.length 0x00 := flatMap_writePsbtMap_replicate _
  rw [List.length_append, PsbtDocument.length_inputs, houtputs, List.length_replicate] at hlength
  rw [← hlength, frameLength]
  rw [show (combined tx docs).globalMap = [⟨0x00, [], tx.write⟩] from rfl,
    show (combined tx docs).tx = tx from rfl]
  omega

theorem length_combined_le {tx : UnsignedTx} {docs : List PsbtDocument} (hne : docs ≠ [])
    (htx : ∀ d ∈ docs, d.tx = tx) (hagree : SignaturesAgree docs) :
    (combined tx docs).write.length ≤ (docs.map (·.write.length)).sum := by
  have hframe : ∀ d ∈ docs, frameLength tx + ((List.range tx.inputs.length).map d.inputLength).sum ≤
      d.write.length := by
    intro d hd
    rw [← htx d hd]
    exact d.frameLength_le
  have hinputs : ((List.range tx.inputs.length).map (combined tx docs).inputLength).sum ≤
      (docs.map fun d => ((List.range tx.inputs.length).map d.inputLength).sum).sum := by
    rw [← sum_inputLength_swap]
    refine List.sum_le_sum fun i hi => ?_
    exact inputLength_combined_le hagree (List.mem_range.mp hi)
  rw [length_combined]
  cases docs with
  | nil => exact absurd rfl hne
  | cons d docs =>
    have hrest : (docs.map fun d => ((List.range tx.inputs.length).map d.inputLength).sum).sum ≤
        (docs.map (·.write.length)).sum := by
      refine List.sum_le_sum fun d' hd' => ?_
      have := hframe d' (List.mem_cons_of_mem d hd')
      omega
    have hfirst := hframe d List.mem_cons_self
    rw [List.map_cons, List.sum_cons] at hinputs
    rw [List.map_cons, List.sum_cons]
    omega

/-- Combining well-formed PSBTs of one transaction whose signatures do not contradict each other
is a union: it succeeds, the result has the transaction and for each input exactly the signatures
of the given PSBTs, in whatever order and however often they are given, and it absorbs them. -/
theorem combinepsbt_is_union {tx : UnsignedTx} {docs : List PsbtDocument}
    (hne : docs ≠ []) (htx : ∀ d ∈ docs, d.tx = tx) (hagree : SignaturesAgree docs)
    (htotal : (docs.map (·.write.length)).sum < 2 ^ 63) :
    ∃ R : PsbtDocument, (∀ docs' params mode fuel, (∀ d, d ∈ docs' ↔ d ∈ docs) →
        RequestsCombination docs' params → (∀ d ∈ docs', d.write.length < fuel) →
          handleCombinepsbt mode fuel params = .ok (proxyBase64.encode R.write)) ∧
      (∀ mode fuel, R.write.length < fuel →
        extractUnsignedTxHex mode fuel R.write = .ok (hexText tx.write) ∧
        parsePsbtUnsignedTx mode fuel R.write = .ok tx.parsed ∧
        ∃ infos, parsePsbtInputMaps mode fuel R.write tx.inputs.length = .ok infos ∧
          infos.length = tx.inputs.length ∧
          ∀ i info, infos[i]? = some info → ∀ key signature,
            info.partialSignatures.lookup key = some signature ↔
              ∃ d ∈ docs, d.Signs i key signature) ∧
      ∀ docs' params mode fuel, R ∈ docs' → (∀ d ∈ docs', d = R ∨ d ∈ docs) →
        RequestsCombination docs' params → (∀ d ∈ docs', d.write.length < fuel) →
          handleCombinepsbt mode fuel params = .ok (proxyBase64.encode R.write) := by
  have hsize : ∀ d ∈ docs, d.write.length < 2 ^ 63 := by
    intro d hd
    have hmem : d.write.length ∈ docs.map (·.write.length) := List.mem_map_of_mem hd
    exact Nat.lt_of_le_of_lt (List.le_sum_of_mem hmem) htotal
  have hresult : (combined tx docs).write.length < 2 ^ 63 :=
    Nat.lt_of_le_of_lt (length_combined_le hne htx hagree) htotal
  refine ⟨combined tx docs, ?_, ?_, ?_⟩
  · intro docs' params mode fuel hmem hparams hfuel
    have hne' : docs' ≠ [] := by
      rintro rfl
      obtain ⟨d, hd⟩ := List.exists_mem_of_ne_nil docs hne
      exact List.not_mem_nil ((hmem d).mpr hd)
    have hsame : (combined tx docs').write = (combined tx docs).write := by
      refine write_combined_eq hagree fun i key signature => ?_
      simp only [List.mem_map, hmem]
    rw [← hsame]
    exact handleCombinepsbt_eq hne' (fun d hd => htx d ((hmem d).mp hd))
      (fun d hd => hsize d ((hmem d).mp hd)) hfuel hparams
  · intro mode fuel hfuel
    refine ⟨PsbtDocument.extractUnsignedTxHex_write hresult hfuel,
      PsbtDocument.parsePsbtUnsignedTx_write hresult hfuel, _,
      PsbtDocument.parsePsbtInputMaps_write hresult hfuel, ?_, ?_⟩
    · rw [List.length_map]
      exact (combined tx docs).inputs_length
    · intro i info hinfo key signature
      rw [List.getElem?_map] at hinfo
      obtain ⟨entries, hentries, rfl⟩ := Option.map_eq_some_iff.mp hinfo
      have hat : (psbtInputOf entries).partialSignatures = (combined tx docs).signaturesAt i := by
        rw [PsbtDocument.signaturesAt, List.getD_eq_getElem?_getD, hentries, Option.getD_some,
          signaturesIn]
      rw [hat, signaturesAt_combined htx]
      exact lookup_unionAll_signatures hagree
  · intro docs' params mode fuel hmem hgiven hparams hfuel
    have hne' : docs' ≠ [] := List.ne_nil_of_mem hmem
    rw [← write_combined_again hagree htx hmem hgiven]
    refine handleCombinepsbt_eq hne' (fun d hd => ?_) (fun d hd => ?_) hfuel hparams
    · rcases hgiven d hd with rfl | hd
      · rfl
      · exact htx d hd
    · rcases hgiven d hd with rfl | hd
      · exact hresult
      · exact hsize d hd

def sampleSigned (pubkeyBytes sigBytes : Bytes) : PsbtDocument where
  tx := ⟨2, [⟨List.replicate 32 0x00, 0, 0, Eq.refl 32⟩], [], 0⟩
  before := []
  after := []
  inputs := [[⟨0x02, pubkeyBytes, sigBytes⟩]]
  outputs := []
  before_type := noEntries_keyType
  after_type := noEntries_keyType
  inputs_length := rfl
  outputs_length := rfl

theorem signs_sampleSigned {pubkeyBytes sigBytes : Bytes} {i : Nat} {key signature : String}
    (h : (sampleSigned pubkeyBytes sigBytes).Signs i key signature) :
    i = 0 ∧ hexText pubkeyBytes = key ∧ hexText sigBytes = signature := by
  obtain ⟨e, he, -, hkey, hvalue⟩ := h
  cases i with
  | zero =>
    cases List.mem_singleton.mp he
    exact ⟨rfl, hkey, hvalue⟩
  | succ i => cases he

/-- Two signers of one input, in either order. -/
theorem combinepsbt_is_union_pair : ∃ R : PsbtDocument, handleCombinepsbt .panics 200 [.array [
        .string (proxyBase64.encode (sampleSigned [1] [9]).write),
        .string (proxyBase64.encode (sampleSigned [2] [8]).write)]] =
          .ok (proxyBase64.encode R.write) ∧
      handleCombinepsbt .panics 200 [.array [
        .string (proxyBase64.encode (sampleSigned [2] [8]).write),
        .string (proxyBase64.encode (sampleSigned [1] [9]).write)]] =
          .ok (proxyBase64.encode R.write) ∧
      ∃ info, parsePsbtInputMaps .panics (R.write.length + 1) R.write 1 = .ok [info] ∧
        info.partialSignatures.lookup "01" = some "09" ∧
        info.partialSignatures.lookup "02" = some "08" := by
  set docs := [sampleSigned [1] [9], sampleSigned [2] [8]] with hdocs
  have hsigns : ∀ d ∈ docs, ∀ i key signature, d.Signs i key signature →
      key = "01" ∧ signature = "09" ∨ key = "02" ∧ signature = "08" := by
    intro d hd i key signature h
    rcases List.mem_pair.mp hd with rfl | rfl
    · obtain ⟨-, rfl, rfl⟩ := signs_sampleSigned h
      exact .inl ⟨by decide, by decide⟩
    · obtain ⟨-, rfl, rfl⟩ := signs_sampleSigned h
      exact .inr ⟨by decide, by decide⟩
  have hagree : SignaturesAgree docs := by
    intro d hd d' hd' i key signature signature' h h'
    rcases hsigns d hd i key signature h with ⟨rfl, rfl⟩ | ⟨rfl, rfl⟩
    · rcases hsigns d' hd' i "01" signature' h' with ⟨-, rfl⟩ | ⟨hkey, -⟩
      · rfl
      · exact absurd hkey (by decide)
    · rcases hsigns d' hd' i "02" signature' h' with ⟨hkey, -⟩ | ⟨-, rfl⟩
      · exact absurd hkey (by decide)
      · rfl
  obtain ⟨R, hcombine, hparse, -⟩ := @combinepsbt_is_union (sampleSigned [1] [9]).tx docs
    (by simp [hdocs]) (by simp [hdocs, sampleSigned]) hagree (by decide)
  have hfuel : ∀ d ∈ docs, d.write.length < 200 := by
    intro d hd
    rcases List.mem_pair.mp hd with rfl | rfl
    · decide
    · decide
  obtain ⟨-, -, _, hinfos, hlength, hlookup⟩ := hparse .panics (R.write.length + 1)
    (Nat.lt_succ_self _)
  obtain ⟨info, rfl⟩ := List.length_eq_one_iff.mp hlength
  refine ⟨R, ?_, ?_, info, hinfos, ?_, ?_⟩
  · exact hcombine docs _ .panics 200 (fun d => Iff.rfl)
      ⟨_, _, rfl, rfl, .cons (proxyBase64.decode_encode _)
        (.cons (proxyBase64.decode_encode _) .nil)⟩ hfuel
  · refine hcombine docs.reverse _ .panics 200 (fun d => List.mem_reverse)
      ⟨_, _, rfl, rfl, .cons (proxyBase64.decode_encode _)
        (.cons (proxyBase64.decode_encode _) .nil)⟩ fun d hd => ?_
    exact hfuel d (List.mem_reverse.mp hd)
  · exact (hlookup 0 info rfl "01" "09").mpr ⟨sampleSigned [1] [9], by simp [hdocs],
      ⟨0x02, [1], [9]⟩, List.mem_singleton_self _, rfl, by decide, by decide⟩
  · exact (hlookup 0 info rfl "02" "08").mpr ⟨sampleSigned [2] [8], by simp [hdocs],
      ⟨0x02, [2], [8]⟩, List.mem_singleton_self _, rfl, by decide, by decide⟩

end BitInfinity.Proxy
