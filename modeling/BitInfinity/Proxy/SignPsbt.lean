import BitInfinity.Proxy.CombinePsbt
import BitInfinity.Proxy.Wallet
import BitInfinity.Proxy.WalletSends

/-!
# `walletprocesspsbt`

The handler signs every input with the first usable key of the wallet.  It copies the global map
and writes new input maps, which hold its own signature only: what other signers had put there is
gone.
-/

namespace BitInfinity.Proxy

open BitInfinity Foundation

/-! ## The handler -/

/-- The signature library of the handler makes DER signatures of digests. -/
structure PsbtExternals extends ProxyExternals where
  signEcdsa : (secret digest : Bytes) → Bytes

def signerOf (S : PsbtExternals) (entry : KeyEntry) : Option SignerMaterial := do
  let pubkeyBytes ← hexDecode entry.publicKeyCompressedHex
  let skBytes ← entry.privateKeyBytes.toOption
  let secretKey ← (secretKeyFromSlice S.toProxyExternals skBytes).toOption
  some ⟨pubkeyBytes, S.signEcdsa secretKey⟩

/-- The first usable key, in the order in which the hash map lists the addresses. -/
def psbtSignerMaterial (S : PsbtExternals) (ks : Keystore) (addresses : List String) :
    Option SignerMaterial :=
  addresses.findSome? fun addr => (ks.get addr).bind (signerOf S)

structure ProcessedPsbt where
  psbt : String
  complete : Bool
  deriving DecidableEq, Repr

section Handler

variable (mode : Overflow) (fuel : Nat) (S : PsbtExternals) (s : RpcState)

def processPsbt (addresses : List String) (psbtB64 : String) (psbtBytes : Bytes) :
    Except PsbtFailure ProcessedPsbt := do
  ensure (psbtBytes.take 5 == psbtMagic) (.error ⟨-22, "Invalid PSBT: missing magic bytes"⟩)
  let unsignedTxHex ← (extractUnsignedTxHex mode fuel psbtBytes).mapError .halt
  ensure (unsignedTxHex != "") (.error ⟨-22, "Could not extract unsigned tx from PSBT"⟩)
  let (signedPsbt, complete) ← (buildSignedPsbt mode S.toCrypto fuel psbtBytes
    (psbtSignerMaterial S s.keystore addresses)).mapError .halt
  if complete then .ok ⟨proxyBase64.encode signedPsbt, true⟩ else .ok ⟨psbtB64, false⟩

def handleWalletprocesspsbt (addresses : List String) (psbt : Option String) :
    Except PsbtFailure ProcessedPsbt := do
  s.ensureWalletUsable.mapError .error
  let psbtB64 ← okOr psbt (.error ⟨-32602, "Missing PSBT parameter"⟩)
  let psbtBytes ← okOr (proxyBase64.decode psbtB64) (.error ⟨-22, "Invalid PSBT base64"⟩)
  processPsbt mode fuel S s addresses psbtB64 psbtBytes

end Handler

/-! ## The signed document -/

section Signed

variable (C : Crypto) (signer : SignerMaterial)

def sighashOf (tx : UnsignedTx) (inputIdx : Nat) : Bytes :=
  C.sha256 (C.sha256 ((hexText tx.write).toUTF8.data.toList ++ writeLE 4 inputIdx ++ writeLE 4 1))

def signedMap (tx : UnsignedTx) (inputIdx : Nat) : List PsbtEntry :=
  [⟨0x02, signer.pubkeyBytes, signer.signEcdsa (sighashOf C tx inputIdx) ++ [0x01]⟩,
    ⟨0x03, [], writeLE 4 1⟩]

def signedDocument (d : PsbtDocument) : PsbtDocument where
  tx := d.tx
  before := d.before
  after := d.after
  inputs := (List.range d.tx.inputs.length).map (signedMap C signer d.tx)
  outputs := List.replicate d.tx.outputs.length []
  before_type := d.before_type
  after_type := d.after_type
  inputs_length := by simp
  outputs_length := List.length_replicate

theorem writePsbtMap_signedMap (tx : UnsignedTx) (inputIdx : Nat) :
    writePsbtMap (signedMap C signer tx inputIdx) =
      signedEntries C signer (hexText tx.write) inputIdx ++ [0x00] := by
  rw [signedEntries, Nat.add_comm 1]
  simp [writePsbtMap, signedMap, PsbtEntry.write, sighashOf, writeCompactSize, length_writeLE]

end Signed

section Writing

variable {bytes rest : Bytes} (hbytes : bytes.length < 2 ^ 63) {p : Nat} {mode : Overflow}
  {fuel : Nat}
include hbytes

theorem copyGlobalMap_of_drop {entries : List PsbtEntry} (result : Bytes) (hp : p ≤ bytes.length)
    (h : bytes.drop p = writePsbtMap entries ++ rest) (hfuel : bytes.length < p + fuel) :
    copyGlobalMap mode bytes fuel p result =
      .ok (result ++ writePsbtMap entries, p + (writePsbtMap entries).length) := by
  induction entries generalizing p result fuel with
    obtain ⟨fuel, rfl⟩ := Nat.exists_eq_succ_of_ne_zero (by omega : fuel ≠ 0)
  | nil =>
    obtain ⟨hlt, hzero, hstart⟩ := separator_of_drop hp h
    rw [copyGlobalMap_step hbytes hlt, if_pos hzero, hstart]
    rfl
  | cons e entries ih =>
    obtain ⟨hfirst, hrest⟩ := drop_writePsbtMap_cons h
    have hentry := entryAt_of_drop hbytes hp hfirst
    have hle := hentry.entryEnd_le
    have hend := hentry.entryEnd_eq
    have hkeyEnd := lt_fieldEnd bytes p
    have hstep := lt_entryEnd bytes p
    have hvalStart := fieldStart_le_entryEnd bytes p
    have hslice : slice bytes p (entryEnd bytes p) = .ok e.write := by
      rw [slice_eq (by omega) hle, hend, Nat.add_sub_cancel_left, take_of_drop hfirst]
    have hlast := @ih _ fuel (result ++ e.write) (by omega) hrest (by omega)
    rw [copyGlobalMap_step hbytes hentry.lt_length, if_neg hentry.keyLength_ne,
      add_field (by omega), ok_bind, add_start (by omega), ok_bind, add_value (by omega), ok_bind,
      hslice, ok_bind, hend, hlast, length_writePsbtMap_cons, ← Nat.add_assoc, List.append_assoc,
      writePsbtMap, writePsbtMap, List.flatMap_cons, List.append_assoc]

theorem signInputMaps_of_drop {C : Crypto} {signer : SignerMaterial} {tx : UnsignedTx}
    (hextract : extractUnsignedTxHex mode fuel bytes = .ok (hexText tx.write))
    {inputs : List (List PsbtEntry)} (inputIdx : Nat) (result : Bytes) (hp : p ≤ bytes.length)
    (h : bytes.drop p = inputs.flatMap writePsbtMap ++ rest) (hfuel : bytes.length < fuel) :
    signInputMaps mode C signer bytes fuel inputs.length inputIdx p result =
      .ok (result ++ ((List.range' inputIdx inputs.length).map (signedMap C signer tx)).flatMap
        writePsbtMap, p + (inputs.flatMap writePsbtMap).length) := by
  induction inputs generalizing inputIdx result p with
  | nil =>
    rw [List.length_nil, signInputMaps]
    simp
  | cons entries inputs ih =>
    have hsplit := drop_flatMap_cons h
    have hlength := length_of_drop hsplit hp
    have hskip := @skipMap_of_drop bytes _ hbytes p mode fuel entries hp hsplit hfuel
    have hrest := ih (inputIdx + 1)
      (result ++ signedEntries C signer (hexText tx.write) inputIdx ++ [0x00]) (by omega)
      (drop_add_of_drop hsplit)
    rw [List.length_cons, signInputMaps, hextract, ok_bind, hskip, ok_bind, hrest,
      List.range'_succ, List.map_cons, List.flatMap_cons, List.flatMap_cons, List.length_append,
      Nat.add_assoc, writePsbtMap_signedMap]
    simp only [List.append_assoc]

theorem clearOutputMaps_of_drop {outputs : List (List PsbtEntry)} (result : Bytes)
    (hp : p ≤ bytes.length) (h : bytes.drop p = outputs.flatMap writePsbtMap ++ rest)
    (hfuel : bytes.length < fuel) :
    clearOutputMaps mode bytes fuel outputs.length p result =
      .ok (result ++ List.replicate outputs.length 0x00) := by
  induction outputs generalizing result p with
  | nil =>
    rw [List.length_nil, clearOutputMaps]
    simp
  | cons entries outputs ih =>
    have hsplit := drop_flatMap_cons h
    have hlength := length_of_drop hsplit hp
    have hskip := @skipMap_of_drop bytes _ hbytes p mode fuel entries hp hsplit hfuel
    have hrest := ih (result ++ [0x00]) (by omega) (drop_add_of_drop hsplit)
    rw [List.length_cons, clearOutputMaps, hskip, ok_bind, hrest, List.append_assoc,
      List.replicate_succ]
    rfl

end Writing

theorem buildSignedPsbt_write {mode : Overflow} {fuel : Nat} {C : Crypto} {signer : SignerMaterial}
    {d : PsbtDocument} (hsize : d.write.length < 2 ^ 63) (hfuel : d.write.length < fuel) :
    buildSignedPsbt mode C fuel d.write (some signer) =
      .ok ((signedDocument C signer d).write, 0 < d.tx.inputs.length) := by
  have hparse := @PsbtDocument.parsePsbtUnsignedTx_write d mode fuel hsize hfuel
  have hextract := @PsbtDocument.extractUnsignedTxHex_write d mode fuel hsize hfuel
  have hcopy := @copyGlobalMap_of_drop d.write _ hsize 5 mode fuel d.globalMap psbtMagic d.magic_le
    d.drop_write (by omega)
  set copied := psbtMagic ++ writePsbtMap d.globalMap with hcopied
  have hlast : copied.getLast? = some 0x00 := by
    rw [hcopied, writePsbtMap, ← List.append_assoc, List.getLast?_concat]
  have hinputs := @signInputMaps_of_drop d.write _ hsize d.inputsStart mode fuel C signer d.tx
    hextract d.inputs 0 copied d.inputsStart_le d.drop_inputsStart hfuel
  have houtputsDrop := drop_add_of_drop d.drop_inputsStart
  rw [← List.append_nil (d.outputs.flatMap writePsbtMap)] at houtputsDrop
  have hlength := length_of_drop d.drop_inputsStart d.inputsStart_le
  have houtputs := fun result => @clearOutputMaps_of_drop d.write _ hsize _ mode fuel d.outputs
    result (by omega) houtputsDrop hfuel
  rw [d.inputs_length, ← List.range_eq_range'] at hinputs
  rw [d.outputs_length] at houtputs
  have hvin : d.tx.parsed.vin.length = d.tx.inputs.length := List.length_map _
  have hvout : d.tx.parsed.vout.length = d.tx.outputs.length := by simp [UnsignedTx.parsed]
  have hcleared : (signedDocument C signer d).outputs.flatMap writePsbtMap =
      List.replicate d.tx.outputs.length 0x00 := flatMap_writePsbtMap_replicate _
  rw [buildSignedPsbt, hparse, ok_bind]
  dsimp only
  rw [hcopy, ok_bind]
  rw [if_neg (fun h => h hlast), hvin, hvout]
  refine (bind_of_eq_ok hinputs _).trans ?_
  refine (bind_of_eq_ok (houtputs _) _).trans ?_
  rw [PsbtDocument.write, hcleared, hcopied]
  simp only [List.append_assoc]
  rfl

/-! ## What signing keeps -/

/-- The promise to the other signers: a PSBT has the transaction of a document, all its signatures
by keys other than the signer's, and one by the signer for each input. -/
structure KeepsSignatures (C : Crypto) (d : PsbtDocument) (signer : SignerMaterial)
    (psbt : Bytes) : Prop where
  unsignedTx : ∀ mode fuel, psbt.length < fuel →
    extractUnsignedTxHex mode fuel psbt = .ok (hexText d.tx.write) ∧
      parsePsbtUnsignedTx mode fuel psbt = .ok d.tx.parsed
  signatures : ∀ mode fuel, psbt.length < fuel →
    ∃ infos, parsePsbtInputMaps mode fuel psbt d.tx.inputs.length = .ok infos ∧
      infos.length = d.tx.inputs.length ∧
      ∀ i info, infos[i]? = some info →
        (∀ key signature, (d.signaturesAt i).lookup key = some signature →
          key ≠ hexText signer.pubkeyBytes → info.partialSignatures.lookup key = some signature) ∧
        info.partialSignatures.lookup (hexText signer.pubkeyBytes) =
          some (hexText (signer.signEcdsa (sighashOf C d.tx i) ++ [0x01]))

/-- No input has a signature by a key other than the signer's. -/
def NoOtherSigners (d : PsbtDocument) (signer : SignerMaterial) : Prop :=
  ∀ i key signature, (d.signaturesAt i).lookup key = some signature →
    key = hexText signer.pubkeyBytes

section Keeps

variable {C : Crypto} {signer : SignerMaterial} {d : PsbtDocument}

theorem signaturesIn_signedMap (tx : UnsignedTx) (inputIdx : Nat) :
    signaturesIn (signedMap C signer tx inputIdx) =
      (∅ : Finmap fun _ : String => String).insert (hexText signer.pubkeyBytes)
        (hexText (signer.signEcdsa (sighashOf C tx inputIdx) ++ [0x01])) := by
  simp [signaturesIn, psbtInputOf, signedMap, PsbtInput.partialSignatures_withEntry,
    PsbtInput.empty]

theorem keepsSignatures_signedDocument_iff
    (hsize : (signedDocument C signer d).write.length < 2 ^ 63) :
    KeepsSignatures C d signer (signedDocument C signer d).write ↔ NoOtherSigners d signer := by
  have hinputs : ∀ i < d.tx.inputs.length,
      ((signedDocument C signer d).inputs.map psbtInputOf)[i]? =
        some (psbtInputOf (signedMap C signer d.tx i)) := by
    intro i hi
    rw [signedDocument, List.map_map, List.getElem?_map, List.getElem?_range hi]
    rfl
  constructor
  · intro hkeeps i key signature hlookup
    have hi : i < d.tx.inputs.length := by
      by_contra hi
      rw [signaturesAt_eq_empty (Nat.not_lt.mp hi), Finmap.lookup_empty] at hlookup
      cases hlookup
    by_contra hother
    obtain ⟨_, hinfos, -, hall⟩ := hkeeps.signatures .panics
      ((signedDocument C signer d).write.length + 1) (Nat.lt_succ_self _)
    have hparse := @PsbtDocument.parsePsbtInputMaps_write (signedDocument C signer d) .panics
      ((signedDocument C signer d).write.length + 1) hsize (Nat.lt_succ_self _)
    cases hinfos.symm.trans hparse
    have hkept := (hall i _ (hinputs i hi)).1 key signature hlookup hother
    change (signaturesIn (signedMap C signer d.tx i)).lookup key = some signature at hkept
    rw [signaturesIn_signedMap, Finmap.lookup_insert_of_ne _ hother, Finmap.lookup_empty] at hkept
    cases hkept
  · intro hnone
    constructor
    · intro mode fuel hfuel
      exact ⟨PsbtDocument.extractUnsignedTxHex_write hsize hfuel,
        PsbtDocument.parsePsbtUnsignedTx_write hsize hfuel⟩
    · intro mode fuel hfuel
      refine ⟨_, PsbtDocument.parsePsbtInputMaps_write hsize hfuel, ?_, ?_⟩
      · rw [List.length_map]
        exact (signedDocument C signer d).inputs_length
      · intro i info hinfo
        constructor
        · intro key signature hlookup hother
          exact absurd (hnone i key signature hlookup) hother
        · have hi : i < d.tx.inputs.length := by
            obtain ⟨hi, -⟩ := List.getElem?_eq_some_iff.mp hinfo
            rw [List.length_map] at hi
            exact hi.trans_eq (signedDocument C signer d).inputs_length
          rw [hinputs i hi, Option.some.injEq] at hinfo
          rw [← hinfo]
          change (signaturesIn (signedMap C signer d.tx i)).lookup _ = _
          rw [signaturesIn_signedMap, Finmap.lookup_insert]

theorem keepsSignatures_of_no_inputs (hsize : d.write.length < 2 ^ 63)
    (hinputs : d.tx.inputs = []) : KeepsSignatures C d signer d.write := by
  constructor
  · intro mode fuel hfuel
    exact ⟨PsbtDocument.extractUnsignedTxHex_write hsize hfuel,
      PsbtDocument.parsePsbtUnsignedTx_write hsize hfuel⟩
  · intro mode fuel hfuel
    have hnone : d.inputs = [] := by
      rw [← List.length_eq_zero_iff, d.inputs_length, hinputs]
      rfl
    have hparse := @PsbtDocument.parsePsbtInputMaps_write d mode fuel hsize hfuel
    rw [hnone] at hparse
    refine ⟨[], hparse, ?_, ?_⟩
    · rw [hinputs]
      rfl
    · intro i info hinfo
      cases hinfo

end Keeps

section Wallet

variable {mode : Overflow} {fuel : Nat} {S : PsbtExternals} {s : RpcState} {addresses : List String}

theorem exists_psbtSignerMaterial (haddresses : s.keystore.ListsAddresses addresses)
    (hkey : ∃ addr entry signer, s.keystore.get addr = some entry ∧
      signerOf S entry = some signer) :
    ∃ signer, psbtSignerMaterial S s.keystore addresses = some signer ∧
      ∃ addr entry, s.keystore.get addr = some entry ∧ signerOf S entry = some signer := by
  obtain ⟨addr, entry, signer, hget, hsigner⟩ := hkey
  have hmem : addr ∈ addresses :=
    (haddresses.2 addr).mpr (Finmap.lookup_isSome.mp (Option.isSome_iff_exists.mpr ⟨entry, hget⟩))
  have hsome : (psbtSignerMaterial S s.keystore addresses).isSome := by
    rw [psbtSignerMaterial, List.findSome?_isSome_iff]
    refine ⟨addr, hmem, ?_⟩
    rw [hget, Option.bind_some, hsigner]
    rfl
  obtain ⟨first, hfirst⟩ := Option.isSome_iff_exists.mp hsome
  obtain ⟨addr', -, hbind⟩ := List.exists_of_findSome?_eq_some hfirst
  obtain ⟨entry', hget', hsigner'⟩ := Option.bind_eq_some_iff.mp hbind
  exact ⟨first, hfirst, addr', entry', hget', hsigner'⟩

theorem handleWalletprocesspsbt_eq {signer : SignerMaterial} {d : PsbtDocument} {psbtB64 : String}
    (husable : s.ensureWalletUsable = .ok ())
    (hsigner : psbtSignerMaterial S s.keystore addresses = some signer)
    (hdecode : proxyBase64.decode psbtB64 = some d.write) (hsize : d.write.length < 2 ^ 63)
    (hfuel : d.write.length < fuel) :
    handleWalletprocesspsbt mode fuel S s addresses (some psbtB64) =
      .ok (if 0 < d.tx.inputs.length then
        ⟨proxyBase64.encode (signedDocument S.toCrypto signer d).write, true⟩
      else ⟨psbtB64, false⟩) := by
  have hextract := @PsbtDocument.extractUnsignedTxHex_write d mode fuel hsize hfuel
  have hbuild := @buildSignedPsbt_write mode fuel S.toCrypto signer d hsize hfuel
  have hfound : (hexText d.tx.write != "") = true := bne_iff_ne.mpr d.tx.hexText_write_ne
  rw [handleWalletprocesspsbt, husable, Except.mapError, ok_bind, okOr, ok_bind, hdecode, okOr,
    ok_bind, processPsbt, d.take_write,
    bind_of_eq_ok ((ensure_eq_ok (u := ())).mpr (beq_self_eq_true psbtMagic)), hextract,
    Except.mapError, ok_bind, bind_of_eq_ok ((ensure_eq_ok (u := ())).mpr hfound), hsigner, hbuild,
    Except.mapError, ok_bind]
  by_cases h : 0 < d.tx.inputs.length
  · simp [h]
  · simp [h]

/-- Signing keeps the work of the other signers exactly when there are no other signers. -/
theorem walletprocesspsbt_keeps_signatures_iff {d : PsbtDocument} {psbtB64 : String}
    (husable : s.ensureWalletUsable = .ok ()) (haddresses : s.keystore.ListsAddresses addresses)
    (hkey : ∃ addr entry signer, s.keystore.get addr = some entry ∧ signerOf S entry = some signer)
    (hdecode : proxyBase64.decode psbtB64 = some d.write) (hsize : d.write.length < 2 ^ 63)
    (hfuel : d.write.length < fuel)
    (hresult : ∀ signer, psbtSignerMaterial S s.keystore addresses = some signer →
      (signedDocument S.toCrypto signer d).write.length < 2 ^ 63) :
    ∃ signer reply psbt, psbtSignerMaterial S s.keystore addresses = some signer ∧
      (∃ addr entry, s.keystore.get addr = some entry ∧ signerOf S entry = some signer) ∧
      handleWalletprocesspsbt mode fuel S s addresses (some psbtB64) = .ok reply ∧
      proxyBase64.decode reply.psbt = some psbt ∧
      (KeepsSignatures S.toCrypto d signer psbt ↔ NoOtherSigners d signer) := by
  obtain ⟨signer, hsigner, hwallet⟩ := exists_psbtSignerMaterial haddresses hkey
  have hreply := @handleWalletprocesspsbt_eq mode fuel S s addresses signer d psbtB64 husable
    hsigner hdecode hsize hfuel
  by_cases hinputs : 0 < d.tx.inputs.length
  · rw [if_pos hinputs] at hreply
    exact ⟨signer, _, _, hsigner, hwallet, hreply, proxyBase64.decode_encode _,
      keepsSignatures_signedDocument_iff (hresult signer hsigner)⟩
  · -- without inputs the original comes back as incomplete
    rw [if_neg hinputs] at hreply
    have hnil : d.tx.inputs = [] := List.length_eq_zero_iff.mp (by omega)
    refine ⟨signer, _, _, hsigner, hwallet, hreply, hdecode,
      fun _ => ?_, fun _ => keepsSignatures_of_no_inputs hsize hnil⟩
    intro i key signature hlookup
    rw [signaturesAt_eq_empty (by omega), Finmap.lookup_empty] at hlookup
    cases hlookup

end Wallet

def PsbtExternals.sample : PsbtExternals :=
  { ProxyExternals.sample with signEcdsa := fun secret _ => secret }

def samplePsbtKey : KeyPair PsbtExternals.sample.toProxyExternals := .sample rfl

def samplePsbtWallet : RpcState :=
  { RpcState.new "mainnet" .absent (fun _ => none) 0 with
    keystore := Keystore.default.insert "signer" samplePsbtKey.entry }

def samplePsbtSigner : SignerMaterial :=
  ⟨compressPublicKey samplePsbtKey.publicKey, fun _ => samplePsbtKey.secret⟩

theorem get_samplePsbtWallet : samplePsbtWallet.keystore.get "signer" = some samplePsbtKey.entry :=
  Finmap.lookup_insert _

theorem signerOf_sample : signerOf .sample samplePsbtKey.entry = some samplePsbtSigner := by
  rfl

theorem listsAddresses_sample : samplePsbtWallet.keystore.ListsAddresses ["signer"] := by
  refine ⟨List.nodup_singleton _, fun a => ?_⟩
  simp [samplePsbtWallet, Keystore.insert, Keystore.default, Finmap.mem_insert, Finmap.notMem_empty]

theorem psbtSignerMaterial_sample :
    psbtSignerMaterial .sample samplePsbtWallet.keystore ["signer"] = some samplePsbtSigner := by
  rw [psbtSignerMaterial, List.findSome?_singleton, get_samplePsbtWallet, Option.bind_some,
    signerOf_sample]

/-- A transaction that nobody has signed yet. -/
theorem walletprocesspsbt_signs_first :
    ∃ signer reply psbt, handleWalletprocesspsbt .panics 200 .sample samplePsbtWallet
        ["signer"] (some (proxyBase64.encode
          (PsbtDocument.bare (sampleSigned [1] [9]).tx).write)) = .ok reply ∧
      proxyBase64.decode reply.psbt = some psbt ∧
      KeepsSignatures PsbtExternals.sample.toCrypto
        (.bare (sampleSigned [1] [9]).tx) signer psbt := by
  have hresult : ∀ signer, psbtSignerMaterial .sample samplePsbtWallet.keystore ["signer"] =
      some signer → (signedDocument PsbtExternals.sample.toCrypto signer
        (.bare (sampleSigned [1] [9]).tx)).write.length < 2 ^ 63 := by
    intro signer hsigner
    cases hsigner
    decide +kernel
  obtain ⟨signer, reply, psbt, -, -, hreply, hpsbt, hkeeps⟩ :=
    @walletprocesspsbt_keeps_signatures_iff .panics 200 .sample samplePsbtWallet
      ["signer"] (.bare (sampleSigned [1] [9]).tx) _ rfl listsAddresses_sample
      ⟨"signer", _, _, get_samplePsbtWallet, signerOf_sample⟩ (proxyBase64.decode_encode _)
      (by decide) (by decide) hresult
  refine ⟨signer, reply, psbt, hreply, hpsbt, hkeeps.mpr ?_⟩
  intro i key signature hlookup
  obtain ⟨e, he, -⟩ := exists_of_lookup_signaturesIn hlookup
  cases i with
  | zero => cases he
  | succ i => cases he

/-- The signature of another key is lost. -/
theorem walletprocesspsbt_discards_signature :
    ∃ reply psbt info, handleWalletprocesspsbt .panics 200 .sample samplePsbtWallet
        ["signer"] (some (proxyBase64.encode (sampleSigned [1] [9]).write)) = .ok reply ∧
      proxyBase64.decode reply.psbt = some psbt ∧
      ((sampleSigned [1] [9]).signaturesAt 0).lookup "01" = some "09" ∧
      parsePsbtInputMaps .panics 300 psbt 1 = .ok [info] ∧
      info.partialSignatures.lookup "01" = none := by
  have hreply := @handleWalletprocesspsbt_eq .panics 200 .sample samplePsbtWallet
    ["signer"] samplePsbtSigner (sampleSigned [1] [9]) _ rfl psbtSignerMaterial_sample
    (proxyBase64.decode_encode _) (by decide) (by decide)
  refine ⟨_, _, _, hreply, proxyBase64.decode_encode _, ?_,
    PsbtDocument.parsePsbtInputMaps_write (by decide +kernel) (by decide +kernel), ?_⟩
  · rfl
  · have hother : "01" ≠ hexText samplePsbtSigner.pubkeyBytes := by decide
    change (signaturesIn (signedMap _ samplePsbtSigner _ 0)).lookup "01" = none
    rw [signaturesIn_signedMap, Finmap.lookup_insert_of_ne _ hother, Finmap.lookup_empty]

end BitInfinity.Proxy
