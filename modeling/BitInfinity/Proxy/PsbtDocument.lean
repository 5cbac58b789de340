import BitInfinity.Proxy.PsbtSafety

/-!
# Well-formed PSBTs

A well-formed PSBT is the writing of a document: an unsigned transaction, which the global map
holds among other entries, and a map of entries for each of its inputs and outputs.  The parsers
of the program read a written document back: the proofs follow the cursor through the bytes that
still lie behind it.
-/

namespace BitInfinity.Proxy

open BitInfinity Foundation

/-! ## Documents -/

structure UnsignedTxInput where
  txid : Bytes
  vout : UInt32
  sequence : UInt32
  txid_length : txid.length = 32

structure UnsignedTxOutput where
  value : UInt64
  script : Bytes

/-- A transaction whose inputs have neither scripts nor witnesses. -/
structure UnsignedTx where
  version : UInt32
  inputs : List UnsignedTxInput
  outputs : List UnsignedTxOutput
  locktime : UInt32

def UnsignedTxInput.write (i : UnsignedTxInput) : Bytes :=
  i.txid ++ (writeLE 4 i.vout.toNat ++ ([0x00] ++ writeLE 4 i.sequence.toNat))

def UnsignedTxOutput.write (o : UnsignedTxOutput) : Bytes :=
  writeLE 8 o.value.toNat ++ (writeCompactSize o.script.length ++ o.script)

def UnsignedTx.write (tx : UnsignedTx) : Bytes :=
  writeLE 4 tx.version.toNat ++ (writeCompactSize tx.inputs.length ++
    (tx.inputs.flatMap UnsignedTxInput.write ++ (writeCompactSize tx.outputs.length ++
      (tx.outputs.flatMap UnsignedTxOutput.write ++ writeLE 4 tx.locktime.toNat))))

/-- The first byte of a key is its type. -/
structure PsbtEntry where
  keyType : UInt8
  keyData : Bytes
  value : Bytes

def PsbtEntry.write (e : PsbtEntry) : Bytes :=
  writeCompactSize (e.keyData.length + 1) ++ ((e.keyType :: e.keyData) ++
    (writeCompactSize e.value.length ++ e.value))

def writePsbtMap (entries : List PsbtEntry) : Bytes := entries.flatMap PsbtEntry.write ++ [0x00]

/-- The transaction may stand anywhere in the global map, but only once. -/
structure PsbtDocument where
  tx : UnsignedTx
  before : List PsbtEntry
  after : List PsbtEntry
  inputs : List (List PsbtEntry)
  outputs : List (List PsbtEntry)
  before_type : ∀ e ∈ before, e.keyType ≠ 0x00
  after_type : ∀ e ∈ after, e.keyType ≠ 0x00
  inputs_length : inputs.length = tx.inputs.length
  outputs_length : outputs.length = tx.outputs.length

namespace PsbtDocument

def globalMap (d : PsbtDocument) : List PsbtEntry := d.before ++ ⟨0x00, [], d.tx.write⟩ :: d.after

def write (d : PsbtDocument) : Bytes :=
  psbtMagic ++ (writePsbtMap d.globalMap ++
    (d.inputs.flatMap writePsbtMap ++ d.outputs.flatMap writePsbtMap))

end PsbtDocument

/-! ## Length fields that were written -/

section Fields

variable {data rest : Bytes} {p size : Nat}

theorem compactSizeAt_marker {marker : UInt8} (hp : p ≤ data.length) (hmarker : ¬ marker < 253)
    (h : data.drop p = marker :: (writeLE (markerWidth marker) size ++ rest))
    (hsize : size < 256 ^ markerWidth marker) :
    compactSizeAt data p = (size, markerWidth marker + 1) := by
  have hlength := @length_of_drop data (marker :: writeLE (markerWidth marker) size) rest p h hp
  rw [List.length_cons, length_writeLE] at hlength
  have htail : data.drop (p + 1) = writeLE (markerWidth marker) size ++ rest :=
    @drop_add_of_drop data [marker] _ p h
  rw [compactSizeAt, if_neg (by omega), getD_of_drop h, if_neg hmarker, if_pos (by omega),
    leValue_of_drop htail hsize]

theorem compactSizeAt_of_drop (hp : p ≤ data.length)
    (h : data.drop p = writeCompactSize size ++ rest) (hsize : size < 2 ^ 64) :
    compactSizeAt data p = (size, (writeCompactSize size).length) := by
  unfold writeCompactSize at h ⊢
  split at h
  · rename_i hsmall
    have hbyte : (UInt8.ofNat size).toNat = size := by
      rw [UInt8.toNat_ofNat']
      omega
    have hlength := @length_of_drop data [UInt8.ofNat size] rest p h hp
    have hlt : UInt8.ofNat size < 253 := by
      rw [UInt8.lt_iff_toNat_lt, hbyte]
      exact hsmall
    rw [List.length_singleton] at hlength
    rw [compactSizeAt, if_neg (by omega), getD_of_drop h, if_pos hlt, hbyte, if_pos hsmall]
    rfl
  · rename_i hsmall
    rw [if_neg hsmall]
    split at h
    · rename_i htwo
      rw [if_pos htwo, List.length_cons, length_writeLE]
      exact @compactSizeAt_marker data rest p size 0xFD hp (by decide) h (Nat.lt_succ_of_le htwo)
    · rename_i htwo
      rw [if_neg htwo]
      split at h
      · rename_i hfour
        rw [if_pos hfour, List.length_cons, length_writeLE]
        exact @compactSizeAt_marker data rest p size 0xFE hp (by decide) h (Nat.lt_succ_of_le hfour)
      · rename_i hfour
        rw [if_neg hfour, List.length_cons, length_writeLE]
        exact @compactSizeAt_marker data rest p size 0xFF hp (by decide) h hsize

theorem field_of_drop (hp : p ≤ data.length) (h : data.drop p = writeCompactSize size ++ rest)
    (hsize : size < 2 ^ 64) :
    fieldLength data p = size ∧ fieldStart data p = p + (writeCompactSize size).length ∧
      fieldEnd data p = p + (writeCompactSize size).length + size := by
  have hcompact := compactSizeAt_of_drop hp h hsize
  simp only [fieldEnd, fieldStart, fieldLength, hcompact, and_self]

theorem readCompactSize_of_drop (mode : Overflow) (hdata : data.length < 2 ^ 63)
    (hp : p ≤ data.length) (h : data.drop p = writeCompactSize size ++ rest)
    (hsize : size < 2 ^ 64) :
    readCompactSize mode data p = .ok (size, (writeCompactSize size).length) := by
  rw [readCompactSize_eq hdata, fieldLength, compactSizeAt_of_drop hp h hsize]

/-- The reader stops after an encoding whatever follows it, so that no other encoding can go on
from there. -/
theorem eq_of_prefix_writeCompactSize {size size' : Nat} (hsize : size < 2 ^ 64)
    (hsize' : size' < 2 ^ 64) (h : writeCompactSize size <+: writeCompactSize size') :
    size = size' := by
  obtain ⟨_, hrest⟩ := h
  have hshort : compactSizeAt (writeCompactSize size') 0 = (size, (writeCompactSize size).length) :=
    compactSizeAt_of_drop (Nat.zero_le _) hrest.symm hsize
  have hwhole : compactSizeAt (writeCompactSize size') 0 =
      (size', (writeCompactSize size').length) :=
    @compactSizeAt_of_drop _ [] 0 size' (Nat.zero_le _) (List.append_nil _).symm hsize'
  exact congrArg Prod.fst (hshort.symm.trans hwhole)

end Fields

/-- A slice has fewer than 2 ^ 63 bytes. -/
theorem compactSize_round_trip (mode : Overflow) (n : UInt64) :
    (∀ before after : Bytes, (before ++ writeCompactSize n.toNat ++ after).length < 2 ^ 63 →
      readCompactSize mode (before ++ writeCompactSize n.toNat ++ after) before.length =
        .ok (n.toNat, (writeCompactSize n.toNat).length)) ∧
    (∀ before after : Bytes, (before ++ encodeBitcoinVarint n.toNat ++ after).length < 2 ^ 63 →
      readCompactSize mode (before ++ encodeBitcoinVarint n.toNat ++ after) before.length =
        .ok (n.toNat, (encodeBitcoinVarint n.toNat).length)) ∧
    encodeBitcoinVarint n.toNat = writeCompactSize n.toNat ∧
    ∀ m : UInt64, m ≠ n → ¬ writeCompactSize m.toNat <+: writeCompactSize n.toNat := by
  have hwriters : encodeBitcoinVarint n.toNat = writeCompactSize n.toNat := rfl
  have hread : ∀ before after : Bytes,
      (before ++ writeCompactSize n.toNat ++ after).length < 2 ^ 63 →
      readCompactSize mode (before ++ writeCompactSize n.toNat ++ after) before.length =
        .ok (n.toNat, (writeCompactSize n.toNat).length) := by
    intro before after hlength
    have hdrop : (before ++ writeCompactSize n.toNat ++ after).drop before.length =
        writeCompactSize n.toNat ++ after := by
      rw [List.append_assoc, List.drop_left]
    have hle : before.length ≤ (before ++ writeCompactSize n.toNat ++ after).length := by
      simp only [List.length_append]
      omega
    exact readCompactSize_of_drop mode hlength hle hdrop n.toNat_lt
  refine ⟨hread, ?_, hwriters, ?_⟩
  · exact hread
  · intro m hne hprefix
    exact hne (UInt64.toNat_inj.mp (eq_of_prefix_writeCompactSize m.toNat_lt n.toNat_lt hprefix))

/-- The last value of two bytes behind a marker, at the end of the data. -/
theorem compactSize_round_trip_two_bytes :
    readCompactSize .panics ([7] ++ writeCompactSize 65535 ++ []) 1 = .ok (65535, 3) :=
  (compactSize_round_trip .panics 65535).1 [7] [] (by decide)

/-! ## The unsigned transaction -/

def voutOf (satoshis : Nat) (script : Bytes) (n : Nat) : PsbtVout :=
  let (type, asm) := classifyScriptPubKeyHex (hexEncode script)
  ⟨satoshis, n, asm, hexText script, type⟩

def UnsignedTxInput.vin (i : UnsignedTxInput) : PsbtVin :=
  ⟨hexText i.txid.reverse, i.vout.toNat, i.sequence.toNat⟩

def UnsignedTx.parsed (tx : UnsignedTx) : PsbtTx :=
  ⟨tx.inputs.map UnsignedTxInput.vin,
    tx.outputs.zipIdx.map fun o => voutOf o.1.value.toNat o.1.script o.2,
    tx.version.toNat, tx.locktime.toNat⟩

theorem UnsignedTxInput.length_write (i : UnsignedTxInput) : i.write.length = 41 := by
  simp [UnsignedTxInput.write, length_writeLE, i.txid_length]

section Transaction

variable {bytes : Bytes} (hbytes : bytes.length < 2 ^ 63) {mode : Overflow} {p : Nat} {rest : Bytes}
include hbytes

theorem parseInputs_of_drop {inputs : List UnsignedTxInput} (hp : p ≤ bytes.length)
    (h : bytes.drop p = inputs.flatMap UnsignedTxInput.write ++ rest) :
    parseInputs mode bytes inputs.length p = .ok (inputs.map UnsignedTxInput.vin,
        p + (inputs.flatMap UnsignedTxInput.write).length) := by
  induction inputs generalizing p with
  | nil => rfl
  | cons i inputs ih =>
    have hhash := i.txid_length
    set tail := inputs.flatMap UnsignedTxInput.write with htail
    have hsplit : bytes.drop p = i.txid ++ (writeLE 4 i.vout.toNat ++ (writeCompactSize 0 ++
        (writeLE 4 i.sequence.toNat ++ (tail ++ rest)))) := by
      rw [h, List.flatMap_cons, UnsignedTxInput.write]
      simp [writeCompactSize, ← htail]
    have hlength := length_of_drop hsplit hp
    simp only [List.length_append, length_writeLE, hhash] at hlength
    have hnum : (writeCompactSize 0).length = 1 := rfl
    have htxid := take_of_drop hsplit
    have h32 := drop_add_of_drop hsplit
    rw [hhash] at htxid h32
    have h36 := drop_add_of_drop h32
    rw [length_writeLE, Nat.add_assoc] at h36
    obtain ⟨hzero, hstart, -⟩ := field_of_drop (by omega) h36 (by decide)
    have h37 := drop_add_of_drop h36
    have h41 := drop_add_of_drop h37
    have hrest := ih (by omega : p + (32 + 4 + 1 + 4) ≤ bytes.length) h41
    rw [List.length_cons, parseInputs_step hbytes hp, if_neg (by omega), hstart, hzero, hnum,
      Overflow.add_eq (by omega), ok_bind, Overflow.add_eq (by omega), ok_bind,
      if_neg (by omega), leAt_eq (by omega) (by omega), ok_bind, htxid,
      leValue_of_drop h32 i.vout.toNat_lt]
    have hsequence : leValue bytes (p + 36 + 1 + 0 + 0) 4 = i.sequence.toNat :=
      leValue_of_drop h37 i.sequence.toNat_lt
    have hnext : parseInputs mode bytes inputs.length (p + 36 + 1 + 0 + 4) = _ := hrest
    rw [hsequence, hnext, ok_bind, List.map_cons, List.flatMap_cons, List.length_append,
      i.length_write, ← htail, Nat.add_assoc]
    rfl

theorem parseOutputs_of_drop {outputs : List UnsignedTxOutput} (n : Nat) (hp : p ≤ bytes.length)
    (h : bytes.drop p = outputs.flatMap UnsignedTxOutput.write ++ rest) :
    parseOutputs mode bytes outputs.length n p =
      .ok ((outputs.zipIdx n).map fun o => voutOf o.1.value.toNat o.1.script o.2,
        p + (outputs.flatMap UnsignedTxOutput.write).length) := by
  induction outputs generalizing p n with
  | nil => rfl
  | cons o outputs ih =>
    set tail := outputs.flatMap UnsignedTxOutput.write with htail
    have hsplit : bytes.drop p = writeLE 8 o.value.toNat ++ (writeCompactSize o.script.length ++
        (o.script ++ (tail ++ rest))) := by
      rw [h, List.flatMap_cons, UnsignedTxOutput.write]
      simp [← htail]
    have hlength := length_of_drop hsplit hp
    simp only [List.length_append, length_writeLE] at hlength
    have h8 := drop_add_of_drop hsplit
    rw [length_writeLE] at h8
    obtain ⟨hscript, hstart, -⟩ := field_of_drop (by omega) h8 (by omega)
    have hbody := drop_add_of_drop h8
    have hnext := drop_add_of_drop hbody
    have hslice : partWhen
        (p + 8 + (writeCompactSize o.script.length).length + o.script.length ≤ bytes.length)
        (slice bytes (p + 8 + (writeCompactSize o.script.length).length)
          (p + 8 + (writeCompactSize o.script.length).length + o.script.length)) =
        .ok o.script := by
      rw [partWhen, if_pos (by simp; omega), slice_eq (by omega) (by omega),
        Nat.add_sub_cancel_left, take_of_drop hbody]
    have hrest := ih (n + 1) (by omega) hnext
    rw [List.length_cons, parseOutputs_step hbytes, Overflow.add_eq (by omega), ok_bind,
      if_neg (by omega), leAt_eq (by omega) (by omega), ok_bind, hstart, hscript,
      Overflow.add_eq (by omega), ok_bind, hslice, ok_bind, hrest]
    have hvalue : leValue bytes (p + 0) 8 = o.value.toNat := leValue_of_drop hsplit o.value.toNat_lt
    rw [hvalue, List.zipIdx_cons, List.map_cons, List.flatMap_cons, UnsignedTxOutput.write, ← htail]
    simp only [List.length_append, length_writeLE, ← Nat.add_assoc]
    rfl

omit hbytes in
theorem length_le_flatMap {α : Type} {items : List α} {write : α → Bytes}
    (h : ∀ item ∈ items, 0 < (write item).length) :
    items.length ≤ (items.flatMap write).length := by
  rw [List.length_flatMap]
  have hle := List.length_le_sum_of_one_le (items.map fun item => (write item).length) (by
    intro n hn
    obtain ⟨item, hitem, rfl⟩ := List.mem_map.mp hn
    exact h item hitem)
  rwa [List.length_map] at hle

omit hbytes in
theorem length_writeCompactSize_pos (size : Nat) : 0 < (writeCompactSize size).length := by
  unfold writeCompactSize
  split_ifs <;> simp

end Transaction

theorem parseRawTxForPsbt_write {tx : UnsignedTx} (htx : tx.write.length < 2 ^ 63)
    (mode : Overflow) : parseRawTxForPsbt mode tx.write = .ok tx.parsed := by
  have hin := @length_le_flatMap _ tx.inputs UnsignedTxInput.write (by
    intro i _
    rw [i.length_write]
    decide)
  have hout := @length_le_flatMap _ tx.outputs UnsignedTxOutput.write (by
    intro o _
    rw [UnsignedTxOutput.write, List.length_append, length_writeLE]
    omega)
  have h0 : tx.write.drop 0 = _ := UnsignedTx.write.eq_1 tx
  set ins := tx.inputs.flatMap UnsignedTxInput.write with hins
  set outs := tx.outputs.flatMap UnsignedTxOutput.write with houts
  set bytes := tx.write
  have hlength := length_of_drop h0 (Nat.zero_le _)
  simp only [List.length_append, length_writeLE] at hlength
  have hsizes := length_writeCompactSize_pos tx.inputs.length
  have hsizes' := length_writeCompactSize_pos tx.outputs.length
  have h4 := drop_add_of_drop h0
  rw [length_writeLE] at h4
  obtain ⟨hcount, hstart, -⟩ := field_of_drop (by omega) h4 (by omega)
  have hfirst := drop_add_of_drop h4
  have hvin := @parseInputs_of_drop bytes htx mode _ _ tx.inputs (by omega) hfirst
  rw [← hins] at hvin
  have hsecond := drop_add_of_drop hfirst
  obtain ⟨hcount', hstart', -⟩ := field_of_drop (by omega) hsecond (by omega)
  have hthird := drop_add_of_drop hsecond
  have hvout := @parseOutputs_of_drop bytes htx mode _ _ tx.outputs 0 (by omega) hthird
  rw [← houts] at hvout
  have hlast := drop_add_of_drop hthird
  rw [parseRawTxForPsbt, if_neg (by omega), leAt_eq (by omega) (by omega), ok_bind,
    readCompactSize_eq htx, ok_bind]
  dsimp only
  rw [add_advance_of_le htx (by omega), ok_bind, hcount, hstart, hvin, ok_bind]
  rw [readCompactSize_eq htx, ok_bind]
  rw [add_advance_of_le htx (by omega), ok_bind, hcount', hstart', hvout, ok_bind]
  rw [Overflow.add_eq (by omega), ok_bind, if_pos (by omega), leAt_eq (by omega) (by omega),
    ok_bind]
  have hversion : leValue bytes (0 + 0) 4 = tx.version.toNat :=
    leValue_of_drop h0 tx.version.toNat_lt
  rw [hversion, Nat.add_zero, leValue_of_drop hlast tx.locktime.toNat_lt]
  rfl

/-! ## Entries -/

section Entries

variable {bytes rest : Bytes} {p : Nat}

variable {e : PsbtEntry}

/-- An entry lies at a position. -/
structure EntryAt (bytes : Bytes) (p : Nat) (e : PsbtEntry) : Prop where
  lt_length : p < bytes.length
  keyLength_eq : fieldLength bytes p = e.keyData.length + 1
  keyType_eq : bytes.getD (fieldStart bytes p) 0 = e.keyType
  keyData_eq : (bytes.drop (fieldStart bytes p + 1)).take e.keyData.length = e.keyData
  keyEnd_lt : fieldEnd bytes p < bytes.length
  valueLength_eq : fieldLength bytes (fieldEnd bytes p) = e.value.length
  value_eq : (bytes.drop (fieldStart bytes (fieldEnd bytes p))).take e.value.length = e.value
  entryEnd_eq : entryEnd bytes p = p + e.write.length
  entryEnd_le : entryEnd bytes p ≤ bytes.length

theorem entryAt_of_drop (hbytes : bytes.length < 2 ^ 63) (hp : p ≤ bytes.length)
    (h : bytes.drop p = e.write ++ rest) : EntryAt bytes p e := by
  have hsplit : bytes.drop p = writeCompactSize (e.keyData.length + 1) ++
      ((e.keyType :: e.keyData) ++ (writeCompactSize e.value.length ++ (e.value ++ rest))) := by
    rw [h, PsbtEntry.write]
    simp
  have hlength := length_of_drop hsplit hp
  simp only [List.length_append, List.length_cons] at hlength
  have hvalueSize := length_writeCompactSize_pos e.value.length
  obtain ⟨hkey, hkeyStart, hkeyEnd⟩ := field_of_drop hp hsplit (by omega)
  have hkeyDrop := drop_add_of_drop hsplit
  have hdataDrop := @drop_add_of_drop bytes [e.keyType] _ _ hkeyDrop
  have hvalueDrop := drop_add_of_drop hkeyDrop
  rw [List.length_cons] at hvalueDrop
  obtain ⟨hvalue, hvalueStart, hvalueEnd⟩ := field_of_drop (by omega) hvalueDrop (by omega)
  have hvalueBytes := drop_add_of_drop hvalueDrop
  have hentry : entryEnd bytes p = p + (writeCompactSize (e.keyData.length + 1)).length +
      (e.keyData.length + 1) + (writeCompactSize e.value.length).length + e.value.length := by
    rw [entryEnd, hkeyEnd, hvalueEnd]
  constructor
  · omega
  · exact hkey
  · rw [hkeyStart]
    exact getD_of_drop hkeyDrop
  · rw [hkeyStart]
    exact take_of_drop hdataDrop
  · omega
  · rw [hkeyEnd]
    exact hvalue
  · rw [hkeyEnd, hvalueStart]
    exact take_of_drop hvalueBytes
  · rw [hentry, PsbtEntry.write]
    simp only [List.length_append, List.length_cons]
    omega
  · omega

theorem EntryAt.keyLength_ne (h : EntryAt bytes p e) : fieldLength bytes p ≠ 0 := by
  rw [h.keyLength_eq]
  exact Nat.succ_ne_zero _

theorem EntryAt.partWhen_keyData (h : EntryAt bytes p e) :
    partWhen (fieldLength bytes p > 1 && fieldEnd bytes p ≤ bytes.length)
      (slice bytes (fieldStart bytes p + 1) (fieldEnd bytes p)) = .ok e.keyData := by
  have hlength := h.keyLength_eq
  have hinside := h.keyEnd_lt
  have hend : fieldEnd bytes p = fieldStart bytes p + 1 + e.keyData.length := by
    rw [fieldEnd, hlength]
    omega
  unfold partWhen
  split
  · rw [slice_eq (by omega) (by omega), hend, Nat.add_sub_cancel_left, h.keyData_eq]
  · -- a key of one byte is a type without data
    next hshort =>
      have hempty : e.keyData.length = 0 := by
        by_contra hne
        refine hshort ?_
        simp only [Bool.and_eq_true, decide_eq_true_eq]
        omega
      rw [List.eq_nil_of_length_eq_zero hempty]

theorem EntryAt.partWhen_value (h : EntryAt bytes p e) : partWhen (entryEnd bytes p ≤ bytes.length)
      (slice bytes (fieldStart bytes (fieldEnd bytes p)) (entryEnd bytes p)) = .ok e.value := by
  have hend : entryEnd bytes p = fieldStart bytes (fieldEnd bytes p) + e.value.length := by
    rw [← h.valueLength_eq]
    rfl
  have hinside := h.entryEnd_le
  rw [partWhen, if_pos (decide_eq_true hinside), slice_eq (by omega) hinside, hend,
    Nat.add_sub_cancel_left, h.value_eq]

theorem separator_of_drop (hp : p ≤ bytes.length) (h : bytes.drop p = 0x00 :: rest) :
    p < bytes.length ∧ fieldLength bytes p = 0 ∧ fieldStart bytes p = p + 1 := by
  have hone : (writeCompactSize 0).length = 1 := rfl
  have hzero : bytes.drop p = writeCompactSize 0 ++ rest := h
  have hlength := length_of_drop hzero hp
  obtain ⟨hempty, hstart, -⟩ := field_of_drop hp hzero (by decide)
  exact ⟨by omega, hempty, hstart⟩

theorem drop_writePsbtMap_cons {entries : List PsbtEntry}
    (h : bytes.drop p = writePsbtMap (e :: entries) ++ rest) :
    bytes.drop p = e.write ++ (writePsbtMap entries ++ rest) ∧
      bytes.drop (p + e.write.length) = writePsbtMap entries ++ rest := by
  have hsplit : bytes.drop p = e.write ++ (writePsbtMap entries ++ rest) := by
    rw [h, writePsbtMap, writePsbtMap, List.flatMap_cons]
    simp
  exact ⟨hsplit, drop_add_of_drop hsplit⟩

theorem length_writePsbtMap_cons (e : PsbtEntry) (entries : List PsbtEntry) :
    (writePsbtMap (e :: entries)).length = e.write.length + (writePsbtMap entries).length := by
  simp [writePsbtMap, List.flatMap_cons]

theorem flatMap_writePsbtMap_replicate (count : Nat) :
    (List.replicate count []).flatMap writePsbtMap = List.replicate count 0x00 := by
  induction count with
  | zero => rfl
  | succ count ih =>
    rw [List.replicate_succ, List.flatMap_cons, ih]
    rfl

end Entries

/-! ## Maps -/

def PsbtInput.withEntry (info : PsbtInput) (e : PsbtEntry) : PsbtInput :=
  if e.keyType = 0x02 then
    { info with
      partialSignatures := info.partialSignatures.insert (hexText e.keyData) (hexText e.value) }
  else if e.keyType = 0x03 then
    if e.value.length ≥ 4 then
      { info with sighash := some ("ALL|ANYONECANPAY+" ++ toString (leValue e.value 0 4)) }
    else info
  else if e.keyType = 0x06 then
    { info with bip32Derivs := some (hexText e.keyData,
        if e.value.length ≥ 4 then hexText (e.value.take 4) else "00000000") }
  else info

def psbtInputOf (entries : List PsbtEntry) : PsbtInput := entries.foldl .withEntry .empty

theorem record_entry {mode : Overflow} (info : PsbtInput) {e : PsbtEntry}
    (he : e.value.length < 2 ^ 64) :
    info.record mode e.keyType e.keyData e.value = .ok (info.withEntry e) := by
  unfold PsbtInput.record PsbtInput.withEntry
  split
  · rfl
  · split
    · split
      · next hlength => rw [leAt_eq he (by omega), ok_bind]
      · rfl
    · split
      · split
        · rename_i hlength
          rw [slice_eq (by omega) hlength]
          rfl
        · rfl
      · rfl

section Maps

variable {bytes rest : Bytes} (hbytes : bytes.length < 2 ^ 63) {p : Nat} {mode : Overflow}
  {fuel : Nat}
include hbytes

theorem mapFits_of_drop {entries : List PsbtEntry} (looksAhead : Bool) (hp : p ≤ bytes.length)
    (h : bytes.drop p = writePsbtMap entries ++ rest) :
    MapFits bytes looksAhead p (p + (writePsbtMap entries).length) := by
  induction entries generalizing p with
  | nil =>
    obtain ⟨hlt, hzero, hstart⟩ := separator_of_drop hp h
    have hmap := @MapFits.separator bytes looksAhead p hlt hzero
    rwa [hstart] at hmap
  | cons e entries ih =>
    obtain ⟨hfirst, hrest⟩ := drop_writePsbtMap_cons h
    have hentry := entryAt_of_drop hbytes hp hfirst
    have hle := hentry.entryEnd_le
    have hword : entryEnd bytes p < 2 ^ 64 := by omega
    rw [hentry.entryEnd_eq] at hle
    have hnext := ih hle hrest
    rw [Nat.add_assoc, ← length_writePsbtMap_cons, ← hentry.entryEnd_eq] at hnext
    exact .entry hentry.lt_length hentry.keyLength_ne hentry.keyEnd_lt hword hnext

theorem parseInputMap_of_drop {entries : List PsbtEntry} (info : PsbtInput) (hp : p ≤ bytes.length)
    (h : bytes.drop p = writePsbtMap entries ++ rest) (hfuel : bytes.length < p + fuel) :
    parseInputMap mode bytes fuel p info =
      .ok (entries.foldl .withEntry info, p + (writePsbtMap entries).length) := by
  induction entries generalizing p info fuel with
    obtain ⟨fuel, rfl⟩ := Nat.exists_eq_succ_of_ne_zero (by omega : fuel ≠ 0)
  | nil =>
    obtain ⟨hlt, hzero, hstart⟩ := separator_of_drop hp h
    rw [parseInputMap_step hbytes hlt, if_pos hzero, hstart]
    rfl
  | cons e entries ih =>
    obtain ⟨hfirst, hrest⟩ := drop_writePsbtMap_cons h
    have hentry := entryAt_of_drop hbytes hp hfirst
    have hle := hentry.entryEnd_le
    have hkeyIn := hentry.keyEnd_lt
    have hkeyEnd := lt_fieldEnd bytes p
    have hstep := lt_entryEnd bytes p
    have hstart := fieldStart_le_fieldEnd bytes p
    have hvalue : fieldStart bytes (fieldEnd bytes p) + e.value.length = entryEnd bytes p :=
      congrArg _ hentry.valueLength_eq.symm
    have hend := hentry.entryEnd_eq
    have hlast := @ih _ fuel (info.withEntry e) (hend ▸ hle) hrest (by omega)
    rw [parseInputMap_step hbytes hentry.lt_length, if_neg hentry.keyLength_ne, if_neg (by omega),
      add_field (by omega), ok_bind, hentry.partWhen_keyData, ok_bind,
      if_neg (Nat.not_le.mpr hkeyIn), add_value (by omega), ok_bind, hentry.partWhen_value, ok_bind,
      hentry.keyType_eq, record_entry info (by omega), ok_bind, length_writePsbtMap_cons,
      ← Nat.add_assoc, List.foldl_cons, ← hlast, ← hend]

theorem skipMap_of_drop {entries : List PsbtEntry} (hp : p ≤ bytes.length)
    (h : bytes.drop p = writePsbtMap entries ++ rest) (hfuel : bytes.length < fuel) :
    skipMap mode bytes fuel p = .ok (p + (writePsbtMap entries).length) :=
  skipMap_of_fits hbytes (mapFits_of_drop hbytes false hp h) (by omega)

omit hbytes in
theorem drop_flatMap_cons {entries : List PsbtEntry} {maps : List (List PsbtEntry)}
    (h : bytes.drop p = (entries :: maps).flatMap writePsbtMap ++ rest) :
    bytes.drop p = writePsbtMap entries ++ (maps.flatMap writePsbtMap ++ rest) := by
  rw [h, List.flatMap_cons, List.append_assoc]

theorem parseInputMaps_of_drop {inputs : List (List PsbtEntry)} (hp : p ≤ bytes.length)
    (h : bytes.drop p = inputs.flatMap writePsbtMap ++ rest) (hfuel : bytes.length < fuel) :
    parseInputMaps mode bytes fuel inputs.length p = .ok (inputs.map psbtInputOf) := by
  induction inputs generalizing p with
  | nil => rfl
  | cons entries inputs ih =>
    have hsplit := drop_flatMap_cons h
    have hlength := length_of_drop hsplit hp
    have hinfo := @parseInputMap_of_drop bytes _ hbytes p mode fuel entries .empty hp hsplit
      (by omega)
    have hinfos := ih (by omega) (drop_add_of_drop hsplit)
    rw [List.length_cons, parseInputMaps, hinfo, ok_bind]
    exact bind_of_eq_ok hinfos _

theorem unsignedTxAt_of_drop {before after : List PsbtEntry} {tx : Bytes}
    (hbefore : ∀ e ∈ before, e.keyType ≠ 0x00) (hp : p ≤ bytes.length)
    (h : bytes.drop p = writePsbtMap (before ++ ⟨0x00, [], tx⟩ :: after) ++ rest) :
    UnsignedTxAt bytes p (some tx) := by
  induction before generalizing p with
  | nil =>
    obtain ⟨hfirst, -⟩ := drop_writePsbtMap_cons h
    have hentry := entryAt_of_drop hbytes hp hfirst
    have hfound := UnsignedTxAt.found hentry.lt_length hentry.keyLength_ne hentry.keyEnd_lt
      hentry.keyType_eq hentry.entryEnd_le
    rw [hentry.valueLength_eq, hentry.value_eq] at hfound
    exact hfound
  | cons e before ih =>
    obtain ⟨hfirst, hrest⟩ := drop_writePsbtMap_cons h
    have hentry := entryAt_of_drop hbytes hp hfirst
    have hle := hentry.entryEnd_le
    have hword : entryEnd bytes p < 2 ^ 64 := by omega
    have htype : bytes.getD (fieldStart bytes p) 0 ≠ 0x00 := by
      rw [hentry.keyType_eq]
      exact hbefore e List.mem_cons_self
    rw [hentry.entryEnd_eq] at hle
    have hnext := ih (fun e' he' => hbefore e' (List.mem_cons_of_mem e he')) hle hrest
    rw [← hentry.entryEnd_eq] at hnext
    exact .next hentry.lt_length hentry.keyLength_ne hentry.keyEnd_lt htype hword hnext

end Maps

/-! ## Reading a document -/

namespace PsbtDocument

variable (d : PsbtDocument)

theorem magic_le : 5 ≤ d.write.length := by
  rw [write, List.length_append]
  exact Nat.le_add_right _ _

theorem take_write : d.write.take 5 = psbtMagic := rfl

theorem drop_write : d.write.drop 5 = writePsbtMap d.globalMap ++
    (d.inputs.flatMap writePsbtMap ++ d.outputs.flatMap writePsbtMap) :=
  rfl

def inputsStart : Nat := 5 + (writePsbtMap d.globalMap).length

theorem inputsStart_le : d.inputsStart ≤ d.write.length := by
  rw [inputsStart, ← length_of_drop d.drop_write d.magic_le]
  exact Nat.le_add_right _ _

theorem drop_inputsStart : d.write.drop d.inputsStart =
    d.inputs.flatMap writePsbtMap ++ d.outputs.flatMap writePsbtMap :=
  drop_add_of_drop d.drop_write

theorem length_tx_lt : d.tx.write.length < d.write.length := by
  simp only [write, globalMap, writePsbtMap, PsbtEntry.write, List.flatMap_append,
    List.flatMap_cons, List.length_append, List.length_cons]
  omega

variable {d} {mode : Overflow} {fuel : Nat} (hsize : d.write.length < 2 ^ 63)
include hsize

theorem unsignedTxAt : UnsignedTxAt d.write 5 (some d.tx.write) :=
  unsignedTxAt_of_drop hsize d.before_type d.magic_le d.drop_write

theorem extractUnsignedTxHex_write (hfuel : d.write.length < fuel) :
    extractUnsignedTxHex mode fuel d.write = .ok (hexText d.tx.write) := by
  rw [extractUnsignedTxHex, findUnsignedTx_of_at hsize (unsignedTxAt hsize) (by omega),
    onUnsignedTx]

theorem parsePsbtUnsignedTx_write (hfuel : d.write.length < fuel) :
    parsePsbtUnsignedTx mode fuel d.write = .ok d.tx.parsed := by
  have htx := d.length_tx_lt
  rw [parsePsbtUnsignedTx, findUnsignedTx_of_at hsize (unsignedTxAt hsize) (by omega),
    onUnsignedTx, parseRawTxForPsbt_write (by omega)]

theorem parsePsbtInputMaps_write (hfuel : d.write.length < fuel) :
    parsePsbtInputMaps mode fuel d.write d.tx.inputs.length = .ok (d.inputs.map psbtInputOf) := by
  have hskip : skipMap mode d.write fuel 5 = .ok d.inputsStart :=
    skipMap_of_drop hsize d.magic_le d.drop_write hfuel
  rw [parsePsbtInputMaps, hskip, ok_bind, ← d.inputs_length]
  exact parseInputMaps_of_drop hsize d.inputsStart_le d.drop_inputsStart hfuel

end PsbtDocument

/-! ## Partial signatures -/

/-- An entry with the signature of a public key, both in hexadecimal. -/
def PsbtEntry.Signs (e : PsbtEntry) (key signature : String) : Prop :=
  e.keyType = 0x02 ∧ hexText e.keyData = key ∧ hexText e.value = signature

/-- The map of an input has a signature of a public key. -/
def PsbtDocument.Signs (d : PsbtDocument) (i : Nat) (key signature : String) : Prop :=
  ∃ e ∈ d.inputs.getD i [], e.Signs key signature

def signaturesIn (entries : List PsbtEntry) : Finmap fun _ : String => String :=
  (psbtInputOf entries).partialSignatures

theorem PsbtInput.partialSignatures_withEntry (info : PsbtInput) (e : PsbtEntry) :
    (info.withEntry e).partialSignatures = if e.keyType = 0x02 then
      info.partialSignatures.insert (hexText e.keyData) (hexText e.value)
      else info.partialSignatures := by
  unfold PsbtInput.withEntry
  split
  · rfl
  · split
    · split
      · rfl
      · rfl
    · split
      · rfl
      · rfl

section Signatures

variable {entries : List PsbtEntry} {key signature : String}

theorem exists_of_lookup_signaturesIn (h : (signaturesIn entries).lookup key = some signature) :
    ∃ e ∈ entries, e.Signs key signature := by
  have hfold : ∀ (entries : List PsbtEntry) (info : PsbtInput),
      (entries.foldl .withEntry info).partialSignatures.lookup key = some signature →
        info.partialSignatures.lookup key = some signature ∨
          ∃ e ∈ entries, e.Signs key signature := by
    intro entries
    induction entries with
    | nil => exact fun info h => .inl h
    | cons e entries ih =>
      intro info h
      rcases ih _ h with h | ⟨e', he', hsigns⟩
      · rw [PsbtInput.partialSignatures_withEntry] at h
        split at h
        · rename_i htype
          by_cases hkey : key = hexText e.keyData
          · rw [hkey, Finmap.lookup_insert, Option.some.injEq] at h
            exact .inr ⟨e, List.mem_cons_self, htype, hkey.symm, h⟩
          · rw [Finmap.lookup_insert_of_ne _ hkey] at h
            exact .inl h
        · exact .inl h
      · exact .inr ⟨e', List.mem_cons_of_mem e he', hsigns⟩
  rcases hfold entries .empty h with h | h
  · cases h
  · exact h

theorem isSome_lookup_signaturesIn (h : ∃ e ∈ entries, e.Signs key signature) :
    ((signaturesIn entries).lookup key).isSome := by
  have hfold : ∀ (entries : List PsbtEntry) (info : PsbtInput),
      ((info.partialSignatures.lookup key).isSome ∨ ∃ e ∈ entries, e.Signs key signature) →
        ((entries.foldl .withEntry info).partialSignatures.lookup key).isSome := by
    intro entries
    induction entries with
    | nil => simp
    | cons e entries ih =>
      intro info h
      refine ih _ ?_
      rw [PsbtInput.partialSignatures_withEntry]
      rcases h with h | ⟨e', he', hsigns⟩
      · left
        split
        · by_cases hkey : key = hexText e.keyData
          · rw [hkey, Finmap.lookup_insert, Option.isSome_some]
          · rw [Finmap.lookup_insert_of_ne _ hkey]
            exact h
        · exact h
      · rcases List.mem_cons.mp he' with rfl | he'
        · obtain ⟨htype, hkey, -⟩ := hsigns
          left
          rw [if_pos htype, ← hkey, Finmap.lookup_insert, Option.isSome_some]
        · exact .inr ⟨e', he', hsigns⟩
  exact hfold entries .empty (.inr h)

theorem lookup_signaturesIn_iff
    (hunique : ∀ e ∈ entries, ∀ e' ∈ entries, ∀ signature signature', e.Signs key signature →
      e'.Signs key signature' → signature = signature') :
    (signaturesIn entries).lookup key = some signature ↔ ∃ e ∈ entries, e.Signs key signature := by
  constructor
  · exact exists_of_lookup_signaturesIn
  · intro h
    obtain ⟨found, hfound⟩ := Option.isSome_iff_exists.mp (isSome_lookup_signaturesIn h)
    obtain ⟨e, he, hsigns⟩ := h
    obtain ⟨e', he', hsigns'⟩ := exists_of_lookup_signaturesIn hfound
    rw [hfound, hunique e' he' e he found signature hsigns' hsigns]

end Signatures

end BitInfinity.Proxy
