import BitInfinity.Foundation.Cursor
import BitInfinity.Proxy.NearClient
import BitInfinity.Tools.GenesisBuilder

/-!
# Patoshi records in three programs

The genesis builder writes the record of a locked account, the runtime reads and updates it, and
the proxy reads it once more, by byte offsets and without the balance.  The builder and the
runtime declare the record each for themselves.
-/

namespace BitInfinity.Tools

open Foundation

/-- The record as the genesis builder declares it. -/
structure GenesisPatoshiRecord where
  genesisBalance : BitVec 128
  isLocked : Bool
  unlockEpoch : Option UInt64
  deriving DecidableEq, Repr

namespace GenesisPatoshiRecord

def toVec (value : GenesisPatoshiRecord) : Bytes :=
  writeLE 16 value.genesisBalance.toNat ++ writeBool value.isLocked ++
    writeOption (fun epoch => writeLE 8 epoch.toNat) value.unlockEpoch

def toRuntime (value : GenesisPatoshiRecord) : PatoshiRecord :=
  ⟨value.genesisBalance.toNat, value.isLocked, value.unlockEpoch.map UInt64.toNat⟩

theorem toVec_eq (value : GenesisPatoshiRecord) : value.toVec = value.toRuntime.encode := by
  obtain ⟨_, _, epoch⟩ := value
  cases epoch with
  | none => rfl
  | some epoch => rfl

theorem inRange_toRuntime (value : GenesisPatoshiRecord) : value.toRuntime.InRange := by
  constructor
  · exact value.genesisBalance.isLt
  · intro e he
    obtain ⟨epoch, -, rfl⟩ := Option.map_eq_some_iff.mp he
    exact epoch.toNat_lt

def sample : GenesisPatoshiRecord := ⟨1000, true, some 14⟩

end GenesisPatoshiRecord

end BitInfinity.Tools

namespace BitInfinity

open Foundation

theorem PatoshiRecord.eq_encode_of_decode {bytes : Bytes} {record : PatoshiRecord}
    (h : PatoshiRecord.decode bytes = some record) : bytes = record.encode := by
  have hread := decodeAll_eq_some h
  simp only [readPatoshiRecord, Option.bind_eq_bind, Option.bind_eq_some_iff, Prod.exists,
    Option.some.injEq, Prod.mk.injEq] at hread
  obtain ⟨_, _, hbalance, _, _, hlocked, _, _, hepoch, rfl, rfl⟩ := hread
  have htail := @eq_writeOption_of_readOption _ _ (writeLE 8) _ _ _ eq_writeLE_of_readLE hepoch
  rw [eq_writeLE_of_readLE hbalance, eq_writeBool_of_readBool hlocked, htail]
  simp [PatoshiRecord.encode]

end BitInfinity

namespace BitInfinity.Proxy

open BitInfinity Foundation

def parseIsLocked : UInt8 → Except String Bool
  | 0 => .ok false
  | 1 => .ok true
  | value => .error ("invalid is_locked discriminator byte: " ++ toString value)

def parseUnlockEpoch (bytes : Bytes) : UInt8 → Except String (Option Nat)
  | 0 => .ok none
  | 1 =>
    if bytes.length < 26 then
      .error ("invalid Patoshi record length " ++ toString bytes.length ++ " for unlock_epoch=Some")
    else .ok (some (leValue bytes 18 8))
  | value => .error ("invalid unlock_epoch option tag byte: " ++ toString value)

def parsePatoshiRecordBytes (bytes : Bytes) : Except String PatoshiLockState :=
  if bytes.length < 18 then
    .error ("invalid Patoshi record length " ++ toString bytes.length ++
      "; expected at least 18 bytes")
  else do
    let isLocked ← parseIsLocked (bytes.getD 16 0)
    let unlockEpoch ← parseUnlockEpoch bytes (bytes.getD 17 0)
    .ok { isLocked, unlockEpoch }

theorem parsePatoshiRecordBytes_append {balance : Bytes} (hlength : balance.length = 16)
    (locked tag : UInt8) (tail : Bytes) :
    (balance ++ locked :: tag :: tail).getD 16 0 = locked ∧
      (balance ++ locked :: tag :: tail).getD 17 0 = tag ∧
      leValue (balance ++ locked :: tag :: tail) 18 8 = leValue tail 0 8 := by
  have hskip := @getD_append_length (locked :: tag :: tail) balance
  have hvalue := @leValue_append (locked :: tag :: tail) balance 2 8
  have htail := @leValue_append tail [locked, tag] 0 8
  rw [hlength] at hskip hvalue
  exact ⟨hskip 0, hskip 1, hvalue.trans htail⟩

theorem parseIsLocked_writeBool (locked : Bool) :
    parseIsLocked (if locked then 1 else 0) = .ok locked := by
  cases locked <;> rfl

theorem parsePatoshiRecordBytes_encode {record : PatoshiRecord} (h : record.InRange) :
    parsePatoshiRecordBytes record.encode = .ok ⟨record.isLocked, record.unlockEpoch⟩ := by
  obtain ⟨balance, locked, epoch⟩ := record
  have hbalance := length_writeLE 16 balance
  cases epoch with
  | none =>
    have hencode : PatoshiRecord.encode ⟨balance, locked, none⟩ =
        writeLE 16 balance ++ (if locked then 1 else 0) :: 0 :: [] := by
      simp [PatoshiRecord.encode, writeBool, writeOption]
    obtain ⟨hlocked, htag, -⟩ :=
      parsePatoshiRecordBytes_append hbalance (if locked then 1 else 0) 0 []
    rw [hencode, parsePatoshiRecordBytes, if_neg (by simp [hbalance]), hlocked,
      parseIsLocked_writeBool, htag]
    rfl
  | some epoch =>
    have hencode : PatoshiRecord.encode ⟨balance, locked, some epoch⟩ =
        writeLE 16 balance ++ (if locked then 1 else 0) :: 1 :: writeLE 8 epoch := by
      simp [PatoshiRecord.encode, writeBool, writeOption]
    have hlength : (writeLE 16 balance ++
        (if locked then 1 else 0) :: 1 :: writeLE 8 epoch).length = 26 := by
      simp [hbalance, length_writeLE]
    obtain ⟨hlocked, htag, hvalue⟩ :=
      parsePatoshiRecordBytes_append hbalance (if locked then 1 else 0) 1 (writeLE 8 epoch)
    have hepoch : leValue (writeLE 8 epoch) 0 8 = epoch := by
      have hlt : epoch < 256 ^ 8 := h.unlockEpoch_lt epoch rfl
      simpa using leValue_writeLE hlt []
    rw [hencode, parsePatoshiRecordBytes, if_neg (by omega), hlocked, parseIsLocked_writeBool,
      htag, parseUnlockEpoch, if_neg (by omega), hvalue, hepoch]
    rfl

/-- The three programs read the same values from the same bytes. -/
theorem patoshi_record_bytes_agree {E : Externals} :
    (∀ (value : Tools.GenesisPatoshiRecord) (t : Trie E) (id : AccountId),
      (t.entries id).contractData patoshiRecordDataKey = some value.toVec →
      getPatoshiRecord t id = .ok (some ⟨value.genesisBalance.toNat, value.isLocked,
            value.unlockEpoch.map UInt64.toNat⟩) ∧
        parsePatoshiRecordBytes value.toVec =
          .ok ⟨value.isLocked, value.unlockEpoch.map UInt64.toNat⟩) ∧
    (∀ (bytes : Bytes) (t : Trie E) (id : AccountId) (record : PatoshiRecord),
      (t.entries id).contractData patoshiRecordDataKey = some bytes →
      getPatoshiRecord t id = .ok (some record) →
      parsePatoshiRecordBytes bytes = .ok ⟨record.isLocked, record.unlockEpoch⟩) := by
  constructor
  · intro value t id hdata
    constructor
    · unfold getPatoshiRecord Entry.patoshiRecord
      rw [hdata]
      dsimp only
      rw [value.toVec_eq, PatoshiRecord.decode_encode value.inRange_toRuntime]
      rfl
    · rw [value.toVec_eq]
      exact parsePatoshiRecordBytes_encode value.inRange_toRuntime
  · intro bytes t id record hdata hrecord
    unfold getPatoshiRecord Entry.patoshiRecord at hrecord
    rw [hdata] at hrecord
    dsimp only at hrecord
    cases hdecode : PatoshiRecord.decode bytes with
    | none =>
      rw [hdecode] at hrecord
      cases hrecord
    | some decoded =>
      rw [hdecode] at hrecord
      cases hrecord
      rw [PatoshiRecord.eq_encode_of_decode hdecode]
      exact parsePatoshiRecordBytes_encode (PatoshiRecord.inRange_of_decode hdecode)

theorem patoshi_record_bytes_agree_sample :
    parsePatoshiRecordBytes Tools.GenesisPatoshiRecord.sample.toVec = .ok ⟨true, some 14⟩ ∧
      parsePatoshiRecordBytes (PatoshiRecord.encode ⟨1000, true, some 14⟩) = .ok ⟨true, some 14⟩ :=
  let t : Trie .sample := Trie.empty.setContractData sampleAddress patoshiRecordDataKey
    Tools.GenesisPatoshiRecord.sample.toVec
  have hdata : (t.entries sampleAddress).contractData patoshiRecordDataKey =
      some Tools.GenesisPatoshiRecord.sample.toVec := by
    simp [t, Trie.setContractData, Trie.setEntry, Entry.setContractData]
  ⟨(patoshi_record_bytes_agree.1 .sample t sampleAddress hdata).2,
    patoshi_record_bytes_agree.2 _ t sampleAddress ⟨1000, true, some 14⟩ hdata
      (patoshi_record_bytes_agree.1 .sample t sampleAddress hdata).1⟩

end BitInfinity.Proxy
