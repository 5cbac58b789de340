import Mathlib.Tactic

/-!
# Little endian binary codecs

Readers consume a prefix of a byte list and return the rest; `decodeAll` accepts a value only
when nothing is left over.  Every writer comes with the lemma that reading takes back exactly
what was written, and the fixed-width ones with the converse: what was read is what a writer
of that value writes.
-/

namespace BitInfinity.Foundation

/-- A reader of a prefix. -/
abbrev Reader (α : Type) := List UInt8 → Option (α × List UInt8)

def writeLE : Nat → Nat → List UInt8
  | 0, _ => []
  | width + 1, value => UInt8.ofNat (value % 256) :: writeLE width (value / 256)

def readLE : Nat → Reader Nat
  | 0, bytes => some (0, bytes)
  | _ + 1, [] => none
  | width + 1, b :: bytes => do
    let (high, rest) ← readLE width bytes
    some (b.toNat + 256 * high, rest)

def writeBool (b : Bool) : List UInt8 := [if b then 1 else 0]

def readBool : Reader Bool
  | 0 :: rest => some (false, rest)
  | 1 :: rest => some (true, rest)
  | _ => none

def writeOption {α : Type} (write : α → List UInt8) : Option α → List UInt8
  | none => [0]
  | some value => 1 :: write value

def readOption {α : Type} (read : Reader α) : Reader (Option α)
  | 0 :: rest => some (none, rest)
  | 1 :: rest => do
    let (value, rest) ← read rest
    some (some value, rest)
  | _ => none

def readBytes (count : Nat) : Reader (List UInt8) := fun bytes =>
  if count ≤ bytes.length then some (bytes.take count, bytes.drop count) else none

def readMany {α : Type} (read : Reader α) : Nat → Reader (List α)
  | 0, bytes => some ([], bytes)
  | count + 1, bytes => do
    let (value, rest) ← read bytes
    let (values, rest) ← readMany read count rest
    some (value :: values, rest)

def readVec {α : Type} (read : Reader α) : Reader (List α) := fun bytes => do
  let (count, rest) ← readLE 4 bytes
  readMany read count rest

def writeVec {α : Type} (write : α → List UInt8) (values : List α) : List UInt8 :=
  writeLE 4 values.length ++ values.flatMap write

def readByteVec : Reader (List UInt8) := fun bytes => do
  let (count, rest) ← readLE 4 bytes
  readBytes count rest

def writeByteVec (bytes : List UInt8) : List UInt8 := writeLE 4 bytes.length ++ bytes

def decodeAll {α : Type} (read : Reader α) (bytes : List UInt8) : Option α :=
  match read bytes with
  | some (value, []) => some value
  | _ => none

section RoundTrips

variable {width value : Nat} {bytes rest : List UInt8} {α : Type}

variable {read : Reader α}

theorem readLE_writeLE (h : value < 256 ^ width) (rest : List UInt8) :
    readLE width (writeLE width value ++ rest) = some (value, rest) := by
  induction width generalizing value with
  | zero =>
    obtain rfl : value = 0 := by simpa using h
    rfl
  | succ width ih =>
    have hdiv : value / 256 < 256 ^ width := Nat.div_lt_of_lt_mul (by rwa [← pow_succ'])
    have hbyte : (UInt8.ofNat (value % 256)).toNat = value % 256 := by
      simp
    simp only [writeLE, List.cons_append, readLE, ih hdiv, hbyte, Option.bind_eq_bind,
      Option.bind_some, Option.some.injEq, Prod.mk.injEq, and_true]
    omega

/-- What is read is a number of the width, and the bytes are those that it is written as. -/
theorem lt_and_eq_writeLE_of_readLE (h : readLE width bytes = some (value, rest)) :
    value < 256 ^ width ∧ bytes = writeLE width value ++ rest := by
  induction width generalizing bytes value rest with
  | zero =>
    obtain ⟨rfl, rfl⟩ : 0 = value ∧ bytes = rest := by simpa [readLE] using h
    exact ⟨by simp, rfl⟩
  | succ width ih =>
    cases bytes with
    | nil => simp [readLE] at h
    | cons b bytes =>
      simp only [readLE, Option.bind_eq_bind, Option.bind_eq_some_iff, Prod.exists,
        Option.some.injEq, Prod.mk.injEq] at h
      obtain ⟨high, _, hread, rfl, rfl⟩ := h
      obtain ⟨_, hbytes⟩ := ih hread
      have hb : b.toNat < 256 := b.toNat_lt
      have hlow : (b.toNat + 256 * high) % 256 = b.toNat := by omega
      have hhigh : (b.toNat + 256 * high) / 256 = high := by omega
      constructor
      · omega
      · rw [writeLE, hlow, hhigh, UInt8.ofNat_toNat, List.cons_append, ← hbytes]

theorem readLE_lt (h : readLE width bytes = some (value, rest)) : value < 256 ^ width :=
  (lt_and_eq_writeLE_of_readLE h).1

theorem eq_writeLE_of_readLE (h : readLE width bytes = some (value, rest)) :
    bytes = writeLE width value ++ rest :=
  (lt_and_eq_writeLE_of_readLE h).2

theorem length_writeLE (width value : Nat) : (writeLE width value).length = width := by
  induction width generalizing value with
  | zero => rfl
  | succ width ih => rw [writeLE, List.length_cons, ih]

theorem readBool_writeBool (b : Bool) (rest : List UInt8) :
    readBool (writeBool b ++ rest) = some (b, rest) := by
  cases b <;> rfl

theorem readOption_writeOption {α : Type} {read : Reader α} {write : α → List UInt8}
    (value : Option α) (rest : List UInt8)
    (h : ∀ v, value = some v → read (write v ++ rest) = some (v, rest)) :
    readOption read (writeOption write value ++ rest) = some (value, rest) := by
  cases value with
  | none => rfl
  | some v => simp [writeOption, readOption, h v rfl]

theorem eq_writeBool_of_readBool {b : Bool}
    (h : readBool bytes = some (b, rest)) : bytes = writeBool b ++ rest := by
  unfold readBool at h
  split at h
  · cases h
    rfl
  · cases h
    rfl
  · cases h

theorem eq_writeOption_of_readOption {α : Type} {read : Reader α} {write : α → List UInt8}
    {value : Option α} {bytes rest : List UInt8}
    (hread : ∀ {tail v}, read tail = some (v, rest) → tail = write v ++ rest)
    (h : readOption read bytes = some (value, rest)) : bytes = writeOption write value ++ rest := by
  unfold readOption at h
  split at h
  · cases h
    rfl
  · simp only [Option.bind_eq_bind, Option.bind_eq_some_iff, Prod.exists, Option.some.injEq,
      Prod.mk.injEq] at h
    obtain ⟨v, _, hv, rfl, rfl⟩ := h
    rw [hread hv]
    rfl
  · cases h

theorem readOption_eq_some {value : α} (h : readOption read bytes = some (some value, rest)) :
    ∃ tail, read tail = some (value, rest) := by
  unfold readOption at h
  split at h
  · simp at h
  · rename_i tail
    simp only [Option.bind_eq_bind, Option.bind_eq_some_iff, Prod.exists, Option.some.injEq,
      Prod.mk.injEq] at h
    obtain ⟨v, _, hread, rfl, rfl⟩ := h
    exact ⟨tail, hread⟩
  · simp at h

theorem readBytes_append (bytes rest : List UInt8) :
    readBytes bytes.length (bytes ++ rest) = some (bytes, rest) := by
  rw [readBytes, if_pos (by simp), List.take_left, List.drop_left]

theorem eq_append_of_readBytes {count : Nat} {value : List UInt8}
    (h : readBytes count bytes = some (value, rest)) :
    bytes = value ++ rest ∧ value.length = count := by
  unfold readBytes at h
  split at h
  · rename_i hle
    cases h
    exact ⟨(List.take_append_drop count bytes).symm, List.length_take_of_le hle⟩
  · cases h

theorem readLE_of_readByteVec {value : List UInt8} (h : readByteVec bytes = some (value, rest)) :
    readLE 4 bytes = some (value.length, value ++ rest) := by
  simp only [readByteVec, Option.bind_eq_bind, Option.bind_eq_some_iff, Prod.exists] at h
  obtain ⟨_, _, hcount, hvalue⟩ := h
  obtain ⟨rfl, rfl⟩ := eq_append_of_readBytes hvalue
  exact hcount

theorem readByteVec_writeByteVec (h : bytes.length < 2 ^ 32)
    (rest : List UInt8) : readByteVec (writeByteVec bytes ++ rest) = some (bytes, rest) := by
  rw [readByteVec, writeByteVec, List.append_assoc, readLE_writeLE (by simpa using h)]
  exact readBytes_append bytes rest

theorem readMany_flatMap {write : α → List UInt8} {values : List α}
    (h : ∀ v ∈ values, ∀ rest, read (write v ++ rest) = some (v, rest)) (rest : List UInt8) :
    readMany read values.length (values.flatMap write ++ rest) = some (values, rest) := by
  induction values with
  | nil => rfl
  | cons v values ih =>
    have hhead := h v List.mem_cons_self
    have htail := ih fun w hw => h w (List.mem_cons_of_mem v hw)
    simp only [List.length_cons, List.flatMap_cons, List.append_assoc, readMany, hhead, htail,
      Option.bind_eq_bind, Option.bind_some]

theorem readVec_writeVec {α : Type} {read : Reader α} {write : α → List UInt8} {values : List α}
    (hlength : values.length < 2 ^ 32)
    (h : ∀ v ∈ values, ∀ rest, read (write v ++ rest) = some (v, rest)) (rest : List UInt8) :
    readVec read (writeVec write values ++ rest) = some (values, rest) := by
  rw [readVec, writeVec, List.append_assoc, readLE_writeLE (by simpa using hlength)]
  exact readMany_flatMap h rest

theorem decodeAll_eq_some {value : α}
    (h : decodeAll read bytes = some value) : read bytes = some (value, []) := by
  unfold decodeAll at h
  split at h
  · next v hread => rw [hread, Option.some.inj h]
  · cases h

theorem decodeAll_of_read {value : α}
    (h : read bytes = some (value, [])) : decodeAll read bytes = some value := by
  simp [decodeAll, h]

end RoundTrips

end BitInfinity.Foundation
