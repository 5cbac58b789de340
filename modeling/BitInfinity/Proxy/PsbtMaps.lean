import BitInfinity.Proxy.Psbt

/-!
# The maps of a PSBT

Where the entries of a map lie is described without a cursor: a field is a length and as many
bytes, an entry a key and a value.  The relations hold exactly for maps whose lengths keep every
position within 64 bits, and these are the maps that the parsers come through in both builds.
-/

namespace BitInfinity.Proxy

open BitInfinity Foundation

/-! ## Length fields -/

def markerWidth (first : UInt8) : Nat := if first = 0xFD then 2 else if first = 0xFE then 4 else 8

def compactSizeAt (data : Bytes) (pos : Nat) : Nat × Nat :=
  if data.length ≤ pos then (0, 1)
  else if data.getD pos 0 < 253 then ((data.getD pos 0).toNat, 1)
  else if pos + markerWidth (data.getD pos 0) < data.length then
    (leValue data (pos + 1) (markerWidth (data.getD pos 0)), markerWidth (data.getD pos 0) + 1)
  else (0, 1)

def fieldLength (data : Bytes) (p : Nat) : Nat := (compactSizeAt data p).1

def fieldStart (data : Bytes) (p : Nat) : Nat := p + (compactSizeAt data p).2

def fieldEnd (data : Bytes) (p : Nat) : Nat := fieldStart data p + fieldLength data p

def entryEnd (data : Bytes) (p : Nat) : Nat := fieldEnd data (fieldEnd data p)

section Fields

variable {data : Bytes} (hdata : data.length < 2 ^ 63) {mode : Overflow} {p : Nat}

theorem lt_fieldStart (data : Bytes) (p : Nat) : p < fieldStart data p := by
  unfold fieldStart compactSizeAt
  split
  · simp
  · split
    · simp
    · split
      · simp
      · simp

theorem fieldStart_le (hp : p < data.length) : fieldStart data p ≤ data.length := by
  unfold fieldStart compactSizeAt
  rw [if_neg (by omega)]
  split
  · exact hp
  · split
    · next h => exact h
    · exact hp

theorem lt_fieldEnd (data : Bytes) (p : Nat) : p < fieldEnd data p :=
  Nat.lt_of_lt_of_le (lt_fieldStart data p) (Nat.le_add_right _ _)

theorem lt_entryEnd (data : Bytes) (p : Nat) : fieldEnd data p < entryEnd data p :=
  lt_fieldEnd data _

theorem fieldStart_le_fieldEnd (data : Bytes) (p : Nat) : fieldStart data p ≤ fieldEnd data p :=
  Nat.le_add_right _ _

theorem fieldStart_le_entryEnd (data : Bytes) (p : Nat) :
    fieldStart data (fieldEnd data p) ≤ entryEnd data p :=
  fieldStart_le_fieldEnd data _

theorem add_start (h : fieldStart data p < 2 ^ 64) :
    mode.add p (compactSizeAt data p).2 = .ok (fieldStart data p) :=
  Overflow.add_eq h

theorem add_field (h : fieldEnd data p < 2 ^ 64) :
    mode.add (fieldStart data p) (fieldLength data p) = .ok (fieldEnd data p) :=
  Overflow.add_eq h

theorem add_value (h : entryEnd data p < 2 ^ 64) :
    mode.add (fieldStart data (fieldEnd data p)) (fieldLength data (fieldEnd data p)) =
      .ok (entryEnd data p) :=
  Overflow.add_eq h

include hdata

theorem readWide_eq {width : Nat} (hwidth : width ≤ 8) (hp : p < data.length) :
    readWide mode data p width =
      .ok (if p + width < data.length then (leValue data (p + 1) width, width + 1)
        else (0, 1)) := by
  have hadd : mode.add p width = .ok (p + width) := Overflow.add_eq (by omega)
  rw [readWide, hadd, ok_bind]
  split
  · rw [leAt_eq (by omega) (by omega), ok_bind]
  · rfl

theorem readCompactSize_eq (mode : Overflow) (p : Nat) :
    readCompactSize mode data p = .ok (fieldLength data p, (compactSizeAt data p).2) := by
  show _ = Except.ok (compactSizeAt data p)
  unfold readCompactSize compactSizeAt markerWidth
  split
  · rfl
  · rw [byteAt_eq (by omega), ok_bind]
    split
    · rfl
    · split
      · exact readWide_eq hdata (by omega) (by omega)
      · split
        · exact readWide_eq hdata (by omega) (by omega)
        · exact readWide_eq hdata (by omega) (by omega)

theorem add_advance (hp : p < data.length) :
    mode.add p (compactSizeAt data p).2 = .ok (fieldStart data p) := by
  have hle := fieldStart_le hp
  exact add_start (by omega)

end Fields

/-! ## Maps -/

/-- The map that starts at the first position ends at the second.  A parser that looks ahead
checks that there is a key before it adds the key's length. -/
inductive MapFits (bytes : Bytes) (looksAhead : Bool) : Nat → Nat → Prop
  | atEnd {p} : bytes.length ≤ p → MapFits bytes looksAhead p p
  | separator {p} : p < bytes.length → fieldLength bytes p = 0 →
      MapFits bytes looksAhead p (fieldStart bytes p)
  | keyMissing {p} : looksAhead = true → p < bytes.length → fieldLength bytes p ≠ 0 →
      bytes.length ≤ fieldStart bytes p → MapFits bytes looksAhead p (fieldStart bytes p)
  | keyBeyond {p} : (looksAhead = true → fieldStart bytes p < bytes.length) →
      p < bytes.length → fieldLength bytes p ≠ 0 → fieldEnd bytes p < 2 ^ 64 →
      bytes.length ≤ fieldEnd bytes p → MapFits bytes looksAhead p (fieldEnd bytes p)
  | entry {p q} : p < bytes.length → fieldLength bytes p ≠ 0 →
      fieldEnd bytes p < bytes.length → entryEnd bytes p < 2 ^ 64 →
      MapFits bytes looksAhead (entryEnd bytes p) q → MapFits bytes looksAhead p q

inductive MapsFit (bytes : Bytes) (looksAhead : Bool) : Nat → Nat → Nat → Prop
  | zero {p} : MapsFit bytes looksAhead 0 p p
  | succ {count p q r} : MapFits bytes looksAhead p q → MapsFit bytes looksAhead count q r →
      MapsFit bytes looksAhead (count + 1) p r

/-- A map all of whose entries lie inside the bytes. -/
inductive MapInside (bytes : Bytes) : Nat → Nat → Prop
  | atEnd {p} : bytes.length ≤ p → MapInside bytes p p
  | separator {p} : p < bytes.length → fieldLength bytes p = 0 →
      MapInside bytes p (fieldStart bytes p)
  | entry {p q} : p < bytes.length → fieldLength bytes p ≠ 0 →
      entryEnd bytes p ≤ bytes.length → MapInside bytes (entryEnd bytes p) q → MapInside bytes p q

section Maps

variable {bytes : Bytes} (hbytes : bytes.length < 2 ^ 63) {mode : Overflow} {p q fuel : Nat}
include hbytes

theorem skipMap_step (hp : p < bytes.length) : skipMap mode bytes (fuel + 1) p =
      (if fieldLength bytes p = 0 then .ok (fieldStart bytes p)
      else do
        let keyEnd ← mode.add (fieldStart bytes p) (fieldLength bytes p)
        if keyEnd ≥ bytes.length then .ok keyEnd
        else do
          let valEnd ← mode.add (fieldStart bytes keyEnd) (fieldLength bytes keyEnd)
          skipMap mode bytes fuel valEnd) := by
  rw [skipMap, if_pos hp, readCompactSize_eq hbytes, ok_bind]
  dsimp only
  rw [add_advance hbytes hp, ok_bind]
  congr 1
  congr 1
  funext keyEnd
  split
  · rfl
  · rw [readCompactSize_eq hbytes, ok_bind]
    rw [add_advance hbytes (by omega), ok_bind]

theorem skipMap_of_fits (hfits : MapFits bytes false p q) (hfuel : bytes.length - p < fuel) :
    skipMap mode bytes fuel p = .ok q := by
  induction hfits generalizing fuel with
    obtain ⟨fuel, rfl⟩ := Nat.exists_eq_add_of_lt hfuel
  | atEnd hend => rw [skipMap, if_neg (by omega)]
  | separator hp hlength => rw [skipMap_step hbytes hp, if_pos hlength]
  | keyMissing hahead => cases hahead
  | keyBeyond _ hp hlength hword hend =>
    rw [skipMap_step hbytes hp, if_neg hlength, add_field hword, ok_bind, if_pos hend]
  | @entry p q hp hlength hkey hword _ ih =>
    have hstep := lt_entryEnd bytes p
    have hkeyEnd := lt_fieldEnd bytes p
    rw [skipMap_step hbytes hp, if_neg hlength, add_field (by omega), ok_bind,
      if_neg (Nat.not_le.mpr hkey), add_value hword, ok_bind]
    exact ih (by omega)

theorem fits_of_skipMap (hrun : skipMap .panics bytes fuel p = .ok q) :
    MapFits bytes false p q := by
  induction fuel generalizing p with
  | zero => cases hrun
  | succ fuel ih =>
    by_cases hp : p < bytes.length
    · rw [skipMap_step hbytes hp] at hrun
      split at hrun
      · rename_i hlength
        cases hrun
        exact .separator hp hlength
      · rename_i hlength
        obtain ⟨hkeyWord, hrest⟩ := Overflow.of_bind_panics_add hrun
        split at hrest
        · rename_i hend
          cases hrest
          exact .keyBeyond (by simp) hp hlength hkeyWord hend
        · rename_i hend
          obtain ⟨hvalWord, hrest⟩ := Overflow.of_bind_panics_add hrest
          exact .entry hp hlength (Nat.not_le.mp hend) hvalWord (ih hrest)
    · rw [skipMap, if_neg hp] at hrun
      cases hrun
      exact .atEnd (Nat.not_lt.mp hp)

theorem record_eq_ok (info : PsbtInput) (keyType : UInt8) (keyData : Bytes) {valData : Bytes}
    (hvalue : valData.length ≤ bytes.length) :
    ∃ info', info.record mode keyType keyData valData = .ok info' := by
  unfold PsbtInput.record
  split
  · exact ⟨_, rfl⟩
  · split
    · split
      · rw [leAt_eq (by omega) (by omega), ok_bind]
        exact ⟨_, rfl⟩
      · exact ⟨_, rfl⟩
    · split
      · split
        · rename_i hlength
          rw [slice_eq (by omega) hlength]
          exact ⟨_, rfl⟩
        · exact ⟨_, rfl⟩
      · exact ⟨_, rfl⟩

variable {result result' : Bytes} {count : Nat}

omit hbytes in
theorem partWhen_eq_ok {inside : Bool} {start stop : Nat} (hle : start ≤ stop)
    (hinside : inside = true → stop ≤ bytes.length) :
    ∃ part, partWhen inside (slice bytes start stop) = .ok part ∧ part.length ≤ bytes.length := by
  unfold partWhen
  split
  · rename_i h
    have hlen := hinside h
    refine ⟨_, slice_eq hle hlen, ?_⟩
    rw [length_slice hle hlen]
    omega
  · exact ⟨[], rfl, Nat.zero_le _⟩

omit hbytes in
theorem keyData_eq_ok (hlength : fieldLength bytes p ≠ 0) :
    ∃ keyData, partWhen (fieldLength bytes p > 1 && fieldEnd bytes p ≤ bytes.length)
      (slice bytes (fieldStart bytes p + 1) (fieldEnd bytes p)) = .ok keyData := by
  obtain ⟨keyData, hkeyData, -⟩ := @partWhen_eq_ok bytes
    (fieldLength bytes p > 1 && fieldEnd bytes p ≤ bytes.length) (fieldStart bytes p + 1)
    (fieldEnd bytes p) (by unfold fieldEnd; omega) (by simp)
  exact ⟨keyData, hkeyData⟩

theorem parseInputMap_step (hp : p < bytes.length) (info : PsbtInput) :
    parseInputMap mode bytes (fuel + 1) p info =
      (if fieldLength bytes p = 0 then .ok (info, fieldStart bytes p)
      else if fieldStart bytes p ≥ bytes.length then .ok (info, fieldStart bytes p)
      else do
        let keyEnd ← mode.add (fieldStart bytes p) (fieldLength bytes p)
        let keyData ← partWhen (fieldLength bytes p > 1 && keyEnd ≤ bytes.length)
          (slice bytes (fieldStart bytes p + 1) keyEnd)
        if keyEnd ≥ bytes.length then .ok (info, keyEnd)
        else do
          let valEnd ← mode.add (fieldStart bytes keyEnd) (fieldLength bytes keyEnd)
          let valData ← partWhen (valEnd ≤ bytes.length)
            (slice bytes (fieldStart bytes keyEnd) valEnd)
          let info ← info.record mode (bytes.getD (fieldStart bytes p) 0) keyData valData
          parseInputMap mode bytes fuel valEnd info) := by
  rw [parseInputMap, if_pos hp, readCompactSize_eq hbytes, ok_bind]
  dsimp only
  rw [add_advance hbytes hp, ok_bind]
  congr 1
  split
  · rfl
  · rw [byteAt_eq (by omega), ok_bind]
    congr 1
    funext keyEnd
    rw [Overflow.add_eq (by omega), ok_bind]
    congr 1
    funext keyData
    split
    · rfl
    · rw [readCompactSize_eq hbytes, ok_bind]
      rw [add_advance hbytes (by omega), ok_bind]

theorem parseInputMap_of_fits (hfits : MapFits bytes true p q) (info : PsbtInput)
    (hfuel : bytes.length - p < fuel) :
    ∃ info', parseInputMap mode bytes fuel p info = .ok (info', q) := by
  induction hfits generalizing fuel info with
    obtain ⟨fuel, rfl⟩ := Nat.exists_eq_add_of_lt hfuel
  | atEnd hend =>
    rw [parseInputMap, if_neg (by omega)]
    exact ⟨info, rfl⟩
  | separator hp hlength =>
    rw [parseInputMap_step hbytes hp, if_pos hlength]
    exact ⟨info, rfl⟩
  | keyMissing _ hp hlength hend =>
    rw [parseInputMap_step hbytes hp, if_neg hlength, if_pos hend]
    exact ⟨info, rfl⟩
  | @keyBeyond p hahead hp hlength hword hend =>
    have hstart := hahead rfl
    obtain ⟨keyData, hkeyData⟩ := keyData_eq_ok hlength
    rw [parseInputMap_step hbytes hp, if_neg hlength, if_neg (by omega), add_field hword, ok_bind,
      hkeyData, ok_bind, if_pos hend]
    exact ⟨info, rfl⟩
  | @entry p q hp hlength hkey hword _ ih =>
    have hstartLe := fieldStart_le_fieldEnd bytes p
    have hkeyEnd := lt_fieldEnd bytes p
    have hstep := lt_entryEnd bytes p
    obtain ⟨keyData, hkeyData⟩ := keyData_eq_ok hlength
    obtain ⟨valData, hvalData, hvalLength⟩ := @partWhen_eq_ok bytes
      (entryEnd bytes p ≤ bytes.length) (fieldStart bytes (fieldEnd bytes p))
      (entryEnd bytes p) (fieldStart_le_fieldEnd bytes _) (by simp)
    obtain ⟨info', hinfo⟩ := @record_eq_ok bytes hbytes mode info
      (bytes.getD (fieldStart bytes p) 0) keyData valData hvalLength
    rw [parseInputMap_step hbytes hp, if_neg hlength, if_neg (by omega), add_field (by omega),
      ok_bind, hkeyData, ok_bind, if_neg (Nat.not_le.mpr hkey), add_value hword, ok_bind,
      hvalData, ok_bind, hinfo, ok_bind]
    exact ih info' (by omega)

theorem fits_of_parseInputMap {info info' : PsbtInput}
    (hrun : parseInputMap .panics bytes fuel p info = .ok (info', q)) : MapFits bytes true p q := by
  induction fuel generalizing p info with
  | zero => cases hrun
  | succ fuel ih =>
    by_cases hp : p < bytes.length
    · rw [parseInputMap_step hbytes hp] at hrun
      split at hrun
      · rename_i hlength
        cases hrun
        exact .separator hp hlength
      · rename_i hlength
        split at hrun
        · rename_i hend
          cases hrun
          exact .keyMissing rfl hp hlength hend
        · rename_i hstart
          obtain ⟨hkeyWord, hrest⟩ := Overflow.of_bind_panics_add hrun
          obtain ⟨_, -, hrest⟩ := bind_eq_ok.mp hrest
          split at hrest
          · rename_i hend
            cases hrest
            exact .keyBeyond (fun _ => Nat.not_le.mp hstart) hp hlength hkeyWord hend
          · rename_i hend
            obtain ⟨hvalWord, hrest⟩ := Overflow.of_bind_panics_add hrest
            obtain ⟨_, -, hrest⟩ := bind_eq_ok.mp hrest
            obtain ⟨_, -, hrest⟩ := bind_eq_ok.mp hrest
            exact .entry hp hlength (Nat.not_le.mp hend) hvalWord (ih hrest)
    · rw [parseInputMap, if_neg hp] at hrun
      cases hrun
      exact .atEnd (Nat.not_lt.mp hp)

theorem copyGlobalMap_step (hp : p < bytes.length) (result : Bytes) :
    copyGlobalMap mode bytes (fuel + 1) p result =
      (if fieldLength bytes p = 0 then .ok (result ++ [0x00], fieldStart bytes p)
      else do
        let keyEnd ← mode.add (fieldStart bytes p) (fieldLength bytes p)
        let valStart ← mode.add keyEnd (compactSizeAt bytes keyEnd).2
        let valEnd ← mode.add valStart (fieldLength bytes keyEnd)
        let entry ← slice bytes p valEnd
        copyGlobalMap mode bytes fuel valEnd (result ++ entry)) := by
  rw [copyGlobalMap, if_pos hp, readCompactSize_eq hbytes, ok_bind]
  dsimp only
  rw [add_advance hbytes hp]
  congr 1
  rw [ok_bind]
  congr 1
  funext keyEnd
  rw [readCompactSize_eq hbytes, ok_bind]

theorem copyGlobalMap_of_inside (hinside : MapInside bytes p q) (result : Bytes)
    (hfuel : bytes.length - p < fuel) :
    ∃ result', copyGlobalMap mode bytes fuel p result = .ok (result', q) := by
  induction hinside generalizing fuel result with
    obtain ⟨fuel, rfl⟩ := Nat.exists_eq_add_of_lt hfuel
  | atEnd hend =>
    rw [copyGlobalMap, if_neg (by omega)]
    exact ⟨result, rfl⟩
  | separator hp hlength =>
    rw [copyGlobalMap_step hbytes hp, if_pos hlength]
    exact ⟨_, rfl⟩
  | @entry p q hp hlength hend _ ih =>
    have hkeyEnd := lt_fieldEnd bytes p
    have hstep := lt_entryEnd bytes p
    have hvalStart := fieldStart_le_entryEnd bytes p
    rw [copyGlobalMap_step hbytes hp, if_neg hlength, add_field (by omega), ok_bind,
      add_start (by omega), ok_bind, add_value (by omega), ok_bind, slice_eq (by omega) hend,
      ok_bind]
    exact ih _ (by omega)

theorem inside_of_copyGlobalMap
    (hrun : copyGlobalMap .panics bytes fuel p result = .ok (result', q)) :
    MapInside bytes p q := by
  induction fuel generalizing p result with
  | zero => cases hrun
  | succ fuel ih =>
    by_cases hp : p < bytes.length
    · rw [copyGlobalMap_step hbytes hp] at hrun
      split at hrun
      · rename_i hlength
        cases hrun
        exact .separator hp hlength
      · rename_i hlength
        obtain ⟨-, hrest⟩ := Overflow.of_bind_panics_add hrun
        obtain ⟨-, hrest⟩ := Overflow.of_bind_panics_add hrest
        obtain ⟨-, hrest⟩ := Overflow.of_bind_panics_add hrest
        obtain ⟨entry, hslice, hrest⟩ := bind_eq_ok.mp hrest
        exact .entry hp hlength (slice_eq_ok.mp hslice).2.1 (ih hrest)
    · rw [copyGlobalMap, if_neg hp] at hrun
      cases hrun
      exact .atEnd (Nat.not_lt.mp hp)

/-! ## Several maps -/

theorem parseInputMaps_of_fits {r : Nat} (hfits : MapsFit bytes true count p r) :
    ∃ inputs, parseInputMaps mode bytes (bytes.length + 1) count p = .ok inputs := by
  induction hfits with
  | zero => exact ⟨[], rfl⟩
  | @succ count p q r hmap _ ih =>
    obtain ⟨info, hinfo⟩ := @parseInputMap_of_fits bytes hbytes mode p q (bytes.length + 1) hmap
      .empty (by omega)
    obtain ⟨inputs, hinputs⟩ := ih
    refine ⟨info :: inputs, ?_⟩
    rw [parseInputMaps, hinfo, ok_bind]
    exact bind_of_eq_ok hinputs _

theorem fits_of_parseInputMaps {inputs : List PsbtInput}
    (hrun : parseInputMaps .panics bytes fuel count p = .ok inputs) :
    ∃ r, MapsFit bytes true count p r := by
  induction count generalizing p inputs with
  | zero => exact ⟨p, .zero⟩
  | succ count ih =>
    obtain ⟨⟨_, q⟩, hinfo, hrest⟩ := bind_eq_ok.mp hrun
    obtain ⟨_, hinputs, -⟩ := bind_eq_ok.mp hrest
    obtain ⟨r, hfits⟩ := ih hinputs
    exact ⟨r, .succ (fits_of_parseInputMap hbytes hinfo) hfits⟩

theorem signInputMaps_of_fits {C : Crypto} {signer : SignerMaterial} {text : String}
    (htext : extractUnsignedTxHex mode (bytes.length + 1) bytes = .ok text) {count r : Nat}
    (hfits : MapsFit bytes false count p r) (inputIdx : Nat) (result : Bytes) :
    ∃ result', signInputMaps mode C signer bytes (bytes.length + 1) count inputIdx p result =
      .ok (result', r) := by
  induction hfits generalizing inputIdx result with
  | zero => exact ⟨result, rfl⟩
  | @succ count p q r hmap _ ih =>
    have hskip := @skipMap_of_fits bytes hbytes mode p q (bytes.length + 1) hmap (by omega)
    rw [signInputMaps, htext, ok_bind, hskip, ok_bind]
    exact ih _ _

theorem fits_of_signInputMaps {C : Crypto} {signer : SignerMaterial} {r inputIdx : Nat}
    (hrun : signInputMaps .panics C signer bytes fuel count inputIdx p result = .ok (result', r)) :
    MapsFit bytes false count p r := by
  induction count generalizing inputIdx p result with
  | zero =>
    cases hrun
    exact .zero
  | succ count ih =>
    obtain ⟨_, -, hrest⟩ := bind_eq_ok.mp hrun
    obtain ⟨q, hskip, hrest⟩ := bind_eq_ok.mp hrest
    exact .succ (fits_of_skipMap hbytes hskip) (ih hrest)

theorem clearOutputMaps_of_fits {count r : Nat} (hfits : MapsFit bytes false count p r)
    (result : Bytes) :
    ∃ result', clearOutputMaps mode bytes (bytes.length + 1) count p result = .ok result' := by
  induction hfits generalizing result with
  | zero => exact ⟨result, rfl⟩
  | @succ count p q r hmap _ ih =>
    have hskip := @skipMap_of_fits bytes hbytes mode p q (bytes.length + 1) hmap (by omega)
    rw [clearOutputMaps, hskip, ok_bind]
    exact ih _

theorem fits_of_clearOutputMaps
    (hrun : clearOutputMaps .panics bytes fuel count p result = .ok result') :
    ∃ r, MapsFit bytes false count p r := by
  induction count generalizing p result with
  | zero => exact ⟨p, .zero⟩
  | succ count ih =>
    obtain ⟨q, hskip, hrest⟩ := bind_eq_ok.mp hrun
    obtain ⟨r, hfits⟩ := ih hrest
    exact ⟨r, .succ (fits_of_skipMap hbytes hskip) hfits⟩

end Maps

end BitInfinity.Proxy
