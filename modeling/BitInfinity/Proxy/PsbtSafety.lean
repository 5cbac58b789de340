import BitInfinity.Proxy.PsbtMaps

/-!
# Which byte strings the PSBT parsers survive

The layout of the unsigned transaction is described as that of the maps is, and the layouts are
put together: all parsers return in both builds exactly on the byte strings whose lengths keep
every position within 64 bits and, when the wallet can sign, whose global entries lie inside.
-/

namespace BitInfinity.Proxy

open BitInfinity Foundation

/-! ## Where the unsigned transaction lies -/

/-- The walk over the global map from a position finds the transaction, or none. -/
inductive UnsignedTxAt (bytes : Bytes) : Nat → Option Bytes → Prop
  | atEnd {p} : bytes.length ≤ p → UnsignedTxAt bytes p none
  | separator {p} : p < bytes.length → fieldLength bytes p = 0 → UnsignedTxAt bytes p none
  | keyMissing {p} : p < bytes.length → fieldLength bytes p ≠ 0 →
      bytes.length ≤ fieldStart bytes p → UnsignedTxAt bytes p none
  | keyBeyond {p} : p < bytes.length → fieldLength bytes p ≠ 0 →
      fieldStart bytes p < bytes.length → fieldEnd bytes p < 2 ^ 64 →
      bytes.length ≤ fieldEnd bytes p → UnsignedTxAt bytes p none
  | txBeyond {p} : p < bytes.length → fieldLength bytes p ≠ 0 →
      fieldEnd bytes p < bytes.length → bytes.getD (fieldStart bytes p) 0 = 0x00 →
      entryEnd bytes p < 2 ^ 64 → bytes.length < entryEnd bytes p → UnsignedTxAt bytes p none
  | found {p} : p < bytes.length → fieldLength bytes p ≠ 0 →
      fieldEnd bytes p < bytes.length → bytes.getD (fieldStart bytes p) 0 = 0x00 →
      entryEnd bytes p ≤ bytes.length →
      UnsignedTxAt bytes p (some ((bytes.drop (fieldStart bytes (fieldEnd bytes p))).take
        (fieldLength bytes (fieldEnd bytes p))))
  | next {p tx} : p < bytes.length → fieldLength bytes p ≠ 0 →
      fieldEnd bytes p < bytes.length → bytes.getD (fieldStart bytes p) 0 ≠ 0x00 →
      entryEnd bytes p < 2 ^ 64 → UnsignedTxAt bytes (entryEnd bytes p) tx →
      UnsignedTxAt bytes p tx

def onUnsignedTx {α : Type} (missing : α) (found : Bytes → Except Halt α) :
    Option Bytes → Except Halt α
  | none => .ok missing
  | some tx => found tx

section UnsignedTx

variable {bytes : Bytes} (hbytes : bytes.length < 2 ^ 63) {mode : Overflow} {p fuel : Nat}
  {α : Type} {missing : α} {found : Bytes → Except Halt α}
include hbytes

theorem findUnsignedTx_step (hp : p < bytes.length) :
    findUnsignedTx mode bytes missing found (fuel + 1) p =
      (if fieldLength bytes p = 0 then .ok missing
      else if fieldStart bytes p ≥ bytes.length then .ok missing
      else do
        let keyEnd ← mode.add (fieldStart bytes p) (fieldLength bytes p)
        if keyEnd ≥ bytes.length then .ok missing
        else do
          let txEnd ← mode.add (fieldStart bytes keyEnd) (fieldLength bytes keyEnd)
          if bytes.getD (fieldStart bytes p) 0 = 0x00 then
            if txEnd > bytes.length then .ok missing
            else do
              let txBytes ← slice bytes (fieldStart bytes keyEnd) txEnd
              found txBytes
          else findUnsignedTx mode bytes missing found fuel txEnd) := by
  rw [findUnsignedTx, if_pos hp, readCompactSize_eq hbytes, ok_bind]
  dsimp only
  rw [add_advance hbytes hp, ok_bind]
  congr 1
  split
  · rfl
  · rw [byteAt_eq (by omega), ok_bind]
    congr 1
    funext keyEnd
    split
    · rfl
    · rw [readCompactSize_eq hbytes, ok_bind]
      rw [add_advance hbytes (by omega), ok_bind]

theorem findUnsignedTx_of_at {tx : Option Bytes} (hat : UnsignedTxAt bytes p tx)
    (hfuel : bytes.length - p < fuel) :
    findUnsignedTx mode bytes missing found fuel p = onUnsignedTx missing found tx := by
  induction hat generalizing fuel with
    obtain ⟨fuel, rfl⟩ := Nat.exists_eq_add_of_lt hfuel
  | atEnd hend => rw [findUnsignedTx, if_neg (by omega), onUnsignedTx]
  | separator hp hlength => rw [findUnsignedTx_step hbytes hp, if_pos hlength, onUnsignedTx]
  | keyMissing hp hlength hend =>
    rw [findUnsignedTx_step hbytes hp, if_neg hlength, if_pos hend, onUnsignedTx]
  | keyBeyond hp hlength hstart hword hend =>
    rw [findUnsignedTx_step hbytes hp, if_neg hlength, if_neg (by omega), add_field hword, ok_bind,
      if_pos hend, onUnsignedTx]
  | @txBeyond p hp hlength hkey htype hword hend =>
    have hstart := fieldStart_le_fieldEnd bytes p
    rw [findUnsignedTx_step hbytes hp, if_neg hlength, if_neg (by omega), add_field (by omega),
      ok_bind, if_neg (Nat.not_le.mpr hkey), add_value hword, ok_bind, if_pos htype, if_pos hend,
      onUnsignedTx]
  | @found p hp hlength hkey htype hend =>
    have hstart := fieldStart_le_fieldEnd bytes p
    rw [findUnsignedTx_step hbytes hp, if_neg hlength, if_neg (by omega), add_field (by omega),
      ok_bind, if_neg (Nat.not_le.mpr hkey), add_value (by omega), ok_bind, if_pos htype,
      if_neg (Nat.not_lt.mpr hend), slice_eq (fieldStart_le_entryEnd bytes p) hend, ok_bind,
      onUnsignedTx, entryEnd, fieldEnd, Nat.add_sub_cancel_left]
  | @next p tx hp hlength hkey htype hword _ ih =>
    have hstart := fieldStart_le_fieldEnd bytes p
    have hkeyEnd := lt_fieldEnd bytes p
    have hstep := lt_entryEnd bytes p
    rw [findUnsignedTx_step hbytes hp, if_neg hlength, if_neg (by omega), add_field (by omega),
      ok_bind, if_neg (Nat.not_le.mpr hkey), add_value hword, ok_bind, if_neg htype]
    exact ih (by omega)

theorem at_of_findUnsignedTx {result : α}
    (hrun : findUnsignedTx .panics bytes missing found fuel p = .ok result) :
    ∃ tx, UnsignedTxAt bytes p tx ∧ onUnsignedTx missing found tx = .ok result := by
  induction fuel generalizing p with
  | zero => cases hrun
  | succ fuel ih =>
    by_cases hp : p < bytes.length
    · rw [findUnsignedTx_step hbytes hp] at hrun
      split at hrun
      · next hlength => exact ⟨none, .separator hp hlength, hrun⟩
      · rename_i hlength
        split at hrun
        · next hend => exact ⟨none, .keyMissing hp hlength hend, hrun⟩
        · rename_i hstart
          obtain ⟨hkeyWord, hrest⟩ := Overflow.of_bind_panics_add hrun
          split at hrest
          · rename_i hend
            exact ⟨none, .keyBeyond hp hlength (Nat.not_le.mp hstart) hkeyWord hend, hrest⟩
          · rename_i hend
            obtain ⟨hword, hrest⟩ := Overflow.of_bind_panics_add hrest
            have hkeyIn : fieldEnd bytes p < bytes.length := Nat.not_le.mp hend
            split at hrest
            · rename_i htype
              split at hrest
              · rename_i hbeyond
                exact ⟨none, .txBeyond hp hlength hkeyIn htype hword hbeyond, hrest⟩
              · rename_i hin
                obtain ⟨_, hslice, hfound⟩ := bind_eq_ok.mp hrest
                have hpart := (slice_eq_ok.mp hslice).2.2
                rw [Nat.add_sub_cancel_left] at hpart
                rw [hpart] at hfound
                exact ⟨_, .found hp hlength hkeyIn htype (Nat.not_lt.mp hin), hfound⟩
            · rename_i htype
              obtain ⟨tx, hat, hresult⟩ := ih hrest
              exact ⟨tx, .next hp hlength hkeyIn htype hword hat, hresult⟩
    · rw [findUnsignedTx, if_neg hp] at hrun
      exact ⟨none, .atEnd (Nat.not_lt.mp hp), hrun⟩

end UnsignedTx

/-! ## The layout of the unsigned transaction -/

/-- At most `count` inputs from the first position: how many are complete, and where the walk
over them stops. -/
inductive InputsFit (tx : Bytes) : Nat → Nat → Nat → Nat → Prop
  | zero {p} : InputsFit tx 0 p 0 p
  | short {count p} : tx.length < p + 36 → InputsFit tx (count + 1) p 0 p
  | scriptBeyond {count p} : p + 36 ≤ tx.length → fieldEnd tx (p + 36) + 4 < 2 ^ 64 →
      tx.length < fieldEnd tx (p + 36) + 4 →
      InputsFit tx (count + 1) p 0 (fieldEnd tx (p + 36))
  | input {count p n q} : fieldEnd tx (p + 36) + 4 ≤ tx.length →
      InputsFit tx count (fieldEnd tx (p + 36) + 4) n q → InputsFit tx (count + 1) p (n + 1) q

inductive OutputsFit (tx : Bytes) : Nat → Nat → Nat → Nat → Prop
  | zero {p} : OutputsFit tx 0 p 0 p
  | short {count p} : p + 8 < 2 ^ 64 → tx.length < p + 8 → OutputsFit tx (count + 1) p 0 p
  | output {count p n q} : p + 8 ≤ tx.length → fieldEnd tx (p + 8) < 2 ^ 64 →
      OutputsFit tx count (fieldEnd tx (p + 8)) n q → OutputsFit tx (count + 1) p (n + 1) q

inductive TxFits (tx : Bytes) : Nat → Nat → Prop
  | tooShort : tx.length < 10 → TxFits tx 0 0
  | tx {inputs outputs q r} : 10 ≤ tx.length →
      InputsFit tx (fieldLength tx 4) (fieldStart tx 4) inputs q →
      OutputsFit tx (fieldLength tx q) (fieldStart tx q) outputs r → r + 4 < 2 ^ 64 →
      TxFits tx inputs outputs

section Transaction

variable {tx : Bytes} (htx : tx.length < 2 ^ 63) {mode : Overflow} {count p n q : Nat}
include htx

theorem add_advance_of_le (hp : p ≤ tx.length) :
    mode.add p (compactSizeAt tx p).2 = .ok (fieldStart tx p) := by
  rcases Nat.lt_or_eq_of_le hp with hlt | heq
  · exact add_advance htx hlt
  · have hone : compactSizeAt tx p = (0, 1) := if_pos (Nat.le_of_eq heq.symm)
    refine add_start ?_
    rw [fieldStart, hone]
    omega

theorem parseInputs_step (hp : p ≤ tx.length) : parseInputs mode tx (count + 1) p =
      (if p + 36 > tx.length then .ok ([], p)
      else do
        let scriptEnd ← mode.add (fieldStart tx (p + 36)) (fieldLength tx (p + 36))
        let sequenceEnd ← mode.add scriptEnd 4
        if sequenceEnd > tx.length then .ok ([], scriptEnd)
        else do
          let sequence ← leAt mode tx scriptEnd 0 4
          let (vin, stop) ← parseInputs mode tx count sequenceEnd
          .ok (⟨hexText ((tx.drop p).take 32).reverse, leValue tx (p + 32) 4, sequence⟩ :: vin,
            stop)) := by
  rw [parseInputs, Overflow.add_eq (by omega), ok_bind]
  split
  · rfl
  · have hslice : slice tx p (p + 32) = .ok ((tx.drop p).take 32) := by
      rw [slice_eq (by omega) (by omega), Nat.add_sub_cancel_left]
    rw [Overflow.add_eq (by omega), ok_bind, hslice, ok_bind, leAt_eq (by omega) (by omega),
      ok_bind, Overflow.add_eq (by omega), ok_bind, readCompactSize_eq htx, ok_bind]
    dsimp only
    rw [add_advance_of_le htx (by omega), ok_bind]

theorem parseInputs_of_fits (hfits : InputsFit tx count p n q) (hp : p ≤ tx.length) :
    ∃ vin, parseInputs mode tx count p = .ok (vin, q) ∧ vin.length = n := by
  induction hfits with
  | zero => exact ⟨[], rfl, rfl⟩
  | short hshort =>
    rw [parseInputs_step htx hp, if_pos hshort]
    exact ⟨[], rfl, rfl⟩
  | scriptBeyond hin hword hbeyond =>
    rw [parseInputs_step htx hp, if_neg (by omega), add_field (by omega), ok_bind,
      Overflow.add_eq hword, ok_bind, if_pos hbeyond]
    exact ⟨[], rfl, rfl⟩
  | @input count p n q hin _ ih =>
    have hfixed := lt_fieldEnd tx (p + 36)
    obtain ⟨vin, hvin, hlength⟩ := ih hin
    rw [parseInputs_step htx hp, if_neg (by omega), add_field (by omega), ok_bind,
      Overflow.add_eq (by omega), ok_bind, if_neg (Nat.not_lt.mpr hin),
      leAt_eq (by omega) (by omega), ok_bind, hvin, ok_bind]
    exact ⟨_, rfl, congrArg (· + 1) hlength⟩

theorem fits_of_parseInputs {vin : List PsbtVin}
    (hrun : parseInputs .panics tx count p = .ok (vin, q)) (hp : p ≤ tx.length) :
    InputsFit tx count p vin.length q := by
  induction count generalizing p vin with
  | zero =>
    cases hrun
    exact .zero
  | succ count ih =>
    rw [parseInputs_step htx hp] at hrun
    split at hrun
    · rename_i hshort
      cases hrun
      exact .short hshort
    · rename_i hin
      obtain ⟨-, hrest⟩ := Overflow.of_bind_panics_add hrun
      obtain ⟨hword, hrest⟩ := Overflow.of_bind_panics_add hrest
      split at hrest
      · rename_i hbeyond
        cases hrest
        exact .scriptBeyond (Nat.not_lt.mp hin) hword hbeyond
      · rename_i hinside
        obtain ⟨_, -, hrest⟩ := bind_eq_ok.mp hrest
        obtain ⟨⟨_, _⟩, hvin, hlast⟩ := bind_eq_ok.mp hrest
        cases hlast
        exact .input (Nat.not_lt.mp hinside) (ih hvin (Nat.not_lt.mp hinside))

theorem parseOutputs_step {index : Nat} : parseOutputs mode tx (count + 1) index p = (do
        let valueEnd ← mode.add p 8
        if valueEnd > tx.length then .ok ([], p)
        else do
          let value ← leAt mode tx p 0 8
          let scriptEnd ← mode.add (fieldStart tx valueEnd) (fieldLength tx valueEnd)
          let script ← partWhen (scriptEnd ≤ tx.length)
            (slice tx (fieldStart tx valueEnd) scriptEnd)
          let (type, asm) := classifyScriptPubKeyHex (hexEncode script)
          let (vout, stop) ← parseOutputs mode tx count (index + 1) scriptEnd
          .ok (⟨value, index, asm, hexText script, type⟩ :: vout, stop)) := by
  rw [parseOutputs]
  congr 1
  funext valueEnd
  split
  · rfl
  · congr 1
    funext value
    rw [readCompactSize_eq htx, ok_bind]
    dsimp only
    rw [add_advance_of_le htx (by omega), ok_bind]

theorem parseOutputs_of_fits (hfits : OutputsFit tx count p n q) (index : Nat) :
    ∃ vout, parseOutputs mode tx count index p = .ok (vout, q) ∧ vout.length = n := by
  induction hfits generalizing index with
  | zero => exact ⟨[], rfl, rfl⟩
  | short hword hshort =>
    rw [parseOutputs_step htx, Overflow.add_eq hword, ok_bind, if_pos hshort]
    exact ⟨[], rfl, rfl⟩
  | @output count p n q hin hword _ ih =>
    obtain ⟨vout, hvout, hlength⟩ := ih (index + 1)
    obtain ⟨_, hscript, -⟩ := @partWhen_eq_ok tx (fieldEnd tx (p + 8) ≤ tx.length)
      (fieldStart tx (p + 8)) (fieldEnd tx (p + 8)) (fieldStart_le_fieldEnd tx _) (by simp)
    rw [parseOutputs_step htx, Overflow.add_eq (by omega), ok_bind, if_neg (by omega),
      leAt_eq (by omega) (by omega), ok_bind, add_field hword, ok_bind, hscript, ok_bind, hvout]
    exact ⟨_, rfl, congrArg (· + 1) hlength⟩

theorem fits_of_parseOutputs {vout : List PsbtVout} {index : Nat}
    (hrun : parseOutputs .panics tx count index p = .ok (vout, q)) :
    OutputsFit tx count p vout.length q := by
  induction count generalizing p index vout with
  | zero =>
    cases hrun
    exact .zero
  | succ count ih =>
    rw [parseOutputs_step htx] at hrun
    obtain ⟨hvalueWord, hrest⟩ := Overflow.of_bind_panics_add hrun
    split at hrest
    · rename_i hshort
      cases hrest
      exact .short hvalueWord hshort
    · rename_i hin
      obtain ⟨_, -, hrest⟩ := bind_eq_ok.mp hrest
      obtain ⟨hword, hrest⟩ := Overflow.of_bind_panics_add hrest
      obtain ⟨_, -, hrest⟩ := bind_eq_ok.mp hrest
      obtain ⟨⟨_, _⟩, hvout, hlast⟩ := bind_eq_ok.mp hrest
      cases hlast
      exact .output (Nat.not_lt.mp hin) hword (ih hvout)

omit htx in
theorem inputsFit_stop (hfits : InputsFit tx count p n q) (hp : p ≤ tx.length) :
    q ≤ tx.length ∨ q + 4 < 2 ^ 64 := by
  induction hfits with
  | zero => exact .inl hp
  | short => exact .inl hp
  | scriptBeyond _ hword => exact .inr hword
  | input hin _ ih => exact ih hin

theorem parseRawTxForPsbt_of_fits {inputs outputs : Nat} (hfits : TxFits tx inputs outputs) :
    ∃ parsed, parseRawTxForPsbt mode tx = .ok parsed ∧ parsed.vin.length = inputs ∧
      parsed.vout.length = outputs := by
  cases hfits with
  | tooShort hshort => exact ⟨.empty, if_pos hshort, rfl, rfl⟩
  | @tx inputs outputs q r hlong hinputs houtputs hword =>
    have hstart := @fieldStart_le tx 4 (by omega)
    obtain ⟨vin, hvin, rfl⟩ := @parseInputs_of_fits tx htx mode _ _ _ _ hinputs hstart
    obtain ⟨vout, hvout, rfl⟩ := @parseOutputs_of_fits tx htx mode _ _ _ _ houtputs 0
    have hadvance : mode.add q (compactSizeAt tx q).2 = .ok (fieldStart tx q) := by
      rcases Nat.lt_or_ge tx.length q with hlt | hle
      · have hone : compactSizeAt tx q = (0, 1) := if_pos (Nat.le_of_lt hlt)
        have hstop := inputsFit_stop hinputs hstart
        refine add_start ?_
        rw [fieldStart, hone]
        omega
      · exact add_advance_of_le htx hle
    obtain ⟨locktime, hlocktime⟩ : ∃ locktime,
        (if r + 4 ≤ tx.length then leAt mode tx r 0 4 else .ok 0) = .ok locktime := by
      split
      · exact ⟨_, leAt_eq (by omega) (by omega)⟩
      · exact ⟨0, rfl⟩
    refine ⟨⟨vin, vout, leValue tx 0 4, locktime⟩, ?_, rfl, rfl⟩
    rw [parseRawTxForPsbt, if_neg (by omega), leAt_eq (by omega) (by omega), ok_bind,
      readCompactSize_eq htx, ok_bind]
    dsimp only
    rw [add_advance htx (by omega), ok_bind, hvin, ok_bind]
    rw [readCompactSize_eq htx, ok_bind]
    rw [hadvance, ok_bind, hvout, ok_bind]
    rw [Overflow.add_eq hword, ok_bind]
    split at hlocktime
    · rename_i hin
      rw [if_pos hin, hlocktime]
      rfl
    · rename_i hin
      rw [if_neg hin]
      cases hlocktime
      rfl

theorem fits_of_parseRawTxForPsbt {parsed : PsbtTx}
    (hrun : parseRawTxForPsbt .panics tx = .ok parsed) :
    TxFits tx parsed.vin.length parsed.vout.length := by
  unfold parseRawTxForPsbt at hrun
  split at hrun
  · rename_i hshort
    cases hrun
    exact .tooShort hshort
  · rename_i hlong
    have hstart := @fieldStart_le tx 4 (by omega)
    obtain ⟨_, -, hrest⟩ := bind_eq_ok.mp hrun
    rw [readCompactSize_eq htx, ok_bind] at hrest
    dsimp only at hrest
    rw [add_advance htx (by omega), ok_bind] at hrest
    obtain ⟨⟨vin, q⟩, hvin, hrest⟩ := bind_eq_ok.mp hrest
    rw [readCompactSize_eq htx, ok_bind] at hrest
    obtain ⟨-, hrest⟩ := Overflow.of_bind_panics_add hrest
    obtain ⟨⟨vout, r⟩, hvout, hrest⟩ := bind_eq_ok.mp hrest
    obtain ⟨hword, hrest⟩ := Overflow.of_bind_panics_add hrest
    have hfits : TxFits tx vin.length vout.length :=
      .tx (Nat.not_lt.mp hlong) (fits_of_parseInputs htx hvin hstart)
        (fits_of_parseOutputs htx hvout) hword
    split at hrest
    · obtain ⟨locktime, -, hlast⟩ := bind_eq_ok.mp hrest
      cases hlast
      exact hfits
    · obtain ⟨locktime, -, hlast⟩ := bind_eq_ok.mp hrest
      cases hlast
      exact hfits

end Transaction

/-! ## All parsers -/

/-- The numbers of inputs and outputs of the unsigned transaction, none without one. -/
inductive UnsignedTxFits : Option Bytes → Nat → Nat → Prop
  | missing : UnsignedTxFits none 0 0
  | found {tx inputs outputs} : TxFits tx inputs outputs → UnsignedTxFits (some tx) inputs outputs

/-- The maps that signing passes over: a global map inside the bytes, then a map for each input
and output. -/
def SigningFits (bytes : Bytes) (inputs outputs : Nat) : Prop :=
  ∃ inputMaps outputMaps stop, MapInside bytes 5 inputMaps ∧
    MapsFit bytes false inputs inputMaps outputMaps ∧ MapsFit bytes false outputs outputMaps stop

/-- The lengths of a PSBT fit; `signs` says that the wallet has a key to sign with. -/
def PsbtFits (bytes : Bytes) (signs : Bool) : Prop :=
  ∃ tx inputs outputs, UnsignedTxAt bytes 5 tx ∧ UnsignedTxFits tx inputs outputs ∧
    (∃ inputMaps stop, MapFits bytes false 5 inputMaps ∧ MapsFit bytes true inputs inputMaps stop) ∧
    (signs = true → SigningFits bytes inputs outputs)

def ParsersReturn (C : Crypto) (mode : Overflow) (fuel : Nat) (bytes : Bytes)
    (signer : Option SignerMaterial) : Prop :=
  (∃ text, extractUnsignedTxHex mode fuel bytes = .ok text) ∧
    ∃ tx, parsePsbtUnsignedTx mode fuel bytes = .ok tx ∧
      (∃ inputs, parsePsbtInputMaps mode fuel bytes tx.vin.length = .ok inputs) ∧
      ∃ signed, buildSignedPsbt mode C fuel bytes signer = .ok signed

section AllParsers

variable {bytes : Bytes} (hbytes : bytes.length < 2 ^ 63) {mode : Overflow} {fuel : Nat}

theorem length_unsignedTx {p : Nat} {tx : Bytes} (hat : UnsignedTxAt bytes p (some tx)) :
    tx.length ≤ bytes.length := by
  generalize hfound : some tx = found at hat
  induction hat with
  | atEnd | separator | keyMissing | keyBeyond | txBeyond => cases hfound
  | found =>
    cases hfound
    rw [List.length_take, List.length_drop]
    omega
  | next _ _ _ _ _ _ ih => exact ih hfound

include hbytes

variable {signer : Option SignerMaterial}

theorem extractUnsignedTxHex_of_at {tx : Option Bytes} (hat : UnsignedTxAt bytes 5 tx) :
    ∃ text, extractUnsignedTxHex mode (bytes.length + 1) bytes = .ok text := by
  rw [extractUnsignedTxHex, findUnsignedTx_of_at hbytes hat (by omega)]
  cases tx with
  | none => exact ⟨"", rfl⟩
  | some tx => exact ⟨hexText tx, rfl⟩

theorem parsePsbtUnsignedTx_of_fits {tx : Option Bytes} {inputs outputs : Nat}
    (hat : UnsignedTxAt bytes 5 tx) (hfits : UnsignedTxFits tx inputs outputs) :
    ∃ parsed, parsePsbtUnsignedTx mode (bytes.length + 1) bytes = .ok parsed ∧
      parsed.vin.length = inputs ∧ parsed.vout.length = outputs := by
  rw [parsePsbtUnsignedTx, findUnsignedTx_of_at hbytes hat (by omega)]
  cases hfits with
  | missing => exact ⟨.empty, rfl, rfl, rfl⟩
  | found hfits =>
    exact parseRawTxForPsbt_of_fits (Nat.lt_of_le_of_lt (length_unsignedTx hat) hbytes) hfits

theorem fits_of_parsePsbtUnsignedTx {parsed : PsbtTx}
    (hrun : parsePsbtUnsignedTx .panics fuel bytes = .ok parsed) :
    ∃ tx, UnsignedTxAt bytes 5 tx ∧ UnsignedTxFits tx parsed.vin.length parsed.vout.length := by
  obtain ⟨tx, hat, hresult⟩ := at_of_findUnsignedTx hbytes hrun
  refine ⟨tx, hat, ?_⟩
  cases tx with
  | none =>
    cases hresult
    exact .missing
  | some tx =>
    exact .found (fits_of_parseRawTxForPsbt
      (Nat.lt_of_le_of_lt (length_unsignedTx hat) hbytes) hresult)

theorem parsersReturn_of_fits (C : Crypto) (hfits : PsbtFits bytes signer.isSome) :
    ParsersReturn C mode (bytes.length + 1) bytes signer := by
  obtain ⟨tx, inputs, outputs, hat, htx, ⟨_, _, hglobal, hinputs⟩, hsigning⟩ := hfits
  obtain ⟨text, htext⟩ := @extractUnsignedTxHex_of_at bytes hbytes mode tx hat
  obtain ⟨parsed, hparsed, rfl, rfl⟩ :=
    @parsePsbtUnsignedTx_of_fits bytes hbytes mode tx inputs outputs hat htx
  refine ⟨⟨text, htext⟩, parsed, hparsed, ?_, ?_⟩
  · rw [parsePsbtInputMaps, skipMap_of_fits hbytes hglobal (by omega), ok_bind]
    exact parseInputMaps_of_fits hbytes hinputs
  · rw [buildSignedPsbt, hparsed, ok_bind]
    cases signer with
    | none => exact ⟨_, rfl⟩
    | some signer =>
      obtain ⟨start, middle, last, hinside, hin, hout⟩ := hsigning rfl
      obtain ⟨copied, hcopied⟩ := @copyGlobalMap_of_inside bytes hbytes mode 5 start
        (bytes.length + 1) hinside psbtMagic (by omega)
      dsimp only
      rw [hcopied, ok_bind]
      obtain ⟨signed, hsigned⟩ := @signInputMaps_of_fits bytes hbytes mode start C signer text
        htext parsed.vin.length middle hin 0
        (if copied.getLast? ≠ some 0x00 then copied ++ [0x00] else copied)
      rw [hsigned, ok_bind]
      obtain ⟨_, hcleared⟩ := @clearOutputMaps_of_fits bytes hbytes mode middle
        parsed.vout.length last hout signed
      rw [hcleared, ok_bind]
      exact ⟨_, rfl⟩

theorem fits_of_parsersReturn {C : Crypto}
    (hreturn : ParsersReturn C .panics fuel bytes signer) : PsbtFits bytes signer.isSome := by
  obtain ⟨-, _, hparsed, ⟨_, hinputs⟩, ⟨_, hsigned⟩⟩ := hreturn
  obtain ⟨tx, hat, htx⟩ := fits_of_parsePsbtUnsignedTx hbytes hparsed
  refine ⟨tx, _, _, hat, htx, ?_, ?_⟩
  · obtain ⟨inputMaps, hskip, hmaps⟩ := bind_eq_ok.mp hinputs
    obtain ⟨stop, hstop⟩ := fits_of_parseInputMaps hbytes hmaps
    exact ⟨inputMaps, stop, fits_of_skipMap hbytes hskip, hstop⟩
  · intro hsigns
    cases signer with
    | none => cases hsigns
    | some signer =>
      rw [buildSignedPsbt, hparsed, ok_bind] at hsigned
      obtain ⟨⟨_, start⟩, hcopied, hrest⟩ := bind_eq_ok.mp hsigned
      obtain ⟨⟨_, middle⟩, hmaps, hrest⟩ := bind_eq_ok.mp hrest
      obtain ⟨_, hcleared, -⟩ := bind_eq_ok.mp hrest
      obtain ⟨last, hlast⟩ := fits_of_clearOutputMaps hbytes hcleared
      exact ⟨start, middle, last, inside_of_copyGlobalMap hbytes hcopied,
        fits_of_signInputMaps hbytes hmaps, hlast⟩

end AllParsers

/-- All parsers return in both builds exactly when the lengths fit. -/
theorem psbt_parsers_return_iff (C : Crypto) (bytes : Bytes) (hbytes : bytes.length < 2 ^ 63)
    (signer : Option SignerMaterial) :
    (∀ mode, ∃ fuel, ParsersReturn C mode fuel bytes signer) ↔ PsbtFits bytes signer.isSome := by
  constructor
  · intro hreturn
    obtain ⟨fuel, hfuel⟩ := hreturn .panics
    exact fits_of_parsersReturn hbytes hfuel
  · intro hfits mode
    exact ⟨bytes.length + 1, parsersReturn_of_fits hbytes C hfits⟩

/-- A transaction with one input and one output, and an entry in each of their maps. -/
def entryPsbt : Bytes :=
  psbtMagic ++ [0x01, 0x00, 61] ++ ([2, 0, 0, 0, 1] ++ List.replicate 37 0 ++
    List.replicate 4 0xFF ++ [1] ++ writeLE 8 5 ++ [1, 0x51, 0, 0, 0, 0]) ++
    [0x00, 0x01, 0x03, 4, 1, 0, 0, 0, 0x00, 0x01, 0x00, 1, 0x51, 0x00]

/-- The parsers return for it, also when it is signed, so its lengths fit. -/
theorem psbt_parsers_return_entries :
    (parsePsbtUnsignedTx .panics 5 entryPsbt).map (fun tx => (tx.vin.length, tx.vout.length)) =
      .ok (1, 1) ∧ PsbtFits entryPsbt true := by
  refine ⟨by decide +kernel, (psbt_parsers_return_iff .sample entryPsbt (by decide)
    (some ⟨[0x02], fun digest => digest⟩)).mp fun mode => ⟨5, ?_⟩⟩
  cases mode with
  | panics | wraps => exact ⟨⟨_, rfl⟩, _, rfl, ⟨_, rfl⟩, _, rfl⟩

/-- The value of the only entry is so long that the sum is the start of the entry. -/
def loopingPsbt : Bytes := psbtMagic ++ [0x01, 0x05, 0xFF] ++ writeLE 8 (2 ^ 64 - 11)

def truncatedPsbt : Bytes := psbtMagic ++ [0x01, 0x05, 0x01]

/-- In a release build the first walk never ends and in a debug build it panics, and signing
panics in both builds on an entry that is cut off. -/
theorem psbt_parsers_fail :
    (∀ fuel, extractUnsignedTxHex .wraps fuel loopingPsbt = .error .outOfFuel) ∧
      extractUnsignedTxHex .panics 1 loopingPsbt = .error .overflow ∧
      ∀ mode, buildSignedPsbt mode .sample 2 truncatedPsbt (some ⟨[0x02], fun digest => digest⟩) =
        .error .outOfBounds := by
  refine ⟨?_, by decide, ?_⟩
  · intro fuel
    induction fuel with
    | zero => rfl
    | succ fuel ih => exact ih
  · intro mode
    cases mode with
    | wraps => decide
    | panics => decide

end BitInfinity.Proxy
