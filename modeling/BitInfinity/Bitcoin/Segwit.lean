import BitInfinity.Bitcoin.Bech32

/-!
# SegWit addresses

The addresses of BIP 173 and BIP 350, as the bech32 crate reads them.  Reading a text folds its
case, finds the last separator, looks the symbols up, checks the remainder and takes the program
out of the groups of five bits.  What it accepts are exactly the texts of `encode`, in lower or
in upper case, with at most ninety characters.
-/

namespace BitInfinity.Segwit

open Foundation

/-! ## Witness programs -/

variable {program : Bytes} {w : WitnessProgram} {text : List Char}

@[ext] structure WitnessProgram where
  version : UInt8
  program : Bytes
  version_le : version.toNat ≤ 16
  two_le_length : 2 ≤ program.length
  length_le : program.length ≤ 40
  length_zero : version = 0 → program.length = 20 ∨ program.length = 32
  deriving DecidableEq, Repr

def WitnessProgram.new (version : UInt8) (program : Bytes) : Option WitnessProgram :=
  if h : version.toNat ≤ 16 ∧ 2 ≤ program.length ∧ program.length ≤ 40 ∧
      (version = 0 → program.length = 20 ∨ program.length = 32) then
    some ⟨version, program, h.1, h.2.1, h.2.2.1, h.2.2.2⟩
  else none

theorem WitnessProgram.new_eq_some {version : UInt8} : WitnessProgram.new version program = some w ↔
      w.version = version ∧ w.program = program := by
  unfold WitnessProgram.new
  split
  · rw [Option.some.injEq, WitnessProgram.ext_iff]
    exact ⟨fun h => ⟨h.1.symm, h.2.symm⟩, fun h => ⟨h.1.symm, h.2.symm⟩⟩
  · rename_i hvalid
    simp only [reduceCtorEq, false_iff, not_and]
    rintro rfl rfl
    exact hvalid ⟨w.version_le, w.two_le_length, w.length_le, w.length_zero⟩

/-! ## Writing -/

def checksumConstant (version : UInt8) : Nat := if version = 0 then 1 else 0x2bc830a3

def checksum (hrp : String) (version : UInt8) (data5 : List UInt8) : List UInt8 :=
  let values := Bip173.hrpExpand hrp ++ (version :: data5).map UInt8.toNat
  (Bip173.checksumSymbols
    (Bip173.polymod (values ++ List.replicate 6 0) ^^^ checksumConstant version)).map UInt8.ofNat

def symbols (hrp : String) (w : WitnessProgram) : List UInt8 :=
  let data5 := Bech32.convertBits 0 0 w.program
  w.version :: (data5 ++ checksum hrp w.version data5)

def encode (hrp : String) (w : WitnessProgram) : List Char :=
  hrp.toList ++ '1' :: (symbols hrp w).map Bech32.symbol

theorem checksumConstant_lt (version : UInt8) : checksumConstant version < 2 ^ 30 := by
  unfold checksumConstant
  split
  · decide
  · decide

theorem map_toNat_map_ofNat {values : List Nat} (h : ∀ v ∈ values, v < 32) :
    (values.map UInt8.ofNat).map UInt8.toNat = values := by
  rw [List.map_map]
  calc values.map (UInt8.toNat ∘ UInt8.ofNat) = values.map id := by
        refine List.map_congr_left fun v hv => ?_
        have hlt := h v hv
        rw [Function.comp_apply, UInt8.toNat_ofNat', Nat.mod_eq_of_lt (by omega), id]
    _ = values := List.map_id values

theorem map_toNat_checksum (hrp : String) (version : UInt8) (data5 : List UInt8) :
    (checksum hrp version data5).map UInt8.toNat =
      Bip173.checksumSymbols (Bip173.polymod (Bip173.hrpExpand hrp ++
        (version :: data5).map UInt8.toNat ++ List.replicate 6 0) ^^^ checksumConstant version) :=
  map_toNat_map_ofNat (Bip173.fits_checksumSymbols _)

theorem length_checksum (hrp : String) (version : UInt8) (data5 : List UInt8) :
    (checksum hrp version data5).length = 6 := by
  simp [checksum, Bip173.checksumSymbols]

theorem fitsWidth_checksum (hrp : String) (version : UInt8) (data5 : List UInt8) :
    FitsWidth 5 (checksum hrp version data5) := by
  intro s hs
  have hmem : s.toNat ∈ (checksum hrp version data5).map UInt8.toNat := List.mem_map_of_mem hs
  rw [map_toNat_checksum] at hmem
  exact Bip173.fits_checksumSymbols _ _ hmem

theorem fitsWidth_symbols (hrp : String) (w : WitnessProgram) : FitsWidth 5 (symbols hrp w) := by
  intro s hs
  have hversion := w.version_le
  rcases List.mem_cons.mp hs with rfl | hs
  · omega
  · rcases List.mem_append.mp hs with hs | hs
    · exact (Bech32.convertBits_bits w.program 0 (by omega)).1 s hs
    · exact fitsWidth_checksum hrp w.version _ s hs

theorem encode_zero (hrp : String) (hw : w.version = 0) :
    String.ofList (encode hrp w) = Bech32.encode hrp 0 w.program := by
  have hsum : checksum hrp 0 (Bech32.convertBits 0 0 w.program) =
      Bech32.checksum hrp (0 :: Bech32.convertBits 0 0 w.program) := by
    refine List.map_injective_iff.mpr (fun _ _ => UInt8.toNat_inj.mp) ?_
    rw [map_toNat_checksum, Bech32.map_toNat_checksum]
    rfl
  refine String.toList_inj.mp ?_
  rw [String.toList_ofList, Bech32.toList_encode_eq, encode, symbols, hw, ← hsum]
  rfl

/-! ## The groups of five bits -/

/-- The bytes in groups of five bits, if less than five bits, all zero, are left over. -/
def unpad (data5 : List UInt8) : Option Bytes :=
  let bits := symbolBits 5 data5
  let count := bits.length / 8
  let padding := bits.drop (8 * count)
  if padding.length < 5 ∧ padding.all (!·) then some (groupsOf 8 count bits) else none

theorem eq_convertBits_iff {data5 : List UInt8} (hfits : FitsWidth 5 data5) :
    data5 = Bech32.convertBits 0 0 program ↔
      ∃ pad < 5, symbolBits 5 data5 = symbolBits 8 program ++ List.replicate pad false := by
  obtain ⟨hfits', pad', hpad', hbits'⟩ := @Bech32.convertBits_bits program 0 0 (by omega)
  constructor
  · rintro rfl
    exact ⟨pad', hpad', hbits'⟩
  · rintro ⟨pad, _, hbits⟩
    have hlength := congrArg List.length hbits
    have hlength' := congrArg List.length hbits'
    simp only [List.length_append, length_symbolBits, List.length_replicate, length_bitsOf]
      at hlength hlength'
    obtain rfl : pad = pad' := by omega
    exact symbolBits_inj hfits hfits' (by omega) (by rw [hbits, hbits']; rfl)

theorem unpad_eq_some {data5 : List UInt8} (hfits : FitsWidth 5 data5) :
    unpad data5 = some program ↔ data5 = Bech32.convertBits 0 0 program := by
  rw [eq_convertBits_iff hfits]
  set bits := symbolBits 5 data5 with hbits
  unfold unpad
  rw [← hbits]
  dsimp only
  have hcount : 8 * (bits.length / 8) ≤ bits.length := Nat.mul_div_le _ _
  have hgroups := @symbolBits_groupsOf 8 (bits.length / 8) bits le_rfl hcount
  constructor
  · intro h
    split at h
    · rename_i hpad
      obtain rfl := Option.some.inj h
      refine ⟨(bits.drop (8 * (bits.length / 8))).length, hpad.1, ?_⟩
      have hzeros : bits.drop (8 * (bits.length / 8)) =
          List.replicate (bits.drop (8 * (bits.length / 8))).length false :=
        List.eq_replicate_of_mem fun b hb => by
          simpa using List.all_eq_true.mp hpad.2 b hb
      rw [hgroups, ← hzeros, List.take_append_drop]
    · cases h
  · rintro ⟨pad, hpad, heq⟩
    have hlength := congrArg List.length heq
    rw [List.length_append, length_symbolBits 8 program, List.length_replicate] at hlength
    have hdiv : bits.length / 8 = program.length := by omega
    have hdrop : bits.drop (8 * (bits.length / 8)) = List.replicate pad false := by
      rw [hdiv, heq, List.drop_left' (length_symbolBits 8 program)]
    rw [if_pos (by rw [hdrop]; simp [hpad]), Option.some.injEq]
    refine symbolBits_inj (fitsWidth_eight _) (fitsWidth_eight _) (by simp [hdiv]) ?_
    rw [hgroups, hdiv, heq, List.take_left' (length_symbolBits 8 program)]

/-! ## Reading -/

def splitLast : List Char → Option (List Char × List Char)
  | [] => none
  | c :: text =>
    match splitLast text with
    | some (hrp, data) => some (c :: hrp, data)
    | none => if c = '1' then some ([], text) else none

def readSymbols (data : List Char) : Option (List UInt8) :=
  data.mapM fun c => (Bech32.charset.idxOf? c).map UInt8.ofNat

def readProgram (hrp : String) : List UInt8 → Option WitnessProgram
  | [] => none
  | version :: rest =>
    if rest.length < 6 then none
    else if Bip173.polymod (Bip173.hrpExpand hrp ++ (version :: rest).map UInt8.toNat) ≠
        checksumConstant version then none
    else (unpad (rest.take (rest.length - 6))).bind (WitnessProgram.new version)

def validHrp (hrp : List Char) : Bool :=
  1 ≤ hrp.length && hrp.length ≤ 83 && hrp.all fun c => 33 ≤ c.toNat && c.toNat ≤ 126

def isMixedCase (text : List Char) : Bool := text.any Char.isUpper && text.any Char.isLower

/-- The human readable part in lower case, and the witness program. -/
def decode (text : List Char) : Option (String × WitnessProgram) :=
  if 90 < text.length || isMixedCase text then none
  else do
    let (hrp, data) ← splitLast (text.map Char.toLower)
    if validHrp hrp then
      let w ← (readSymbols data).bind (readProgram (String.ofList hrp))
      some (String.ofList hrp, w)
    else none

theorem splitLast_eq_none : splitLast text = none ↔ '1' ∉ text := by
  induction text with
  | nil => simp [splitLast]
  | cons c text ih =>
    rw [splitLast]
    cases hsplit : splitLast text with
    | some parts =>
      have hmem : '1' ∈ text := by
        by_contra hnot
        rw [ih.mpr hnot] at hsplit
        cases hsplit
      simp [hmem]
    | none => simp [ih.mp hsplit, eq_comm]

theorem splitLast_eq_some {hrp data : List Char} :
    splitLast text = some (hrp, data) ↔ text = hrp ++ '1' :: data ∧ '1' ∉ data := by
  induction text generalizing hrp data with
  | nil => simp [splitLast]
  | cons c text ih =>
    rw [splitLast]
    cases hsplit : splitLast text with
    | none =>
      have hnot := splitLast_eq_none.mp hsplit
      cases hrp with
      | nil =>
        simp
        rintro - rfl
        exact hnot
      | cons =>
        simp only [Option.ite_none_right_eq_some, Option.some.injEq, Prod.mk.injEq,
          List.nil_eq, reduceCtorEq, false_and, and_false, List.cons_append, List.cons.injEq,
          false_iff, not_and]
        rintro ⟨-, rfl⟩
        simp at hnot
    | some parts =>
      obtain ⟨rfl, _⟩ := ih.mp hsplit
      cases hrp with
      | nil =>
        simp only [Option.some.injEq, Prod.mk.injEq, reduceCtorEq, false_and, List.nil_append,
          List.cons.injEq, false_iff, not_and]
        rintro ⟨-, rfl⟩
        simp
      | cons d hrp =>
        rw [Option.some.injEq, Prod.mk.injEq, List.cons.injEq, List.cons_append, List.cons.injEq]
        have h := @ih hrp data
        rw [hsplit, Option.some.injEq, Prod.mk.injEq] at h
        tauto

theorem readSymbols_eq_some {data : List Char} {values : List UInt8} :
    readSymbols data = some values ↔ FitsWidth 5 values ∧ data = values.map Bech32.symbol := by
  induction data generalizing values with
  | nil =>
    cases values with
    | nil => simp [readSymbols, FitsWidth]
    | cons => simp [readSymbols]
  | cons c data ih =>
    have hstep : readSymbols (c :: data) = ((Bech32.charset.idxOf? c).map UInt8.ofNat).bind
        fun d => (readSymbols data).map (d :: ·) := by
      rw [readSymbols, List.mapM_cons]
      refine congrArg _ (funext fun d => ?_)
      change (readSymbols data).bind (fun rest => some (d :: rest)) = _
      cases readSymbols data <;> rfl
    rw [hstep, Option.bind_eq_some_iff]
    constructor
    · rintro ⟨d, hd, hrest⟩
      obtain ⟨_, hvalues', rfl⟩ := Option.map_eq_some_iff.mp hrest
      obtain ⟨hlt, rfl⟩ := Bech32.idxOf?_eq_some.mp hd
      obtain ⟨hfits, rfl⟩ := ih.mp hvalues'
      refine ⟨fun s hs => ?_, rfl⟩
      rcases List.mem_cons.mp hs with rfl | hs
      · exact hlt
      · exact hfits s hs
    · rintro ⟨hfits, heq⟩
      cases values with
      | nil => simp at heq
      | cons d values =>
        rw [List.map_cons, List.cons.injEq] at heq
        refine ⟨d, Bech32.idxOf?_eq_some.mpr ⟨hfits d (by simp), heq.1⟩, ?_⟩
        rw [ih.mpr ⟨fun s hs => hfits s (by simp [hs]), heq.2⟩, Option.map_some]

theorem readProgram_eq_some {hrp : String} {values : List UInt8} (hfits : FitsWidth 5 values) :
    readProgram hrp values = some w ↔ values = symbols hrp w := by
  constructor
  · intro h
    match values with
    | [] => cases h
    | version :: rest =>
      rw [readProgram] at h
      split_ifs at h with hlength hremainder
      obtain ⟨program, hprogram, hnew⟩ := Option.bind_eq_some_iff.mp h
      obtain ⟨hversion, rfl⟩ := WitnessProgram.new_eq_some.mp hnew
      set data5 := rest.take (rest.length - 6) with hdata5
      set tail := rest.drop (rest.length - 6) with htail
      have hrest : rest = data5 ++ tail := (List.take_append_drop _ _).symm
      have hfits5 : FitsWidth 5 data5 := fun s hs =>
        hfits s (List.mem_cons_of_mem _ (List.mem_of_mem_take hs))
      have hcanonical := (unpad_eq_some hfits5).mp hprogram
      have hsum : tail = checksum hrp version data5 := by
        refine List.map_injective_iff.mpr (fun _ _ => UInt8.toNat_inj.mp) ?_
        rw [map_toNat_checksum]
        refine (Bip173.polymod_append_eq_iff _ ?_ ?_ (checksumConstant_lt version)).mp ?_
        · rw [List.length_map, htail, List.length_drop]
          omega
        · intro s hs
          obtain ⟨b, hb, rfl⟩ := List.mem_map.mp hs
          exact hfits b (List.mem_cons_of_mem _ (List.mem_of_mem_drop hb))
        · rw [not_not, hrest] at hremainder
          rw [← hremainder, List.append_assoc, ← List.map_append, List.cons_append]
      rw [symbols, hversion, ← hcanonical, ← hsum, ← hrest]
  · rintro rfl
    set data5 := Bech32.convertBits 0 0 w.program with hdata5
    have hlength := length_checksum hrp w.version data5
    have htake : (data5 ++ checksum hrp w.version data5).take
        ((data5 ++ checksum hrp w.version data5).length - 6) = data5 := by
      rw [List.length_append, hlength, Nat.add_sub_cancel, List.take_left]
    have hremainder : Bip173.polymod (Bip173.hrpExpand hrp ++
        (w.version :: (data5 ++ checksum hrp w.version data5)).map UInt8.toNat) =
          checksumConstant w.version := by
      rw [← List.cons_append, List.map_append, map_toNat_checksum, ← List.append_assoc]
      exact Bip173.polymod_append_checksum _ (checksumConstant_lt _)
    have hfits5 : FitsWidth 5 data5 := (Bech32.convertBits_bits w.program 0 (by omega)).1
    rw [symbols, ← hdata5, readProgram, if_neg (by rw [List.length_append]; omega),
      if_neg (by rw [hremainder, not_not]), htake, (unpad_eq_some hfits5).mpr hdata5,
      Option.bind_some]
    exact WitnessProgram.new_eq_some.mpr ⟨rfl, rfl⟩

theorem decode_eq_some {hrp : String} :
    decode text = some (hrp, w) ↔ text.length ≤ 90 ∧ isMixedCase text = false ∧
      validHrp hrp.toList = true ∧ text.map Char.toLower = encode hrp w := by
  have hseparator : '1' ∉ (symbols hrp w).map Bech32.symbol := by
    intro hmem
    obtain ⟨d, -, hd⟩ := List.mem_map.mp hmem
    exact Bech32.symbol_ne_separator d hd
  unfold decode
  split
  · rename_i hrefused
    simp only [reduceCtorEq, false_iff, not_and]
    intro hlength hcase
    rw [hcase] at hrefused
    simp at hrefused
    omega
  · rename_i haccepted
    rw [Bool.or_eq_true, decide_eq_true_eq, not_or, Bool.not_eq_true] at haccepted
    simp only [haccepted.2, Nat.not_lt.mp haccepted.1, true_and]
    constructor
    · intro h
      obtain ⟨⟨_, _⟩, hsplit, h⟩ := Option.bind_eq_some_iff.mp h
      split at h
      · rename_i hvalid
        obtain ⟨_, hw', heq⟩ := Option.bind_eq_some_iff.mp h
        obtain ⟨rfl, rfl⟩ := Prod.mk.inj (Option.some.inj heq)
        obtain ⟨_, hvalues, hprogram⟩ := Option.bind_eq_some_iff.mp hw'
        obtain ⟨hfits, rfl⟩ := readSymbols_eq_some.mp hvalues
        rw [String.toList_ofList, (splitLast_eq_some.mp hsplit).1, encode,
          ← (readProgram_eq_some hfits).mp hprogram, String.toList_ofList]
        exact ⟨hvalid, rfl⟩
      · cases h
    · rintro ⟨hvalid, htext⟩
      have hsplit := splitLast_eq_some.mpr ⟨htext, hseparator⟩
      have hvalues := readSymbols_eq_some.mpr ⟨fitsWidth_symbols hrp w, rfl⟩
      have hprogram := (readProgram_eq_some (fitsWidth_symbols hrp w)).mpr rfl
      rw [hsplit]
      simp only [Option.bind_eq_bind, Option.bind_some, hvalid, if_true, hvalues,
        String.ofList_toList, hprogram]

end BitInfinity.Segwit
