import BitInfinity.Bitcoin.Address
import BitInfinity.Foundation.SymbolChecksum

/-!
# The bech32 encoder

`Bip173` is the checksum of BIP 173 on natural numbers, as the reference code computes it.  The
encoder of the repository works on 32 bit words.  Its remainder is that of BIP 173, its
checksum makes the remainder of the whole text one, and its groups of five bits carry the bits
of the program.
-/

namespace BitInfinity

open Foundation

/-! ## The reference checksum -/

namespace Bip173

def generator (i : Nat) : Nat :=
  [0x3b6a57b2, 0x26508e6d, 0x1ea119fa, 0x3d4233dd, 0x2a1462b3].getD i 0

def step (chk v : Nat) : Nat :=
  xorSelected (fun i => (chk >>> 25).testBit i) generator (List.range 5)
    (((chk &&& 0x1ffffff) <<< 5) ^^^ v)

def polymod (values : List Nat) : Nat := values.foldl step 1

def hrpExpand (hrp : String) : List Nat :=
  let ords := hrp.toUTF8.data.toList.map UInt8.toNat
  ords.map (· >>> 5) ++ 0 :: ords.map (· &&& 31)

theorem generator_lt (i : Nat) : generator i < 2 ^ 30 := by
  rcases Nat.lt_or_ge i 5 with hi | hi
  · interval_cases i <;> decide
  · rw [generator, List.getD_eq_getElem?_getD, List.getElem?_eq_none hi]
    decide

def code : SymbolChecksum where
  low := 25
  generator := generator
  generator_lt := generator_lt

def checksumSymbols (poly : Nat) : List Nat :=
  (List.range 6).map fun i => (poly >>> (5 * (5 - i))) &&& 31

theorem checksumSymbols_eq (poly : Nat) : checksumSymbols poly = symbolsOf 6 poly :=
  (symbolsOf_eq_map 6 poly).symm

theorem polymod_append_eq_iff (values : List Nat) {symbols : List Nat}
    (hlength : symbols.length = 6) (hfits : ∀ s ∈ symbols, s < 32) {k : Nat} (hk : k < 2 ^ 30) :
    polymod (values ++ symbols) = k ↔
      symbols = checksumSymbols (polymod (values ++ List.replicate 6 0) ^^^ k) := by
  rw [polymod, polymod, List.foldl_append, List.foldl_append, checksumSymbols_eq]
  exact code.foldl_step_eq_iff rfl hlength hfits hk

theorem fits_checksumSymbols (poly : Nat) : ∀ s ∈ checksumSymbols poly, s < 32 := by
  rw [checksumSymbols_eq]
  exact fits_symbolsOf 6 poly

theorem polymod_append_checksum (values : List Nat) {k : Nat} (hk : k < 2 ^ 30) :
    polymod (values ++ checksumSymbols (polymod (values ++ List.replicate 6 0) ^^^ k)) = k :=
  (polymod_append_eq_iff values (by simp [checksumSymbols]) (fits_checksumSymbols _) hk).mpr rfl

end Bip173

/-! ## The encoder computes the reference checksum -/

namespace Bech32

theorem shift_and_one_eq (b : UInt32) {i : Nat} (hi : i < 32) :
    ((b >>> UInt32.ofNat i) &&& 1 == 1) = b.toNat.testBit i := by
  rw [Bool.eq_iff_iff, beq_iff_eq, ← UInt32.toNat_inj, UInt32.toNat_and, UInt32.toNat_shiftRight,
    toNat_ofNat_shift hi]
  simp [Nat.testBit, Nat.and_comm]

theorem toNat_foldl_generator (b : UInt32) (table : List (UInt32 × Nat))
    (htable : ∀ entry ∈ table, entry.2 < 32) (chk : UInt32) :
    (table.foldl (fun chk (g, i) =>
        if (b >>> (UInt32.ofNat i)) &&& 1 == 1 then chk ^^^ g else chk) chk).toNat =
      table.foldl (fun chk entry =>
        if b.toNat.testBit entry.2 then chk ^^^ entry.1.toNat else chk) chk.toNat := by
  induction table generalizing chk with
  | nil => rfl
  | cons entry table ih =>
    rw [List.foldl_cons, List.foldl_cons, ih fun e he => htable e (by simp [he])]
    congr 1
    obtain ⟨g, i⟩ := entry
    dsimp only
    rw [shift_and_one_eq b (htable (g, i) (by simp))]
    split
    · exact UInt32.toNat_xor _ _
    · rfl

theorem toNat_polymodStep (chk : UInt32) (v : UInt8) :
    (polymodStep chk v).toNat = Bip173.step chk.toNat v.toNat := by
  have hand : chk.toNat &&& 0x1ffffff < 2 ^ 25 := Nat.lt_of_le_of_lt Nat.and_le_right (by decide)
  have hshift : ((chk &&& 0x1ffffff) <<< 5).toNat = (chk.toNat &&& 0x1ffffff) <<< 5 := by
    change (chk.toNat &&& 0x1ffffff) <<< 5 % 2 ^ 32 = _
    omega
  rw [polymodStep, toNat_foldl_generator _ _ (by decide), UInt32.toNat_xor, hshift,
    UInt8.toNat_toUInt32, UInt32.toNat_shiftRight]
  rfl

theorem toNat_foldl_polymodStep (values : List UInt8) (chk : UInt32) :
    (values.foldl polymodStep chk).toNat =
      (values.map UInt8.toNat).foldl Bip173.step chk.toNat := by
  induction values generalizing chk with
  | nil => rfl
  | cons v values ih => rw [List.foldl_cons, ih, toNat_polymodStep, List.map_cons, List.foldl_cons]

theorem toNat_polymod (values : List UInt8) :
    (polymod values).toNat = Bip173.polymod (values.map UInt8.toNat) :=
  toNat_foldl_polymodStep values 1

theorem map_toNat_hrpExpand (hrp : String) :
    (hrpExpand hrp).map UInt8.toNat = Bip173.hrpExpand hrp := by
  simp only [hrpExpand, Bip173.hrpExpand, List.map_append, List.map_cons, List.map_map]
  rfl

def checksum (hrp : String) (data5 : List UInt8) : List UInt8 :=
  let poly := polymod (hrpExpand hrp ++ data5 ++ [0, 0, 0, 0, 0, 0]) ^^^ 1
  (List.range 6).map fun i => ((poly >>> UInt32.ofNat (5 * (5 - i))) &&& 31).toUInt8

def symbol (d : UInt8) : Char := charset.getD d.toNat 'q'

theorem idxOf?_symbol {d : UInt8} (hd : d.toNat < 2 ^ 5) :
    (charset.idxOf? (symbol d)).map UInt8.ofNat = some d := by
  have hall : ∀ n : Fin 32, (charset.idxOf? (charset.getD n 'q')).map UInt8.ofNat =
      some (UInt8.ofNat n) := by decide +kernel
  have h := hall ⟨d.toNat, hd⟩
  rwa [UInt8.ofNat_toNat] at h

theorem symbol_ne_separator (d : UInt8) : symbol d ≠ '1' := by
  have hall : charset.all (fun c => c != '1') = true := by decide +kernel
  exact bne_iff_ne.mp (List.all_eq_true.mp hall _ (getD_mem_charset d.toNat))

theorem idxOf?_eq_some {c : Char} {d : UInt8} :
    (charset.idxOf? c).map UInt8.ofNat = some d ↔ d.toNat < 2 ^ 5 ∧ c = symbol d := by
  constructor
  · intro h
    obtain ⟨i, hi, rfl⟩ := Option.map_eq_some_iff.mp h
    obtain ⟨hlt, hget⟩ := List.findIdx?_eq_some_iff_getElem.mp hi
    have hlt32 : i < 32 := hlt
    have hsymbol : charset.getD i 'q' = c := by
      rw [List.getD_eq_getElem?_getD, List.getElem?_eq_getElem hlt, Option.getD_some]
      exact beq_iff_eq.mp hget.1
    rw [symbol, UInt8.toNat_ofNat', Nat.mod_eq_of_lt (by omega), hsymbol]
    exact ⟨hlt32, rfl⟩
  · rintro ⟨hd, rfl⟩
    exact idxOf?_symbol hd

theorem toList_encode_eq (hrp : String) (version : UInt8) (program : List UInt8) :
    (encode hrp version program).toList = hrp.toList ++ '1' ::
      ((version :: convertBits 0 0 program) ++
        checksum hrp (version :: convertBits 0 0 program)).map symbol :=
  String.toList_ofList

theorem toNat_low_group (poly : UInt32) {k : Nat} (hk : k < 32) :
    ((poly >>> UInt32.ofNat k) &&& 31).toUInt8.toNat = (poly.toNat >>> k) &&& 31 := by
  rw [UInt32.toNat_toUInt8, UInt32.toNat_and, UInt32.toNat_shiftRight, toNat_ofNat_shift hk]
  exact Nat.mod_eq_of_lt (Nat.lt_of_le_of_lt Nat.and_le_right (by decide))

theorem map_toNat_checksum (hrp : String) (data5 : List UInt8) :
    (checksum hrp data5).map UInt8.toNat = Bip173.checksumSymbols
      (Bip173.polymod (Bip173.hrpExpand hrp ++ data5.map UInt8.toNat ++ List.replicate 6 0) ^^^
        1) := by
  have hpoly : (polymod (hrpExpand hrp ++ data5 ++ [0, 0, 0, 0, 0, 0]) ^^^ 1).toNat =
      Bip173.polymod (Bip173.hrpExpand hrp ++ data5.map UInt8.toNat ++ List.replicate 6 0) ^^^
        1 := by
    rw [UInt32.toNat_xor, toNat_polymod, List.map_append, List.map_append, map_toNat_hrpExpand]
    rfl
  rw [checksum, List.map_map, Bip173.checksumSymbols, ← hpoly]
  refine List.map_congr_left fun i _ => ?_
  exact toNat_low_group _ (by omega)

theorem length_checksum (hrp : String) (data5 : List UInt8) : (checksum hrp data5).length = 6 := by
  simp [checksum]

theorem fitsWidth_checksum (hrp : String) (data5 : List UInt8) :
    FitsWidth 5 (checksum hrp data5) := by
  intro s hs
  obtain ⟨i, -, rfl⟩ := List.mem_map.mp hs
  rw [toNat_low_group _ (by omega)]
  exact Nat.lt_of_le_of_lt Nat.and_le_right (by decide)

theorem polymod_checksum (hrp : String) (data5 : List UInt8) :
    Bip173.polymod (Bip173.hrpExpand hrp ++ (data5 ++ checksum hrp data5).map UInt8.toNat) = 1 := by
  rw [List.map_append, map_toNat_checksum, ← List.append_assoc]
  exact Bip173.polymod_append_checksum _ (by decide)

/-! ## The groups of five bits carry the program -/

theorem emitGroups_eq (acc : UInt32) (fuel bits : Nat) :
    emitGroups acc fuel bits = takeGroups 5 acc fuel bits := by
  induction fuel generalizing bits with
  | zero => rfl
  | succ fuel ih =>
    rw [emitGroups, takeGroups, ih]
    rfl

theorem bitsOf_pad (acc : UInt32) {bits : Nat} (hbits : bits < 5) :
    let last := ((acc <<< UInt32.ofNat (5 - bits)) &&& 31).toUInt8
    last.toNat < 2 ^ 5 ∧
      bitsOf 5 last.toNat = bitsOf bits acc.toNat ++ List.replicate (5 - bits) false := by
  intro last
  have hlast : last.toNat = (acc.toNat <<< (5 - bits)) % 2 ^ 5 := by
    rw [UInt32.toNat_toUInt8, UInt32.toNat_and, UInt32.toNat_shiftLeft,
      toNat_ofNat_shift (by omega)]
    change (acc.toNat <<< (5 - bits) % 2 ^ 32 &&& (2 ^ 5 - 1)) % 2 ^ 8 = _
    rw [Nat.and_two_pow_sub_one_eq_mod]
    omega
  refine ⟨by rw [hlast]; exact Nat.mod_lt _ (by decide), ?_⟩
  have hsplit := bitsOf_add bits (5 - bits) last.toNat
  rw [show bits + (5 - bits) = 5 by omega] at hsplit
  rw [hsplit, hlast]
  congr 1
  · refine bitsOf_congr fun i hi => ?_
    rw [Nat.testBit_shiftRight, Nat.testBit_mod_two_pow, Nat.testBit_shiftLeft]
    simp [show 5 - bits + i < 5 by omega]
  · have hzero : bitsOf (5 - bits) (acc.toNat <<< (5 - bits) % 2 ^ 5) = bitsOf (5 - bits) 0 := by
      refine bitsOf_congr fun i hi => ?_
      rw [Nat.testBit_mod_two_pow, Nat.testBit_shiftLeft, Nat.zero_testBit]
      simp [show ¬ 5 - bits ≤ i by omega]
    rw [hzero]
    interval_cases bits <;> rfl

theorem convertBits_bits (program : List UInt8) (acc : UInt32) {bits : Nat} (hbits : bits < 5) :
    FitsWidth 5 (convertBits acc bits program) ∧
      ∃ pad, pad < 5 ∧ symbolBits 5 (convertBits acc bits program) =
        bitsOf bits acc.toNat ++ symbolBits 8 program ++ List.replicate pad false := by
  induction program generalizing acc bits with
  | nil =>
    rw [convertBits]
    split
    · obtain ⟨hlt, heq⟩ := bitsOf_pad acc hbits
      refine ⟨fun s hs => ?_, 5 - bits, by omega, ?_⟩
      · rw [List.mem_singleton.mp hs]
        exact hlt
      · simpa using heq
    · obtain rfl : bits = 0 := by omega
      exact ⟨fun s hs => absurd hs (by simp), 0, by omega, by simp [bitsOf]⟩
  | cons byte program ih =>
    rw [convertBits, emitGroups_eq]
    have hpush := @bitsOf_push acc bits 8 byte (by omega) byte.toNat_lt (by omega)
    obtain ⟨hlt, hfits, hgroups⟩ := @takeGroups_bits ((acc <<< 8) ||| byte.toUInt32) 5
      (bits + 8) (bits + 8) (by omega) (by omega) (by omega) le_rfl
    obtain ⟨hrest, pad, hpad, heq⟩ := ih ((acc <<< 8) ||| byte.toUInt32) hlt
    refine ⟨?_, pad, hpad, ?_⟩
    · intro s hs
      rcases List.mem_append.mp hs with hs | hs
      · exact hfits s hs
      · exact hrest s hs
    · rw [symbolBits_append, heq, ← List.append_assoc, ← List.append_assoc, hgroups]
      rw [show (8 : UInt32) = UInt32.ofNat 8 by rfl, hpush, symbolBits_cons]
      simp only [List.append_assoc]

/-! ## The tables as parameters -/

/-- The encoder of one of the crates: they all have the same body and tables of their own. -/
def encodeWith (charset : List Char) (generator : List UInt32) (hrp : String)
    (witnessVersion : UInt8) (program : List UInt8) : String :=
  let step (chk : UInt32) (v : UInt8) : UInt32 :=
    let b := chk >>> 25
    let chk := ((chk &&& 0x1ffffff) <<< 5) ^^^ v.toUInt32
    generator.zipIdx.foldl
      (fun chk (g, i) => if (b >>> (UInt32.ofNat i)) &&& 1 == 1 then chk ^^^ g else chk) chk
  let data5 := witnessVersion :: convertBits 0 0 program
  let values := hrpExpand hrp ++ data5 ++ [0, 0, 0, 0, 0, 0]
  let poly := values.foldl step 1 ^^^ 1
  let checksum := (List.range 6).map fun i => ((poly >>> UInt32.ofNat (5 * (5 - i))) &&& 31).toUInt8
  String.ofList (hrp.toList ++ '1' :: (data5 ++ checksum).map fun d => charset.getD d.toNat 'q')

theorem encodeWith_charset_generator : encodeWith charset generator = encode := rfl

end Bech32

end BitInfinity
