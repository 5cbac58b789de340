import BitInfinity.Bitcoin.Bech32

/-!
# SegWit texts in the proxy

The proxy has three copies of the bech32 encoder and a reader of its own, which takes the
program out of a text without a look at the checksum.
-/

namespace BitInfinity.Proxy

open Foundation

/-! ## The copies of the encoder -/

variable {program : List UInt8}

def bech32Encode : String → UInt8 → List UInt8 → String :=
  Bech32.encodeWith "qpzry9x8gf2tvdw0s3jn54khce6mua7l".toList
    [0x3b6a57b2, 0x26508e6d, 0x1ea119fa, 0x3d4233dd, 0x2a1462b3]

def bech32EncodeLocal : String → UInt8 → List UInt8 → String :=
  Bech32.encodeWith "qpzry9x8gf2tvdw0s3jn54khce6mua7l".toList
    [0x3b6a57b2, 0x26508e6d, 0x1ea119fa, 0x3d4233dd, 0x2a1462b3]

/-- The copy of the synthetic outputs, for programs of twenty bytes only. -/
def deriveScriptPubKeyAddress (pubkeyHash : List UInt8) (bech32Hrp : String) : String :=
  if pubkeyHash.length != 20 then ""
  else
    Bech32.encodeWith "qpzry9x8gf2tvdw0s3jn54khce6mua7l".toList
      [0x3b6a57b2, 0x26508e6d, 0x1ea119fa, 0x3d4233dd, 0x2a1462b3] bech32Hrp 0 pubkeyHash

theorem bech32Encode_eq : bech32Encode = Bech32.encode := Bech32.encodeWith_charset_generator

theorem bech32EncodeLocal_eq : bech32EncodeLocal = Bech32.encode :=
  Bech32.encodeWith_charset_generator

theorem deriveScriptPubKeyAddress_eq (hlength : program.length = 20)
    (hrp : String) : deriveScriptPubKeyAddress program hrp = Bech32.encode hrp 0 program := by
  rw [deriveScriptPubKeyAddress, hlength]
  exact congrFun (congrFun (congrFun Bech32.encodeWith_charset_generator hrp) 0) program

/-! ## Reading the program back -/

/-- Regroup symbols into bytes, from the pending bits of `acc` on; what is left is dropped. -/
def regroupSymbols : UInt32 → Nat → List UInt8 → List UInt8
  | _, _, [] => []
  | acc, bits, val :: payload5 =>
    let acc := (acc <<< 5) ||| val.toUInt32
    let (bits', out) := takeGroups 8 acc (bits + 5) (bits + 5)
    out ++ regroupSymbols acc bits' payload5

def dataPart (addr : List Char) : Option (List Char) :=
  if '1' ∈ addr then some (addr.reverse.takeWhile (· != '1')).reverse else none

def decodeBech32Program (addr : String) : Option (List UInt8) := do
  let dataPart ← dataPart addr.toList
  let data5 := dataPart.filterMap fun c => (Bech32.charset.idxOf? c).map UInt8.ofNat
  if data5.length ≤ 7 then none
  else some (regroupSymbols 0 0 ((data5.take (data5.length - 6)).drop 1))

theorem regroupSymbols_bits (payload5 : List UInt8) (hpayload : FitsWidth 5 payload5)
    (acc : UInt32) {bits : Nat} (hbits : bits < 8) :
    ∃ rest : List Bool, rest.length < 8 ∧ symbolBits 8 (regroupSymbols acc bits payload5) ++ rest =
        bitsOf bits acc.toNat ++ symbolBits 5 payload5 := by
  induction payload5 generalizing acc bits with
  | nil => exact ⟨bitsOf bits acc.toNat, by simpa using hbits, by simp [regroupSymbols]⟩
  | cons val payload5 ih =>
    have hpush := @bitsOf_push acc bits 5 val (by omega) (hpayload val (by simp)) (by omega)
    obtain ⟨hlt, -, hgroups⟩ := @takeGroups_bits ((acc <<< 5) ||| val.toUInt32) 8
      (bits + 5) (bits + 5) (by omega) (by omega) (by omega) le_rfl
    obtain ⟨rest, hrest, heq⟩ := ih (fun s hs => hpayload s (by simp [hs]))
      ((acc <<< 5) ||| val.toUInt32) hlt
    refine ⟨rest, hrest, ?_⟩
    rw [regroupSymbols, symbolBits_append, List.append_assoc, heq, ← List.append_assoc, hgroups]
    rw [show (5 : UInt32) = UInt32.ofNat 5 by rfl, hpush, symbolBits_cons, List.append_assoc]

theorem regroupSymbols_convertBits (program : List UInt8) :
    regroupSymbols 0 0 (Bech32.convertBits 0 0 program) = program := by
  obtain ⟨hfits, pad, _, hdata⟩ := @Bech32.convertBits_bits program 0 0 (by omega)
  obtain ⟨rest, hrest, hbytes⟩ := @regroupSymbols_bits _ hfits 0 0 (by omega)
  have hbits : symbolBits 8 (regroupSymbols 0 0 (Bech32.convertBits 0 0 program)) ++ rest =
      symbolBits 8 program ++ List.replicate pad false := by
    rw [hbytes, hdata]
    rfl
  exact eq_of_symbolBits_append hrest (by rw [List.length_replicate]; omega) hbits

theorem dataPart_symbols (hrp : List Char) (symbols : List UInt8) :
    dataPart (hrp ++ '1' :: symbols.map Bech32.symbol) = some (symbols.map Bech32.symbol) := by
  have hmem : '1' ∈ hrp ++ '1' :: symbols.map Bech32.symbol := by simp
  have hsymbols : ∀ c ∈ (symbols.map Bech32.symbol).reverse, (c != '1') = true := by
    intro c hc
    obtain ⟨d, -, rfl⟩ := List.mem_map.mp (List.mem_reverse.mp hc)
    simpa using Bech32.symbol_ne_separator d
  rw [dataPart, if_pos hmem, List.reverse_append, List.reverse_cons, List.append_assoc,
    List.takeWhile_append_of_pos hsymbols]
  simp

theorem filterMap_symbols {symbols : List UInt8} (hfits : FitsWidth 5 symbols) :
    (symbols.map Bech32.symbol).filterMap (fun c =>
      (Bech32.charset.idxOf? c).map UInt8.ofNat) = symbols := by
  induction symbols with
  | nil => rfl
  | cons d symbols ih =>
    rw [List.map_cons, List.filterMap_cons, Bech32.idxOf?_symbol (hfits d (by simp)),
      ih fun s hs => hfits s (by simp [hs])]

theorem fitsWidth_encoded (hrp : String) (program : List UInt8) :
    FitsWidth 5 (0 :: Bech32.convertBits 0 0 program ++
      Bech32.checksum hrp (0 :: Bech32.convertBits 0 0 program)) := by
  intro s hs
  rcases List.mem_append.mp hs with hs | hs
  · rcases List.mem_cons.mp hs with rfl | hs
    · decide
    · exact (Bech32.convertBits_bits program 0 (by omega)).1 s hs
  · exact Bech32.fitsWidth_checksum hrp _ s hs

theorem decodeBech32Program_encode (hrp : String) (hne : program ≠ []) :
    decodeBech32Program (Bech32.encode hrp 0 program) = some program := by
  set data := Bech32.convertBits 0 0 program with hdata
  have hfits : FitsWidth 5 (0 :: data ++ Bech32.checksum hrp (0 :: data)) :=
    fitsWidth_encoded hrp program
  have hpos : 0 < data.length := by
    refine List.length_pos_iff.mpr fun hnil => hne ?_
    rw [← regroupSymbols_convertBits program, ← hdata, hnil]
    rfl
  have hlength := Bech32.length_checksum hrp (0 :: data)
  have htake : (0 :: data ++ Bech32.checksum hrp (0 :: data)).take
      ((0 :: data ++ Bech32.checksum hrp (0 :: data)).length - 6) = 0 :: data := by
    rw [List.length_append, hlength, Nat.add_sub_cancel, List.take_left]
  rw [decodeBech32Program, Bech32.toList_encode_eq, ← hdata, dataPart_symbols]
  simp only [Option.bind_eq_bind, Option.bind_some, filterMap_symbols hfits]
  rw [if_neg (by rw [List.length_append, hlength, List.length_cons]; omega), htake,
    List.drop_one, List.tail_cons, hdata, regroupSymbols_convertBits]

/-- The text of the encoders: the human readable part, the separator, and symbols with a valid
checksum that carry exactly the program.  All copies give the same text. -/
theorem bech32_encoders_correct (hrp : String) (program : List UInt8) :
    (∃ data checksum : List UInt8, FitsWidth 5 (0 :: data ++ checksum) ∧ checksum.length = 6 ∧
      (Bech32.encode hrp 0 program).toList =
        hrp.toList ++ '1' :: (0 :: data ++ checksum).map Bech32.symbol ∧
      Bip173.polymod (Bip173.hrpExpand hrp ++ (0 :: data ++ checksum).map UInt8.toNat) = 1 ∧
      regroupSymbols 0 0 data = program) ∧
    bech32Encode hrp 0 program = Bech32.encode hrp 0 program ∧
    bech32EncodeLocal hrp 0 program = Bech32.encode hrp 0 program ∧
    (program.length = 20 →
      deriveScriptPubKeyAddress program hrp = Bech32.encode hrp 0 program) := by
  refine ⟨⟨Bech32.convertBits 0 0 program,
    Bech32.checksum hrp (0 :: Bech32.convertBits 0 0 program), fitsWidth_encoded hrp program,
    Bech32.length_checksum _ _, Bech32.toList_encode_eq hrp 0 program,
    Bech32.polymod_checksum _ _, regroupSymbols_convertBits program⟩, ?_, ?_, ?_⟩
  · rw [bech32Encode_eq]
  · rw [bech32EncodeLocal_eq]
  · intro hlength
    exact deriveScriptPubKeyAddress_eq hlength hrp

theorem bech32_encoders_agree_on_zeros : deriveScriptPubKeyAddress (List.replicate 20 0) "bc" =
      Bech32.encode "bc" 0 (List.replicate 20 0) :=
  (bech32_encoders_correct "bc" (List.replicate 20 0)).2.2.2 (by decide)

end BitInfinity.Proxy
