import BitInfinity.Foundation.BitGroups
import BitInfinity.Foundation.Utf8
import BitInfinity.Tools.BtcAmount

/-!
# Base64

The encoder takes three bytes at a time and fills up the last group.  The decoder drops the
padding and shifts one symbol after the other into a word that it never masks.  Both are read
as regrouping a list of bits.
-/

namespace BitInfinity.Proxy

open BitInfinity Foundation

/-! ## Encoding -/

def base64Chars : List Char :=
  "ABCDEFGHIJKLMNOPQRSTUVWXYZabcdefghijklmnopqrstuvwxyz0123456789+/".toList

def base64Char (index : Nat) : Char := base64Chars.getD index '='

def base64EncodeChunk (chunk : Bytes) : List Char :=
  let b0 := (chunk.getD 0 0).toUInt32
  let b1 := if 1 < chunk.length then (chunk.getD 1 0).toUInt32 else 0
  let b2 := if 2 < chunk.length then (chunk.getD 2 0).toUInt32 else 0
  let triple := b0 <<< 16 ||| b1 <<< 8 ||| b2
  [base64Char (triple >>> 18 &&& 0x3F).toNat, base64Char (triple >>> 12 &&& 0x3F).toNat,
    if 1 < chunk.length then base64Char (triple >>> 6 &&& 0x3F).toNat else '=',
    if 2 < chunk.length then base64Char (triple &&& 0x3F).toNat else '=']

def chunksOfThree : Bytes → List Bytes
  | [] => []
  | [b0] => [[b0]]
  | [b0, b1] => [[b0, b1]]
  | b0 :: b1 :: b2 :: rest => [b0, b1, b2] :: chunksOfThree rest

def base64Encode (input : Bytes) : String :=
  String.ofList ((chunksOfThree input).flatMap base64EncodeChunk)

/-! ## Decoding -/

def decodeTable : List UInt8 :=
  (List.range 64).foldl (fun table i => table.set (base64Char i).toNat (UInt8.ofNat i))
    (List.replicate 128 255)

structure Base64Decoder where
  output : Bytes
  buf : UInt32
  bits : Nat

namespace Base64Decoder

def start : Base64Decoder := ⟨[], 0, 0⟩

def push (d : Base64Decoder) (b : UInt8) : Except String Base64Decoder :=
  if 127 < b ∨ decodeTable.getD b.toNat 255 = 255 then .error "Invalid base64 character"
  else
    let buf := d.buf <<< 6 ||| (decodeTable.getD b.toNat 255).toUInt32
    let bits := d.bits + 6
    if 8 ≤ bits then
      .ok ⟨d.output ++ [(buf >>> UInt32.ofNat (bits - 8)).toUInt8], buf, bits - 8⟩
    else
      .ok ⟨d.output, buf, bits⟩

end Base64Decoder

def base64Decode (input : String) : Except String Bytes := do
  let input := (Tools.trim input.toList).rdropWhile (· == '=')
  let d ← (Foundation.utf8Bytes input).foldlM Base64Decoder.push .start
  .ok d.output

/-! ## The bits that were read -/

namespace Base64Decoder

/-- Everything read so far: the bytes that were written out, and the pending bits. -/
def consumed (d : Base64Decoder) : List Bool := symbolBits 8 d.output ++ bitsOf d.bits d.buf.toNat

theorem bitsOf_byte {acc : UInt32} {bits : Nat} (hle : 8 ≤ bits) (hbits : bits < 32) :
    bitsOf 8 (acc >>> UInt32.ofNat (bits - 8)).toUInt8.toNat ++ bitsOf (bits - 8) acc.toNat =
      bitsOf bits acc.toNat := by
  have hgroup := (@bitsOf_group acc 8 bits (by omega) hle hbits (by omega)).2
  have hmask : ((acc >>> UInt32.ofNat (bits - 8)) &&& UInt32.ofNat (2 ^ 8 - 1)).toUInt8.toNat =
      (acc >>> UInt32.ofNat (bits - 8)).toUInt8.toNat := by
    rw [UInt32.toNat_toUInt8, UInt32.toNat_and, UInt32.toNat_toUInt8]
    change (_ &&& (2 ^ 8 - 1)) % 2 ^ 8 = _
    rw [Nat.and_two_pow_sub_one_eq_mod, Nat.mod_mod]
  rwa [hmask] at hgroup

theorem symbol_decodes : ∀ i : Fin 64, (base64Char i).toNat ≤ 127 ∧ base64Char i ≠ '=' ∧
    Tools.isWhitespace (base64Char i) = false ∧ base64Char i ∈ base64Chars ∧
    decodeTable.getD (base64Char i).toNat 255 = UInt8.ofNat i := by
  decide +kernel

theorem push_symbol {d : Base64Decoder} (hbits : d.bits < 8) {symbol : UInt8}
    (hsymbol : symbol.toNat < 2 ^ 6) :
    ∃ d', d.push (base64Char symbol.toNat).val.toUInt8 = .ok d' ∧ d'.bits < 8 ∧
      d'.consumed = d.consumed ++ bitsOf 6 symbol.toNat := by
  obtain ⟨hascii, -, -, -, htable⟩ := symbol_decodes ⟨symbol.toNat, hsymbol⟩
  rw [UInt8.ofNat_toNat, ← toNat_toUInt8_of_ascii hascii] at htable
  have hbyte : ¬ (127 < (base64Char symbol.toNat).val.toUInt8 ∨
      decodeTable.getD (base64Char symbol.toNat).val.toUInt8.toNat 255 = 255) := by
    rw [htable, UInt8.lt_iff_toNat_lt, toNat_toUInt8_of_ascii hascii, ← UInt8.toNat_inj]
    change ¬ (127 < (base64Char symbol.toNat).toNat ∨ symbol.toNat = 255)
    simp only at hascii
    omega
  have hpush := @bitsOf_push d.buf d.bits 6 symbol (by omega) hsymbol (by omega)
  rw [push, if_neg hbyte, htable]
  dsimp only
  split
  · rename_i hle
    refine ⟨_, rfl, by dsimp only; omega, ?_⟩
    have hgroup := @bitsOf_byte (d.buf <<< 6 ||| symbol.toUInt32) (d.bits + 6) hle (by omega)
    simp only [consumed, symbolBits_append, symbolBits_cons, symbolBits_nil, List.append_nil,
      List.append_assoc]
    rw [hgroup]
    exact congrArg _ hpush
  · refine ⟨_, rfl, by dsimp only; omega, ?_⟩
    simp only [consumed, List.append_assoc]
    exact congrArg _ hpush

theorem foldlM_push {d : Base64Decoder} (hbits : d.bits < 8) {symbols : List UInt8}
    (hsymbols : FitsWidth 6 symbols) :
    ∃ d', (symbols.map fun s => (base64Char s.toNat).val.toUInt8).foldlM push d = .ok d' ∧
      d'.bits < 8 ∧ d'.consumed = d.consumed ++ symbolBits 6 symbols := by
  induction symbols generalizing d with
  | nil => exact ⟨d, rfl, hbits, by simp⟩
  | cons s symbols ih =>
    obtain ⟨_, hpush, hbits₁, hconsumed⟩ := push_symbol hbits (hsymbols s (by simp))
    obtain ⟨d', hfold, hbits', hrest⟩ := ih hbits₁ fun t ht => hsymbols t (by simp [ht])
    refine ⟨d', ?_, hbits', ?_⟩
    · rw [List.map_cons, List.foldlM_cons, hpush]
      exact hfold
    · rw [hrest, hconsumed, symbolBits_cons, List.append_assoc]

end Base64Decoder

/-! ## The symbols that were written -/

/-- What the text of some bytes is: its bits are those of the bytes, and less than a byte more. -/
structure Base64Text (input : Bytes) (text : List Char) (symbols : List UInt8) (padding : Nat) :
    Prop where
  text_eq : text = (symbols.map fun s => base64Char s.toNat) ++ List.replicate padding '='
  fits : FitsWidth 6 symbols
  padding_le : padding ≤ 2
  length_eq : symbols.length + padding = 4 * ((input.length + 2) / 3)
  bits_eq : ∃ pad, symbolBits 6 symbols = symbolBits 8 input ++ pad ∧ pad.length < 8

def tripleOf (b0 b1 b2 : UInt8) : UInt32 := b0.toUInt32 <<< 16 ||| b1.toUInt32 <<< 8 ||| b2.toUInt32

def tripleSymbol (triple : UInt32) (shift : Nat) : UInt8 :=
  ((triple >>> UInt32.ofNat shift) &&& UInt32.ofNat (2 ^ 6 - 1)).toUInt8

section Triples

variable (b0 b1 b2 : UInt8) (triple : UInt32)

variable {shift : Nat}

theorem bitsOf_tripleOf : bitsOf 24 (tripleOf b0 b1 b2).toNat = symbolBits 8 [b0, b1, b2] := by
  have hnest : tripleOf b0 b1 b2 = (b0.toUInt32 <<< 8 ||| b1.toUInt32) <<< 8 ||| b2.toUInt32 := by
    have hshift : b0.toUInt32 <<< 16 = b0.toUInt32 <<< 8 <<< 8 :=
      @UInt32.shiftLeft_add b0.toUInt32 8 8 (by decide) (by decide) (by decide)
    rw [tripleOf, UInt32.shiftLeft_or, hshift]
  have hlow := @bitsOf_push (b0.toUInt32 <<< 8 ||| b1.toUInt32) 16 8 b2 (by omega) b2.toNat_lt
    (by omega)
  have hmiddle := @bitsOf_push b0.toUInt32 8 8 b1 (by omega) b1.toNat_lt (by omega)
  rw [hnest]
  refine hlow.trans ?_
  rw [show bitsOf 16 (b0.toUInt32 <<< 8 ||| b1.toUInt32).toNat = _ from hmiddle]
  simp

theorem tripleSymbol_lt (hshift : shift < 26) : (tripleSymbol triple shift).toNat < 2 ^ 6 := by
  have hgroup := (@bitsOf_group triple 6 (shift + 6) (by omega) (by omega) (by omega) (by omega)).1
  rwa [Nat.add_sub_cancel] at hgroup

theorem bitsOf_tripleSymbol (hshift : shift < 26) :
    bitsOf 6 (tripleSymbol triple shift).toNat ++ bitsOf shift triple.toNat =
      bitsOf (shift + 6) triple.toNat := by
  have hgroup := (@bitsOf_group triple 6 (shift + 6) (by omega) (by omega) (by omega) (by omega)).2
  rwa [Nat.add_sub_cancel] at hgroup

theorem toNat_tripleSymbol :
    ((triple >>> UInt32.ofNat shift) &&& 0x3F).toNat = (tripleSymbol triple shift).toNat := by
  have hlt : ((triple >>> UInt32.ofNat shift) &&& 0x3F).toNat < 2 ^ 8 := by
    exact Nat.lt_of_le_of_lt Nat.and_le_right (by decide)
  exact (Nat.mod_eq_of_lt hlt).symm

def tripleSymbols : List UInt8 :=
  [tripleSymbol triple 18, tripleSymbol triple 12, tripleSymbol triple 6, tripleSymbol triple 0]

theorem map_tripleSymbols : (tripleSymbols triple).map (fun s => base64Char s.toNat) =
    [base64Char (triple >>> 18 &&& 0x3F).toNat, base64Char (triple >>> 12 &&& 0x3F).toNat,
      base64Char (triple >>> 6 &&& 0x3F).toNat, base64Char (triple &&& 0x3F).toNat] := by
  have hlast : triple &&& 0x3F = (triple >>> UInt32.ofNat 0) &&& 0x3F := by
    rw [show UInt32.ofNat 0 = 0 from rfl, UInt32.shiftRight_zero]
  simp only [tripleSymbols, List.map_cons, List.map_nil, ← toNat_tripleSymbol, hlast]
  rfl

theorem symbolBits_tripleSymbols :
    symbolBits 6 (tripleSymbols (tripleOf b0 b1 b2)) = symbolBits 8 [b0, b1, b2] := by
  rw [← bitsOf_tripleOf, ← bitsOf_tripleSymbol _ (by omega : 18 < 26),
    ← bitsOf_tripleSymbol _ (by omega : 12 < 26), ← bitsOf_tripleSymbol _ (by omega : 6 < 26),
    ← bitsOf_tripleSymbol _ (by omega : 0 < 26)]
  rfl

theorem fitsWidth_tripleSymbols (count : Nat) :
    FitsWidth 6 ((tripleSymbols triple).take count) := by
  intro s hs
  have hmem := List.mem_of_mem_take hs
  simp only [tripleSymbols, List.mem_cons, List.not_mem_nil, or_false] at hmem
  rcases hmem with rfl | rfl | rfl | rfl
  · exact tripleSymbol_lt triple (by omega)
  · exact tripleSymbol_lt triple (by omega)
  · exact tripleSymbol_lt triple (by omega)
  · exact tripleSymbol_lt triple (by omega)

end Triples

variable {text : List Char} {symbols : List UInt8} {padding : Nat}

theorem exists_pad {chunk zeros symbols others : List Bool}
    (h : symbols ++ others = chunk ++ zeros) (hlength : chunk.length ≤ symbols.length) :
    ∃ pad, symbols = chunk ++ pad ∧ pad.length = symbols.length - chunk.length := by
  have hprefix : chunk <+: symbols :=
    List.prefix_of_prefix_length_le ⟨zeros, rfl⟩ ⟨others, h⟩ hlength
  obtain ⟨pad, rfl⟩ := hprefix
  exact ⟨pad, rfl, by simp⟩

/-- A chunk of `count` bytes, filled up with zeros, keeps its first `count + 1` symbols. -/
theorem base64Text_chunk {chunk : Bytes} {b0 b1 b2 : UInt8} {count : Nat}
    (hcount : 0 < count ∧ count ≤ 3) (hchunk : chunk = [b0, b1, b2].take count)
    (htext : base64EncodeChunk chunk =
      ((tripleSymbols (tripleOf b0 b1 b2)).map fun s => base64Char s.toNat).take (count + 1) ++
        List.replicate (3 - count) '=') :
    Base64Text chunk (base64EncodeChunk chunk)
      ((tripleSymbols (tripleOf b0 b1 b2)).take (count + 1)) (3 - count) := by
  have hlength : chunk.length = count := by
    rw [hchunk, List.length_take]
    simp only [List.length_cons, List.length_nil]
    omega
  have hsymbols : ((tripleSymbols (tripleOf b0 b1 b2)).take (count + 1)).length = count + 1 := by
    rw [List.length_take]
    simp only [tripleSymbols, List.length_cons, List.length_nil]
    omega
  rw [← List.map_take] at htext
  refine ⟨htext, fitsWidth_tripleSymbols _ _, by omega, by omega, ?_⟩
  have hbits := symbolBits_tripleSymbols b0 b1 b2
  rw [← List.take_append_drop (count + 1) (tripleSymbols _), symbolBits_append,
    ← List.take_append_drop count [b0, b1, b2], symbolBits_append, ← hchunk] at hbits
  obtain ⟨pad, hpad, hsize⟩ := exists_pad hbits (by
    rw [length_symbolBits, length_symbolBits, hlength, hsymbols]
    omega)
  rw [length_symbolBits, length_symbolBits, hlength, hsymbols] at hsize
  exact ⟨pad, hpad, by omega⟩

theorem Base64Text.append {chunk rest : Bytes} {text' : List Char}
    {symbols' : List UInt8} (hthree : chunk.length = 3)
    (h : Base64Text chunk text symbols 0) (hrest : Base64Text rest text' symbols' padding) :
    Base64Text (chunk ++ rest) (text ++ text') (symbols ++ symbols') padding := by
  obtain ⟨pad, hbits, -⟩ := h.bits_eq
  obtain ⟨pad', hbits', hpad'⟩ := hrest.bits_eq
  have hcount := h.length_eq
  have hcount' := hrest.length_eq
  have hnone : pad = [] := by
    have hlength := congrArg List.length hbits
    rw [length_symbolBits, List.length_append, length_symbolBits] at hlength
    exact List.length_eq_zero_iff.mp (by omega)
  refine ⟨?_, ?_, hrest.padding_le, ?_, pad', ?_, hpad'⟩
  · rw [h.text_eq, hrest.text_eq]
    simp
  · intro s hs
    exact (List.mem_append.mp hs).elim (h.fits s) (hrest.fits s)
  · rw [List.length_append, List.length_append]
    omega
  · rw [symbolBits_append, hbits, hbits', hnone, symbolBits_append]
    simp

theorem exists_base64Text (input : Bytes) : ∃ symbols padding,
    Base64Text input ((chunksOfThree input).flatMap base64EncodeChunk) symbols padding := by
  induction input using chunksOfThree.induct with
  | case1 => exact ⟨[], 0, rfl, by simp [FitsWidth], by omega, rfl, [], rfl, by decide⟩
  | case2 b0 =>
    have h := @base64Text_chunk [b0] b0 0 0 1 (by omega) rfl (by rw [map_tripleSymbols]; rfl)
    exact ⟨_, _, by simpa [chunksOfThree] using h⟩
  | case3 b0 b1 =>
    have h := @base64Text_chunk [b0, b1] b0 b1 0 2 (by omega) rfl (by rw [map_tripleSymbols]; rfl)
    exact ⟨_, _, by simpa [chunksOfThree] using h⟩
  | case4 b0 b1 b2 rest ih =>
    have h := @base64Text_chunk [b0, b1, b2] b0 b1 b2 3 (by omega) rfl
      (by rw [map_tripleSymbols]; rfl)
    obtain ⟨symbols, padding, hrest⟩ := ih
    exact ⟨_, _, h.append rfl hrest⟩

/-! ## The round trip -/

theorem base64Decode_of_text {input : Bytes} (h : Base64Text input text symbols padding) :
    base64Decode (String.ofList text) = .ok input := by
  have hchars : ∀ c ∈ symbols.map fun s => base64Char s.toNat, c.toNat ≤ 127 ∧ c ≠ '=' ∧
      Tools.isWhitespace c = false := by
    intro c hc
    obtain ⟨s, hs, rfl⟩ := List.mem_map.mp hc
    obtain ⟨hascii, hne, hspace, -, -⟩ := Base64Decoder.symbol_decodes ⟨s.toNat, h.fits s hs⟩
    exact ⟨hascii, hne, hspace⟩
  have htrim : Tools.trim text = text := by
    refine Tools.trim_eq_self fun c hc => ?_
    rw [h.text_eq] at hc
    rcases List.mem_append.mp hc with hc | hc
    · exact (hchars c hc).2.2
    · rw [List.eq_of_mem_replicate hc]
      rfl
  have hstrip : text.rdropWhile (· == '=') = symbols.map fun s => base64Char s.toNat := by
    rw [h.text_eq, List.rdropWhile, List.reverse_append, List.reverse_replicate,
      List.dropWhile_append_of_pos fun c hc => by simp [List.eq_of_mem_replicate hc],
      ← List.rdropWhile, List.rdropWhile_eq_self_iff]
    intro hne
    simpa using (hchars _ (List.getLast_mem hne)).2.1
  obtain ⟨d, hfold, _, hconsumed⟩ :=
    @Base64Decoder.foldlM_push .start (by decide) symbols h.fits
  obtain ⟨_, hpad, hshort⟩ := h.bits_eq
  have houtput : d.output = input :=
    eq_of_symbolBits_append (by rwa [length_bitsOf]) hshort (hconsumed.trans hpad)
  rw [base64Decode, String.toList_ofList, htrim, hstrip,
    utf8Bytes_of_ascii fun c hc => (hchars c hc).1, List.map_map]
  refine (bind_of_eq_ok hfold _).trans ?_
  rw [houtput]

theorem base64Decode_base64Encode (x : Bytes) : base64Decode (base64Encode x) = .ok x := by
  obtain ⟨_, _, h⟩ := exists_base64Text x
  exact base64Decode_of_text h

theorem base64_round_trip (x : Bytes) : base64Decode (base64Encode x) = .ok x ∧
    (base64Encode x).length = 4 * ((x.length + 2) / 3) ∧
    ∃ symbols padding, (base64Encode x).toList = symbols ++ List.replicate padding '=' ∧
      padding ≤ 2 ∧ ∀ c ∈ symbols, c ∈ base64Chars := by
  obtain ⟨symbols, padding, h⟩ := exists_base64Text x
  refine ⟨base64Decode_base64Encode x, ?_, symbols.map fun s => base64Char s.toNat, padding, ?_,
    h.padding_le, ?_⟩
  · rw [base64Encode, String.length_ofList, h.text_eq, List.length_append, List.length_map,
      List.length_replicate, h.length_eq]
  · rw [base64Encode, String.toList_ofList, h.text_eq]
  · intro c hc
    obtain ⟨s, hs, rfl⟩ := List.mem_map.mp hc
    exact (Base64Decoder.symbol_decodes ⟨s.toNat, h.fits s hs⟩).2.2.2.1

end BitInfinity.Proxy
