import Mathlib.Tactic

/-!
# The bytes of a text

An ASCII character is one byte of the same number, and every other character has only bytes
above the ASCII range.
-/

namespace BitInfinity.Foundation

variable {c : Char} {text : List Char}

def utf8Bytes (text : List Char) : List UInt8 := text.flatMap String.utf8EncodeChar

def byteChar (b : UInt8) : Char := Char.ofNat b.toNat

@[simp] theorem utf8Bytes_nil : utf8Bytes [] = [] := rfl

@[simp] theorem utf8Bytes_cons (c : Char) (text : List Char) :
    utf8Bytes (c :: text) = String.utf8EncodeChar c ++ utf8Bytes text := rfl

@[simp] theorem utf8Bytes_append (text text' : List Char) :
    utf8Bytes (text ++ text') = utf8Bytes text ++ utf8Bytes text' := by
  simp [utf8Bytes]

theorem toList_toUTF8 (text : String) : text.toUTF8.data.toList = utf8Bytes text.toList := by
  obtain ⟨chars, rfl⟩ : ∃ chars, text = String.ofList chars :=
    ⟨text.toList, String.ofList_toList.symm⟩
  simp [String.toUTF8_eq_toByteArray, List.utf8Encode, utf8Bytes]

theorem toNat_toUInt8_of_ascii (hc : c.toNat ≤ 127) : c.val.toUInt8.toNat = c.toNat := by
  exact Nat.mod_eq_of_lt (Nat.lt_of_le_of_lt hc (by decide))

theorem utf8EncodeChar_of_ascii (hc : c.toNat ≤ 127) :
    String.utf8EncodeChar c = [c.val.toUInt8] := by
  refine String.utf8EncodeChar_eq_singleton ?_
  rw [Char.utf8Size_eq_one_iff]
  exact UInt32.le_iff_toNat_le.mpr hc

theorem byteChar_of_ascii (hc : c.toNat ≤ 127) : byteChar c.val.toUInt8 = c := by
  rw [byteChar, toNat_toUInt8_of_ascii hc, Char.ofNat_toNat]

theorem utf8Bytes_of_ascii (h : ∀ c ∈ text, c.toNat ≤ 127) :
    utf8Bytes text = text.map fun c => c.val.toUInt8 := by
  induction text with
  | nil => rfl
  | cons c text ih =>
    rw [utf8Bytes_cons, utf8EncodeChar_of_ascii (h c (by simp)), ih fun d hd => h d (by simp [hd])]
    rfl

theorem map_byteChar_of_ascii (h : ∀ c ∈ text, c.toNat ≤ 127) :
    (utf8Bytes text).map byteChar = text := by
  rw [utf8Bytes_of_ascii h, List.map_map]
  calc text.map (byteChar ∘ fun c => c.val.toUInt8) = text.map id :=
        List.map_congr_left fun c hc => byteChar_of_ascii (h c hc)
    _ = text := List.map_id text

theorem exists_utf8EncodeChar_eq_cons (hc : 127 < c.toNat) :
    ∃ b bytes, String.utf8EncodeChar c = b :: bytes ∧ 128 ≤ b.toNat := by
  have hval : 127 < c.val.toNat := hc
  unfold String.utf8EncodeChar
  rw [if_neg (by omega)]
  split
  · refine ⟨_, _, rfl, ?_⟩
    rw [UInt8.toNat_ofNat']
    omega
  · split
    · refine ⟨_, _, rfl, ?_⟩
      rw [UInt8.toNat_ofNat']
      omega
    · refine ⟨_, _, rfl, ?_⟩
      rw [UInt8.toNat_ofNat']
      omega

end BitInfinity.Foundation
