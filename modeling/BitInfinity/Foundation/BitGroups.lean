import Mathlib.Tactic

/-!
# Groups of bits in a machine word

Data is regrouped from symbols of one width to symbols of another by a word that collects
pending bits: symbols are shifted in at the low end, and groups are taken out from the highest
pending bit on.  Bits above the pending ones are stale and are never looked at.  Everything is
stated about the list of bits, the highest first.
-/

namespace BitInfinity.Foundation

/-! ## The bits of a number -/

variable {n x y : Nat} {xs ys : List UInt8}

def bitsOf : Nat → Nat → List Bool
  | 0, _ => []
  | n + 1, x => x.testBit n :: bitsOf n x

@[simp] theorem length_bitsOf (n x : Nat) : (bitsOf n x).length = n := by
  induction n with
  | zero => rfl
  | succ n ih => simp [bitsOf, ih]

theorem bitsOf_congr (h : ∀ i < n, x.testBit i = y.testBit i) : bitsOf n x = bitsOf n y := by
  induction n with
  | zero => rfl
  | succ n ih =>
    rw [bitsOf, bitsOf, h n (Nat.lt_succ_self n), ih fun i hi => h i (Nat.lt_succ_of_lt hi)]

theorem bitsOf_add (m n x : Nat) : bitsOf (m + n) x = bitsOf m (x >>> n) ++ bitsOf n x := by
  induction m with
  | zero => simp [bitsOf]
  | succ m ih =>
    rw [Nat.succ_add, bitsOf, bitsOf, ih, List.cons_append, Nat.testBit_shiftRight,
      Nat.add_comm n m]

theorem bitsOf_inj (hx : x < 2 ^ n) (hy : y < 2 ^ n) (h : bitsOf n x = bitsOf n y) : x = y := by
  have hbits : ∀ i < n, x.testBit i = y.testBit i := by
    clear hx hy
    induction n with
    | zero => intro i hi; omega
    | succ n ih =>
      rw [bitsOf, bitsOf, List.cons.injEq] at h
      intro i hi
      rcases Nat.lt_succ_iff_lt_or_eq.mp hi with hlt | rfl
      · exact ih h.2 i hlt
      · exact h.1
  refine Nat.eq_of_testBit_eq fun i => ?_
  rcases Nat.lt_or_ge i n with hi | hi
  · exact hbits i hi
  · have hle : 2 ^ n ≤ 2 ^ i := Nat.pow_le_pow_right (by omega) hi
    rw [Nat.testBit_lt_two_pow (by omega), Nat.testBit_lt_two_pow (by omega)]

def symbolBits (width : Nat) (symbols : List UInt8) : List Bool :=
  symbols.flatMap fun s => bitsOf width s.toNat

@[simp] theorem symbolBits_nil (width : Nat) : symbolBits width [] = [] := rfl

@[simp] theorem symbolBits_cons (width : Nat) (s : UInt8) (symbols : List UInt8) :
    symbolBits width (s :: symbols) = bitsOf width s.toNat ++ symbolBits width symbols := rfl

@[simp] theorem symbolBits_append (width : Nat) (xs ys : List UInt8) :
    symbolBits width (xs ++ ys) = symbolBits width xs ++ symbolBits width ys := by
  simp [symbolBits]

theorem length_symbolBits (width : Nat) (symbols : List UInt8) :
    (symbolBits width symbols).length = width * symbols.length := by
  induction symbols with
  | nil => simp
  | cons s symbols ih => simp [ih, Nat.mul_succ, Nat.add_comm]

def FitsWidth (width : Nat) (symbols : List UInt8) : Prop := ∀ s ∈ symbols, s.toNat < 2 ^ width

theorem fitsWidth_eight (bytes : List UInt8) : FitsWidth 8 bytes := fun b _ => b.toNat_lt

theorem symbolBits_inj {width : Nat} (hx : FitsWidth width xs) (hy : FitsWidth width ys)
    (hlen : xs.length = ys.length) (h : symbolBits width xs = symbolBits width ys) : xs = ys := by
  induction xs generalizing ys with
  | nil => exact (List.length_eq_zero_iff.mp hlen.symm).symm
  | cons x xs ih =>
    cases ys with
    | nil => simp at hlen
    | cons y ys =>
      obtain ⟨hhead, htail⟩ := List.append_inj h (by simp)
      have hxy := bitsOf_inj (hx x (by simp)) (hy y (by simp)) hhead
      rw [UInt8.toNat_inj.mp hxy, ih (fun s hs => hx s (by simp [hs]))
        (fun s hs => hy s (by simp [hs])) (by simpa using hlen) htail]

theorem eq_of_symbolBits_append {rest pad : List Bool} (hrest : rest.length < 8)
    (hpad : pad.length < 8) (h : symbolBits 8 xs ++ rest = symbolBits 8 ys ++ pad) : xs = ys := by
  have hlength := congrArg List.length h
  rw [List.length_append, List.length_append, length_symbolBits, length_symbolBits] at hlength
  have hlen : xs.length = ys.length := by omega
  obtain ⟨hbits, -⟩ := List.append_inj h (by rw [length_symbolBits, length_symbolBits, hlen])
  exact symbolBits_inj (fitsWidth_eight xs) (fitsWidth_eight ys) hlen hbits

/-! ## Numbers of bits -/

def natOfBits (bits : List Bool) : Nat := bits.foldl (fun n b => 2 * n + b.toNat) 0

theorem natOfBits_append_singleton (bits : List Bool) (b : Bool) :
    natOfBits (bits ++ [b]) = 2 * natOfBits bits + b.toNat := by
  simp [natOfBits]

theorem natOfBits_lt (bits : List Bool) : natOfBits bits < 2 ^ bits.length := by
  induction bits using List.reverseRecOn with
  | nil => decide
  | append_singleton bits b ih =>
    rw [natOfBits_append_singleton, List.length_append, List.length_singleton, Nat.pow_succ]
    have hb := b.toNat_le
    omega

theorem bitsOf_natOfBits (bits : List Bool) : bitsOf bits.length (natOfBits bits) = bits := by
  induction bits using List.reverseRecOn with
  | nil => rfl
  | append_singleton bits b ih =>
    have hshift : (2 * natOfBits bits + b.toNat) >>> 1 = natOfBits bits := by
      have hb := b.toNat_le
      omega
    have hlow : bitsOf 1 (2 * natOfBits bits + b.toNat) = [b] := by
      cases b <;> simp [bitsOf, Nat.testBit_zero]
    rw [natOfBits_append_singleton, List.length_append, List.length_singleton, bitsOf_add,
      hshift, hlow, ih]

def groupsOf (width : Nat) : Nat → List Bool → List UInt8
  | 0, _ => []
  | count + 1, bits =>
    UInt8.ofNat (natOfBits (bits.take width)) :: groupsOf width count (bits.drop width)

@[simp] theorem length_groupsOf (width count : Nat) (bits : List Bool) :
    (groupsOf width count bits).length = count := by
  induction count generalizing bits with
  | zero => rfl
  | succ count ih => simp [groupsOf, ih]

theorem symbolBits_groupsOf {width count : Nat} {bits : List Bool} (hwidth : width ≤ 8)
    (hlength : width * count ≤ bits.length) :
    symbolBits width (groupsOf width count bits) = bits.take (width * count) := by
  induction count generalizing bits with
  | zero => simp [groupsOf]
  | succ count ih =>
    rw [Nat.mul_succ] at hlength
    have htake : (bits.take width).length = width := by
      rw [List.length_take]
      omega
    have hlt := natOfBits_lt (bits.take width)
    have hpow : 2 ^ (bits.take width).length ≤ 2 ^ 8 := Nat.pow_le_pow_right (by omega) (by omega)
    have hgroup : (UInt8.ofNat (natOfBits (bits.take width))).toNat =
        natOfBits (bits.take width) := by
      exact Nat.mod_eq_of_lt (by omega)
    have hhead : bitsOf width (natOfBits (bits.take width)) = bits.take width := by
      have h := bitsOf_natOfBits (bits.take width)
      rwa [htake] at h
    rw [groupsOf, symbolBits_cons, hgroup, hhead, ih (by rw [List.length_drop]; omega),
      Nat.mul_succ, Nat.add_comm, List.take_add]

/-! ## Pending bits -/

section Pending

variable {acc : UInt32}

theorem toNat_ofNat_shift {k : Nat} (hk : k < 32) : (UInt32.ofNat k).toNat % 32 = k := by
  rw [UInt32.toNat_ofNat', Nat.mod_eq_of_lt (by omega : k < 2 ^ 32), Nat.mod_eq_of_lt hk]

theorem bitsOf_push {bits width : Nat} {symbol : UInt8} (hwidth : width < 32)
    (hsymbol : symbol.toNat < 2 ^ width) (hbits : bits + width ≤ 32) :
    bitsOf (bits + width) ((acc <<< UInt32.ofNat width) ||| symbol.toUInt32).toNat =
      bitsOf bits acc.toNat ++ bitsOf width symbol.toNat := by
  rw [bitsOf_add, UInt32.toNat_or, UInt32.toNat_shiftLeft, toNat_ofNat_shift hwidth,
    UInt8.toNat_toUInt32]
  congr 1
  · refine bitsOf_congr fun i hi => ?_
    have hhigh : symbol.toNat.testBit (width + i) = false :=
      Nat.testBit_lt_two_pow (Nat.lt_of_lt_of_le hsymbol (Nat.pow_le_pow_right (by omega)
        (by omega)))
    rw [Nat.testBit_shiftRight, Nat.testBit_or, Nat.testBit_mod_two_pow, Nat.testBit_shiftLeft,
      hhigh]
    simp [show width + i < 32 by omega]
  · refine bitsOf_congr fun i hi => ?_
    rw [Nat.testBit_or, Nat.testBit_mod_two_pow, Nat.testBit_shiftLeft]
    simp [show ¬ width ≤ i by omega]

def takeGroups (size : Nat) (acc : UInt32) : Nat → Nat → Nat × List UInt8
  | 0, bits => (bits, [])
  | fuel + 1, bits =>
    if size ≤ bits then
      let (bits', out) := takeGroups size acc fuel (bits - size)
      (bits', ((acc >>> UInt32.ofNat (bits - size)) &&& UInt32.ofNat (2 ^ size - 1)).toUInt8 :: out)
    else
      (bits, [])

theorem bitsOf_group {size bits : Nat} (hsize : size ≤ 8) (hle : size ≤ bits)
    (hbits : bits < 32) (hpos : 0 < size) :
    let group := ((acc >>> UInt32.ofNat (bits - size)) &&& UInt32.ofNat (2 ^ size - 1)).toUInt8
    group.toNat < 2 ^ size ∧
      bitsOf size group.toNat ++ bitsOf (bits - size) acc.toNat = bitsOf bits acc.toNat := by
  intro group
  have hpow : 2 ^ size ≤ 2 ^ 8 := Nat.pow_le_pow_right (by omega) hsize
  have hmask : (UInt32.ofNat (2 ^ size - 1)).toNat = 2 ^ size - 1 := by
    rw [UInt32.toNat_ofNat', Nat.mod_eq_of_lt (by omega)]
  have hgroup : group.toNat = (acc.toNat >>> (bits - size)) % 2 ^ size := by
    rw [UInt32.toNat_toUInt8, UInt32.toNat_and, UInt32.toNat_shiftRight,
      toNat_ofNat_shift (by omega), hmask, Nat.and_two_pow_sub_one_eq_mod,
      Nat.mod_eq_of_lt (by omega)]
  refine ⟨by rw [hgroup]; exact Nat.mod_lt _ (Nat.two_pow_pos _), ?_⟩
  obtain ⟨rest, rfl⟩ := Nat.exists_eq_add_of_le hle
  rw [hgroup, Nat.add_sub_cancel_left, bitsOf_add size rest]
  congr 1
  refine bitsOf_congr fun i hi => ?_
  simp [hi]

theorem takeGroups_bits {size fuel bits : Nat} (hpos : 0 < size) (hsize : size ≤ 8)
    (hbits : bits < 32) (hfuel : bits ≤ fuel) :
    (takeGroups size acc fuel bits).1 < size ∧ FitsWidth size (takeGroups size acc fuel bits).2 ∧
      symbolBits size (takeGroups size acc fuel bits).2 ++
          bitsOf (takeGroups size acc fuel bits).1 acc.toNat =
        bitsOf bits acc.toNat := by
  induction fuel generalizing bits with
  | zero =>
    obtain rfl : bits = 0 := by omega
    exact ⟨hpos, by simp [takeGroups, FitsWidth], rfl⟩
  | succ fuel ih =>
    rw [takeGroups]
    split
    · rename_i hle
      obtain ⟨hlt, hfits, heq⟩ := @ih (bits - size) (by omega) (by omega)
      obtain ⟨hgroup, hhead⟩ := @bitsOf_group acc size bits hsize hle hbits hpos
      refine ⟨hlt, ?_, ?_⟩
      · intro s hs
        rcases List.mem_cons.mp hs with rfl | hs
        · exact hgroup
        · exact hfits s hs
      · rw [symbolBits_cons, List.append_assoc, heq, hhead]
    · next hlt => exact ⟨by omega, by simp [FitsWidth], rfl⟩

end Pending

/-! ## Sums in exclusive or -/

variable {selected : Nat → Bool}

def xorSelected (selected : Nat → Bool) (g : Nat → Nat) (indices : List Nat) (init : Nat) : Nat :=
  indices.foldl (fun chk i => if selected i then chk ^^^ g i else chk) init

theorem xorSelected_xor (p q : Nat → Bool) (g : Nat → Nat) (indices : List Nat) (a b : Nat) :
    xorSelected (fun i => p i ^^ q i) g indices (a ^^^ b) =
      xorSelected p g indices a ^^^ xorSelected q g indices b := by
  induction indices generalizing a b with
  | nil => rfl
  | cons i indices ih =>
    simp only [xorSelected, List.foldl_cons] at ih ⊢
    rw [← ih]
    congr 1
    by_cases hp : p i = true <;> by_cases hq : q i = true
    · simp only [hp, hq, Bool.xor_self, Bool.false_eq_true, if_false, if_true]
      rw [Nat.xor_assoc, Nat.xor_comm b, ← Nat.xor_assoc (g i), Nat.xor_self, Nat.zero_xor]
    · simp only [hp, hq, Bool.xor_false, if_true, Bool.false_eq_true, if_false]
      rw [Nat.xor_assoc, Nat.xor_comm b, ← Nat.xor_assoc]
    · simp only [hp, hq, Bool.xor_true, Bool.not_false, if_true, Bool.false_eq_true, if_false]
      exact Nat.xor_assoc _ _ _
    · simp [hp, hq]

theorem xorSelected_of_none (h : ∀ i, selected i = false) (g : Nat → Nat) (indices : List Nat)
    (init : Nat) : xorSelected selected g indices init = init := by
  induction indices generalizing init with
  | nil => rfl
  | cons i indices ih =>
    simp only [xorSelected, List.foldl_cons, h i, Bool.false_eq_true, if_false] at ih ⊢
    exact ih init

theorem xorSelected_lt {g : Nat → Nat} {n : Nat} (hg : ∀ i, g i < 2 ^ n) (indices : List Nat)
    {init : Nat} (hinit : init < 2 ^ n) : xorSelected selected g indices init < 2 ^ n := by
  induction indices generalizing init with
  | nil => exact hinit
  | cons i indices ih =>
    simp only [xorSelected, List.foldl_cons] at ih ⊢
    refine ih ?_
    split
    · exact Nat.xor_lt_two_pow hinit (hg i)
    · exact hinit

end BitInfinity.Foundation
