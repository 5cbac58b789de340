import BitInfinity.Foundation.BitGroups
import Mathlib.Data.Nat.Bitwise

/-!
# Checksums of five bit symbols

A remainder is a word of `low + 5` bits.  A symbol is shifted in at the low end, and for each of
the five bits that are shifted out at the high end a generator is added.  The step is linear in
exclusive or, so the remainders of two sequences of symbols differ by the remainder of their
difference, and where no remainder but zero steps to zero no difference is ever lost.
-/

namespace BitInfinity.Foundation

theorem shiftLeft_five_xor {c v : Nat} (hv : v < 32) : (c <<< 5) ^^^ v = c * 32 + v := by
  refine Nat.eq_of_testBit_eq fun i => ?_
  rw [show c * 32 + v = 2 ^ 5 * c + v by omega, Nat.testBit_two_pow_mul_add c hv,
    Nat.testBit_xor, Nat.testBit_shiftLeft]
  rcases Nat.lt_or_ge i 5 with hi | hi
  · simp [hi, show ¬ 5 ≤ i by omega]
  · have hhigh : v.testBit i = false :=
      Nat.testBit_lt_two_pow
        (Nat.lt_of_lt_of_le hv (Nat.pow_le_pow_right (by omega) hi : 2 ^ 5 ≤ _))
    simp [hi, hhigh, show ¬ i < 5 by omega]

/-! ## The symbols of a number -/

def symbolsOf : Nat → Nat → List Nat
  | 0, _ => []
  | n + 1, p => symbolsOf n (p / 32) ++ [p % 32]

@[simp] theorem length_symbolsOf (n p : Nat) : (symbolsOf n p).length = n := by
  induction n generalizing p with
  | zero => rfl
  | succ n ih => simp [symbolsOf, ih]

theorem fits_symbolsOf (n p : Nat) : ∀ s ∈ symbolsOf n p, s < 32 := by
  induction n generalizing p with
  | zero => simp [symbolsOf]
  | succ n ih =>
    intro s hs
    rcases List.mem_append.mp hs with hs | hs
    · exact ih _ s hs
    · rw [List.mem_singleton.mp hs]
      exact Nat.mod_lt _ (by decide)

theorem symbolsOf_eq_map (n p : Nat) :
    symbolsOf n p = (List.range n).map fun i => (p >>> (5 * (n - 1 - i))) &&& 31 := by
  induction n generalizing p with
  | zero => rfl
  | succ n ih =>
    rw [symbolsOf, ih, List.range_succ, List.map_append, List.map_singleton,
      Nat.add_sub_cancel, Nat.sub_self, Nat.mul_zero, Nat.shiftRight_zero,
      show (31 : Nat) = 2 ^ 5 - 1 by rfl, Nat.and_two_pow_sub_one_eq_mod]
    congr 1
    refine List.map_congr_left fun i hi => ?_
    have hlt := List.mem_range.mp hi
    rw [show p / 32 = p >>> 5 by rw [Nat.shiftRight_eq_div_pow], ← Nat.shiftRight_add,
      show 5 + 5 * (n - 1 - i) = 5 * (n - i) by omega]

theorem symbolsOf_inj {n p q : Nat} (hp : p < 32 ^ n) (hq : q < 32 ^ n)
    (h : symbolsOf n p = symbolsOf n q) : p = q := by
  induction n generalizing p q with
  | zero => omega
  | succ n ih =>
    obtain ⟨hfront, hlast⟩ := List.append_inj h (by simp)
    have hquot := ih (by omega : p / 32 < 32 ^ n) (by omega) hfront
    have hrem : p % 32 = q % 32 := by simpa using hlast
    omega

/-! ## The recurrence -/

structure SymbolChecksum where
  low : Nat
  generator : Nat → Nat
  generator_lt : ∀ i, generator i < 2 ^ (low + 5)

namespace SymbolChecksum

variable (G : SymbolChecksum)

variable {v c n : Nat} {symbols : List Nat}

def step (chk v : Nat) : Nat :=
  xorSelected (fun i => (chk >>> G.low).testBit i) G.generator (List.range 5)
    (((chk &&& (2 ^ G.low - 1)) <<< 5) ^^^ v)

theorem step_eq_xor (chk v : Nat) : G.step chk v = G.step chk 0 ^^^ v := by
  have h := xorSelected_xor (fun i => (chk >>> G.low).testBit i) (fun _ => false) G.generator
    (List.range 5) (((chk &&& (2 ^ G.low - 1)) <<< 5) ^^^ 0) v
  rw [xorSelected_of_none (fun _ => rfl)] at h
  simpa [step] using h

theorem step_xor (c d : Nat) : G.step (c ^^^ d) 0 = G.step c 0 ^^^ G.step d 0 := by
  have h := xorSelected_xor (fun i => (c >>> G.low).testBit i)
    (fun i => (d >>> G.low).testBit i) G.generator (List.range 5)
  simp only [step, Nat.xor_zero]
  rw [← h, Nat.and_xor_distrib_right, Nat.shiftLeft_xor_distrib]
  simp only [Nat.shiftRight_xor_distrib, Nat.testBit_xor]

theorem step_lt (c : Nat) (hv : v < 2 ^ (G.low + 5)) : G.step c v < 2 ^ (G.low + 5) := by
  refine xorSelected_lt G.generator_lt _ (Nat.xor_lt_two_pow ?_ hv)
  rw [Nat.and_two_pow_sub_one_eq_mod, Nat.shiftLeft_eq, pow_add]
  exact Nat.mul_lt_mul_of_pos_right (Nat.mod_lt _ (Nat.two_pow_pos _)) (by decide)

theorem step_of_lt (hc : c < 2 ^ G.low) (hv : v < 32) : G.step c v = c * 32 + v := by
  have htop : ∀ i, (c >>> G.low).testBit i = false := by
    intro i
    rw [Nat.shiftRight_eq_div_pow, Nat.div_eq_of_lt hc, Nat.zero_testBit]
  rw [step, xorSelected_of_none htop, Nat.and_two_pow_sub_one_eq_mod, Nat.mod_eq_of_lt hc,
    shiftLeft_five_xor hv]

theorem foldl_step_xor (values : List Nat) (c d : Nat) : values.foldl G.step (c ^^^ d) =
      values.foldl G.step c ^^^ (fun chk => G.step chk 0)^[values.length] d := by
  induction values generalizing c d with
  | nil => rfl
  | cons v values ih =>
    have hv : G.step (c ^^^ d) v = G.step c v ^^^ G.step d 0 := by
      rw [step_eq_xor, step_xor, G.step_eq_xor c v, Nat.xor_assoc, Nat.xor_comm (G.step d 0),
        ← Nat.xor_assoc]
    rw [List.foldl_cons, hv, ih, List.foldl_cons, List.length_cons, Function.iterate_succ_apply]

theorem foldl_step_lt {values : List Nat} (hvalues : ∀ v ∈ values, v < 2 ^ (G.low + 5))
    (hc : c < 2 ^ (G.low + 5)) : values.foldl G.step c < 2 ^ (G.low + 5) := by
  induction values generalizing c with
  | nil => exact hc
  | cons v values ih =>
    exact ih (fun u hu => hvalues u (List.mem_cons_of_mem v hu))
      (G.step_lt c (hvalues v List.mem_cons_self))

/-! ## Appended symbols -/

theorem foldl_step_symbolsOf {p : Nat} (hn : 5 * n ≤ G.low + 5) (hp : p < 32 ^ n) :
    (symbolsOf n p).foldl G.step 0 = p := by
  induction n generalizing p with
  | zero =>
    simp only [symbolsOf, List.foldl_nil]
    omega
  | succ n ih =>
    have hquot : p / 32 < 32 ^ n := by omega
    have hlow : 32 ^ n ≤ 2 ^ G.low := by
      rw [show (32 : Nat) = 2 ^ 5 by rfl, ← pow_mul]
      exact Nat.pow_le_pow_right (by decide) (by omega)
    rw [symbolsOf, List.foldl_append, ih (by omega) hquot, List.foldl_cons, List.foldl_nil,
      G.step_of_lt (by omega) (by omega)]
    omega

theorem symbolsOf_foldl_step (hn : 5 * symbols.length ≤ G.low + 5) (hfits : ∀ s ∈ symbols, s < 32) :
    symbols.foldl G.step 0 < 32 ^ symbols.length ∧
      symbolsOf symbols.length (symbols.foldl G.step 0) = symbols := by
  induction symbols using List.reverseRecOn with
  | nil => exact ⟨by simp, rfl⟩
  | append_singleton symbols s ih =>
    rw [List.length_append, List.length_singleton] at hn ⊢
    obtain ⟨_, hsymbols⟩ := ih (by omega) fun t ht => hfits t (List.mem_append_left _ ht)
    have hs : s < 32 := hfits s (by simp)
    have hlow : 32 ^ symbols.length ≤ 2 ^ G.low := by
      rw [show (32 : Nat) = 2 ^ 5 by rfl, ← pow_mul]
      exact Nat.pow_le_pow_right (by decide) (by omega)
    rw [List.foldl_append, List.foldl_cons, List.foldl_nil, G.step_of_lt (by omega) hs,
      symbolsOf, pow_succ]
    refine ⟨by omega, ?_⟩
    rw [show (symbols.foldl G.step 0 * 32 + s) / 32 = symbols.foldl G.step 0 by omega,
      hsymbols, show (symbols.foldl G.step 0 * 32 + s) % 32 = s by omega]

theorem foldl_step_eq_xor (c : Nat) (symbols : List Nat) : symbols.foldl G.step c =
      symbols.foldl G.step 0 ^^^ (fun chk => G.step chk 0)^[symbols.length] c := by
  have h := G.foldl_step_xor symbols 0 c
  rwa [Nat.zero_xor] at h

theorem foldl_step_zeros (n c : Nat) :
    (List.replicate n 0).foldl G.step c = (fun chk => G.step chk 0)^[n] c := by
  induction n generalizing c with
  | zero => rfl
  | succ n ih => rw [List.replicate_succ, List.foldl_cons, ih, Function.iterate_succ_apply]

/-- Symbols that fill the word bring the remainder to a given value exactly when they are the
symbols of the remainder that zeros leave, up to that value. -/
theorem foldl_step_eq_iff {k : Nat} (hn : 5 * n = G.low + 5)
    (hlength : symbols.length = n) (hfits : ∀ s ∈ symbols, s < 32) (hk : k < 2 ^ (G.low + 5)) :
    symbols.foldl G.step c = k ↔
      symbols = symbolsOf n ((List.replicate n 0).foldl G.step c ^^^ k) := by
  subst hlength
  have hpow : 32 ^ symbols.length = 2 ^ (G.low + 5) := by
    rw [show (32 : Nat) = 2 ^ 5 by rfl, ← pow_mul, hn]
  have hzeros : (List.replicate symbols.length 0).foldl G.step c < 2 ^ (G.low + 5) := by
    obtain ⟨m, hm⟩ := Nat.exists_eq_succ_of_ne_zero (by omega : symbols.length ≠ 0)
    rw [hm, List.replicate_succ', List.foldl_append]
    exact G.step_lt _ (Nat.two_pow_pos _)
  rw [foldl_step_eq_xor, ← foldl_step_zeros]
  constructor
  · rintro rfl
    rw [Nat.xor_comm, Nat.xor_xor_cancel_right]
    exact (G.symbolsOf_foldl_step (by omega) hfits).2.symm
  · intro h
    have hsum : symbols.foldl G.step 0 =
        (List.replicate symbols.length 0).foldl G.step c ^^^ k := by
      rw [congrArg (List.foldl G.step 0) h]
      refine G.foldl_step_symbolsOf (by omega) ?_
      rw [hpow]
      exact Nat.xor_lt_two_pow hzeros hk
    rw [hsum, Nat.xor_comm _ k, Nat.xor_xor_cancel_right]

/-! ## Differences are never lost -/

/-- The generators of different bits that are shifted out differ in the lowest symbol. -/
def Separates : Prop :=
  ∀ b < 32, xorSelected b.testBit G.generator (List.range 5) 0 % 32 = 0 → b = 0

variable {G}

variable {chk d : Nat}

theorem step_zero_ne_zero (hG : G.Separates) (hchk : chk < 2 ^ (G.low + 5))
    (hne : chk ≠ 0) : G.step chk 0 ≠ 0 := by
  intro hzero
  have hsplit := xorSelected_xor (fun i => (chk >>> G.low).testBit i) (fun _ => false)
    G.generator (List.range 5) 0 ((chk &&& (2 ^ G.low - 1)) <<< 5)
  rw [xorSelected_of_none (fun _ => rfl), Nat.zero_xor] at hsplit
  have hlow := congrArg (· % 2 ^ 5) (hsplit.symm.trans ((by simp [step] :
    _ = G.step chk 0).trans hzero))
  simp only [Nat.xor_mod_two_pow, Nat.shiftLeft_eq, Nat.mul_mod_left, Nat.xor_zero,
    Nat.zero_mod] at hlow
  have htop : chk >>> G.low = 0 := by
    refine hG _ ?_ hlow
    rw [Nat.shiftRight_eq_div_pow]
    refine Nat.div_lt_of_lt_mul ?_
    rwa [show (32 : Nat) = 2 ^ 5 by rfl, ← pow_add]
  have hsmall : chk < 2 ^ G.low := by
    rw [Nat.shiftRight_eq_div_pow] at htop
    exact (Nat.div_eq_zero_iff.mp htop).resolve_left (Nat.two_pow_pos _).ne'
  rw [G.step_of_lt hsmall (by decide)] at hzero
  omega

theorem iterate_step_ne_zero (hG : G.Separates) (hchk : chk < 2 ^ (G.low + 5))
    (hne : chk ≠ 0) (n : Nat) : (fun chk => G.step chk 0)^[n] chk ≠ 0 := by
  induction n generalizing chk with
  | zero => exact hne
  | succ n ih => exact ih (G.step_lt chk (Nat.two_pow_pos _)) (step_zero_ne_zero hG hchk hne)

theorem foldl_step_ne (hG : G.Separates) {c : Nat} (hc : c < 2 ^ (G.low + 5))
    (hd : d < 2 ^ (G.low + 5)) (hne : c ≠ d) (values : List Nat) :
    values.foldl G.step c ≠ values.foldl G.step d := by
  intro h
  rw [← Nat.xor_xor_cancel_left c d, G.foldl_step_xor] at h
  refine iterate_step_ne_zero hG (Nat.xor_lt_two_pow hc hd) ?_ values.length ?_
  · exact fun hzero => hne (Nat.xor_eq_zero_iff.mp hzero)
  · exact (Nat.xor_right_inj.mp ((Nat.xor_zero _).trans h)).symm

theorem iterate_step_of_lt (hd : d < 32) {n : Nat} (hn : 5 * n ≤ G.low) :
    (fun chk => G.step chk 0)^[n] d = d * 32 ^ n := by
  induction n with
  | zero => simp
  | succ n ih =>
    have hpow : 32 * 32 ^ n ≤ 2 ^ G.low := by
      rw [← pow_succ', show (32 : Nat) = 2 ^ 5 by rfl, ← pow_mul]
      exact Nat.pow_le_pow_right (by decide) (by omega)
    have hlt : d * 32 ^ n < 2 ^ G.low :=
      Nat.lt_of_lt_of_le (Nat.mul_lt_mul_of_pos_right hd (by positivity)) hpow
    rw [Function.iterate_succ_apply', ih (by omega), G.step_of_lt hlt (by decide), pow_succ]
    ring

/-- Two symbols that stand close together do not cancel each other: the first one is shifted
out of the place of the second, and not yet out of the word. -/
theorem foldl_step_substitution_ne {c u u' w w' : Nat} {middle : List Nat} (hu : u < 32)
    (hu' : u' < 32) (hw : w < 32) (hw' : w' < 32)
    (hmiddle : 5 * (middle.length + 1) ≤ G.low) (hne : ¬ (u = u' ∧ w = w')) :
    (u :: middle ++ [w]).foldl G.step c ≠ (u' :: middle ++ [w']).foldl G.step c := by
  intro h
  have hstart : G.step c u' = G.step c u ^^^ (u ^^^ u') := by
    rw [G.step_eq_xor c u', G.step_eq_xor c u, Nat.xor_assoc, Nat.xor_xor_cancel_left]
  simp only [List.cons_append, List.foldl_cons, List.foldl_append, List.foldl_nil] at h
  rw [hstart, G.foldl_step_xor, G.step_eq_xor _ w, G.step_eq_xor _ w', step_xor, Nat.xor_assoc,
    Nat.xor_right_inj, ← Function.iterate_succ_apply' (fun chk => G.step chk 0),
    iterate_step_of_lt (Nat.xor_lt_two_pow (n := 5) hu hu') (by omega)] at h
  have hdiff : w ^^^ w' = (u ^^^ u') * 32 ^ (middle.length + 1) := by
    rw [h, Nat.xor_xor_cancel_right]
  have hlt : w ^^^ w' < 32 := Nat.xor_lt_two_pow (n := 5) hw hw'
  rw [hdiff, pow_succ'] at hlt
  have hzero : (u ^^^ u') = 0 := by
    by_contra hpos
    have hge : 32 * 1 ≤ (u ^^^ u') * (32 * 32 ^ middle.length) := by
      rw [Nat.mul_left_comm]
      exact Nat.mul_le_mul_left _ (Nat.mul_pos (Nat.pos_of_ne_zero hpos) (by positivity))
    omega
  rw [hzero, Nat.zero_mul] at hdiff
  exact hne ⟨Nat.xor_eq_zero_iff.mp hzero, Nat.xor_eq_zero_iff.mp hdiff⟩

theorem foldl_step_substituted_ne (hG : G.Separates) (c : Nat) (front middle rest : List Nat)
    {u u' w w' : Nat} (hu : u < 32) (hu' : u' < 32) (hw : w < 32) (hw' : w' < 32)
    (hmiddle : 5 * (middle.length + 1) ≤ G.low) (hne : ¬ (u = u' ∧ w = w')) :
    (front ++ (u :: middle ++ [w]) ++ rest).foldl G.step c ≠
      (front ++ (u' :: middle ++ [w']) ++ rest).foldl G.step c := by
  have hbound : ∀ {v : Nat}, v < 32 → v < 2 ^ (G.low + 5) := by
    intro v hv
    exact Nat.lt_of_lt_of_le hv (Nat.pow_le_pow_right (by decide) (by omega) : 2 ^ 5 ≤ _)
  have hdiff := @foldl_step_substitution_ne G (front.foldl G.step c) u u' w w' middle hu hu' hw hw'
    hmiddle hne
  have happend : ∀ part : List Nat, (front ++ part ++ rest).foldl G.step c =
      rest.foldl G.step (part.foldl G.step (front.foldl G.step c)) := by
    intro part
    rw [List.foldl_append, List.foldl_append]
  rw [happend, happend]
  refine foldl_step_ne hG ?_ ?_ hdiff rest
  · rw [List.foldl_append]
    exact G.step_lt _ (hbound hw)
  · rw [List.foldl_append]
    exact G.step_lt _ (hbound hw')

end SymbolChecksum

end BitInfinity.Foundation
