import BitInfinity.Foundation.SymbolChecksum

/-!
# Checksums of descriptors

Each character of a descriptor is fed to the checksum as the low five bits of its place in the
input characters.  The rest of its place, one of three classes, is collected for three characters
and fed as one more symbol.
-/

namespace BitInfinity.Proxy.Descriptor

open BitInfinity Foundation

def inputCharset : List Char :=
  ("0123456789()[],'/*abcdefgh@:$%\x7b\x7dIJKLMNOPQRSTUVWXYZ&+-.;<=>?!^_|~" ++
    "ijklmnopqrstuvwxyzABCDEFGH`#\"\\ ").toList

def checksumCharset : List Char := "qpzry9x8gf2tvdw0s3jn54khce6mua7l".toList

def polymod (c val : UInt64) : UInt64 :=
  let c0 := c >>> 35
  let c := ((c &&& 0x7ffffffff) <<< 5) ^^^ val
  let c := if c0 &&& 1 != 0 then c ^^^ 0xf5dee51989 else c
  let c := if c0 &&& 2 != 0 then c ^^^ 0xa9fdca3312 else c
  let c := if c0 &&& 4 != 0 then c ^^^ 0x1bab10e32d else c
  let c := if c0 &&& 8 != 0 then c ^^^ 0x3706b1677a else c
  if c0 &&& 16 != 0 then c ^^^ 0x644d626ffd else c

structure State where
  c : UInt64
  cls : UInt64
  clscount : UInt64
  deriving DecidableEq, Repr

def lowOf (pos : Nat) : UInt64 := UInt64.ofNat pos &&& 31

def classOf (pos : Nat) : UInt64 := UInt64.ofNat pos >>> 5

def State.absorb (s : State) (pos : Nat) : State :=
  let c := polymod s.c (lowOf pos)
  let cls := s.cls * 3 + classOf pos
  let clscount := s.clscount + 1
  if clscount = 3 then ⟨polymod c cls, 0, 0⟩ else ⟨c, cls, clscount⟩

def State.absorbChar (s : State) (ch : Char) : State :=
  match inputCharset.idxOf? ch with
  | some pos => s.absorb pos
  | none => s

def residue (desc : String) : UInt64 :=
  let s := desc.toList.foldl State.absorbChar ⟨1, 0, 0⟩
  if 0 < s.clscount then polymod s.c s.cls else s.c

def computeDescriptorChecksum (desc : String) : String :=
  let c := (List.replicate 8 0).foldl polymod (residue desc) ^^^ 1
  String.ofList ((List.range 8).map fun j =>
    checksumCharset.getD ((c >>> UInt64.ofNat (5 * (7 - j))) &&& 31).toNat 'q')

/-! ## The recurrence on numbers -/

def generator (i : Nat) : Nat :=
  [0xf5dee51989, 0xa9fdca3312, 0x1bab10e32d, 0x3706b1677a, 0x644d626ffd].getD i 0

def code : SymbolChecksum where
  low := 35
  generator := generator
  generator_lt i := by
    rcases Nat.lt_or_ge i 5 with hi | hi
    · interval_cases i <;> decide
    · rw [generator, List.getD_eq_getElem?_getD, List.getElem?_eq_none hi]
      decide

theorem separates_code : code.Separates := by
  have hall : ∀ b : Fin 32, xorSelected b.val.testBit generator (List.range 5) 0 % 32 = 0 →
      b.val = 0 := by decide
  exact fun b hb => hall ⟨b, hb⟩

theorem and_two_pow_ne_zero (x : UInt64) {i : Nat} (hi : i < 64) :
    (x &&& UInt64.ofNat (2 ^ i) != 0) = x.toNat.testBit i := by
  have hpow : (UInt64.ofNat (2 ^ i)).toNat = 2 ^ i := by
    rw [UInt64.toNat_ofNat', Nat.mod_eq_of_lt (Nat.pow_lt_pow_right (by decide) hi)]
  rw [Bool.eq_iff_iff, bne_iff_ne, ne_eq, ← UInt64.toNat_inj, UInt64.toNat_and, hpow,
    Nat.and_two_pow]
  cases x.toNat.testBit i with
  | true => simp
  | false => simp

theorem toNat_xor_if (b : Bool) (c : UInt64) (g : UInt64) :
    (if b then c ^^^ g else c).toNat = if b then c.toNat ^^^ g.toNat else c.toNat := by
  cases b with
  | true => exact UInt64.toNat_xor c g
  | false => rfl

theorem toNat_polymod (c val : UInt64) : (polymod c val).toNat = code.step c.toNat val.toNat := by
  have hand : c.toNat &&& 0x7ffffffff < 2 ^ 35 := Nat.lt_of_le_of_lt Nat.and_le_right (by decide)
  have hshift : ((c &&& 0x7ffffffff) <<< 5).toNat = (c.toNat &&& 0x7ffffffff) <<< 5 := by
    change (c.toNat &&& 0x7ffffffff) <<< 5 % 2 ^ 64 = _
    omega
  have hbit : ∀ {i : Nat}, i < 64 → ((c >>> 35) &&& UInt64.ofNat (2 ^ i) != 0) =
      (c.toNat >>> 35).testBit i := by
    intro i hi
    rw [and_two_pow_ne_zero _ hi, UInt64.toNat_shiftRight]
    rfl
  have h0 : ((c >>> 35) &&& 1 != 0) = (c.toNat >>> 35).testBit 0 := @hbit 0 (by decide)
  have h1 : ((c >>> 35) &&& 2 != 0) = (c.toNat >>> 35).testBit 1 := @hbit 1 (by decide)
  have h2 : ((c >>> 35) &&& 4 != 0) = (c.toNat >>> 35).testBit 2 := @hbit 2 (by decide)
  have h3 : ((c >>> 35) &&& 8 != 0) = (c.toNat >>> 35).testBit 3 := @hbit 3 (by decide)
  have h4 : ((c >>> 35) &&& 16 != 0) = (c.toNat >>> 35).testBit 4 := @hbit 4 (by decide)
  unfold polymod
  rw [toNat_xor_if, toNat_xor_if, toNat_xor_if, toNat_xor_if, toNat_xor_if, UInt64.toNat_xor,
    hshift, h0, h1, h2, h3, h4]
  rfl

theorem toNat_foldl_polymod (values : List UInt64) (c : UInt64) :
    (values.foldl polymod c).toNat = (values.map UInt64.toNat).foldl code.step c.toNat := by
  induction values generalizing c with
  | nil => rfl
  | cons v values ih => rw [List.foldl_cons, ih, toNat_polymod, List.map_cons, List.foldl_cons]

/-! ## The symbols of a descriptor -/

def expand : List Nat → List Nat
  | a :: b :: c :: rest =>
    a % 32 :: b % 32 :: c % 32 :: ((a / 32 * 3 + b / 32) * 3 + c / 32) :: expand rest
  | [a, b] => [a % 32, b % 32, a / 32 * 3 + b / 32]
  | [a] => [a % 32, a / 32]
  | [] => []

def places (desc : String) : List Nat := desc.toList.filterMap inputCharset.idxOf?

theorem places_lt (desc : String) : ∀ p ∈ places desc, p < 95 := by
  intro p hp
  obtain ⟨_, -, hch⟩ := List.mem_filterMap.mp hp
  obtain ⟨hlt, -⟩ := List.findIdx?_eq_some_iff_getElem.mp hch
  exact hlt

def State.finish (s : State) : UInt64 := if 0 < s.clscount then polymod s.c s.cls else s.c

theorem residue_eq (desc : String) :
    residue desc = ((places desc).foldl State.absorb ⟨1, 0, 0⟩).finish := by
  have hfold : ∀ s : State, desc.toList.foldl .absorbChar s =
      (places desc).foldl .absorb s := by
    intro s
    rw [places, List.foldl_filterMap]
    congr 1
    funext s ch
    rw [State.absorbChar]
    cases inputCharset.idxOf? ch <;> rfl
  rw [residue, hfold]
  rfl

theorem toNat_lowOf {p : Nat} (hp : p < 95) : (lowOf p).toNat = p % 32 := by
  rw [lowOf, UInt64.toNat_and, UInt64.toNat_ofNat', Nat.mod_eq_of_lt (by omega)]
  exact Nat.and_two_pow_sub_one_eq_mod p 5

theorem toNat_classOf {p : Nat} (hp : p < 95) : (classOf p).toNat = p / 32 := by
  rw [classOf, UInt64.toNat_shiftRight, UInt64.toNat_ofNat', Nat.mod_eq_of_lt (by omega)]
  exact Nat.shiftRight_eq_div_pow p 5

theorem toNat_push {cls : UInt64} {p : Nat} (hcls : cls.toNat < 9) (hp : p < 95) :
    (cls * 3 + classOf p).toNat = cls.toNat * 3 + p / 32 := by
  rw [UInt64.toNat_add, UInt64.toNat_mul, toNat_classOf hp]
  change (cls.toNat * 3 % 2 ^ 64 + p / 32) % 2 ^ 64 = _
  omega

theorem toNat_classOf_first {p : Nat} (hp : p < 95) :
    ((0 : UInt64) * 3 + classOf p).toNat = p / 32 := by
  rw [toNat_push (by decide) hp]
  exact Nat.zero_add _

section Groups

variable (c cls : UInt64) (p : Nat)

theorem absorb_first : State.absorb ⟨c, cls, 0⟩ p =
    ⟨polymod c (lowOf p), cls * 3 + classOf p, 1⟩ := by
  unfold State.absorb
  exact if_neg (show ¬ (0 : UInt64) + 1 = 3 by decide)

theorem absorb_second : State.absorb ⟨c, cls, 1⟩ p =
    ⟨polymod c (lowOf p), cls * 3 + classOf p, 2⟩ := by
  unfold State.absorb
  exact if_neg (show ¬ (1 : UInt64) + 1 = 3 by decide)

theorem absorb_third : State.absorb ⟨c, cls, 2⟩ p =
    ⟨polymod (polymod c (lowOf p)) (cls * 3 + classOf p), 0, 0⟩ := by
  unfold State.absorb
  exact if_pos (show (2 : UInt64) + 1 = 3 by decide)

theorem finish_of_pos {count : UInt64} (h : 0 < count) :
    State.finish ⟨c, cls, count⟩ = polymod c cls :=
  if_pos h

end Groups

theorem toNat_finish_foldl (ps : List Nat) (hps : ∀ p ∈ ps, p < 95) (c : UInt64) :
    (ps.foldl State.absorb ⟨c, 0, 0⟩).finish.toNat = (expand ps).foldl code.step c.toNat := by
  induction ps using expand.induct generalizing c with
  | case1 x y z rest ih =>
    have hx : x < 95 := hps x (by simp)
    have hy : y < 95 := hps y (by simp)
    have hz : z < 95 := hps z (by simp)
    have hfirst := toNat_classOf_first hx
    have hsecond := toNat_push (p := y) (by rw [hfirst]; omega) hy
    have hthird := toNat_push (p := z) (by rw [hsecond, hfirst]; omega) hz
    rw [List.foldl_cons, absorb_first, List.foldl_cons, absorb_second, List.foldl_cons,
      absorb_third, ih fun p hp => hps p (by simp [hp]), expand]
    simp only [List.foldl_cons, toNat_polymod, toNat_lowOf hx, toNat_lowOf hy, toNat_lowOf hz,
      hthird, hsecond, hfirst]
  | case2 x y =>
    have hx : x < 95 := hps x (by simp)
    have hy : y < 95 := hps y (by simp)
    have hfirst := toNat_classOf_first hx
    have hsecond := toNat_push (p := y) (by rw [hfirst]; omega) hy
    rw [List.foldl_cons, absorb_first, List.foldl_cons, absorb_second, List.foldl_nil,
      finish_of_pos _ _ (by decide), expand]
    simp only [List.foldl_cons, List.foldl_nil, toNat_polymod, toNat_lowOf hx, toNat_lowOf hy,
      hsecond, hfirst]
  | case3 x =>
    have hx : x < 95 := hps x (by simp)
    have hfirst := toNat_classOf_first hx
    rw [List.foldl_cons, absorb_first, List.foldl_nil, finish_of_pos _ _ (by decide), expand]
    simp only [List.foldl_cons, List.foldl_nil, toNat_polymod, toNat_lowOf hx, hfirst]
  | case4 => rfl

theorem toNat_residue (desc : String) :
    (residue desc).toNat = (expand (places desc)).foldl code.step 1 := by
  rw [residue_eq, toNat_finish_foldl _ (places_lt desc)]
  rfl

/-! ## The checksum -/

theorem fits_expand (ps : List Nat) (hps : ∀ p ∈ ps, p < 95) : ∀ v ∈ expand ps, v < 32 := by
  induction ps using expand.induct with
  | case1 x y z rest ih =>
    have hx : x < 95 := hps x (by simp)
    have hy : y < 95 := hps y (by simp)
    have hz : z < 95 := hps z (by simp)
    simp only [expand, List.forall_mem_cons]
    exact ⟨by omega, by omega, by omega, by omega, ih fun p hp => hps p (by simp [hp])⟩
  | case2 x y =>
    have hx : x < 95 := hps x (by simp)
    have hy : y < 95 := hps y (by simp)
    simp only [expand, List.forall_mem_cons]
    exact ⟨by omega, by omega, by omega, by simp⟩
  | case3 x =>
    have hx : x < 95 := hps x (by simp)
    simp only [expand, List.forall_mem_cons]
    exact ⟨by omega, by omega, by simp⟩
  | case4 => simp [expand]

theorem residue_lt (desc : String) : (residue desc).toNat < 2 ^ 40 := by
  rw [toNat_residue]
  refine code.foldl_step_lt (fun v hv => ?_) (by decide)
  exact Nat.lt_of_lt_of_le (fits_expand _ (places_lt desc) v hv) (by decide)

def checksumWord (desc : String) : Nat :=
  (List.replicate 8 0).foldl code.step (residue desc).toNat ^^^ 1

theorem checksumWord_lt (desc : String) : checksumWord desc < 32 ^ 8 := by
  refine Nat.xor_lt_two_pow (n := 40) ?_ (by decide)
  refine code.foldl_step_lt (fun v hv => ?_) (residue_lt desc)
  rw [List.eq_of_mem_replicate hv]
  decide

theorem toList_computeDescriptorChecksum (desc : String) : (computeDescriptorChecksum desc).toList =
      (symbolsOf 8 (checksumWord desc)).map fun n => checksumCharset.getD n 'q' := by
  have hword : ((List.replicate 8 0).foldl polymod (residue desc) ^^^ 1).toNat =
      checksumWord desc := by
    rw [UInt64.toNat_xor, toNat_foldl_polymod, List.map_replicate]
    rfl
  rw [computeDescriptorChecksum, String.toList_ofList, symbolsOf_eq_map, List.map_map]
  refine List.map_congr_left fun j hj => ?_
  have hshift : (UInt64.ofNat (5 * (7 - j))).toNat % 64 = 5 * (7 - j) := by
    rw [UInt64.toNat_ofNat']
    omega
  rw [UInt64.toNat_and, UInt64.toNat_shiftRight, hword, hshift]
  rfl

def symbolOf (ch : Char) : UInt64 := UInt64.ofNat (checksumCharset.idxOf ch)

theorem idxOf_getD {n : Nat} (hn : n < 32) :
    checksumCharset.idxOf (checksumCharset.getD n 'q') = n := by
  have hall : ∀ n : Fin 32, checksumCharset.idxOf (checksumCharset.getD n 'q') = n := by
    decide +kernel
  exact hall ⟨n, hn⟩

theorem map_idxOf_checksum (desc : String) :
    (computeDescriptorChecksum desc).toList.map checksumCharset.idxOf =
      symbolsOf 8 (checksumWord desc) := by
  rw [toList_computeDescriptorChecksum, List.map_map]
  refine (List.map_congr_left fun n hn => ?_).trans (List.map_id _)
  exact idxOf_getD (fits_symbolsOf 8 _ n hn)

theorem foldl_polymod_checksum (desc : String) :
    ((computeDescriptorChecksum desc).toList.map symbolOf).foldl polymod (residue desc) = 1 := by
  have hsymbols : ((computeDescriptorChecksum desc).toList.map symbolOf).map UInt64.toNat =
      symbolsOf 8 (checksumWord desc) := by
    rw [← map_idxOf_checksum, List.map_map]
    refine List.map_congr_left fun ch _ => ?_
    have hle : checksumCharset.idxOf ch ≤ 32 := List.idxOf_le_length
    rw [Function.comp_apply, symbolOf, UInt64.toNat_ofNat', Nat.mod_eq_of_lt (by omega)]
  rw [← UInt64.toNat_inj, toNat_foldl_polymod, hsymbols]
  exact (code.foldl_step_eq_iff rfl (length_symbolsOf 8 _) (fits_symbolsOf 8 _) (by decide)).mpr rfl

/-! ## A substituted character -/

theorem foldl_expand_ne (front rest : List Nat) {x y : Nat} (hfront : ∀ p ∈ front, p < 95)
    (hrest : ∀ p ∈ rest, p < 95) (hx : x < 95) (hy : y < 95) (hne : x ≠ y) (c : Nat) :
    (expand (front ++ x :: rest)).foldl code.step c ≠
      (expand (front ++ y :: rest)).foldl code.step c := by
  -- whole groups in front are fed alike; then the character is the third, second or first one
  -- of its group
  have hdiffer := @SymbolChecksum.foldl_step_substituted_ne code separates_code
  induction front using expand.induct generalizing c with
  | case1 a b d front ih => exact ih (fun p hp => hfront p (by simp [hp])) _
  | case2 a b =>
    have ha : a < 95 := hfront a (by simp)
    have hb : b < 95 := hfront b (by simp)
    exact hdiffer c [a % 32, b % 32] [] (expand rest) (by omega) (by omega) (by omega)
      (by omega) (show 5 * 1 ≤ 35 by decide) (by omega)
  | case3 a =>
    have ha : a < 95 := hfront a (by simp)
    cases rest with
    | nil =>
      exact hdiffer c [a % 32] [] [] (by omega) (by omega) (by omega) (by omega)
        (show 5 * 1 ≤ 35 by decide) (by omega)
    | cons d rest =>
      have hd : d < 95 := hrest d (by simp)
      exact hdiffer c [a % 32] [d % 32] (expand rest) (by omega) (by omega) (by omega)
        (by omega) (show 5 * 2 ≤ 35 by decide) (by omega)
  | case4 =>
    match rest, hrest with
    | [], _ =>
      exact hdiffer c [] [] [] (by omega) (by omega) (by omega) (by omega)
        (show 5 * 1 ≤ 35 by decide) (by omega)
    | [d], hrest =>
      have hd : d < 95 := hrest d (by simp)
      exact hdiffer c [] [d % 32] [] (by omega) (by omega) (by omega) (by omega)
        (show 5 * 2 ≤ 35 by decide) (by omega)
    | d :: e :: rest, hrest =>
      have hd : d < 95 := hrest d (by simp)
      have he : e < 95 := hrest e (by simp)
      exact hdiffer c [] [d % 32, e % 32] (expand rest) (by omega) (by omega) (by omega)
        (by omega) (show 5 * 3 ≤ 35 by decide) (by omega)

theorem computeDescriptorChecksum_ne {a b : String} (h : (residue a).toNat ≠ (residue b).toNat) :
    computeDescriptorChecksum a ≠ computeDescriptorChecksum b := by
  intro heq
  have hsymbols : symbolsOf 8 (checksumWord a) = symbolsOf 8 (checksumWord b) := by
    rw [← map_idxOf_checksum, heq, map_idxOf_checksum]
  have hword := symbolsOf_inj (checksumWord_lt a) (checksumWord_lt b) hsymbols
  exact SymbolChecksum.foldl_step_ne separates_code (residue_lt a) (residue_lt b) h
    (List.replicate 8 0) (Nat.xor_left_inj.mp hword)

theorem exists_split_of_differ {α : Type} {l m : List α} (hlength : l.length = m.length)
    (h : ∃! i : Nat, l[i]? ≠ m[i]?) :
    ∃ front x y rest, x ≠ y ∧ l = front ++ x :: rest ∧ m = front ++ y :: rest := by
  obtain ⟨i, hi, hunique⟩ := h
  have hlt : i < l.length := by
    by_contra hge
    refine hi ?_
    rw [List.getElem?_eq_none (by omega), List.getElem?_eq_none (by omega)]
  have hm : i < m.length := by omega
  have heq : ∀ j, j ≠ i → l[j]? = m[j]? := fun j hj => by
    by_contra hne
    exact hj (hunique j hne)
  refine ⟨l.take i, l[i], m[i], l.drop (i + 1), ?_, ?_, ?_⟩
  · rw [List.getElem?_eq_getElem hlt, List.getElem?_eq_getElem hm] at hi
    exact fun h => hi (congrArg some h)
  · rw [List.cons_getElem_drop_succ, List.take_append_drop]
  · have htake : l.take i = m.take i := by
      refine List.ext_getElem? fun j => ?_
      rw [List.getElem?_take, List.getElem?_take]
      split
      · exact heq j (by omega)
      · rfl
    have hdrop : l.drop (i + 1) = m.drop (i + 1) := by
      refine List.ext_getElem? fun j => ?_
      rw [List.getElem?_drop, List.getElem?_drop]
      exact heq _ (by omega)
    rw [htake, hdrop, List.cons_getElem_drop_succ, List.take_append_drop]

theorem places_eq_map {desc : String} (h : ∀ ch ∈ desc.toList, ch ∈ inputCharset) :
    places desc = desc.toList.map inputCharset.idxOf := by
  rw [places, ← List.filterMap_eq_map]
  refine List.filterMap_congr fun ch hch => ?_
  exact List.findIdx?_eq_some_of_exists ⟨ch, h ch hch, beq_self_eq_true ch⟩

/-- Fed in place of the eight zero symbols the checksum leaves the remainder one, and it changes
with every single character. -/
theorem descriptor_checksum_detects : (∀ desc : String,
      ((computeDescriptorChecksum desc).toList.map symbolOf).foldl polymod (residue desc) = 1) ∧
    ∀ a b : String, (∀ ch ∈ a.toList, ch ∈ inputCharset) → (∀ ch ∈ b.toList, ch ∈ inputCharset) →
      a.toList.length = b.toList.length → (∃! i : Nat, a.toList[i]? ≠ b.toList[i]?) →
      computeDescriptorChecksum a ≠ computeDescriptorChecksum b := by
  refine ⟨foldl_polymod_checksum, fun a b ha hb hlength hone => ?_⟩
  obtain ⟨_, x, y, _, hne, hfa, hfb⟩ := exists_split_of_differ hlength hone
  have hx : x ∈ inputCharset := ha x (by simp [hfa])
  have hpa := places_lt a
  have hpb := places_lt b
  refine computeDescriptorChecksum_ne ?_
  rw [toNat_residue, toNat_residue]
  rw [places_eq_map ha, hfa, List.map_append, List.map_cons] at hpa ⊢
  rw [places_eq_map hb, hfb, List.map_append, List.map_cons] at hpb ⊢
  refine foldl_expand_ne _ _ (fun p hp => hpa p ?_) (fun p hp => hpa p ?_) (hpa _ ?_) (hpb _ ?_)
    ?_ 1
  · exact List.mem_append_left _ hp
  · exact List.mem_append_right _ (List.mem_cons_of_mem _ hp)
  · exact List.mem_append_right _ List.mem_cons_self
  · exact List.mem_append_right _ List.mem_cons_self
  · exact fun h => hne ((List.idxOf_inj hx).mp h)

example : computeDescriptorChecksum "raw(deadbeef)" = "89f8spxm" := by
  decide +kernel

/-- One letter of a public key. -/
theorem descriptor_checksum_detects_letter :
    computeDescriptorChecksum "pkh(a)" ≠ computeDescriptorChecksum "pkh(b)" := by
  have hchars : ∀ text : String, text.toList.all (· ∈ inputCharset) = true →
      ∀ ch ∈ text.toList, ch ∈ inputCharset := by
    intro text h ch hch
    exact of_decide_eq_true (List.all_eq_true.mp h ch hch)
  refine descriptor_checksum_detects.2 "pkh(a)" "pkh(b)" ?_ ?_ (by decide) ?_
  · exact hchars _ (by decide +kernel)
  · exact hchars _ (by decide +kernel)
  · refine ⟨4, by decide, fun i hi => ?_⟩
    have hlt : i < 6 := by
      by_contra hge
      refine hi ?_
      rw [List.getElem?_eq_none (Nat.not_lt.mp hge), List.getElem?_eq_none (Nat.not_lt.mp hge)]
    interval_cases i
    · exact absurd rfl hi
    · exact absurd rfl hi
    · exact absurd rfl hi
    · exact absurd rfl hi
    · rfl
    · exact absurd rfl hi

end BitInfinity.Proxy.Descriptor
