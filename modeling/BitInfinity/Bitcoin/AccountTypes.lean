import BitInfinity.Bitcoin.DerivedAddresses
import BitInfinity.Bitcoin.Segwit
import BitInfinity.Primitives.AccountIdGrammar

/-!
# Account types do not overlap

With a bech32 crate that reads the addresses of BIP 173 and BIP 350, no text passes two of the
checks of `getAccountType`, so that their order does not matter.  Characters alone do not tell a
hexadecimal account id from a SegWit address: it is the number of bits left over in the last
group that no program of that length can have.
-/

namespace BitInfinity

open Foundation

/-! ## The bech32 crate -/

/-- The crate compares human readable parts without their case, hence in lower case. -/
def FollowsBip350 (C : Crypto) : Prop :=
  ∀ text, C.segwitDecode text = (Segwit.decode text.toList).map Prod.fst

theorem hasValidSegwitAddress_iff {C : Crypto} (hC : FollowsBip350 C) {id : AccountId} :
    AccountId.hasValidSegwitAddress C id = true ↔
      ∃ hrp w, hrp ∈ ["bc", "tb", "bcrt"] ∧ Segwit.decode id.toList = some (hrp, w) := by
  rw [AccountId.hasValidSegwitAddress, hC id]
  cases hdecode : Segwit.decode id.toList with
  | none => simp
  | some address =>
    obtain ⟨hrp, w⟩ := address
    simp

theorem isLowerAlphanumeric_encode {hrp : String} (hhrp : hrp ∈ ["bc", "tb", "bcrt"])
    (w : Segwit.WitnessProgram) : ∀ c ∈ Segwit.encode hrp w,
      AccountId.isLowerAlphanumeric c = true := by
  intro c hc
  have hsymbols : c ∈ hrp.toList ∨ c = '1' ∨ c ∈ (Segwit.symbols hrp w).map Bech32.symbol := by
    simpa [Segwit.encode] using hc
  rcases hsymbols with hc | rfl | hc
  · have hall : ["bc", "tb", "bcrt"].all (fun hrp => hrp.toList.all
        AccountId.isLowerAlphanumeric) = true := by decide
    exact List.all_eq_true.mp (List.all_eq_true.mp hall hrp hhrp) c hc
  · decide
  · obtain ⟨d, -, rfl⟩ := List.mem_map.mp hc
    exact isLowerAlphanumeric_symbol d

theorem lower_of_segwit {C : Crypto} (hC : FollowsBip350 C) {id : AccountId}
    (h : AccountId.hasValidSegwitAddress C id = true) :
    ∃ hrp w, hrp ∈ ["bc", "tb", "bcrt"] ∧ id.toList.map Char.toLower = Segwit.encode hrp w := by
  obtain ⟨hrp, w, hhrp, hdecode⟩ := (hasValidSegwitAddress_iff hC).mp h
  exact ⟨hrp, w, hhrp, (Segwit.decode_eq_some.mp hdecode).2.2.2⟩

/-! ## What the checks leave of a text -/

namespace AccountId

theorem exists_eq_of_startsWith {id : AccountId} {pre : String} (h : startsWith id pre = true) :
    ∃ rest, id.toList = pre.toList ++ rest := by
  obtain ⟨rest, hrest⟩ := List.isPrefixOf_iff_prefix.mp h
  exact ⟨rest, hrest.symm⟩

theorem utf8ByteSize_le_of_base58check {C : Crypto} {id : AccountId}
    (h : hasValidBase58checkAddress C id = true) : id.utf8ByteSize ≤ 35 := by
  unfold hasValidBase58checkAddress at h
  dsimp only at h
  split at h
  · cases h
  · rename_i hrange
    simp only [Bool.not_eq_true', Bool.not_eq_false, Bool.and_eq_true, decide_eq_true_eq] at hrange
    exact hrange.2

theorem head_of_legacy {id : AccountId} (h : isLegacyLowercasedBitcoin id = true) :
    id.utf8ByteSize ≤ 62 ∧ ∃ c rest, id.toList = c :: rest ∧ c ∈ ['b', '1', '3'] := by
  unfold isLegacyLowercasedBitcoin at h
  dsimp only at h
  split_ifs at h with h1 h2 h3 h4
  · rw [Bool.and_eq_true, Bool.and_eq_true, decide_eq_true_eq, decide_eq_true_eq] at h1
    obtain ⟨rest, hrest⟩ := exists_eq_of_startsWith h1.1
    exact ⟨h1.2.2, 'b', _, hrest, by simp⟩
  · rw [Bool.and_eq_true, beq_iff_eq] at h2
    obtain ⟨rest, hrest⟩ := exists_eq_of_startsWith h2.1
    exact ⟨by omega, 'b', _, hrest, by simp⟩
  · rw [Bool.and_eq_true, Bool.and_eq_true, decide_eq_true_eq, decide_eq_true_eq] at h3
    obtain ⟨rest, hrest⟩ := exists_eq_of_startsWith h3.1
    exact ⟨by omega, '1', _, hrest, by simp⟩
  · rw [Bool.and_eq_true, Bool.and_eq_true, decide_eq_true_eq, decide_eq_true_eq] at h4
    obtain ⟨rest, hrest⟩ := exists_eq_of_startsWith h4.1
    exact ⟨by omega, '3', _, hrest, by simp⟩

theorem head_of_encode {hrp : String} (hhrp : hrp ∈ ["bc", "tb", "bcrt"])
    (w : Segwit.WitnessProgram) : ∃ c rest, Segwit.encode hrp w = c :: rest ∧ c ∈ ['b', 't'] := by
  simp only [List.mem_cons, List.not_mem_nil, or_false] at hhrp
  rcases hhrp with rfl | rfl | rfl
  · exact ⟨'b', _, rfl, by simp⟩
  · exact ⟨'t', _, rfl, by simp⟩
  · exact ⟨'b', _, rfl, by simp⟩

theorem toLower_of_lower {c : Char} (h : isLowerAlphanumeric c = true) : c.toLower = c := by
  unfold Char.toLower
  rw [dif_neg]
  rintro ⟨hmin, hmax⟩
  have hge : 65 ≤ c.toNat := UInt32.le_iff_toNat_le.mp hmin
  have hle : c.toNat ≤ 90 := UInt32.le_iff_toNat_le.mp hmax
  rw [isLowerAlphanumeric_iff_toNat] at h
  omega

theorem map_toLower_of_lower {text : List Char}
    (h : ∀ c ∈ text, isLowerAlphanumeric c = true) : text.map Char.toLower = text :=
  (List.map_congr_left fun c hc => toLower_of_lower (h c hc)).trans (List.map_id text)

theorem lower_of_isLowerHex {c : Char} (h : isLowerHex c = true) :
    isLowerAlphanumeric c = true := by
  rw [isLowerAlphanumeric_iff_toNat]
  simp only [isLowerHex, Bool.or_eq_true, Bool.and_eq_true, decide_eq_true_eq, Char.le_def,
    UInt32.le_iff_toNat_le] at h
  change (97 ≤ c.toNat ∧ c.toNat ≤ 102) ∨ (48 ≤ c.toNat ∧ c.toNat ≤ 57) at h
  omega

section Exclusive

variable {C : Crypto} (hC : FollowsBip350 C) {id : AccountId}
include hC

theorem not_bitcoin_of_zero {rest : List Char} (hsize : id.utf8ByteSize = 42)
    (htext : id.toList = '0' :: rest) : isBitcoinImplicit C id = false := by
  rw [Bool.eq_false_iff]
  intro h
  simp only [isBitcoinImplicit, Bool.or_eq_true] at h
  rcases h with (hbase58 | hsegwit) | hlegacy
  · have hle := utf8ByteSize_le_of_base58check hbase58
    omega
  · obtain ⟨_, w, hhrp, hlower⟩ := lower_of_segwit hC hsegwit
    obtain ⟨c, rest', hencode, hc⟩ := head_of_encode hhrp w
    rw [htext, hencode, List.map_cons, List.cons.injEq] at hlower
    rw [← hlower.1] at hc
    exact absurd hc (by decide)
  · obtain ⟨-, c, rest', htext', hc⟩ := head_of_legacy hlegacy
    rw [htext, List.cons.injEq] at htext'
    rw [← htext'.1] at hc
    exact absurd hc (by decide)

theorem not_bitcoin_of_nearImplicit (h : isNearImplicit id = true) :
    isBitcoinImplicit C id = false := by
  rw [isNearImplicit, Bool.and_eq_true, beq_iff_eq] at h
  obtain ⟨hsize, hhex⟩ := h
  rw [List.all_eq_true] at hhex
  rw [Bool.eq_false_iff]
  intro h
  simp only [isBitcoinImplicit, Bool.or_eq_true] at h
  rcases h with (hbase58 | hsegwit) | hlegacy
  · have hle := utf8ByteSize_le_of_base58check hbase58
    omega
  · obtain ⟨hrp, w, hhrp, hlower⟩ := lower_of_segwit hC hsegwit
    rw [map_toLower_of_lower fun c hc => lower_of_isLowerHex (hhex c hc)] at hlower
    have hlength : (Segwit.encode hrp w).length = 64 := by
      rw [← hlower, ← hsize, ← utf8ByteSize_ofList_of_ascii, String.ofList_toList]
      intro c hc
      rw [hlower] at hc
      exact isLowerAlphanumeric_ascii (isLowerAlphanumeric_encode hhrp w c hc)
    simp only [List.mem_cons, List.not_mem_nil, or_false] at hhrp
    rcases hhrp with rfl | rfl | rfl
    · -- three characters before the symbols leave 54 groups of five bits for the program
      obtain ⟨-, _, _, hbits⟩ := @Bech32.convertBits_bits w.program 0 0 (by omega)
      have hgroups := congrArg List.length hbits
      simp only [List.length_append, length_symbolBits, List.length_replicate, length_bitsOf]
        at hgroups
      simp only [Segwit.encode, Segwit.symbols, List.length_append, List.length_cons,
        List.length_map, Segwit.length_checksum] at hlength
      change 2 + _ = 64 at hlength
      omega
    · exact absurd (hhex 't' (by rw [hlower]; simp [Segwit.encode])) (by decide)
    · exact absurd (hhex 't' (by rw [hlower]; simp [Segwit.encode])) (by decide)
  · have hle := (head_of_legacy hlegacy).1
    omega

end Exclusive

/-! ## The order of the checks -/

def typeChecks (C : Crypto) : List ((AccountId → Bool) × AccountType) :=
  [(isBitcoinImplicit C, .btcImplicitAccount), (isEthImplicit, .ethImplicitAccount),
    (isNearImplicit, .nearImplicitAccount), (isNearDeterministic, .nearDeterministicAccount)]

def firstType (checks : List ((AccountId → Bool) × AccountType)) (id : AccountId) : AccountType :=
  ((checks.find? fun check => check.1 id).map Prod.snd).getD .namedAccount

theorem firstType_typeChecks (C : Crypto) (id : AccountId) :
    firstType (typeChecks C) id = getAccountType C id := by
  unfold firstType typeChecks getAccountType
  cases h1 : isBitcoinImplicit C id <;> cases h2 : isEthImplicit id <;>
    cases h3 : isNearImplicit id <;> cases h4 : isNearDeterministic id <;>
    simp [List.find?, h1, h2, h3, h4]

theorem find?_eq_of_perm {α : Type} {p : α → Bool} {l l' : List α} (hperm : l'.Perm l)
    (hexclusive : l.Pairwise fun a b => ¬ (p a = true ∧ p b = true)) : l'.find? p = l.find? p := by
  rw [← List.head?_filter, ← List.head?_filter]
  have hfilter := hperm.filter p
  have hpairwise := List.Pairwise.filter p hexclusive
  match hl : l.filter p, hpairwise with
  | [], _ =>
    rw [hl] at hfilter
    rw [hfilter.eq_nil]
  | [a], _ =>
    rw [hl] at hfilter
    rw [hfilter.eq_singleton]
  | a :: b :: rest, hpairwise =>
    have ha : a ∈ l.filter p := by simp [hl]
    have hb : b ∈ l.filter p := by simp [hl]
    exact absurd ⟨(List.mem_filter.mp ha).2, (List.mem_filter.mp hb).2⟩
      (List.rel_of_pairwise_cons hpairwise (by simp))

theorem eth_of_isEthImplicit {id : AccountId} (h : isEthImplicit id = true) :
    id.utf8ByteSize = 42 ∧ ∃ rest, id.toList = '0' :: 'x' :: rest := by
  simp only [isEthImplicit, Bool.and_eq_true, beq_iff_eq] at h
  exact ⟨h.1.1, exists_eq_of_startsWith h.1.2⟩

theorem deterministic_of_isNearDeterministic {id : AccountId} (h : isNearDeterministic id = true) :
    id.utf8ByteSize = 42 ∧ ∃ rest, id.toList = '0' :: 's' :: rest := by
  simp only [isNearDeterministic, Bool.and_eq_true, beq_iff_eq] at h
  exact ⟨h.1.1, exists_eq_of_startsWith h.1.2⟩

theorem size_of_isNearImplicit {id : AccountId} (h : isNearImplicit id = true) :
    id.utf8ByteSize = 64 := by
  simp only [isNearImplicit, Bool.and_eq_true, beq_iff_eq] at h
  exact h.1

theorem typeChecks_exclusive {C : Crypto} (hC : FollowsBip350 C) (id : AccountId) :
    (typeChecks C).Pairwise fun a b => ¬ (a.1 id = true ∧ b.1 id = true) := by
  simp only [typeChecks, List.pairwise_cons, List.mem_cons, List.not_mem_nil, or_false,
    forall_eq_or_imp, forall_eq, List.Pairwise.nil, and_true, false_imp_iff, implies_true]
  refine ⟨⟨?_, ?_, ?_⟩, ⟨?_, ?_⟩, ?_⟩
  · rintro ⟨hbitcoin, heth⟩
    obtain ⟨hsize, rest, htext⟩ := eth_of_isEthImplicit heth
    rw [not_bitcoin_of_zero hC hsize htext] at hbitcoin
    cases hbitcoin
  · rintro ⟨hbitcoin, hnear⟩
    rw [not_bitcoin_of_nearImplicit hC hnear] at hbitcoin
    cases hbitcoin
  · rintro ⟨hbitcoin, hdeterministic⟩
    obtain ⟨hsize, rest, htext⟩ := deterministic_of_isNearDeterministic hdeterministic
    rw [not_bitcoin_of_zero hC hsize htext] at hbitcoin
    cases hbitcoin
  · rintro ⟨heth, hnear⟩
    have hsize := (eth_of_isEthImplicit heth).1
    have hsize' := size_of_isNearImplicit hnear
    omega
  · rintro ⟨heth, hdeterministic⟩
    obtain ⟨-, rest, htext⟩ := eth_of_isEthImplicit heth
    obtain ⟨-, _, htext'⟩ := deterministic_of_isNearDeterministic hdeterministic
    rw [htext] at htext'
    simp at htext'
  · rintro ⟨hnear, hdeterministic⟩
    have hsize := size_of_isNearImplicit hnear
    have hsize' := (deterministic_of_isNearDeterministic hdeterministic).1
    omega

/-- No text passes two of the checks, and their order does not matter. -/
theorem account_types_disjoint {C : Crypto} (hC : FollowsBip350 C) (id : AccountId) :
    ((typeChecks C).Pairwise fun a b => ¬ (a.1 id = true ∧ b.1 id = true)) ∧
      (∀ checks, checks.Perm (typeChecks C) → firstType checks id = getAccountType C id) ∧
      (isNearImplicit id = true → isBitcoinImplicit C id = false) := by
  refine ⟨typeChecks_exclusive hC id, ?_, not_bitcoin_of_nearImplicit hC⟩
  intro checks hperm
  have hfind := find?_eq_of_perm (p := fun check => check.1 id) hperm (typeChecks_exclusive hC id)
  rw [← firstType_typeChecks, firstType, firstType, hfind]

end AccountId

/-- Base58 texts are read only in their canonical form, SegWit texts as the standards say. -/
def Crypto.bip350 : Crypto :=
  { Crypto.standard with
    bs58Decode := fun text =>
      let data := Base58.decode 25 text.toList
      if Base58.encode data = text.toList then some data else none
    segwitDecode := fun text => (Segwit.decode text.toList).map Prod.fst }

theorem followsBip350_bip350 : FollowsBip350 .bip350 := fun _ => rfl

theorem standardEncodings_bip350 : StandardEncodings .bip350 :=
  { standardEncodings_standard with
    bs58Decode_encode := fun data hdata => by
      simp only [Crypto.bip350, Crypto.standard, String.toList_ofList]
      rw [← hdata, Base58.decode_encode, if_pos rfl] }

theorem AccountId.account_types_disjoint_hex :
    firstType [(isNearDeterministic, .nearDeterministicAccount),
        (isNearImplicit, .nearImplicitAccount), (isEthImplicit, .ethImplicitAccount),
        (isBitcoinImplicit .bip350, .btcImplicitAccount)]
        "bc1023456789acdefbc1023456789acdefbc1023456789acdefbc1023456789ac" =
      getAccountType .bip350
        "bc1023456789acdefbc1023456789acdefbc1023456789acdefbc1023456789ac" :=
  (account_types_disjoint followsBip350_bip350 _).2.1 _ (List.reverse_perm (typeChecks _))

end BitInfinity
