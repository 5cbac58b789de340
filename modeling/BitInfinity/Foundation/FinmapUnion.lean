import BitInfinity.Foundation.FinmapSum

/-!
# Unions of finite maps

The entries of maps are inserted into one map after the other.  Where the maps agree, the order
and the repetition of the maps do not show in the result.
-/

namespace BitInfinity.Foundation

universe u v

variable {κ : Type u} {β : Type v} [LinearOrder κ]

/-- The entries of the second map are inserted into the first, in the order of their keys. -/
def insertAll (m new : Finmap fun _ : κ => β) : Finmap fun _ : κ => β :=
  (inOrder new).foldl (fun m entry => m.insert entry.1 entry.2) m

def unionAll (maps : List (Finmap fun _ : κ => β)) : Finmap fun _ : κ => β := maps.foldl insertAll ∅

/-- No two maps have different values for one key. -/
def Agree (maps : List (Finmap fun _ : κ => β)) : Prop :=
  ∀ m ∈ maps, ∀ m' ∈ maps, ∀ k b b', m.lookup k = some b → m'.lookup k = some b' → b = b'

variable {m new : Finmap fun _ : κ => β} {maps maps' : List (Finmap fun _ : κ => β)} {k : κ} {b : β}

theorem lookup_foldl_insert_entries (entries : List (κ × β)) (m : Finmap fun _ : κ => β) (k : κ)
    (hnodup : (entries.map Prod.fst).Nodup) :
    (entries.foldl (fun m entry => m.insert entry.1 entry.2) m).lookup k =
      (entries.lookup k).or (m.lookup k) := by
  induction entries generalizing m with
  | nil => rfl
  | cons entry entries ih =>
    obtain ⟨hnew, hnodup⟩ := List.nodup_cons.mp hnodup
    rw [List.foldl_cons, ih _ hnodup]
    by_cases h : k = entry.1
    · have hnone : entries.lookup k = none := by
        refine List.lookup_eq_none_iff.mpr fun p hp => ?_
        rw [bne_iff_ne]
        rintro rfl
        exact hnew (h ▸ List.mem_map_of_mem hp)
      rw [hnone, h, Finmap.lookup_insert, List.lookup_cons, beq_self_eq_true]
      rfl
    · rw [Finmap.lookup_insert_of_ne _ h, List.lookup_cons, beq_eq_false_iff_ne.mpr h]

theorem lookup_inOrder (m : Finmap fun _ : κ => β) (k : κ) : (inOrder m).lookup k = m.lookup k := by
  ext b
  rw [← mem_inOrder]
  constructor
  · intro h
    obtain ⟨l, r, heq, -⟩ := List.lookup_eq_some_iff.mp h
    rw [heq]
    simp
  · intro h
    cases hlookup : (inOrder m).lookup k with
    | none =>
      have hne := List.lookup_eq_none_iff.mp hlookup (k, b) h
      simp at hne
    | some b' =>
      obtain ⟨l, r, heq, -⟩ := List.lookup_eq_some_iff.mp hlookup
      have hmem : (k, b') ∈ inOrder m := by
        rw [heq]
        simp
      rw [mem_inOrder] at h hmem
      exact hmem.symm.trans h

theorem lookup_insertAll (m new : Finmap fun _ : κ => β) (k : κ) :
    (insertAll m new).lookup k = (new.lookup k).or (m.lookup k) := by
  rw [insertAll, lookup_foldl_insert_entries _ _ _ (nodup_keys_inOrder new), lookup_inOrder]

/-- The last map that has the key gives its value. -/
theorem lookup_unionAll (maps : List (Finmap fun _ : κ => β)) (k : κ) :
    (unionAll maps).lookup k = maps.reverse.findSome? (·.lookup k) := by
  have hfold : ∀ start : Finmap fun _ : κ => β, (maps.foldl insertAll start).lookup k =
      (maps.reverse.findSome? (·.lookup k)).or (start.lookup k) := by
    induction maps with
    | nil => exact fun start => rfl
    | cons m maps ih =>
      intro start
      rw [List.foldl_cons, ih, lookup_insertAll, List.reverse_cons, List.findSome?_append,
        Option.or_assoc]
      simp
  rw [unionAll, hfold, Finmap.lookup_empty, Option.or_none]

theorem exists_lookup_of_unionAll (h : (unionAll maps).lookup k = some b) :
    ∃ m ∈ maps, m.lookup k = some b := by
  rw [lookup_unionAll] at h
  obtain ⟨m, hm, h⟩ := List.exists_of_findSome?_eq_some h
  exact ⟨m, List.mem_reverse.mp hm, h⟩

theorem isSome_unionAll_of_mem (hm : m ∈ maps) (h : (m.lookup k).isSome) :
    ((unionAll maps).lookup k).isSome := by
  rw [lookup_unionAll, List.findSome?_isSome_iff]
  exact ⟨m, List.mem_reverse.mpr hm, h⟩

theorem lookup_unionAll_iff (hagree : Agree maps) :
    (unionAll maps).lookup k = some b ↔ ∃ m ∈ maps, m.lookup k = some b := by
  constructor
  · exact exists_lookup_of_unionAll
  · rintro ⟨m, hm, h⟩
    obtain ⟨b', hb'⟩ := Option.isSome_iff_exists.mp
      (isSome_unionAll_of_mem hm (Option.isSome_iff_exists.mpr ⟨b, h⟩))
    obtain ⟨m', hm', h'⟩ := exists_lookup_of_unionAll hb'
    rw [hb', hagree m' hm' m hm k b' b h' h]

theorem unionAll_eq (hagree : Agree maps)
    (h : ∀ k b, (∃ m ∈ maps', m.lookup k = some b) ↔ ∃ m ∈ maps, m.lookup k = some b) :
    unionAll maps' = unionAll maps := by
  have hagree' : Agree maps' := by
    intro m hm m' hm' k b b' hb hb'
    obtain ⟨n, hn, hnb⟩ := (h k b).mp ⟨m, hm, hb⟩
    obtain ⟨n', hn', hnb'⟩ := (h k b').mp ⟨m', hm', hb'⟩
    exact hagree n hn n' hn' k b b' hnb hnb'
  apply Finmap.ext_lookup
  intro k
  ext b
  exact (lookup_unionAll_iff hagree').trans ((h k b).trans (lookup_unionAll_iff hagree).symm)

end BitInfinity.Foundation
