import Mathlib.Data.Finmap
import Mathlib.Algebra.BigOperators.Group.Finset.Basic
import Mathlib.Data.Finset.Sort

/-!
# Sums over finite maps

The sum of a weight over the entries of a finite map, and how it changes when an entry is
added, replaced or removed.  With an order on the keys the entries can be listed.
-/

namespace BitInfinity.Foundation

universe u v w

variable {α : Type u} {β : Type v} {M : Type w} [DecidableEq α] [AddCommMonoid M]

def sumEntries (weight : α → β → M) (m : Finmap fun _ : α => β) : M :=
  ∑ a ∈ m.keys, ((m.lookup a).map (weight a)).getD 0

variable {weight : α → β → M} {m : Finmap fun _ : α => β} {a : α} {b b' : β}

@[simp] theorem sumEntries_empty : sumEntries weight (∅ : Finmap fun _ : α => β) = 0 := rfl

theorem sumEntries_erase (h : m.lookup a = some b) :
    sumEntries weight m = sumEntries weight (m.erase a) + weight a b := by
  have hmem : a ∈ m.keys := Finmap.mem_keys.mpr (Finmap.mem_of_lookup_eq_some h)
  have hrest : ∀ x ∈ m.keys.erase a, ((m.lookup x).map (weight x)).getD 0 =
      (((m.erase a).lookup x).map (weight x)).getD 0 := by
    intro x hx
    rw [Finmap.lookup_erase_ne (Finset.ne_of_mem_erase hx)]
  unfold sumEntries
  rw [← Finset.sum_erase_add _ _ hmem, Finset.sum_congr rfl hrest, Finmap.keys_erase, h]
  rfl

theorem erase_insert_self : (m.insert a b).erase a = m.erase a := by
  apply Finmap.ext_lookup
  intro x
  by_cases hx : x = a
  · rw [hx, Finmap.lookup_erase, Finmap.lookup_erase]
  · rw [Finmap.lookup_erase_ne hx, Finmap.lookup_erase_ne hx, Finmap.lookup_insert_of_ne _ hx]

theorem erase_of_lookup_eq_none (h : m.lookup a = none) : m.erase a = m := by
  apply Finmap.ext_lookup
  intro x
  by_cases hx : x = a
  · rw [hx, Finmap.lookup_erase, h]
  · rw [Finmap.lookup_erase_ne hx]

theorem sumEntries_insert (h : m.lookup a = none) :
    sumEntries weight (m.insert a b) = sumEntries weight m + weight a b := by
  rw [sumEntries_erase (Finmap.lookup_insert m), erase_insert_self, erase_of_lookup_eq_none h]

theorem sumEntries_replace (h : m.lookup a = some b) (hweight : weight a b' = weight a b) :
    sumEntries weight (m.insert a b') = sumEntries weight m := by
  rw [sumEntries_erase (Finmap.lookup_insert m), erase_insert_self, sumEntries_erase h, hweight]

theorem lookup_erase_eq_ite (m : Finmap fun _ : α => β) (a x : α) :
    (m.erase a).lookup x = if x = a then none else m.lookup x := by
  split
  · next hx => rw [hx, Finmap.lookup_erase]
  · next hx => rw [Finmap.lookup_erase_ne hx]

/-- What the keys of a list weigh together is what the first weighs, and then what the others
weigh once the first is gone. -/
theorem sum_lookup_cons (weight : Option β → M) (hnone : weight none = 0)
    (m : Finmap fun _ : α => β) (a : α) (keys : List α) :
    ∑ x ∈ (a :: keys).toFinset, weight (m.lookup x) =
      weight (m.lookup a) + ∑ x ∈ keys.toFinset, weight ((m.erase a).lookup x) := by
  have hrest : ∑ x ∈ keys.toFinset, weight ((m.erase a).lookup x) =
      ∑ x ∈ keys.toFinset.erase a, weight (m.lookup x) := by
    rw [← Finset.sum_erase keys.toFinset (a := a) (by rw [Finmap.lookup_erase, hnone])]
    refine Finset.sum_congr rfl fun x hx => ?_
    rw [Finmap.lookup_erase_ne (Finset.ne_of_mem_erase hx)]
  rw [hrest, List.toFinset_cons, ← Finset.add_sum_erase _ _ (Finset.mem_insert_self a _),
    Finset.erase_insert_eq_erase]

/-! ## The entries in the order of their keys -/

section InOrder

variable {κ : Type u} [LinearOrder κ] {m : Finmap fun _ : κ => β} {k : κ} {b : β}

def entryAt (m : Finmap fun _ : κ => β) (k : κ) : Option (κ × β) := (m.lookup k).map fun b => (k, b)

def inOrder (m : Finmap fun _ : κ => β) : List (κ × β) :=
  (m.keys.sort (· ≤ ·)).filterMap (entryAt m)

theorem inOrder_empty : inOrder (∅ : Finmap fun _ : κ => β) = [] := by
  simp [inOrder]

theorem mem_inOrder : (k, b) ∈ inOrder m ↔ m.lookup k = some b := by
  constructor
  · intro h
    obtain ⟨_, -, hentry⟩ := List.mem_filterMap.mp h
    obtain ⟨_, hlookup, heq⟩ := Option.map_eq_some_iff.mp hentry
    cases heq
    exact hlookup
  · intro h
    refine List.mem_filterMap.mpr ⟨k, ?_, by rw [entryAt, h]; rfl⟩
    exact (Finset.mem_sort _).mpr (Finmap.mem_keys.mpr (Finmap.mem_of_lookup_eq_some h))

theorem nodup_keys_inOrder (m : Finmap fun _ : κ => β) : ((inOrder m).map Prod.fst).Nodup := by
  have hfilter : ((inOrder m).map Prod.fst).Sublist (m.keys.sort (· ≤ ·)) := by
    unfold inOrder
    generalize m.keys.sort (· ≤ ·) = keys
    induction keys with
    | nil => exact List.Sublist.slnil
    | cons k keys ih =>
      rw [List.filterMap_cons]
      cases hlookup : m.lookup k with
      | none =>
        simp only [entryAt, hlookup, Option.map_none]
        exact ih.cons k
      | some b =>
        simp only [entryAt, hlookup, Option.map_some, List.map_cons]
        exact ih.cons_cons k
  exact hfilter.nodup (Finset.sort_nodup _ _)

theorem inOrder_insert_empty (k : κ) (b : β) :
    inOrder ((∅ : Finmap fun _ : κ => β).insert k b) = [(k, b)] := by
  have hmem : ∀ entry, entry ∈ inOrder ((∅ : Finmap fun _ : κ => β).insert k b) ↔
      entry ∈ [(k, b)] := by
    rintro ⟨k', _⟩
    rw [mem_inOrder]
    by_cases h : k' = k
    · subst h
      simp [eq_comm]
    · simp [h]
  refine List.perm_singleton.mp ((List.perm_ext_iff_of_nodup ?_ ?_).mpr hmem)
  · exact List.Nodup.of_map Prod.fst (nodup_keys_inOrder _)
  · exact List.nodup_singleton _

theorem sum_inOrder (weight : κ → β → M) (m : Finmap fun _ : κ => β) :
    ((inOrder m).map fun entry => weight entry.1 entry.2).sum = sumEntries weight m := by
  have hlist : ∀ keys : List κ,
      ((keys.filterMap (entryAt m)).map fun entry => weight entry.1 entry.2).sum =
        (keys.map fun k => ((m.lookup k).map (weight k)).getD 0).sum := by
    intro keys
    induction keys with
    | nil => rfl
    | cons k keys ih =>
      rw [List.filterMap_cons, List.map_cons, List.sum_cons, ← ih]
      cases hlookup : m.lookup k with
      | none | some b => simp [entryAt, hlookup]
  rw [inOrder, hlist, sumEntries, ← Finset.sum_map_toList]
  exact ((Finset.sort_perm_toList _ _).map _).sum_eq

end InOrder

end BitInfinity.Foundation
