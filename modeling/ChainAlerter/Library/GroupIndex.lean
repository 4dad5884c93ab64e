import Mathlib

/-!
# `ChainAlerter.Library.GroupIndex`: a map and its index by groups

A map stores values under keys, and a second map is to find the keys of all values of
a group. The two are kept by hand: a writer of the first one has to write the second.
`Groups group data index` says that they agree. The index lists a key under a group
exactly when the map has a value of that group under the key, and it has no empty
entries.

`Groups.insert` and `Groups.erase` are the two writers: one more value, and all values
of a group less. A value may only be replaced by one of its own group, since the
index does not lose the old entry.
-/

set_option autoImplicit false

namespace ChainAlerter.Library

variable {κ ι ν : Type} [DecidableEq κ] [DecidableEq ι]

/-- The index lists the key under the group `i`. -/
def ListsUnder (index : Finmap (fun _ : ι => Finset κ)) (i : ι) (k : κ) : Prop :=
  ∃ keys, index.lookup i = some keys ∧ k ∈ keys

/-- The index is that of the map, and has no empty entries. -/
structure Groups (group : ν → ι) (data : Finmap (fun _ : κ => ν))
    (index : Finmap (fun _ : ι => Finset κ)) : Prop where
  listsUnder_iff : ∀ i k, ListsUnder index i k ↔ ∃ v, data.lookup k = some v ∧ group v = i
  nonempty : ∀ i keys, index.lookup i = some keys → keys.Nonempty

variable {group : ν → ι} {data : Finmap (fun _ : κ => ν)}
  {index : Finmap (fun _ : ι => Finset κ)}

omit [DecidableEq κ] in
/-- The empty index lists no key. -/
@[simp] theorem listsUnder_empty (i : ι) (k : κ) :
    ¬ ListsUnder (∅ : Finmap (fun _ : ι => Finset κ)) i k := by
  intro h
  simp [ListsUnder] at h

/-- The empty index groups the empty map, where the construction of the two maps starts. -/
theorem groups_empty (group : ν → ι) :
    Groups group (∅ : Finmap (fun _ : κ => ν)) (∅ : Finmap (fun _ : ι => Finset κ)) := by
  constructor
  · intro i k
    simp
  · intro i keys h
    simp at h

/-- What an entry with one more key lists: the new key, and everything that was
listed before. -/
theorem listsUnder_insert (i j : ι) (k k' : κ) :
    ListsUnder (index.insert j (insert k' ((index.lookup j).getD ∅))) i k ↔
      (i = j ∧ k = k') ∨ ListsUnder index i k := by
  by_cases hi : i = j
  · subst hi
    cases hkeys : index.lookup i with
    | none => simp [ListsUnder, hkeys]
    | some keys => simp [ListsUnder, hkeys]
  · simp [ListsUnder, hi, Finmap.lookup_insert_of_ne]

omit [DecidableEq κ] in
/-- What an index without an entry lists: all the others, unchanged. -/
theorem listsUnder_erase (i j : ι) (k : κ) :
    ListsUnder (index.erase j) i k ↔ i ≠ j ∧ ListsUnder index i k := by
  by_cases hi : i = j
  · subst hi
    simp [ListsUnder]
  · simp [ListsUnder, hi, Finmap.lookup_erase_ne hi]

/-- One more value. If it replaces one, both are of one group, so the key has one
place in the index afterwards too. -/
theorem Groups.insert (h : Groups group data index) {k : κ} {v : ν}
    (hsame : ∀ v', data.lookup k = some v' → group v' = group v) :
    Groups group (data.insert k v)
      (index.insert (group v) (Insert.insert k ((index.lookup (group v)).getD ∅))) := by
  constructor
  · intro i other
    rw [listsUnder_insert, h.listsUnder_iff]
    by_cases hk : other = k
    · subst hk
      rw [Finmap.lookup_insert]
      constructor
      · rintro (⟨rfl, -⟩ | ⟨v', hv', rfl⟩)
        · exact ⟨v, rfl, rfl⟩
        · exact ⟨v, rfl, (hsame v' hv').symm⟩
      · rintro ⟨v', hv', rfl⟩
        cases hv'
        exact Or.inl ⟨rfl, rfl⟩
    · rw [Finmap.lookup_insert_of_ne _ hk]
      simp [hk]
  · intro i keys hkeys
    by_cases hi : i = group v
    · subst hi
      rw [Finmap.lookup_insert] at hkeys
      cases hkeys
      exact Finset.insert_nonempty _ _
    · rw [Finmap.lookup_insert_of_ne _ hi] at hkeys
      exact h.nonempty i keys hkeys

/-- Without the values of a group the index has no entry for it. Both maps lose the same
keys, so they still agree. -/
theorem Groups.erase (h : Groups group data index) {i : ι} {data' : Finmap (fun _ : κ => ν)}
    (hdata : ∀ k v, data'.lookup k = some v ↔ data.lookup k = some v ∧ group v ≠ i) :
    Groups group data' (index.erase i) := by
  constructor
  · intro j k
    rw [listsUnder_erase, h.listsUnder_iff]
    constructor
    · rintro ⟨hj, v, hv, rfl⟩
      exact ⟨v, (hdata k v).mpr ⟨hv, hj⟩, rfl⟩
    · rintro ⟨v, hv, rfl⟩
      exact ⟨((hdata k v).mp hv).2, v, ((hdata k v).mp hv).1, rfl⟩
  · intro j keys hkeys
    by_cases hj : j = i
    · subst hj
      simp at hkeys
    · rw [Finmap.lookup_erase_ne hj] at hkeys
      exact h.nonempty j keys hkeys

/-- The map and the index have the same keys. What is in only one of them would leak or
be missed when a group is erased. -/
theorem Groups.mem_iff (h : Groups group data index) (k : κ) :
    k ∈ data ↔ ∃ i, ListsUnder index i k := by
  rw [Finmap.mem_iff]
  constructor
  · rintro ⟨v, hv⟩
    exact ⟨group v, (h.listsUnder_iff _ k).mpr ⟨v, hv, rfl⟩⟩
  · rintro ⟨i, hi⟩
    obtain ⟨v, hv, -⟩ := (h.listsUnder_iff i k).mp hi
    exact ⟨v, hv⟩

/-- The groups of the index are those of the values, so no entry is empty or left behind. -/
theorem Groups.mem_index_iff (h : Groups group data index) (i : ι) :
    i ∈ index ↔ ∃ k v, data.lookup k = some v ∧ group v = i := by
  constructor
  · intro hi
    obtain ⟨keys, hkeys⟩ := Finmap.mem_iff.mp hi
    obtain ⟨k, hk⟩ := h.nonempty i keys hkeys
    exact ⟨k, (h.listsUnder_iff i k).mp ⟨keys, hkeys, hk⟩⟩
  · rintro ⟨k, hv⟩
    obtain ⟨keys, hkeys, -⟩ := (h.listsUnder_iff i k).mpr hv
    exact Finmap.mem_of_lookup_eq_some hkeys

end ChainAlerter.Library
