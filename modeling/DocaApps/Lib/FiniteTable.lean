import Mathlib

namespace DocaApps.Lib.FiniteTable

/-- A finite map with its keys in some order, to look up, change and walk over. -/
abbrev Table (κ ν : Type) := AList (fun _ : κ => ν)

variable {κ ν : Type} [DecidableEq κ] {t : Table κ ν} {k k' : κ} {v : ν} {ks : List κ}

theorem lookup_insert (t : Table κ ν) (k : κ) (v : ν) (k' : κ) :
    (t.insert k v).lookup k' = if k' = k then some v else t.lookup k' := by
  split
  · next h =>
    subst h
    exact AList.lookup_insert t
  · next h => exact AList.lookup_insert_ne h

theorem lookup_erase (t : Table κ ν) (k k' : κ) :
    (t.erase k).lookup k' = if k' = k then none else t.lookup k' := by
  split
  · next h =>
    subst h
    exact AList.lookup_erase k' t
  · next h => exact AList.lookup_erase_ne h

theorem mem_iff_lookup : k ∈ t ↔ ∃ v, t.lookup k = some v := by
  rw [← AList.lookup_isSome, Option.isSome_iff_exists]

theorem mem_of_lookup (h : t.lookup k = some v) : k ∈ t := mem_iff_lookup.mpr ⟨v, h⟩

theorem mem_insert : k' ∈ t.insert k v ↔ k' = k ∨ k' ∈ t := AList.mem_insert t

theorem mem_erase : k' ∈ t.erase k ↔ k' ≠ k ∧ k' ∈ t := AList.mem_erase

/-- A table has no more keys than a finite set that they come from. -/
theorem length_keys_le (t : Table κ ν) {S : Set κ} (hfin : S.Finite) (h : ∀ k ∈ t, k ∈ S) :
    t.keys.length ≤ S.ncard := by
  have hcard : t.keys.length = (t.keys.toFinset : Set κ).ncard := by
    rw [Set.ncard_coe_finset, List.toFinset_card_of_nodup t.keys_nodup]
  rw [hcard]
  apply Set.ncard_le_ncard _ hfin
  intro k hk
  exact h k (AList.mem_keys.mpr (by simpa using hk))

/-- Deleting the keys of a list one by one. -/
def eraseAll (t : Table κ ν) (ks : List κ) : Table κ ν :=
  ks.foldl (fun t k => t.erase k) t

theorem lookup_eraseAll (t : Table κ ν) (ks : List κ) (k : κ) :
    (eraseAll t ks).lookup k = if k ∈ ks then none else t.lookup k := by
  induction ks generalizing t with
  | nil => simp [eraseAll]
  | cons a ks ih =>
    have hstep : eraseAll t (a :: ks) = eraseAll (t.erase a) ks := rfl
    rw [hstep, ih, lookup_erase]
    by_cases hk : k ∈ ks
    · simp [hk]
    · by_cases ha : k = a <;> simp [hk, ha]

end DocaApps.Lib.FiniteTable
