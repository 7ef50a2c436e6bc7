import Mathlib.Data.List.Range
import OpxNasLinux.Lib.Dict

/-!
# Numbers handed out from a range

A table gives every new key the lowest number of a range that no other key
has.  A key that is deleted gives its number back.  `Allocated` says that the
numbers of the table are in the range and belong to one key each, and it is
kept by an allocation (`Allocated.insert`) and by a deletion
(`Allocated.erase`).
-/

namespace OpxNasLinux.Alloc

/-- The lowest number from `lo` on and below `hi` that is not in use. -/
def firstFree (lo hi : ℕ) (used : List ℕ) : Option ℕ :=
  (List.range' lo (hi - lo)).find? fun v => decide (v ∉ used)

/-- The number found is in the range and free. -/
theorem firstFree_some {lo hi v : ℕ} {used : List ℕ} (h : firstFree lo hi used = some v) :
    lo ≤ v ∧ v < hi ∧ v ∉ used := by
  rw [firstFree] at h
  have hmem := List.mem_of_find?_eq_some h
  have hfree := List.find?_some h
  rw [List.mem_range'_1] at hmem
  obtain ⟨hlo, hhi⟩ := hmem
  exact ⟨hlo, by omega, of_decide_eq_true hfree⟩

variable {K : Type} [DecidableEq K]

/-- The numbers of a table are in the range, and no two keys share one. -/
structure Allocated (lo hi : ℕ) (d : Dict K ℕ) : Prop where
  range : ∀ k v, d.lookup k = some v → lo ≤ v ∧ v < hi
  inj : ∀ k k' v, d.lookup k = some v → d.lookup k' = some v → k = k'

theorem allocated_empty (lo hi : ℕ) : Allocated lo hi (∅ : Dict K ℕ) := by
  refine ⟨fun k v h => ?_, fun k k' v h => ?_⟩ <;>
    · rw [AList.lookup_empty] at h
      cases h

/-- A key gets the first free number. -/
theorem Allocated.insert {lo hi v : ℕ} {d : Dict K ℕ} (hd : Allocated lo hi d) (k : K)
    (h : firstFree lo hi d.values = some v) : Allocated lo hi (d.insert k v) := by
  obtain ⟨hlo, hhi, hfree⟩ := firstFree_some h
  have hother : ∀ k', d.lookup k' ≠ some v := fun k' hk' =>
    hfree (Dict.mem_values_iff.mpr ⟨k', hk'⟩)
  refine ⟨?_, ?_⟩
  · intro k' v' hk'
    rcases Dict.lookup_insert_iff.mp hk' with ⟨-, rfl⟩ | ⟨-, hold⟩
    · exact ⟨hlo, hhi⟩
    · exact hd.range k' v' hold
  · intro k1 k2 v' h1 h2
    rcases Dict.lookup_insert_iff.mp h1 with ⟨rfl, rfl⟩ | ⟨-, hold1⟩ <;>
      rcases Dict.lookup_insert_iff.mp h2 with ⟨rfl, hv⟩ | ⟨-, hold2⟩
    · rfl
    · exact absurd hold2 (hother k2)
    · rw [← hv] at hold1
      exact absurd hold1 (hother k1)
    · exact hd.inj k1 k2 v' hold1 hold2

/-- A key gives its number back. -/
theorem Allocated.erase {lo hi : ℕ} {d : Dict K ℕ} (hd : Allocated lo hi d) (k : K) :
    Allocated lo hi (d.erase k) := by
  refine ⟨?_, ?_⟩
  · intro k' v hk'
    exact hd.range k' v (Dict.lookup_erase_iff.mp hk').2
  · intro k1 k2 v h1 h2
    exact hd.inj k1 k2 v (Dict.lookup_erase_iff.mp h1).2 (Dict.lookup_erase_iff.mp h2).2

end OpxNasLinux.Alloc
