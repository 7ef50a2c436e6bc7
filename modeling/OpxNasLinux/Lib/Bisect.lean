import Mathlib.Data.List.InsertIdx
import Mathlib.Order.Lattice

/-!
# Insertion points of a sorted list

`bisectRight` is the binary search of Python's `bisect.bisect_right`.  On a
sorted list it returns the one index that splits the list into the entries at
or below the key and the entries above it (`IsRightPoint`).

Two facts about that index are used elsewhere.

* An insert there keeps the list sorted (`sorted_insertIdx`).
* An entry that is taken out and put back returns to its own index exactly
  when no later entry has its key (`bisectRight_eraseIdx_iff`).  This is what
  decides whether an undo by a second insert restores the list.
-/

namespace OpxNasLinux.Bisect

variable {K : Type*} [LinearOrder K]

/-- The loop of `bisect_right`: the search interval is `lo` to `hi`. -/
def bisectGo (a : List K) (x : K) : ℕ → ℕ → ℕ → ℕ
  | 0, lo, _ => lo
  | fuel + 1, lo, hi =>
    if lo < hi then
      match a[(lo + hi) / 2]? with
      | some y =>
        if x < y then bisectGo a x fuel lo ((lo + hi) / 2)
        else bisectGo a x fuel ((lo + hi) / 2 + 1) hi
      | none => lo
    else lo

/-- `bisect.bisect_right(a, x)`.  The interval at least halves, so the length
of the list is fuel enough. -/
def bisectRight (a : List K) (x : K) : ℕ :=
  bisectGo a x a.length 0 a.length

/-- `i` splits `a` into the entries at or below `x` and the entries above. -/
structure IsRightPoint (a : List K) (x : K) (i : ℕ) : Prop where
  le_length : i ≤ a.length
  below : ∀ j y, j < i → a[j]? = some y → y ≤ x
  above : ∀ j y, i ≤ j → a[j]? = some y → x < y

/-- There is one right point only. -/
theorem IsRightPoint.unique {a : List K} {x : K} {i j : ℕ}
    (hi : IsRightPoint a x i) (hj : IsRightPoint a x j) : i = j := by
  rcases Nat.lt_trichotomy i j with h | h | h
  · have hlt : i < a.length := Nat.lt_of_lt_of_le h hj.le_length
    have hget := List.getElem?_eq_getElem hlt
    exact absurd (hj.below i _ h hget) (not_le_of_gt (hi.above i _ le_rfl hget))
  · exact h
  · have hlt : j < a.length := Nat.lt_of_lt_of_le h hi.le_length
    have hget := List.getElem?_eq_getElem hlt
    exact absurd (hi.below j _ h hget) (not_le_of_gt (hj.above j _ le_rfl hget))

/-- Entries of a sorted list, read by index, are in order. -/
theorem sorted_getElem? {a : List K} (hs : a.Pairwise (· ≤ ·)) {i j : ℕ}
    (hij : i ≤ j) {x y : K} (hx : a[i]? = some x) (hy : a[j]? = some y) :
    x ≤ y := by
  obtain ⟨hi, rfl⟩ := List.getElem?_eq_some_iff.mp hx
  obtain ⟨hj, rfl⟩ := List.getElem?_eq_some_iff.mp hy
  rcases Nat.eq_or_lt_of_le hij with rfl | hlt
  · exact le_rfl
  · exact List.pairwise_iff_getElem.mp hs i j hi hj hlt

/-- The loop returns the right point, as soon as its interval holds it and the
fuel covers the interval. -/
theorem bisectGo_isRightPoint {a : List K} (hs : a.Pairwise (· ≤ ·)) (x : K) :
    ∀ (fuel lo hi : ℕ), hi ≤ lo + fuel → lo ≤ hi → hi ≤ a.length →
      (∀ j y, j < lo → a[j]? = some y → y ≤ x) →
      (∀ j y, hi ≤ j → a[j]? = some y → x < y) →
      IsRightPoint a x (bisectGo a x fuel lo hi) := by
  intro fuel
  induction fuel with
  | zero =>
    intro lo hi hfuel hle hlen hlow hhigh
    have : lo = hi := by omega
    subst this
    exact ⟨hlen, hlow, hhigh⟩
  | succ fuel ih =>
    intro lo hi hfuel hle hlen hlow hhigh
    rw [bisectGo]
    split
    · rename_i hlt
      have hmid : (lo + hi) / 2 < a.length := by omega
      have hget := List.getElem?_eq_getElem hmid
      rw [hget]
      dsimp only
      split
      · rename_i hxy
        refine ih lo _ (by omega) (by omega) (by omega) hlow ?_
        intro j y hj hy
        exact lt_of_lt_of_le hxy (sorted_getElem? hs hj hget hy)
      · rename_i hxy
        refine ih _ hi (by omega) (by omega) hlen ?_ hhigh
        intro j y hj hy
        exact (sorted_getElem? hs (Nat.lt_succ_iff.mp hj) hy hget).trans
          (not_lt.mp hxy)
    · have : lo = hi := by omega
      subst this
      exact ⟨hlen, hlow, hhigh⟩

/-- On a sorted list `bisectRight` is the right point. -/
theorem bisectRight_isRightPoint {a : List K} (hs : a.Pairwise (· ≤ ·))
    (x : K) : IsRightPoint a x (bisectRight a x) :=
  bisectGo_isRightPoint hs x a.length 0 a.length (by omega) (Nat.zero_le _)
    le_rfl (fun _ _ hj => absurd hj (Nat.not_lt_zero _))
    (fun j y hj hy => by
      rw [List.getElem?_eq_none hj] at hy
      cases hy)

/-- An insert cuts the list in two at its index. -/
theorem insertIdx_eq_take_append_drop {α : Type*} (a : List α) (x : α) :
    ∀ i, i ≤ a.length → a.insertIdx i x = a.take i ++ x :: a.drop i := by
  induction a with
  | nil =>
    intro i hi
    obtain rfl : i = 0 := Nat.le_zero.mp hi
    rfl
  | cons y a ih =>
    intro i hi
    cases i with
    | zero => rfl
    | succ i =>
      rw [List.insertIdx_succ_cons, ih i (Nat.le_of_succ_le_succ hi)]
      rfl

/-- An insert at the right point keeps the list sorted. -/
theorem sorted_insertIdx {a : List K} (hs : a.Pairwise (· ≤ ·)) {x : K} {i : ℕ}
    (hi : IsRightPoint a x i) : (a.insertIdx i x).Pairwise (· ≤ ·) := by
  have hlow : ∀ y ∈ a.take i, y ≤ x := by
    intro y hy
    obtain ⟨j, hj⟩ := List.mem_iff_getElem?.mp hy
    rw [List.getElem?_take] at hj
    split at hj
    · rename_i hji
      exact hi.below j y hji hj
    · cases hj
  have hhigh : ∀ y ∈ a.drop i, x ≤ y := by
    intro y hy
    obtain ⟨j, hj⟩ := List.mem_iff_getElem?.mp hy
    rw [List.getElem?_drop] at hj
    exact (hi.above (i + j) y (Nat.le_add_right _ _) hj).le
  rw [← List.take_append_drop i a, List.pairwise_append] at hs
  rw [insertIdx_eq_take_append_drop a x i hi.le_length, List.pairwise_append,
    List.pairwise_cons]
  refine ⟨hs.1, ⟨hhigh, hs.2.1⟩, ?_⟩
  intro y hy z hz
  rcases List.mem_cons.mp hz with rfl | hz
  · exact hlow y hy
  · exact (hlow y hy).trans (hhigh z hz)

/-- An entry taken out of a sorted list and put back at its insertion point
returns to its index exactly when no later entry has the same key. -/
theorem bisectRight_eraseIdx_iff {a : List K} (hs : a.Pairwise (· ≤ ·)) {i : ℕ}
    {x : K} (hx : a[i]? = some x) :
    bisectRight (a.eraseIdx i) x = i ↔ ∀ j, i < j → a[j]? ≠ some x := by
  have hpoint := bisectRight_isRightPoint (hs.sublist (List.eraseIdx_sublist a i)) x
  have hi : i < a.length := (List.getElem?_eq_some_iff.mp hx).1
  constructor
  · intro heq j hj hjx
    rw [heq] at hpoint
    have hget : (a.eraseIdx i)[j - 1]? = some x := by
      rw [List.getElem?_eraseIdx_of_ge (by omega), show j - 1 + 1 = j by omega, hjx]
    exact absurd (hpoint.above (j - 1) x (by omega) hget) (lt_irrefl x)
  · intro hties
    refine hpoint.unique ⟨?_, ?_, ?_⟩
    · rw [List.length_eraseIdx_of_lt hi]
      omega
    · intro j y hj hy
      rw [List.getElem?_eraseIdx_of_lt hj] at hy
      exact sorted_getElem? hs hj.le hy hx
    · intro j y hj hy
      rw [List.getElem?_eraseIdx_of_ge hj] at hy
      have hle : x ≤ y := sorted_getElem? hs (by omega) hx hy
      refine lt_of_le_of_ne hle ?_
      rintro rfl
      exact hties (j + 1) (by omega) hy

end OpxNasLinux.Bisect
