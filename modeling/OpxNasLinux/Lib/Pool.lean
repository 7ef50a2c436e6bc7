import Mathlib.Order.Bounds.Basic

/-!
# The lowest free element of a range, and the greatest used one

A pool hands out the elements of a range.  What it has handed out is a set of
used elements.  `LowestFree` says which element it gives next, and `Greatest`
says which used element is the greatest; both are about an `Option`, since
there may be none.

The rules say how the two change when one element is used or given back.
They hold over every linear order.
-/

namespace OpxNasLinux.Pool

variable {α : Type*} [LinearOrder α]

/-- `next` is the lowest element of the range that is not used, if there is
one. -/
def LowestFree (range used : Set α) : Option α → Prop
  | none => range ⊆ used
  | some a => IsLeast (range \ used) a

/-- `top` is the greatest used element, if there is one. -/
def Greatest (used : Set α) : Option α → Prop
  | none => used = ∅
  | some m => IsGreatest used m

/-- No element is left exactly when all are used. -/
theorem LowestFree.none_iff {range used : Set α} {next : Option α}
    (h : LowestFree range used next) : next = none ↔ range ⊆ used := by
  cases next with
  | none => exact ⟨fun _ => h, fun _ => rfl⟩
  | some a =>
    constructor
    · intro hnone
      cases hnone
    · intro hfull
      exact absurd (hfull h.1.1) h.1.2

variable {range used : Set α} {a b i : α}

/-- The lowest free element is taken, and everything between it and `b` is
used. -/
theorem LowestFree.take (h : LowestFree range used (some a)) (hb : b ∈ range) (hab : a < b)
    (hfree : b ∉ used) (hpassed : ∀ i, a < i → i < b → i ∈ used) :
    LowestFree range (insert a used) (some b) := by
  refine ⟨⟨hb, ?_⟩, ?_⟩
  · rintro (rfl | hmem)
    · exact lt_irrefl _ hab
    · exact hfree hmem
  · rintro i ⟨hi, hnot⟩
    rw [Set.mem_insert_iff, not_or] at hnot
    obtain ⟨hne, hnot⟩ := hnot
    have hai : a < i := lt_of_le_of_ne (h.2 ⟨hi, hnot⟩) (Ne.symm hne)
    by_contra hlt
    exact hnot (hpassed i hai (not_le.mp hlt))

/-- The lowest free element is taken, and everything above it is used. -/
theorem LowestFree.takeLast (h : LowestFree range used (some a))
    (hpassed : ∀ i ∈ range, a < i → i ∈ used) : LowestFree range (insert a used) none := by
  intro i hi
  by_contra hnot
  rw [Set.mem_insert_iff, not_or] at hnot
  obtain ⟨hne, hnot⟩ := hnot
  have hai : a < i := lt_of_le_of_ne (h.2 ⟨hi, hnot⟩) (Ne.symm hne)
  exact hnot (hpassed i hi hai)

/-- Another element than the lowest free one is used. -/
theorem LowestFree.use {next : Option α} (h : LowestFree range used next) (hne : next ≠ some i) :
    LowestFree range (insert i used) next := by
  cases next with
  | none => exact fun j hj => Set.mem_insert_of_mem i (h hj)
  | some a =>
    refine ⟨⟨h.1.1, ?_⟩, ?_⟩
    · rintro (rfl | hmem)
      · exact hne rfl
      · exact h.1.2 hmem
    · rintro j ⟨hj, hnot⟩
      exact h.2 ⟨hj, fun hmem => hnot (Set.mem_insert_of_mem i hmem)⟩

/-- An element of the range is given back while another one is free. -/
theorem LowestFree.giveBack (h : LowestFree range used (some a)) (hi : i ∈ range) :
    LowestFree range (used \ {i}) (some (if i < a then i else a)) := by
  have hfree : ∀ j, j ∈ range \ (used \ {i}) → j = i ∨ a ≤ j := by
    rintro j ⟨hj, hnot⟩
    by_cases hji : j = i
    · exact Or.inl hji
    · exact Or.inr (h.2 ⟨hj, fun hmem => hnot ⟨hmem, hji⟩⟩)
  split_ifs with hlt
  · refine ⟨⟨hi, fun hmem => hmem.2 rfl⟩, ?_⟩
    intro j hj
    rcases hfree j hj with rfl | haj
    · exact le_rfl
    · exact hlt.le.trans haj
  · refine ⟨⟨h.1.1, fun hmem => h.1.2 hmem.1⟩, ?_⟩
    intro j hj
    rcases hfree j hj with rfl | haj
    · exact not_lt.mp hlt
    · exact haj

/-- An element is used. -/
theorem Greatest.use {top : Option α} (h : Greatest used top) (i : α) :
    Greatest (insert i used) (if top.all (fun m => decide (m < i)) then some i else top) := by
  cases top with
  | none =>
    rw [Greatest] at h
    subst h
    show Greatest (insert i ∅) (some i)
    refine ⟨Set.mem_insert i ∅, ?_⟩
    rintro j (rfl | hj)
    · exact le_rfl
    · exact absurd hj (Set.notMem_empty j)
  | some m =>
    simp only [Option.all_some, decide_eq_true_eq]
    split_ifs with hlt
    · refine ⟨Set.mem_insert i used, ?_⟩
      rintro j (rfl | hj)
      · exact le_rfl
      · exact (h.2 hj).trans hlt.le
    · refine ⟨Set.mem_insert_of_mem i h.1, ?_⟩
      rintro j (rfl | hj)
      · exact not_lt.mp hlt
      · exact h.2 hj

/-- Another element than the greatest is given back. -/
theorem Greatest.giveBack {top : Option α} (h : Greatest used top) (hne : top ≠ some i) :
    Greatest (used \ {i}) top := by
  cases top with
  | none =>
    rw [Greatest] at h ⊢
    rw [h, Set.empty_sdiff]
  | some m =>
    refine ⟨⟨h.1, ?_⟩, fun j hj => h.2 hj.1⟩
    rintro rfl
    exact hne rfl

end OpxNasLinux.Pool
