import Mathlib.Data.List.Basic

/-!
# Following a set by its changes

A publisher that replaces a set by another one announces what was deleted and
what was created.  A follower that starts with the empty set and applies the
announcements has the new set: `mem_follow_diff`.
-/

namespace OpxNasLinux.Follow

variable {ι : Type} [DecidableEq ι]

/-- An announcement. -/
inductive Change (ι : Type) where
  | created (x : ι)
  | deleted (x : ι)

/-- The set of a follower after an announcement. -/
def apply (s : List ι) : Change ι → List ι
  | .created x => x :: s
  | .deleted x => s.filter fun y => decide (y ≠ x)

theorem mem_foldl_deleted {α : Type} (f : α → ι) {xs : List α} {s : List ι} {i : ι} :
    i ∈ (xs.map fun x => Change.deleted (f x)).foldl apply s ↔ i ∈ s ∧ i ∉ xs.map f := by
  induction xs generalizing s with
  | nil => simp
  | cons x xs ih =>
    rw [List.map_cons, List.foldl_cons, ih, apply, List.mem_filter, decide_eq_true_iff,
      List.map_cons, List.mem_cons, not_or, and_assoc]

theorem mem_foldl_created {α : Type} (f : α → ι) {xs : List α} {s : List ι} {i : ι} :
    i ∈ (xs.map fun x => Change.created (f x)).foldl apply s ↔ i ∈ s ∨ i ∈ xs.map f := by
  induction xs generalizing s with
  | nil => simp
  | cons x xs ih =>
    rw [List.map_cons, List.foldl_cons, ih, apply, List.mem_cons, List.map_cons, List.mem_cons,
      or_left_comm, or_assoc]

/-- A follower that has the old set has the new one when it applies the
difference. -/
theorem mem_follow_diff {α : Type} (f : α → ι) {old new del add : List α} {s : List ι}
    (hs : ∀ i, i ∈ s ↔ i ∈ old.map f)
    (hdel : ∀ x, x ∈ del ↔ x ∈ old ∧ f x ∉ new.map f)
    (hadd : ∀ x, x ∈ add ↔ x ∈ new ∧ f x ∉ old.map f) (i : ι) :
    i ∈ (add.map fun x => Change.created (f x)).foldl apply
        ((del.map fun x => Change.deleted (f x)).foldl apply s) ↔ i ∈ new.map f := by
  rw [mem_foldl_created, mem_foldl_deleted, hs]
  constructor
  · rintro (⟨hold, hkept⟩ | hcreated)
    · by_contra hgone
      obtain ⟨x, hx, rfl⟩ := List.mem_map.mp hold
      exact hkept (List.mem_map.mpr ⟨x, (hdel x).mpr ⟨hx, hgone⟩, rfl⟩)
    · obtain ⟨x, hx, rfl⟩ := List.mem_map.mp hcreated
      exact List.mem_map.mpr ⟨x, ((hadd x).mp hx).1, rfl⟩
  · intro hnew
    by_cases hold : i ∈ old.map f
    · refine Or.inl ⟨hold, fun hdeleted => ?_⟩
      obtain ⟨x, hx, rfl⟩ := List.mem_map.mp hdeleted
      exact ((hdel x).mp hx).2 hnew
    · obtain ⟨x, hx, rfl⟩ := List.mem_map.mp hnew
      exact Or.inr (List.mem_map.mpr ⟨x, (hadd x).mpr ⟨hx, hold⟩, rfl⟩)

end OpxNasLinux.Follow
