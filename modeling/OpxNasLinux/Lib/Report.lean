import Mathlib.Data.List.Basic
import Mathlib.Tactic.TypeStar

/-!
# Reports of success

A piece of code attempts one step after the other and says in the end whether
all went well.  A step may fail.

* `AllOk` says that every step that was attempted has succeeded.
* A report is `Exact` when it is `true` in this case only and in every such
  case, and `Honest` when it is never `true` for a step that has failed.

Reports that are and-ed are exact when their parts are.  `honest_last_iff` is
what is left when the report of a later part is taken for the report of all.
-/

namespace OpxNasLinux.Report

variable {ι : Type*}

/-- An attempted step. -/
structure Step (ι : Type*) where
  act : ι
  ok : Bool
deriving DecidableEq

/-- Every attempted step has succeeded. -/
def AllOk (steps : List (Step ι)) : Prop := ∀ s ∈ steps, s.ok = true

instance (steps : List (Step ι)) : Decidable (AllOk steps) :=
  inferInstanceAs (Decidable (∀ s ∈ steps, _))

/-- The report says `true` when every step has succeeded, and only then. -/
def Exact (ret : Bool) (steps : List (Step ι)) : Prop := ret = true ↔ AllOk steps

/-- The report says `true` only when every step has succeeded. -/
def Honest (ret : Bool) (steps : List (Step ι)) : Prop := ret = true → AllOk steps

theorem allOk_append {s t : List (Step ι)} : AllOk (s ++ t) ↔ AllOk s ∧ AllOk t :=
  List.forall_mem_append

theorem allOk_nil : AllOk ([] : List (Step ι)) := List.forall_mem_nil _

theorem exact_nil : Exact true ([] : List (Step ι)) := iff_of_true rfl allOk_nil

theorem exact_single (act : ι) (ok : Bool) : Exact ok [⟨act, ok⟩] := by
  rw [Exact, AllOk, List.forall_mem_singleton]

/-- Exact reports that are and-ed. -/
theorem Exact.and {a b : Bool} {s t : List (Step ι)} (ha : Exact a s) (hb : Exact b t) :
    Exact (a && b) (s ++ t) := by
  rw [Exact, Bool.and_eq_true, allOk_append]
  exact and_congr ha hb

/-- The report of the last part is taken for that of all: it is honest when the
steps before have succeeded, or a step of the last part has failed. -/
theorem honest_last_iff {b : Bool} {s t : List (Step ι)} (hb : Exact b t) :
    Honest b (s ++ t) ↔ AllOk s ∨ ¬ AllOk t := by
  rw [Honest, show b = true ↔ AllOk t from hb, allOk_append]
  constructor
  · intro h
    by_cases ht : AllOk t
    · exact Or.inl (h ht).1
    · exact Or.inr ht
  · rintro (hs | hnot) ht
    · exact ⟨hs, ht⟩
    · exact absurd ht hnot

end OpxNasLinux.Report
