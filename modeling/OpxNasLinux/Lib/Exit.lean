import Mathlib.Tactic.TypeStar

/-!
# Loops that can be left

A loop over a list whose turns go on or leave it, as a fold in `Except`.

`foldlM_history` is the invariant rule for a loop that runs to its end: the
invariant speaks of the turns that were made.
-/

namespace OpxNasLinux.Exit

variable {σ ι ε : Type*}

/-- What holds at the start and what a turn that goes on keeps holds at the
end. -/
theorem foldlM_history {step : σ → ι → Except ε σ} {inv : σ → List ι → Prop}
    {turns : List ι} {s s' : σ} {seen : List ι}
    (hstep : ∀ s seen i s', i ∈ turns → inv s seen → step s i = .ok s' → inv s' (seen ++ [i]))
    (hs : inv s seen) (hrun : turns.foldlM step s = .ok s') : inv s' (seen ++ turns) := by
  induction turns generalizing s seen with
  | nil =>
    obtain rfl := Except.ok.inj hrun
    rwa [List.append_nil]
  | cons i turns ih =>
    rw [List.foldlM_cons] at hrun
    cases hi : step s i with
    | error e =>
      rw [hi] at hrun
      cases hrun
    | ok t =>
      rw [hi] at hrun
      have ht := hstep s seen i t List.mem_cons_self hs hi
      have hrest := ih (fun s seen j s' hj => hstep s seen j s' (List.mem_cons_of_mem _ hj)) ht hrun
      rwa [List.append_assoc] at hrest

end OpxNasLinux.Exit
