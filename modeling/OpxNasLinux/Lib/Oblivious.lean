import Mathlib.Data.Nat.Notation
import Mathlib.Tactic.TypeStar

/-!
# Steps with a hidden input

A step of a program may depend on something that is not among its inputs: what
the memory held before, a clock, a generator.  Such a step takes a hidden input
as well; it stops the program, or it gives the next state and what there is to
see.

* `trace` is what a run shows.
* `Free` says that the hidden input does not matter to a step, and `AlongAny`
  that a condition holds at every step, whatever the hidden inputs are.

`trace_eq_iff` is the induction: runs with different hidden inputs show the same
exactly when no step depends on its hidden input.
-/

namespace OpxNasLinux.Oblivious

variable {φ σ ι ε ω : Type*}

/-- What a run shows: the states and the sights of its steps, up to the step
that stops it. -/
def trace (step : φ → σ → ι → Except ε (σ × ω)) :
    (ℕ → φ) → σ → List ι → List (Except ε (σ × ω))
  | _, _, [] => []
  | hidden, s, i :: rest =>
    match step (hidden 0) s i with
    | .error e => [.error e]
    | .ok (s', seen) => .ok (s', seen) :: trace step (fun n => hidden (n + 1)) s' rest

/-- The step does not depend on its hidden input. -/
def Free (step : φ → σ → ι → Except ε (σ × ω)) (s : σ) (i : ι) : Prop :=
  ∀ a b, step a s i = step b s i

/-- Every step of the run meets `ok`, whatever the hidden inputs of the steps
before were. -/
def AlongAny (step : φ → σ → ι → Except ε (σ × ω)) (ok : σ → ι → Prop) : σ → List ι → Prop
  | _, [] => True
  | s, i :: rest =>
    ok s i ∧ ∀ a s' seen, step a s i = .ok (s', seen) → AlongAny step ok s' rest

/-- The first sight is that of the first step. -/
theorem trace_head (step : φ → σ → ι → Except ε (σ × ω)) (hidden : ℕ → φ) (s : σ) (i : ι)
    (rest : List ι) : (trace step hidden s (i :: rest)).head? = some (step (hidden 0) s i) := by
  rw [trace]
  cases step (hidden 0) s i with
  | error e => rfl
  | ok r => rfl

theorem trace_ok {step : φ → σ → ι → Except ε (σ × ω)} {hidden : ℕ → φ} {s s' : σ} {i : ι}
    {seen : ω} (h : step (hidden 0) s i = .ok (s', seen)) (rest : List ι) :
    trace step hidden s (i :: rest) =
      .ok (s', seen) :: trace step (fun n => hidden (n + 1)) s' rest := by
  rw [trace, h]

/-- Runs show the same whatever their hidden inputs are exactly when every step
meets the condition under which its hidden input does not matter. -/
theorem trace_eq_iff {step : φ → σ → ι → Except ε (σ × ω)} {ok : σ → ι → Prop}
    (hfree : ∀ s i, Free step s i ↔ ok s i) (s : σ) (inputs : List ι) :
    (∀ hidden hidden', trace step hidden s inputs = trace step hidden' s inputs) ↔
      AlongAny step ok s inputs := by
  induction inputs generalizing s with
  | nil => exact iff_of_true (fun _ _ => rfl) trivial
  | cons i rest ih =>
    constructor
    · intro h
      have hone : Free step s i := by
        intro a b
        have hab := congrArg List.head? (h (fun _ => a) fun _ => b)
        rw [trace_head, trace_head] at hab
        exact Option.some.inj hab
      refine ⟨(hfree s i).mp hone, fun a s' seen ha => (ih s').mp fun hidden hidden' => ?_⟩
      -- the same hidden input for the first step, and any for the others
      let first (hidden : ℕ → φ) (n : ℕ) : φ := Nat.casesOn n a hidden
      have hab := h (first hidden) (first hidden')
      have hstep : ∀ hidden, step (first hidden 0) s i = .ok (s', seen) := fun _ => ha
      rw [trace_ok (hstep hidden), trace_ok (hstep hidden')] at hab
      exact (List.cons.inj hab).2
    · rintro ⟨hok, hrest⟩ hidden hidden'
      rw [trace, trace, (hfree s i).mpr hok (hidden 0) (hidden' 0)]
      cases hstep : step (hidden' 0) s i with
      | error e => rfl
      | ok r =>
        obtain ⟨s', seen⟩ := r
        exact congrArg (List.cons _) ((ih s').mpr (hrest _ s' seen hstep) _ _)

end OpxNasLinux.Oblivious
