import Mathlib.Data.Nat.Notation
import Mathlib.Tactic.TypeStar

/-!
# A `for` loop with a test and an update

`for (; ok; next) body` over one loop variable.  `Tests` are the values of the
variable for which the test is made, in the order of the loop.

* `Stops` says that a test fails in the end, and `stops_of_measure` proves it
  from a measure that every turn lowers.
* `Tests.invariant` is the invariant rule.
-/

namespace OpxNasLinux.Loop

variable {σ : Type*}

/-- The loop that starts with `s` makes its test for this value of the loop
variable. -/
inductive Tests (ok : σ → Bool) (next : σ → σ) (s : σ) : σ → Prop where
  | start : Tests ok next s s
  | again {t : σ} : Tests ok next s t → ok t = true → Tests ok next s (next t)

/-- The loop ends. -/
def Stops (ok : σ → Bool) (next : σ → σ) (s : σ) : Prop :=
  ∃ t, Tests ok next s t ∧ ok t = false

variable {ok : σ → Bool} {next : σ → σ} {s : σ}

/-- What holds at the start and what a turn of the loop keeps holds at every
test. -/
theorem Tests.invariant {inv : σ → Prop} (hs : inv s)
    (hstep : ∀ t, inv t → ok t = true → inv (next t)) {t : σ} (ht : Tests ok next s t) :
    inv t := by
  induction ht with
  | start => exact hs
  | again _ hok ih => exact hstep _ ih hok

/-- A loop stops when every turn keeps the invariant and lowers the measure. -/
theorem stops_of_measure {inv : σ → Prop} (size : σ → ℕ) (hs : inv s)
    (hstep : ∀ t, inv t → ok t = true → inv (next t) ∧ size (next t) < size t) :
    Stops ok next s := by
  -- the induction is on the measure of the value reached so far
  have hfrom : ∀ n t, size t = n → inv t → Tests ok next s t → Stops ok next s := by
    intro n
    induction n using Nat.strongRecOn with
    | ind n ih =>
      intro t hn hinv ht
      cases hok : ok t with
      | false => exact ⟨t, ht, hok⟩
      | true =>
        obtain ⟨hinv', hlt⟩ := hstep t hinv hok
        exact ih (size (next t)) (hn ▸ hlt) (next t) rfl hinv' (ht.again hok)
  exact hfrom (size s) s rfl hs Tests.start

end OpxNasLinux.Loop
