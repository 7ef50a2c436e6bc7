import Mathlib.Tactic.TypeStar

/-!
# Runs of a step function

A daemon is modelled as a step function: a state and a request give the next
state.  This file has the two notions every result about "any sequence of
requests" is stated with.

* `run` is the state after a list of requests.
* `Along` says that a condition on the state and the request holds at every
  step of a run.

`run_preserves` is the induction every such result uses: what one step keeps,
a run keeps.  Where a step keeps something under a condition and only then,
`prefixes_iff` and `along_iff` say the same of a run.  `run_since` is for what
some requests bring about and others end, `turns_drain` for work that every
turn makes less of.  `exists_run` is for a step function whose steps are runs of
another one.  Nothing here mentions a particular daemon.
-/

namespace OpxNasLinux.Run

variable {σ ι : Type*}

/-- The state after the requests of the list, made in order from `s`. -/
def run (step : σ → ι → σ) (s : σ) (requests : List ι) : σ :=
  requests.foldl step s

/-- Every request of the run meets `ok` in the state it is made in. -/
def Along (step : σ → ι → σ) (ok : σ → ι → Prop) : σ → List ι → Prop
  | _, [] => True
  | s, i :: rest => ok s i ∧ Along step ok (step s i) rest

@[simp] theorem run_nil (step : σ → ι → σ) (s : σ) : run step s [] = s := rfl

@[simp] theorem run_cons (step : σ → ι → σ) (s : σ) (i : ι) (rest : List ι) :
    run step s (i :: rest) = run step (step s i) rest := rfl

/-- What every step that meets `ok` keeps, a run whose steps all meet `ok`
keeps. -/
theorem run_preserves {step : σ → ι → σ} {ok : σ → ι → Prop}
    {inv : σ → Prop} (hstep : ∀ s i, inv s → ok s i → inv (step s i))
    {s : σ} {requests : List ι} (hs : inv s)
    (hok : Along step ok s requests) : inv (run step s requests) := by
  induction requests generalizing s with
  | nil => exact hs
  | cons i rest ih => exact ih (hstep s i hs hok.1) hok.2

/-- A condition on the requests alone. -/
theorem along_of_forall {step : σ → ι → σ} {ok : ι → Prop} (s : σ) {requests : List ι}
    (h : ∀ i ∈ requests, ok i) : Along step (fun _ i => ok i) s requests := by
  induction requests generalizing s with
  | nil => trivial
  | cons i rest ih =>
    exact ⟨h i List.mem_cons_self, ih (step s i) fun j hj => h j (List.mem_cons_of_mem _ hj)⟩

/-- What every step keeps, a run keeps. -/
theorem run_invariant {step : σ → ι → σ} {inv : σ → Prop}
    (hstep : ∀ s i, inv s → inv (step s i)) {s : σ} (requests : List ι)
    (hs : inv s) : inv (run step s requests) := by
  induction requests generalizing s with
  | nil => exact hs
  | cons i rest ih => exact ih (hstep s i hs)

/-- Every step is good exactly when every step meets `ok`. -/
theorem along_iff {step : σ → ι → σ} {good ok : σ → ι → Prop} {inv : σ → Prop}
    (hstep : ∀ s i, inv s → (good s i ↔ ok s i))
    (hkeep : ∀ s i, inv s → ok s i → inv (step s i)) {s : σ} {requests : List ι} (hs : inv s) :
    Along step good s requests ↔ Along step ok s requests := by
  induction requests generalizing s with
  | nil => exact Iff.rfl
  | cons i rest ih =>
    constructor
    · rintro ⟨hgood, hrest⟩
      have hok : ok s i := (hstep s i hs).mp hgood
      exact ⟨hok, (ih (hkeep s i hs hok)).mp hrest⟩
    · rintro ⟨hok, hrest⟩
      exact ⟨(hstep s i hs).mpr hok, (ih (hkeep s i hs hok)).mpr hrest⟩

/-- Every state that a run reaches is good exactly when every step meets
`ok`. -/
theorem prefixes_iff {step : σ → ι → σ} {ok : σ → ι → Prop} {good inv : σ → Prop}
    (hgood : ∀ s, inv s → good s) (hstep : ∀ s i, inv s → good (step s i) → ok s i)
    (hkeep : ∀ s i, inv s → ok s i → inv (step s i)) {s : σ} {requests : List ι} (hs : inv s) :
    (∀ made, made <+: requests → good (run step s made)) ↔ Along step ok s requests := by
  induction requests generalizing s with
  | nil =>
    refine ⟨fun _ => trivial, fun _ made hmade => ?_⟩
    rw [List.prefix_nil.mp hmade]
    exact hgood s hs
  | cons i rest ih =>
    constructor
    · intro h
      have hone : good (run step s [i]) := h [i] (List.prefix_append [i] rest)
      have hok : ok s i := hstep s i hs hone
      refine ⟨hok, (ih (hkeep s i hs hok)).mp fun made hmade => ?_⟩
      exact h (i :: made) (List.cons_prefix_cons.mpr ⟨rfl, hmade⟩)
    · rintro ⟨hok, hrest⟩ made hmade
      rcases List.prefix_cons_iff.mp hmade with rfl | ⟨made', rfl, hmade'⟩
      · exact hgood s hs
      · exact (ih (hkeep s i hs hok)).mpr hrest made' hmade'

/-- A condition on the requests alone, along a run. -/
theorem along_iff_forall (step : σ → ι → σ) (ok : ι → Prop) (s : σ) (requests : List ι) :
    Along step (fun _ i => ok i) s requests ↔ ∀ i ∈ requests, ok i := by
  induction requests generalizing s with
  | nil => simp [Along]
  | cons i rest ih => rw [Along, ih, List.forall_mem_cons]

theorem run_append (step : σ → ι → σ) (s : σ) (first second : List ι) :
    run step s (first ++ second) = run step (run step s first) second :=
  List.foldl_append

theorem along_append {step : σ → ι → σ} {ok : σ → ι → Prop} {s : σ} {first second : List ι} :
    Along step ok s (first ++ second) ↔
      Along step ok s first ∧ Along step ok (run step s first) second := by
  induction first generalizing s with
  | nil => rw [List.nil_append, Along, run_nil, true_and]
  | cons i rest ih => rw [List.cons_append, Along, Along, ih, and_assoc, run_cons]

/-- When each step is a run of another step function, so is a run. -/
theorem exists_run {κ : Type*} {step : σ → ι → σ} {step' : σ → κ → σ} {ok : σ → ι → Prop}
    {ok' : σ → κ → Prop}
    (hstep : ∀ s k, ok' s k → ∃ made, Along step ok s made ∧ run step s made = step' s k) {s : σ}
    {calls : List κ} (hok : Along step' ok' s calls) :
    ∃ made, Along step ok s made ∧ run step s made = run step' s calls := by
  induction calls generalizing s with
  | nil => exact ⟨[], trivial, rfl⟩
  | cons k rest ih =>
    obtain ⟨first, hfirst, heq⟩ := hstep s k hok.1
    obtain ⟨second, hsecond, hrest⟩ := ih hok.2
    refine ⟨first ++ second, along_append.mpr ⟨hfirst, ?_⟩, ?_⟩
    · rw [heq]
      exact hsecond
    · rw [run_append, heq, hrest, run_cons]

/-- Something that a request may bring about or end, depending on the state it
is made in, holds when it did and was not ended, or when it was brought about
and not ended since. -/
theorem run_since_along {step : σ → ι → σ} {holds inv : σ → Prop} {begins ends : σ → ι → Prop}
    {ok : ι → Prop} (hkeep : ∀ s i, inv s → ok i → inv (step s i))
    (hstep : ∀ s i, inv s → ok i → (holds (step s i) ↔ begins s i ∨ holds s ∧ ¬ ends s i)) {s : σ}
    {requests : List ι} (hs : inv s) (hok : ∀ i ∈ requests, ok i) :
    holds (run step s requests) ↔
      (holds s ∧ Along step (fun s i => ¬ ends s i) s requests) ∨
      ∃ front i back, requests = front ++ i :: back ∧ begins (run step s front) i ∧
        Along step (fun s j => ¬ ends s j) (run step s (front ++ [i])) back := by
  induction requests generalizing s with
  | nil => simp [Along]
  | cons i rest ih =>
    obtain ⟨hi, hrest⟩ := List.forall_mem_cons.mp hok
    rw [run_cons, ih (hkeep s i hs hi) hrest, hstep s i hs hi, Along]
    constructor
    · rintro (⟨hbegins | ⟨hs, hi⟩, hrest⟩ | ⟨front, j, back, rfl, hj, hback⟩)
      · exact Or.inr ⟨[], i, rest, rfl, hbegins, hrest⟩
      · exact Or.inl ⟨hs, hi, hrest⟩
      · exact Or.inr ⟨i :: front, j, back, rfl, hj, hback⟩
    · rintro (⟨hs, hi, hrest⟩ | ⟨front, j, back, heq, hj, hback⟩)
      · exact Or.inl ⟨Or.inr ⟨hs, hi⟩, hrest⟩
      · cases front with
        | nil =>
          obtain ⟨rfl, rfl⟩ := List.cons.inj heq
          exact Or.inl ⟨Or.inl hj, hback⟩
        | cons k front =>
          obtain ⟨rfl, rfl⟩ := List.cons.inj heq
          exact Or.inr ⟨front, j, back, rfl, hj, hback⟩

/-- The same when what ends it does not depend on the state. -/
theorem run_since {step : σ → ι → σ} {holds inv : σ → Prop} {begins : σ → ι → Prop}
    {ends ok : ι → Prop} (hkeep : ∀ s i, inv s → ok i → inv (step s i))
    (hstep : ∀ s i, inv s → ok i → (holds (step s i) ↔ begins s i ∨ holds s ∧ ¬ ends i)) {s : σ}
    {requests : List ι} (hs : inv s) (hok : ∀ i ∈ requests, ok i) :
    holds (run step s requests) ↔ (holds s ∧ ∀ i ∈ requests, ¬ ends i) ∨
      ∃ front i back, requests = front ++ i :: back ∧ begins (run step s front) i ∧
        ∀ j ∈ back, ¬ ends j := by
  have halong := @run_since_along _ _ step holds inv begins (fun _ => ends) ok hkeep hstep s
    requests hs hok
  simpa only [along_iff_forall step fun i => ¬ ends i] using halong

/-- A worker does its work in turns, each of several requests.  When a turn
makes the work less, as many turns as there is work leave none. -/
theorem turns_drain {τ : Type*} {step : σ → ι → σ} {turn : τ → List ι} {inv : σ → Prop}
    {work : σ → Nat} (hkeep : ∀ s t, inv s → inv (run step s (turn t)))
    (hless : ∀ s t, inv s → work (run step s (turn t)) ≤ work s - 1) {s : σ} {turns : List τ}
    (hs : inv s) (henough : work s ≤ turns.length) :
    work (run step s (turns.flatMap turn)) = 0 := by
  induction turns generalizing s with
  | nil => exact Nat.le_zero.mp henough
  | cons t rest ih =>
    rw [List.flatMap_cons, run_append]
    refine ih (hkeep s t hs) (Nat.le_trans (hless s t hs) ?_)
    exact Nat.sub_le_of_le_add henough

end OpxNasLinux.Run
