import Mathlib.Data.List.Basic

/-!
# Searching a text for a pattern

A pattern is a sequence of fixed characters and of runs: one or more characters
of a class, as many as the rest of the pattern leaves.  A search tries every
position of the text from the left and answers with the runs that are groups.

* `run`, `matchAt` and `search`, with what they make of a text that is put
  together of known parts.
* `Blind` and `Found` speak of one part of a text whose parts stand between
  separators, and `search_join_found` and `search_join_none` of the whole.
-/

namespace OpxNasLinux.Search

variable {α : Type}

/-- One element of a pattern.  A run is a group of the answer or is not. -/
inductive Atom (α : Type) where
  | char (c : α)
  | many (inside : α → Bool) (group : Bool)

/-- The fixed characters of a text before a pattern. -/
def text (t : List α) (p : List (Atom α)) : List (Atom α) := t.map .char ++ p

/-- The longest run of characters of a class that `rest` takes up after. -/
def run {β : Type} (inside : α → Bool) (rest : List α → Option β) : List α → Option (List α × β)
  | [] => none
  | c :: s =>
    if inside c then
      match run inside rest s with
      | some (w, b) => some (c :: w, b)
      | none => (rest s).map fun b => ([c], b)
    else none

variable [DecidableEq α]

/-- The groups of a match that starts where the text does. -/
def matchAt : List (Atom α) → List α → Option (List (List α))
  | [], _ => some []
  | .char _ :: _, [] => none
  | .char c :: p, x :: s => if c = x then matchAt p s else none
  | .many inside group :: p, s =>
    (run inside (matchAt p) s).map fun (w, gs) => if group then w :: gs else gs

/-- The groups of the first match. -/
def search (p : List (Atom α)) : List α → Option (List (List α))
  | [] => matchAt p []
  | c :: s => (matchAt p (c :: s)).or (search p s)

/-! ## Runs -/

omit [DecidableEq α] in
theorem run_of_rest {β : Type} {inside : α → Bool} {rest : List α → Option β} {w t : List α} {b : β}
    (hw : ∀ c ∈ w, inside c = true) (hne : w ≠ []) (hrest : rest t = some b)
    (hend : run inside rest t = none) : run inside rest (w ++ t) = some (w, b) := by
  induction w with
  | nil => exact absurd rfl hne
  | cons c w ih =>
    have hc := hw c List.mem_cons_self
    rcases List.eq_nil_or_concat w with rfl | ⟨w', x, rfl⟩
    · simp [run, hc, hend, hrest]
    · have hrun := ih (fun x hx => hw x (List.mem_cons_of_mem c hx)) (by simp)
      rw [List.cons_append, run, if_pos hc, hrun]

omit [DecidableEq α] in
/-- There is no run when nothing takes up after any part of it. -/
theorem run_eq_none {β : Type} {inside : α → Bool} {rest : List α → Option β} {s : List α}
    (h : ∀ u v, s = u ++ v → u ≠ [] → (∀ c ∈ u, inside c = true) → rest v = none) :
    run inside rest s = none := by
  induction s with
  | nil => rfl
  | cons c s ih =>
    rw [run]
    split
    · next hc =>
      have hnone : run inside rest s = none := by
        refine ih fun u v hs _ hu => h (c :: u) v (by rw [hs]; rfl) (by simp) ?_
        rintro x (_ | ⟨_, hx⟩)
        · exact hc
        · exact hu x hx
      rw [hnone, h [c] s rfl (by simp) (by simpa using hc)]
      rfl
    · rfl

/-! ## Positions -/

@[simp] theorem matchAt_text (t : List α) (p : List (Atom α)) (s : List α) :
    matchAt (text t p) (t ++ s) = matchAt p s := by
  induction t with
  | nil => rfl
  | cons c t ih => simpa [text, matchAt] using ih

/-- A text without the first character of a pattern is skipped. -/
theorem search_skip {c : α} {p : List (Atom α)} {a : List α} (ha : c ∉ a) (s : List α) :
    search (.char c :: p) (a ++ s) = search (.char c :: p) s := by
  induction a with
  | nil => rfl
  | cons x a ih =>
    have hx : c ≠ x := List.ne_of_not_mem_cons ha
    rw [List.cons_append, search, matchAt, if_neg hx, Option.none_or,
      ih (List.not_mem_of_not_mem_cons ha)]

/-- A text without the second character of a pattern is skipped, when what
follows does not start with it. -/
theorem search_skip_second {c d : α} {p : List (Atom α)} {a s : List α} (ha : d ∉ a)
    (hs : s.head? ≠ some d) :
    search (.char c :: .char d :: p) (a ++ s) = search (.char c :: .char d :: p) s := by
  induction a with
  | nil => rfl
  | cons x a ih =>
    have hrest : matchAt (.char d :: p) (a ++ s) = none := by
      have hhead : (a ++ s).head? ≠ some d := by
        cases a with
        | nil => exact hs
        | cons y a =>
          rw [List.cons_append, List.head?_cons, Ne, Option.some_inj]
          rintro rfl
          exact ha (by simp)
      cases h : a ++ s with
      | nil => rfl
      | cons y t =>
        rw [h, List.head?_cons, Ne, Option.some_inj] at hhead
        rw [matchAt, if_neg (Ne.symm hhead)]
    have hat : matchAt (.char c :: .char d :: p) (x :: (a ++ s)) = none := by
      rw [matchAt, hrest, ite_self]
    rw [List.cons_append, search, hat, Option.none_or, ih (List.not_mem_of_not_mem_cons ha)]

/-- A match where the text starts is the first one. -/
theorem search_of_matchAt {p : List (Atom α)} {s : List α} {gs : List (List α)}
    (h : matchAt p s = some gs) : search p s = some gs := by
  cases s with
  | nil => exact h
  | cons c s => rw [search, h, Option.some_or]

/-! ## Parts between separators -/

/-- A text that is over or goes on with a separator. -/
def Ends (sep : α) (s : List α) : Prop := s = [] ∨ ∃ u, s = sep :: u

omit [DecidableEq α] in
/-- A run ends before the separator. -/
theorem run_ends {β : Type} {inside : α → Bool} {rest : List α → Option β} {sep : α} {s : List α}
    (hsep : inside sep = false) (h : Ends sep s) : run inside rest s = none := by
  obtain rfl | ⟨u, rfl⟩ := h
  · rfl
  · rw [run, hsep, if_neg Bool.false_ne_true]

/-- A group at the end of a pattern takes the rest of the part. -/
theorem matchAt_word {inside : α → Bool} {sep : α} {w s : List α} (hsep : inside sep = false)
    (hw : ∀ c ∈ w, inside c = true) (hne : w ≠ []) (h : Ends sep s) :
    matchAt [.many inside true] (w ++ s) = some [w] := by
  have hrun : run inside (matchAt []) (w ++ s) = some (w, []) :=
    run_of_rest hw hne rfl (run_ends hsep h)
  rw [matchAt, hrun]
  rfl

/-- A run of one separator that is no group. -/
theorem matchAt_gap {inside : α → Bool} {p : List (Atom α)} {sep : α} {s : List α}
    {gs : List (List α)} (hsep : inside sep = true) (hs : ∀ c, s.head? = some c → inside c = false)
    (h : matchAt p s = some gs) : matchAt (.many inside false :: p) (sep :: s) = some gs := by
  have hend : run inside (matchAt p) s = none := by
    cases s with
    | nil => rfl
    | cons c s => rw [run, hs c rfl, if_neg Bool.false_ne_true]
  have hrun : run inside (matchAt p) ([sep] ++ s) = some ([sep], gs) :=
    run_of_rest (by simpa using hsep) (by simp) h hend
  rw [matchAt, ← List.singleton_append, hrun]
  rfl

/-- A group before a fixed character takes everything before the last one in
the part. -/
theorem matchAt_last {inside : α → Bool} {p : List (Atom α)} {sep c : α} {a b s : List α}
    {gs : List (List α)} (hsep : inside sep = false) (hne : c ≠ sep)
    (ha : ∀ x ∈ a, inside x = true) (ha' : a ≠ []) (hb : c ∉ b) (hs : Ends sep s)
    (h : matchAt p (b ++ s) = some gs) :
    matchAt (.many inside true :: .char c :: p) (a ++ c :: (b ++ s)) = some (a :: gs) := by
  have hend : run inside (matchAt (.char c :: p)) (c :: (b ++ s)) = none := by
    refine run_eq_none fun u v huv hu hin => ?_
    have hstop : matchAt (.char c :: p) s = none := by
      obtain rfl | ⟨w, rfl⟩ := hs
      · rfl
      · rw [matchAt, if_neg hne]
    obtain ⟨rfl, rfl⟩ | ⟨u, rfl, htail⟩ := List.cons_eq_append_iff.mp huv
    · exact absurd rfl hu
    obtain ⟨t, hbu, rfl⟩ | ⟨t, rfl, hst⟩ := List.append_eq_append_iff.mp htail.symm
    · -- the rest starts in the part
      cases t with
      | nil => exact hstop
      | cons x t =>
        have hx : c ≠ x := by
          rintro rfl
          exact hb (by rw [hbu]; simp)
        rw [List.cons_append, matchAt, if_neg hx]
    · -- a run does not go beyond the separator
      cases t with
      | nil =>
        rw [List.nil_append] at hst
        rwa [← hst]
      | cons x t =>
        obtain rfl | ⟨w, rfl⟩ := hs
        · cases hst
        · obtain ⟨rfl, -⟩ := List.cons.inj hst
          have hin' := hin sep (by simp)
          rw [hsep] at hin'
          cases hin'
  have hrest : matchAt (.char c :: p) (c :: (b ++ s)) = some gs := by rw [matchAt, if_pos rfl, h]
  rw [matchAt, run_of_rest ha ha' hrest hend]
  rfl

/-- No match starts in the part. -/
def Blind (sep : α) (p : List (Atom α)) (a : List α) : Prop :=
  ∀ s, Ends sep s → search p (a ++ s) = search p s

/-- The first match starts in the part. -/
def Found (sep : α) (p : List (Atom α)) (a : List α) (gs : List (List α)) : Prop :=
  ∀ s, Ends sep s → search p (a ++ s) = some gs

theorem blind_of_not_mem {sep c : α} {p : List (Atom α)} {a : List α} (h : c ∉ a) :
    Blind sep (.char c :: p) a :=
  fun s _ => search_skip h s

/-- What a part is followed by in a joined text. -/
def tail (sep : α) : List (List α) → List α
  | [] => []
  | a :: l => sep :: (a ++ tail sep l)

/-- The parts with a separator between every two of them. -/
def join (sep : α) : List (List α) → List α
  | [] => []
  | a :: l => a ++ tail sep l

omit [DecidableEq α] in
theorem tail_ends (sep : α) (l : List (List α)) : Ends sep (tail sep l) := by
  cases l with
  | nil => exact Or.inl rfl
  | cons a l => exact Or.inr ⟨_, rfl⟩

section

variable {sep c : α} {p : List (Atom α)}

theorem search_join_cons (hsep : c ≠ sep) {a : List α} (ha : Blind sep (.char c :: p) a)
    (l : List (List α)) :
    search (.char c :: p) (join sep (a :: l)) = search (.char c :: p) (join sep l) := by
  rw [join, ha _ (tail_ends sep l)]
  cases l with
  | nil => rfl
  | cons b l => rw [tail, join, search, matchAt, if_neg hsep, Option.none_or]

theorem search_join_none (hsep : c ≠ sep) {l : List (List α)}
    (hl : ∀ a ∈ l, Blind sep (.char c :: p) a) : search (.char c :: p) (join sep l) = none := by
  induction l with
  | nil => rfl
  | cons a l ih =>
    rw [search_join_cons hsep (hl a List.mem_cons_self), ih fun b hb =>
      hl b (List.mem_cons_of_mem a hb)]

theorem search_join_found (hsep : c ≠ sep) {l l' : List (List α)} {a : List α}
    {gs : List (List α)} (hl : ∀ b ∈ l, Blind sep (.char c :: p) b)
    (ha : Found sep (.char c :: p) a gs) :
    search (.char c :: p) (join sep (l ++ a :: l')) = some gs := by
  induction l with
  | nil => exact ha _ (tail_ends sep l')
  | cons b l ih =>
    rw [List.cons_append, search_join_cons hsep (hl b List.mem_cons_self), ih fun x hx =>
      hl x (List.mem_cons_of_mem b hx)]

end

end OpxNasLinux.Search
