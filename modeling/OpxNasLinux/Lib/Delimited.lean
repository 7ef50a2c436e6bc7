import Mathlib.Data.List.Infix

/-!
# Delimited keys

A key can be made of several texts by writing a separator around each of them,
as in `*management*default*`.  Such a key is read in two ways: it is split at
the separators, and it is searched for one text between two separators.  When
the texts do not contain the separator, both ways give back the texts that the
key was made of.

Texts can also be joined by separators that stand between them only.
`close_infix_iff` and `close_infix_append_iff` say what it means that such a text
is searched for a piece that ends with a separator.
-/

namespace OpxNasLinux.Delimited

variable {α : Type} [DecidableEq α]

/-- Every field with the separator behind it. -/
def close (sep : α) : List (List α) → List α
  | [] => []
  | f :: fs => f ++ sep :: close sep fs

/-- Every field between two separators. -/
def enclose (sep : α) (fields : List (List α)) : List α := sep :: close sep fields

omit [DecidableEq α] in
theorem close_append (sep : α) (fs gs : List (List α)) :
    close sep (fs ++ gs) = close sep fs ++ close sep gs := by
  induction fs with
  | nil => rfl
  | cons f fs ih => rw [List.cons_append, close, close, ih, List.append_assoc, List.cons_append]

/-- Splitting the fields, each with its separator, gives the fields and an
empty text. -/
theorem splitOn_close {sep : α} {fs : List (List α)} (h : ∀ f ∈ fs, sep ∉ f) :
    (close sep fs).splitOn sep = fs ++ [[]] := by
  induction fs with
  | nil => rfl
  | cons f fs ih =>
    rw [close, List.splitOn_append_cons_self_of_not_mem (h f List.mem_cons_self),
      ih fun g hg => h g (List.mem_cons_of_mem f hg)]
    rfl

/-- Splitting a key gives its fields, between two empty texts. -/
theorem splitOn_enclose {sep : α} {fs : List (List α)} (h : ∀ f ∈ fs, sep ∉ f) :
    (enclose sep fs).splitOn sep = [] :: (fs ++ [[]]) := by
  have hcons : enclose sep fs = [] ++ sep :: close sep fs := rfl
  rw [hcons, List.splitOn_append_cons_self, splitOn_close h]
  rfl

/-- A key determines its fields.  The first field may contain the separator. -/
theorem enclose_inj {sep : α} {f g : List α} {fs gs : List (List α)} (hfs : ∀ x ∈ fs, sep ∉ x)
    (hgs : ∀ x ∈ gs, sep ∉ x) (hlen : fs.length = gs.length)
    (h : enclose sep (f :: fs) = enclose sep (g :: gs)) : f = g ∧ fs = gs := by
  have hclose : f ++ sep :: close sep fs = g ++ sep :: close sep gs := (List.cons.inj h).2
  have hsplit := congrArg (List.splitOn sep) hclose
  rw [List.splitOn_append_cons_self, List.splitOn_append_cons_self, splitOn_close hfs,
    splitOn_close hgs] at hsplit
  obtain ⟨-, htail⟩ := List.append_inj' hsplit (by
    rw [List.length_append, List.length_append, hlen])
  obtain rfl := List.append_cancel_right htail
  exact ⟨List.append_cancel_right hclose, rfl⟩

/-- The separators of a key. -/
theorem count_close (sep : α) (fs : List (List α)) :
    (close sep fs).count sep = fs.length + fs.flatten.count sep := by
  induction fs with
  | nil => rfl
  | cons f fs ih =>
    rw [close, List.count_append, List.count_cons_self, ih, List.length_cons, List.flatten_cons,
      List.count_append]
    omega

/-- A key that has no separators but those around its fields determines
them. -/
theorem enclose_injective {sep : α} {fs gs : List (List α)} (hgs : ∀ x ∈ gs, sep ∉ x)
    (hlen : fs.length = gs.length) (h : enclose sep fs = enclose sep gs) : fs = gs := by
  have hcount := congrArg (List.count sep) (List.cons.inj h).2
  have hzero : gs.flatten.count sep = 0 := by
    rw [List.count_eq_zero, List.mem_flatten]
    rintro ⟨g, hg, hsep⟩
    exact hgs g hg hsep
  have hfs : ∀ f ∈ fs, sep ∉ f := by
    rw [count_close, count_close, hlen, hzero] at hcount
    have hnone := List.count_eq_zero.mp (Nat.add_left_cancel hcount)
    exact fun f hf hsep => hnone (List.mem_flatten.mpr ⟨f, hf, hsep⟩)
  have hsplit := congrArg (List.splitOn sep) h
  rw [splitOn_enclose hfs, splitOn_enclose hgs] at hsplit
  exact List.append_cancel_right (List.cons.inj hsplit).2

omit [DecidableEq α] in
/-- A key ends with a separator. -/
theorem enclose_eq_concat (sep : α) (fs : List (List α)) :
    ∃ xs, enclose sep fs = xs ++ [sep] := by
  rcases List.eq_nil_or_concat fs with rfl | ⟨gs, g, rfl⟩
  · exact ⟨[], rfl⟩
  · refine ⟨sep :: (close sep gs ++ g), ?_⟩
    rw [enclose, List.concat_eq_append, close_append]
    simp [close]

omit [DecidableEq α] in
/-- The fields of a key occur in it, between two separators. -/
theorem enclose_infix_of_mem (sep : α) {v : List α} {fs : List (List α)} (hmem : v ∈ fs) :
    enclose sep [v] <:+: enclose sep fs := by
  obtain ⟨as, bs, rfl⟩ := List.append_of_mem hmem
  obtain ⟨xs, hxs⟩ := enclose_eq_concat sep as
  refine ⟨xs, close sep bs, ?_⟩
  have hsplit : enclose sep (as ++ v :: bs) = enclose sep as ++ (v ++ sep :: close sep bs) := by
    rw [enclose, close_append]
    rfl
  rw [hsplit, hxs]
  simp [enclose, close]

/-- A text between two separators occurs in a key when it is one of its
fields. -/
theorem enclose_infix_iff {sep : α} {v : List α} {fs : List (List α)} (hv : sep ∉ v)
    (hfs : ∀ f ∈ fs, sep ∉ f) : enclose sep [v] <:+: enclose sep fs ↔ v ∈ fs := by
  constructor
  · rintro ⟨xs, ys, heq⟩
    have hform : xs ++ enclose sep [v] ++ ys = xs ++ sep :: (v ++ sep :: ys) := by
      simp [enclose, close]
    have hsplit : xs.splitOn sep ++ v :: ys.splitOn sep = [] :: (fs ++ [[]]) := by
      have h := congrArg (List.splitOn sep) (hform.symm.trans heq)
      rwa [List.splitOn_append_cons_self, List.splitOn_append_cons_self_of_not_mem hv,
        splitOn_enclose hfs] at h
    -- neither side of the split is empty, so `v` is not one of the outer texts
    obtain ⟨x, xs', hxs⟩ := List.exists_cons_of_ne_nil (List.splitOn_ne_nil sep xs)
    obtain ⟨ys', y, hys⟩ := List.eq_nil_or_concat (ys.splitOn sep) |>.resolve_left
      (List.splitOn_ne_nil sep ys)
    rw [hxs, hys, List.concat_eq_append, List.cons_append, List.cons.injEq] at hsplit
    have htail : (xs' ++ v :: ys') ++ [y] = fs ++ [[]] := by
      rw [← hsplit.2, List.append_assoc, List.cons_append]
    obtain ⟨hfields, -⟩ := List.append_inj' htail rfl
    rw [← hfields]
    exact List.mem_append_right _ List.mem_cons_self
  · exact enclose_infix_of_mem sep

/-! ## Texts that are joined -/

omit [DecidableEq α] in
/-- Joined fields end with the last of them. -/
theorem intercalate_concat (sep : α) (fs : List (List α)) (last : List α) :
    [sep].intercalate (fs ++ [last]) = close sep fs ++ last := by
  induction fs with
  | nil => simp [close, List.intercalate]
  | cons f fs ih =>
    obtain ⟨g, gs, hgs⟩ := List.exists_cons_of_ne_nil (List.concat_ne_nil last fs)
    rw [List.cons_append, hgs, List.intercalate_cons_cons, ← hgs, ih, close, List.append_assoc,
      List.append_assoc, List.cons_append]
    rfl

omit [DecidableEq α] in
/-- A text is cut at its first separator in one way. -/
theorem cut_inj {sep : α} {x₁ x₂ z₁ z₂ : List α} (h₁ : sep ∉ x₁) (h₂ : sep ∉ x₂)
    (h : x₁ ++ sep :: z₁ = x₂ ++ sep :: z₂) : x₁ = x₂ ∧ z₁ = z₂ := by
  rcases List.append_eq_append_iff.mp h with ⟨c, rfl, hc⟩ | ⟨c, rfl, hc⟩
  · cases c with
    | nil => exact ⟨(List.append_nil _).symm, (List.cons.inj hc).2⟩
    | cons a c =>
      obtain rfl := (List.cons.inj hc).1
      exact absurd (List.mem_append_right _ List.mem_cons_self) h₂
  · cases c with
    | nil => exact ⟨List.append_nil _, (List.cons.inj hc).2.symm⟩
    | cons a c =>
      obtain rfl := (List.cons.inj hc).1
      exact absurd (List.mem_append_right _ List.mem_cons_self) h₁

omit [DecidableEq α] in
/-- Fields at the front of a text are its first fields. -/
theorem close_prefix {sep : α} {ps gs : List (List α)} {ys : List α} (hps : ∀ f ∈ ps, sep ∉ f)
    (hgs : ∀ f ∈ gs, sep ∉ f) (h : close sep gs = close sep ps ++ ys) : ∃ bs, gs = ps ++ bs := by
  induction ps generalizing gs with
  | nil => exact ⟨gs, rfl⟩
  | cons p ps ih =>
    rw [close, List.append_assoc, List.cons_append] at h
    cases gs with
    | nil => simp [close] at h
    | cons g gs =>
      obtain ⟨hp, hps'⟩ := List.forall_mem_cons.mp hps
      obtain ⟨hg, hgs'⟩ := List.forall_mem_cons.mp hgs
      obtain ⟨rfl, hrest⟩ := cut_inj hg hp h
      obtain ⟨bs, rfl⟩ := ih hps' hgs' hrest
      exact ⟨bs, rfl⟩

/-- A piece of a text in front of a separator is the end of a field. -/
theorem close_cut {sep : α} {gs : List (List α)} {xs p ys : List α} (hp : sep ∉ p)
    (hgs : ∀ f ∈ gs, sep ∉ f) (h : close sep gs = xs ++ (p ++ sep :: ys)) :
    ∃ as u bs, gs = as ++ (u ++ p) :: bs ∧ close sep bs = ys := by
  induction gs generalizing xs with
  | nil => simp [close] at h
  | cons g gs ih =>
    obtain ⟨hg, hgs⟩ := List.forall_mem_cons.mp hgs
    by_cases hxs : sep ∈ xs
    · obtain ⟨x, xs', rfl, hx⟩ := List.eq_append_cons_of_mem hxs
      rw [close, List.append_assoc, List.cons_append] at h
      obtain ⟨-, hrest⟩ := cut_inj hg hx h
      obtain ⟨as, u, bs, rfl, hbs⟩ := ih hgs hrest
      exact ⟨g :: as, u, bs, rfl, hbs⟩
    · have hxp : sep ∉ xs ++ p := fun hmem => (List.mem_append.mp hmem).elim hxs hp
      rw [close, ← List.append_assoc] at h
      obtain ⟨rfl, rfl⟩ := cut_inj hg hxp h
      exact ⟨[], xs, gs, rfl, rfl⟩

/-- Fields occur in a text, each with its separator, when they stand in a row
among the fields of the text.  The first one may be the end of a field. -/
theorem close_infix_iff {sep : α} {p : List α} {ps gs : List (List α)}
    (hps : ∀ f ∈ p :: ps, sep ∉ f) (hgs : ∀ f ∈ gs, sep ∉ f) :
    close sep (p :: ps) <:+: close sep gs ↔ ∃ as u bs, gs = as ++ (u ++ p) :: (ps ++ bs) := by
  obtain ⟨hp, hps⟩ := List.forall_mem_cons.mp hps
  constructor
  · rintro ⟨xs, ys, heq⟩
    rw [close, List.append_assoc, List.append_assoc, List.cons_append] at heq
    obtain ⟨as, u, bs, rfl, hbs⟩ := close_cut hp hgs heq.symm
    obtain ⟨bs, rfl⟩ := close_prefix hps (fun f hf => hgs f (by simp [hf])) hbs
    exact ⟨as, u, bs, rfl⟩
  · rintro ⟨as, u, bs, rfl⟩
    refine ⟨close sep as ++ u, close sep bs, ?_⟩
    simp [close_append, close]

omit [DecidableEq α] in
/-- Fields with their separators do not reach into what comes behind the last
separator. -/
theorem close_infix_append_iff {sep : α} {fs gs : List (List α)} {last : List α}
    (hlast : sep ∉ last) :
    close sep fs <:+: close sep gs ++ last ↔ close sep fs <:+: close sep gs := by
  refine ⟨fun h => ?_, fun h => h.trans (List.infix_append' [] _ _)⟩
  rcases List.eq_nil_or_concat fs with rfl | ⟨fs, f, rfl⟩
  · exact List.nil_infix
  have hend : close sep (fs.concat f) = (close sep fs ++ f) ++ [sep] := by
    rw [List.concat_eq_append, close_append]
    simp [close]
  rcases List.infix_append_iff.mp h with h | h | ⟨l₁, l₂, heq, hl₁, hl₂⟩
  · exact h
  · have hsep : sep ∈ close sep (fs.concat f) := by
      rw [hend]
      exact List.mem_append_right _ (List.mem_singleton_self _)
    exact absurd (h.subset hsep) hlast
  · rcases List.eq_nil_or_concat l₂ with rfl | ⟨l₂, a, rfl⟩
    · rw [heq, List.append_nil]
      exact hl₁.isInfix
    · rw [hend, List.concat_eq_append, ← List.append_assoc] at heq
      obtain ⟨-, hsep⟩ := List.append_inj' heq rfl
      obtain rfl : sep = a := by simpa using hsep
      exact absurd (hl₂.subset (by simp)) hlast

/-! ## Pieces without a separator -/

omit [DecidableEq α] in
/-- A piece without the separator is found on one side of it. -/
theorem infix_cut_iff {sep : α} {l xs ys : List α} (hl : sep ∉ l) :
    l <:+: xs ++ sep :: ys ↔ l <:+: xs ∨ l <:+: ys := by
  constructor
  · intro h
    rcases List.infix_append_iff.mp h with h | h | ⟨l₁, l₂, rfl, hl₁, hl₂⟩
    · exact Or.inl h
    · rcases List.infix_cons_iff.mp h with h | h
      · cases l with
        | nil => exact Or.inl List.nil_infix
        | cons x l =>
          obtain ⟨rfl, -⟩ := List.cons_prefix_cons.mp h
          exact absurd List.mem_cons_self hl
      · exact Or.inr h
    · cases l₂ with
      | nil =>
        rw [List.append_nil]
        exact Or.inl hl₁.isInfix
      | cons x l₂ =>
        obtain ⟨rfl, -⟩ := List.cons_prefix_cons.mp hl₂
        exact absurd (List.mem_append_right _ List.mem_cons_self) hl
  · rintro (h | h)
    · exact h.trans (List.infix_append' [] _ _)
    · exact h.trans ⟨xs ++ [sep], [], by simp⟩

omit [DecidableEq α] in
/-- The same for a row of separators. -/
theorem infix_replicate_iff {sep : α} {l xs ys : List α} (hl : sep ∉ l) (n : ℕ) :
    l <:+: xs ++ (List.replicate (n + 1) sep ++ ys) ↔ l <:+: xs ∨ l <:+: ys := by
  induction n generalizing xs with
  | zero => exact infix_cut_iff hl
  | succ n ih =>
    have hnil : l <:+: [] ↔ l = [] := List.infix_nil
    rw [List.replicate_succ, List.cons_append, infix_cut_iff hl, ← List.nil_append (_ ++ ys), ih,
      hnil]
    refine or_congr_right ⟨?_, Or.inr⟩
    rintro (rfl | h)
    · exact List.nil_infix
    · exact h

end OpxNasLinux.Delimited
