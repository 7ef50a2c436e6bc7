import Mathlib.Data.List.Nodup
import OpxNasLinux.Lib.Dict

/-!
# A table and the lists of its keys by value

A table from keys to owners is often kept the other way round too: for every
owner the list of the keys that it has.

* `Listing.add` and `Listing.drop` enter a key under an owner and take it out,
  `mem_add_iff` and `mem_drop_iff` say what is listed then.
* `Lists` says that the lists hold exactly the pairs of a table.  It is kept
  when a pair is entered in both (`Lists.enter`) and when one is taken out of
  both (`Lists.remove`).
-/

namespace OpxNasLinux

variable {O K : Type} [DecidableEq O] [DecidableEq K]

/-- For every owner the keys that it has. -/
abbrev Listing (O K : Type) := Dict O (List K)

namespace Listing

/-- The keys of an owner; none when the owner has no list. -/
def under (d : Listing O K) (o : O) : List K := (d.lookup o).getD []

/-- A key is entered under an owner, in a list that is made when there is none. -/
def add (d : Listing O K) (o : O) (k : K) : Listing O K := d.insert o ((d.under o).insert k)

/-- A key is taken out of the list of an owner, which is made when there is
none. -/
def drop (d : Listing O K) (o : O) (k : K) : Listing O K :=
  d.insert o ((d.under o).filter fun k' => decide (k' ≠ k))

/-- A key is taken out of the list of an owner, if the owner has one. -/
def discard (d : Listing O K) (o : O) (k : K) : Listing O K := if o ∈ d then d.drop o k else d

omit [DecidableEq K] in
theorem under_insert (d : Listing O K) (o o' : O) (ks : List K) :
    Listing.under (d.insert o ks) o' = if o' = o then ks else d.under o' := by
  rw [under]
  split
  · rename_i heq
    rw [heq, AList.lookup_insert, Option.getD_some]
  · rename_i hne
    rw [AList.lookup_insert_ne hne, under]

omit [DecidableEq K] in
theorem under_erase (d : Listing O K) (o o' : O) :
    Listing.under (d.erase o) o' = if o' = o then [] else d.under o' := by
  rw [under]
  split
  · rename_i heq
    rw [heq, AList.lookup_erase, Option.getD_none]
  · rename_i hne
    rw [AList.lookup_erase_ne hne, under]

theorem mem_add_iff {d : Listing O K} {o o' : O} {k k' : K} :
    k' ∈ (d.add o k).under o' ↔ o' = o ∧ k' = k ∨ k' ∈ d.under o' := by
  rw [add, under_insert]
  split
  · rename_i heq
    subst heq
    simp
  · rename_i hne
    simp [hne]

theorem mem_drop_iff {d : Listing O K} {o o' : O} {k k' : K} :
    k' ∈ (d.drop o k).under o' ↔ ¬ (o' = o ∧ k' = k) ∧ k' ∈ d.under o' := by
  rw [drop, under_insert]
  split
  · rename_i heq
    subst heq
    rw [List.mem_filter, decide_eq_true_iff, and_comm]
    simp
  · rename_i hne
    simp [hne]

/-- An owner without a list has no key to lose. -/
theorem mem_discard_iff {d : Listing O K} {o o' : O} {k k' : K} :
    k' ∈ (d.discard o k).under o' ↔ ¬ (o' = o ∧ k' = k) ∧ k' ∈ d.under o' := by
  rw [discard]
  split
  · exact mem_drop_iff
  · rename_i hnone
    refine ⟨fun h => ⟨?_, h⟩, And.right⟩
    rintro ⟨rfl, -⟩
    rw [under, AList.lookup_eq_none.mpr hnone] at h
    cases h

/-- The keys of several things entered, each under the owner of the thing. -/
theorem mem_foldl_add_iff {α : Type} (owner : α → O) (key : α → K) {xs : List α}
    {d : Listing O K} {o : O} {k : K} :
    k ∈ (xs.foldl (fun d x => d.add (owner x) (key x)) d).under o ↔
      k ∈ d.under o ∨ ∃ x ∈ xs, owner x = o ∧ key x = k := by
  induction xs generalizing d with
  | nil => simp
  | cons x xs ih =>
    rw [List.foldl_cons, ih, mem_add_iff, List.exists_mem_cons_iff, eq_comm (a := o),
      eq_comm (a := k), or_assoc, or_left_comm]

/-- No key is listed twice under one owner. -/
def Nodup (d : Listing O K) : Prop := ∀ o, (d.under o).Nodup

omit [DecidableEq K] in
theorem nodup_empty : Nodup (∅ : Listing O K) := fun _ => List.nodup_nil

theorem Nodup.add {d : Listing O K} (h : d.Nodup) (o : O) (k : K) : (d.add o k).Nodup := by
  intro o'
  rw [Listing.add, under_insert]
  split
  · exact (h o).insert
  · exact h o'

theorem Nodup.drop {d : Listing O K} (h : d.Nodup) (o : O) (k : K) : (d.drop o k).Nodup := by
  intro o'
  rw [Listing.drop, under_insert]
  split
  · exact (h o).filter _
  · exact h o'

end Listing

/-- The lists hold exactly the pairs of the table. -/
def Lists (listing : Listing O K) (table : Dict K O) : Prop :=
  ∀ k o, table.lookup k = some o ↔ k ∈ listing.under o

namespace Lists

variable {listing : Listing O K} {table : Dict K O}

theorem empty : Lists (∅ : Listing O K) (∅ : Dict K O) := by
  intro k o
  rw [AList.lookup_empty, Listing.under, AList.lookup_empty, Option.getD_none]
  exact ⟨fun h => (nomatch h), fun h => absurd h List.not_mem_nil⟩

/-- A key that is in the table nowhere or under the same owner. -/
theorem enter (h : Lists listing table) {k : K} {o : O}
    (hk : ∀ o', table.lookup k = some o' → o' = o) :
    Lists (listing.add o k) (table.insert k o) := by
  intro k' o'
  rw [Dict.lookup_insert_iff, Listing.mem_add_iff, ← h k' o']
  constructor
  · rintro (⟨rfl, rfl⟩ | ⟨-, hold⟩)
    · exact Or.inl ⟨rfl, rfl⟩
    · exact Or.inr hold
  · rintro (⟨rfl, rfl⟩ | hold)
    · exact Or.inl ⟨rfl, rfl⟩
    · by_cases hkk : k' = k
      · subst hkk
        exact Or.inl ⟨rfl, (hk o' hold).symm⟩
      · exact Or.inr ⟨hkk, hold⟩

/-- A key that another owner has is then listed under both. -/
theorem enter_iff (h : Lists listing table) {k : K} {o : O} :
    Lists (listing.add o k) (table.insert k o) ↔ ∀ o', table.lookup k = some o' → o' = o := by
  refine ⟨fun hafter o' ho' => ?_, h.enter⟩
  have hstays : k ∈ (listing.add o k).under o' :=
    Listing.mem_add_iff.mpr (Or.inr ((h k o').mp ho'))
  rw [← hafter k o', AList.lookup_insert] at hstays
  exact (Option.some.inj hstays).symm

/-- A key taken out. -/
theorem remove (h : Lists listing table) {k : K} {o : O} (hk : table.lookup k = some o) :
    Lists (listing.drop o k) (table.erase k) := by
  intro k' o'
  rw [Dict.lookup_erase_iff, Listing.mem_drop_iff, ← h k' o']
  constructor
  · rintro ⟨hne, hold⟩
    exact ⟨fun heq => hne heq.2, hold⟩
  · rintro ⟨hne, hold⟩
    refine ⟨?_, hold⟩
    rintro rfl
    rw [hk] at hold
    exact hne ⟨(Option.some.inj hold).symm, rfl⟩

/-- A key taken out where the owner need not have a list. -/
theorem discard (h : Lists listing table) {k : K} {o : O} (hk : table.lookup k = some o) :
    Lists (listing.discard o k) (table.erase k) := by
  intro k' o'
  rw [h.remove hk k' o', Listing.mem_drop_iff, Listing.mem_discard_iff]

end Lists

end OpxNasLinux
