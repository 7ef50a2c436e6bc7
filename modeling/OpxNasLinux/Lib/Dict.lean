import Mathlib.Data.List.AList

/-!
# Dictionaries

A Python `dict` is an association list without repeated keys.  `AList` of
Mathlib is that type, so this file only names it and states the two lookups
that every invariant of a table needs, in the form in which they are used: an
entry of the new table is the entry just written, or an entry of the old one.

`mapVal` applies a function to every value.
-/

namespace OpxNasLinux

variable {K V : Type} [DecidableEq K]

/-- A dictionary from `K` to `V`. -/
abbrev Dict (K V : Type) := AList (fun _ : K => V)

namespace Dict

/-- The entries after an assignment. -/
theorem lookup_insert_iff {d : Dict K V} {k k' : K} {v v' : V} :
    (d.insert k v).lookup k' = some v' ↔
      k' = k ∧ v = v' ∨ k' ≠ k ∧ d.lookup k' = some v' := by
  by_cases hk : k' = k
  · subst hk
    rw [AList.lookup_insert, Option.some_inj]
    simp
  · rw [AList.lookup_insert_ne hk]
    simp [hk]

/-- The entries after a deletion. -/
theorem lookup_erase_iff {d : Dict K V} {k k' : K} {v' : V} :
    (d.erase k).lookup k' = some v' ↔ k' ≠ k ∧ d.lookup k' = some v' := by
  by_cases hk : k' = k
  · subst hk
    rw [AList.lookup_erase]
    simp
  · rw [AList.lookup_erase_ne hk]
    simp [hk]

/-- An entry that is written for a new key and deleted again. -/
theorem lookup_erase_insert_iff {d : Dict K V} {k k' : K} {v v' : V} (hnew : d.lookup k = none) :
    ((d.insert k v).erase k).lookup k' = some v' ↔ d.lookup k' = some v' := by
  rw [lookup_erase_iff, lookup_insert_iff]
  constructor
  · rintro ⟨hne, ⟨heq, -⟩ | ⟨-, hold⟩⟩
    · exact absurd heq hne
    · exact hold
  · intro hold
    have hne : k' ≠ k := by
      rintro rfl
      rw [hnew] at hold
      cases hold
    exact ⟨hne, Or.inr ⟨hne, hold⟩⟩

/-- The same for the dictionary as a whole: the entry that was there is gone
too. -/
theorem erase_insert (k : K) (v : V) (d : Dict K V) : (d.insert k v).erase k = d.erase k := by
  ext1
  have hfirst : k = (⟨k, v⟩ : Sigma fun _ : K => V).1 := rfl
  show List.kerase k (⟨k, v⟩ :: List.kerase k d.entries) = List.kerase k d.entries
  rw [List.kerase_cons_eq hfirst]

/-- A key is one of the dictionary when it has an entry. -/
theorem mem_iff {d : Dict K V} {k : K} : k ∈ d ↔ ∃ v, d.lookup k = some v := by
  rw [← AList.lookup_isSome, Option.isSome_iff_exists]

/-- The keys after an assignment. -/
theorem mem_insert_iff {d : Dict K V} {k k' : K} {v : V} :
    k' ∈ d.insert k v ↔ k' = k ∨ k' ∈ d :=
  AList.mem_insert d

/-- The keys after a deletion. -/
theorem mem_erase_iff {d : Dict K V} {k k' : K} : k' ∈ d.erase k ↔ k' ≠ k ∧ k' ∈ d :=
  AList.mem_erase

/-- The keys after the deletion of one of them. -/
theorem keys_erase_perm {d : Dict K V} {k : K} {rest : List K} (h : d.keys.Perm (k :: rest)) :
    (d.erase k).keys.Perm rest := by
  have herase := h.erase k
  rwa [List.erase_cons_head, ← AList.keys_erase] at herase

omit [DecidableEq K] in
/-- A dictionary with one entry has one key. -/
theorem eq_of_length_one {d : Dict K V} (h : d.keys.length = 1) {k k' : K} (hk : k ∈ d)
    (hk' : k' ∈ d) : k = k' := by
  obtain ⟨k0, hk0⟩ := List.length_eq_one_iff.mp h
  rw [AList.mem_keys, hk0, List.mem_singleton] at hk hk'
  rw [hk, hk']

omit [DecidableEq K] in
/-- A dictionary with a key that is not alone has another one. -/
theorem exists_ne_of_length_ne_one {d : Dict K V} (h : d.keys.length ≠ 1) {k : K} (hk : k ∈ d) :
    ∃ k' ∈ d, k' ≠ k := by
  by_contra hnone
  have hsub : d.keys ⊆ [k] := by
    intro k' hk'
    by_contra hne
    exact hnone ⟨k', hk', fun heq => hne (List.mem_singleton.mpr heq)⟩
  have hle : d.keys.length ≤ 1 := (List.subperm_of_subset d.keys_nodup hsub).length_le
  have hpos : 0 < d.keys.length := List.length_pos_of_mem hk
  omega

/-- `dict.values()`. -/
def values (d : Dict K V) : List V := d.entries.map Sigma.snd

theorem mem_values_iff {d : Dict K V} {v : V} : v ∈ d.values ↔ ∃ k, d.lookup k = some v := by
  rw [values, List.mem_map]
  constructor
  · rintro ⟨⟨k, v'⟩, hmem, rfl⟩
    exact ⟨k, AList.mem_lookup_iff.mpr hmem⟩
  · rintro ⟨k, hk⟩
    exact ⟨⟨k, v⟩, AList.mem_lookup_iff.mp hk, rfl⟩

/-! ## Dictionaries with other values -/

omit [DecidableEq K] in
/-- The keys do not depend on the values. -/
theorem map_keys {W : Type} (f : V → W) (l : List (Sigma fun _ : K => V)) :
    (l.map fun e => (⟨e.1, f e.2⟩ : Sigma fun _ : K => W)).keys = l.keys := by
  rw [List.keys, List.keys, List.map_map]
  rfl

/-- The dictionary with `f` applied to every value. -/
def mapVal {W : Type} (f : V → W) (d : Dict K V) : Dict K W where
  entries := d.entries.map fun e => ⟨e.1, f e.2⟩
  nodupKeys := by
    rw [List.NodupKeys, map_keys]
    exact d.nodupKeys

section

variable {W : Type} {f : V → W} {d : Dict K V} {k : K}

theorem dlookup_map (f : V → W) (k : K) (l : List (Sigma fun _ : K => V)) :
    (l.map fun e => (⟨e.1, f e.2⟩ : Sigma fun _ : K => W)).dlookup k =
      (l.dlookup k).map f := by
  induction l with
  | nil => rfl
  | cons e rest ih =>
    obtain ⟨k', v'⟩ := e
    rw [List.map_cons]
    by_cases hk : k = k'
    · subst hk
      rw [List.dlookup_cons_eq, List.dlookup_cons_eq]
      rfl
    · have hne : k ≠ (⟨k', v'⟩ : Sigma fun _ : K => V).1 := hk
      rw [List.dlookup_cons_ne _ _ hne, List.dlookup_cons_ne _ _ hk, ih]

@[simp] theorem lookup_mapVal : AList.lookup k (mapVal f d) = (AList.lookup k d).map f :=
  dlookup_map f k d.entries

end

end Dict

end OpxNasLinux
