import Mathlib.Algebra.Order.Group.Int

/-!
# Stores into a memory

A memory gives every address its cell.  `store` writes a list of cells from an
address on.

* `Holds` says that a list is in the memory at an address, and `holds_store`
  that it is after it was stored.
* `Agree` says that two memories have the same cells in a range.  What a store
  leaves alone is stated with it, and so is what depends on a range only.
-/

namespace OpxNasLinux.ByteStore

variable {β : Type*}

/-- The memory after the list was written at `p`. -/
def store (p : ℤ) (bs : List β) (mem : ℤ → β) : ℤ → β := fun a =>
  if h : p ≤ a ∧ a < p + bs.length then bs.get ⟨(a - p).toNat, by omega⟩ else mem a

/-- The list is in the memory at `p`. -/
def Holds (mem : ℤ → β) (p : ℤ) (bs : List β) : Prop :=
  ∀ i (h : i < bs.length), mem (p + i) = bs[i]

/-- The memories have the same cells from `lo` up to `hi`. -/
def Agree (lo hi : ℤ) (mem mem' : ℤ → β) : Prop :=
  ∀ a, lo ≤ a → a < hi → mem' a = mem a

theorem Agree.refl (lo hi : ℤ) (mem : ℤ → β) : Agree lo hi mem mem := fun _ _ _ => rfl

theorem Agree.trans {lo hi : ℤ} {mem mem' mem'' : ℤ → β} (h : Agree lo hi mem mem')
    (h' : Agree lo hi mem' mem'') : Agree lo hi mem mem'' :=
  fun a hlo hhi => (h' a hlo hhi).trans (h a hlo hhi)

theorem Agree.mono {lo hi lo' hi' : ℤ} {mem mem' : ℤ → β} (h : Agree lo hi mem mem')
    (hlo : lo ≤ lo') (hhi : hi' ≤ hi) : Agree lo' hi' mem mem' :=
  fun a ha ha' => h a (hlo.trans ha) (ha'.trans_le hhi)

theorem Agree.append {lo mid hi : ℤ} {mem mem' : ℤ → β} (h : Agree lo mid mem mem')
    (h' : Agree mid hi mem mem') : Agree lo hi mem mem' := fun a hlo hhi =>
  (lt_or_ge a mid).elim (h a hlo) fun hmid => h' a hmid hhi

theorem Agree.cell {a : ℤ} {mem mem' : ℤ → β} (h : Agree a (a + 1) mem mem') : mem' a = mem a :=
  h a le_rfl (by omega)

/-- A store changes no cell outside of its range. -/
theorem store_agree {p lo hi : ℤ} {bs : List β} (mem : ℤ → β)
    (h : hi ≤ p ∨ p + bs.length ≤ lo) : Agree lo hi mem (store p bs mem) := by
  intro a hlo hhi
  rw [store, dif_neg]
  rintro ⟨h1, h2⟩
  rcases h with h | h
  · exact absurd (h1.trans_lt hhi) (not_lt.mpr h)
  · exact absurd (h2.trans_le h) (not_lt.mpr hlo)

theorem holds_store (p : ℤ) (bs : List β) (mem : ℤ → β) : Holds (store p bs mem) p bs := by
  intro i hi
  have hin : p ≤ p + i ∧ p + i < p + bs.length := by omega
  have hback : (p + i - p).toNat = i := by omega
  rw [store, dif_pos hin, List.get_eq_getElem]
  simp only [hback]

/-- What is in a range stays there while the range does. -/
theorem Holds.agree {mem mem' : ℤ → β} {p : ℤ} {bs : List β} (h : Holds mem p bs)
    (hagree : Agree p (p + bs.length) mem mem') : Holds mem' p bs := by
  intro i hi
  rw [hagree (p + i) (by omega) (by omega)]
  exact h i hi

/-- Memories that hold the same list agree there. -/
theorem Holds.agree_of {mem mem' : ℤ → β} {p : ℤ} {bs : List β} (h : Holds mem p bs)
    (h' : Holds mem' p bs) : Agree p (p + bs.length) mem mem' := by
  intro a hlo hhi
  have hcell : p + ((a - p).toNat : ℤ) = a := by omega
  have hin : (a - p).toNat < bs.length := by omega
  rw [← hcell, h _ hin, h' _ hin]

/-- A memory holds one list of a length. -/
theorem Holds.unique {mem : ℤ → β} {p : ℤ} {bs bs' : List β} (h : Holds mem p bs)
    (h' : Holds mem p bs') (hlen : bs.length = bs'.length) : bs = bs' :=
  List.ext_getElem hlen fun i hi hi' => (h i hi).symm.trans (h' i hi')

end OpxNasLinux.ByteStore
