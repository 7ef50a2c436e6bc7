import Mathlib.Data.Finset.Card
import Mathlib.Data.Int.Order.Basic

/-!
# The id generator

The class `IdGenerator` of `dn_base_id_tool.py`.  It hands out the ids of the
service rules: `getNewId` allocates an id of its own choice, `reserveId` takes
an id the caller chose, `releaseId` gives an id back.

The class keeps two hints beside the set of reserved ids: the id it would
hand out next and the greatest reserved id.  `IdGenerator.WF` says what makes
the hints right, every operation keeps it, and under it the operations act on
the set of reserved ids as their names say (`getNewId_some`,
`reserveId_true`, `releaseId_resvedIds`).
-/

namespace OpxNasLinux

/-- `IdGenerator`.  `availId` is `none` once the range is exhausted. -/
structure IdGenerator where
  resvedIds : Finset ℤ
  minId : ℤ
  maxId : Option ℤ
  availId : Option ℤ
  maxResvedId : Option ℤ
deriving DecidableEq

namespace IdGenerator

/-- `__init__` with the arguments that the rule caches give, none. -/
def new : IdGenerator :=
  { resvedIds := ∅, minId := 1, maxId := none, availId := some 1, maxResvedId := none }

/-- The `while` loop of `get_next_avail_id`.  Every round but the last meets a
reserved id, so their number is fuel enough. -/
def nextAvailLoop (resved : Finset ℤ) (maxResved : Option ℤ) : ℕ → ℤ → ℤ
  | 0, a => a
  | fuel + 1, a =>
    if maxResved.all (fun m => decide (a ≤ m)) then
      if a ∈ resved then nextAvailLoop resved maxResved fuel (a + 1) else a
    else a

/-- `get_next_avail_id`. -/
def getNextAvailId (g : IdGenerator) : IdGenerator :=
  match g.availId with
  | none => g
  | some a =>
    let next := nextAvailLoop g.resvedIds g.maxResvedId g.resvedIds.card (a + 1)
    { g with availId := if g.maxId.any (fun m => decide (m < next)) then none else some next }

/-- `resved_ids.add`. -/
def addId (g : IdGenerator) (i : ℤ) : IdGenerator :=
  { g with resvedIds := insert i g.resvedIds }

/-- The update of `max_resved_id` after `i` has been reserved. -/
def raiseMax (g : IdGenerator) (i : ℤ) : IdGenerator :=
  if g.maxResvedId.all (fun m => decide (m < i)) then { g with maxResvedId := some i } else g

/-- `get_new_id`. -/
def getNewId (g : IdGenerator) : Option ℤ × IdGenerator :=
  match g.availId with
  | none => (none, g)
  | some a =>
    (some a, (g.addId a).getNextAvailId.raiseMax a)

/-- The `while` loop of `release_id`, which looks for the next reserved id at
or below `i`.  It stops below `minId`, so the distance to it is fuel enough. -/
def maxResvedLoop (resved : Finset ℤ) (minId : ℤ) : ℕ → ℤ → ℤ
  | 0, i => i
  | fuel + 1, i =>
    if minId ≤ i then
      if i ∈ resved then i else maxResvedLoop resved minId fuel (i - 1)
    else i

/-- The greatest reserved id at or below `i`, as `release_id` computes it. -/
def maxResvedBelow (g : IdGenerator) (i : ℤ) : Option ℤ :=
  let m := maxResvedLoop g.resvedIds g.minId (i - g.minId + 1).toNat i
  if m < g.minId then none else some m

/-- `release_id` up to its last `if`: the id leaves the set and may become the
next one to hand out.  Python 2 orders `None` below every number, so an
exhausted generator keeps `avail_id` at `None` here. -/
def dropId (g : IdGenerator) (i : ℤ) : IdGenerator :=
  { g with
    resvedIds := g.resvedIds.erase i
    availId := g.availId.map (fun a => if i < a then i else a) }

/-- The update of `max_resved_id` after `i` has been released. -/
def lowerMax (g : IdGenerator) (i : ℤ) : IdGenerator :=
  if g.maxResvedId = some i then { g with maxResvedId := g.maxResvedBelow i } else g

/-- `release_id`. -/
def releaseId (g : IdGenerator) (i : ℤ) : Bool × IdGenerator :=
  if i ∈ g.resvedIds then (true, (g.dropId i).lowerMax i) else (false, g)

/-- `is_id_used`. -/
def isIdUsed (g : IdGenerator) (i : ℤ) : Bool :=
  decide (i ∈ g.resvedIds)

/-- `reserve_id`. -/
def reserveId (g : IdGenerator) (i : ℤ) : Bool × IdGenerator :=
  if i < g.minId ∨ g.maxId.any (fun m => decide (m < i)) then (false, g)
  else if i ∈ g.resvedIds then (false, g)
  else if g.availId = some i then
    (true, (g.addId i).getNextAvailId.raiseMax i)
  else (true, (g.addId i).raiseMax i)

/-! ## The hints are right -/

/-- What the two hints promise.  `avail_fresh` is what makes a new id new. -/
structure WF (g : IdGenerator) : Prop where
  avail_fresh : ∀ a, g.availId = some a → a ∉ g.resvedIds
  min_le_avail : ∀ a, g.availId = some a → g.minId ≤ a
  min_le : ∀ i ∈ g.resvedIds, g.minId ≤ i
  le_max : ∀ i ∈ g.resvedIds, ∃ m, g.maxResvedId = some m ∧ i ≤ m

theorem new_wf : new.WF := by
  refine ⟨?_, ?_, ?_, ?_⟩
  · intro a _
    exact Finset.notMem_empty a
  · intro a ha
    cases ha
    exact le_rfl
  · intro i hi
    exact absurd hi (Finset.notMem_empty i)
  · intro i hi
    exact absurd hi (Finset.notMem_empty i)

/-- The search for the next free id only moves up. -/
theorem le_nextAvailLoop (resved : Finset ℤ) (maxResved : Option ℤ) :
    ∀ fuel a, a ≤ nextAvailLoop resved maxResved fuel a := by
  intro fuel
  induction fuel with
  | zero => exact fun a => le_rfl
  | succ fuel ih =>
    intro a
    rw [nextAvailLoop]
    split_ifs
    · have := ih (a + 1)
      omega
    · exact le_rfl
    · exact le_rfl

/-- The search ends at an id that is not reserved, as soon as the greatest
reserved id bounds the reserved ids it can meet.  The induction is on the
fuel, which bounds the reserved ids still ahead. -/
theorem nextAvailLoop_notMem {resved : Finset ℤ} {maxResved : Option ℤ} :
    ∀ fuel a, (resved.filter (a ≤ ·)).card ≤ fuel →
      (∀ i ∈ resved, a ≤ i → ∃ m, maxResved = some m ∧ i ≤ m) →
      nextAvailLoop resved maxResved fuel a ∉ resved := by
  intro fuel
  induction fuel with
  | zero =>
    intro a hcard _ hmem
    have hnone := Finset.card_eq_zero.mp (Nat.le_zero.mp hcard)
    have : a ∈ resved.filter (a ≤ ·) := Finset.mem_filter.mpr ⟨hmem, le_rfl⟩
    rw [hnone] at this
    exact Finset.notMem_empty a this
  | succ fuel ih =>
    intro a hcard hbound
    rw [nextAvailLoop]
    split_ifs with hmax hmem
    · refine ih (a + 1) ?_ (fun i hi hai => hbound i hi (by omega))
      have hlt : (resved.filter (a + 1 ≤ ·)).card < (resved.filter (a ≤ ·)).card := by
        refine Finset.card_lt_card ⟨?_, ?_⟩
        · intro i hi
          rw [Finset.mem_filter] at hi ⊢
          exact ⟨hi.1, by omega⟩
        · intro hsub
          have ha := hsub (Finset.mem_filter.mpr ⟨hmem, le_rfl⟩)
          rw [Finset.mem_filter] at ha
          omega
      omega
    · exact hmem
    · intro hmem
      obtain ⟨m, rfl, ham⟩ := hbound a hmem le_rfl
      simp [ham] at hmax

/-- The search of `release_id` ends at or above every reserved id it started
above. -/
theorem le_maxResvedLoop {resved : Finset ℤ} {minId : ℤ} :
    ∀ (fuel : ℕ) (i : ℤ), i < minId + fuel → ∀ j ∈ resved, minId ≤ j → j ≤ i →
      j ≤ maxResvedLoop resved minId fuel i := by
  intro fuel
  induction fuel with
  | zero =>
    intro i hi j _ hmin hji
    omega
  | succ fuel ih =>
    intro i hi j hj hmin hji
    rw [maxResvedLoop]
    split_ifs with h1 h2
    · exact hji
    · have hne : j ≠ i := by
        rintro rfl
        exact h2 hj
      exact ih (i - 1) (by push_cast at hi; omega) j hj hmin (by omega)
    · exact hji

/-! ## What the operations do to the set -/

@[simp] theorem addId_resvedIds (g : IdGenerator) (i : ℤ) :
    (g.addId i).resvedIds = insert i g.resvedIds := rfl

@[simp] theorem addId_minId (g : IdGenerator) (i : ℤ) : (g.addId i).minId = g.minId := rfl

@[simp] theorem addId_maxResvedId (g : IdGenerator) (i : ℤ) :
    (g.addId i).maxResvedId = g.maxResvedId := rfl

@[simp] theorem raiseMax_resvedIds (g : IdGenerator) (i : ℤ) :
    (g.raiseMax i).resvedIds = g.resvedIds := by
  rw [raiseMax]
  split <;> rfl

@[simp] theorem raiseMax_minId (g : IdGenerator) (i : ℤ) :
    (g.raiseMax i).minId = g.minId := by
  rw [raiseMax]
  split <;> rfl

@[simp] theorem raiseMax_maxId (g : IdGenerator) (i : ℤ) : (g.raiseMax i).maxId = g.maxId := by
  rw [raiseMax]
  split <;> rfl

@[simp] theorem raiseMax_availId (g : IdGenerator) (i : ℤ) :
    (g.raiseMax i).availId = g.availId := by
  rw [raiseMax]
  split <;> rfl

/-- After `raiseMax` the hint bounds the new id and what it bounded before. -/
theorem raiseMax_bounds (g : IdGenerator) (i j : ℤ)
    (h : j = i ∨ ∃ m, g.maxResvedId = some m ∧ j ≤ m) :
    ∃ m, (g.raiseMax i).maxResvedId = some m ∧ j ≤ m := by
  rw [raiseMax]
  split_ifs with hmax
  · refine ⟨i, rfl, ?_⟩
    rcases h with rfl | ⟨m, hm, hjm⟩
    · exact le_rfl
    · rw [hm] at hmax
      have : m < i := by simpa using hmax
      omega
  · cases hm : g.maxResvedId with
    | none => simp [hm] at hmax
    | some m =>
      have him : i ≤ m := by simpa [hm] using hmax
      refine ⟨m, rfl, ?_⟩
      rcases h with rfl | ⟨m', hm', hjm⟩
      · exact him
      · rw [hm] at hm'
        cases hm'
        exact hjm

@[simp] theorem getNextAvailId_resvedIds (g : IdGenerator) :
    g.getNextAvailId.resvedIds = g.resvedIds := by
  rw [getNextAvailId]
  split <;> rfl

@[simp] theorem getNextAvailId_minId (g : IdGenerator) :
    g.getNextAvailId.minId = g.minId := by
  rw [getNextAvailId]
  split <;> rfl

@[simp] theorem getNextAvailId_maxId (g : IdGenerator) : g.getNextAvailId.maxId = g.maxId := by
  rw [getNextAvailId]
  split <;> rfl

@[simp] theorem getNextAvailId_maxResvedId (g : IdGenerator) :
    g.getNextAvailId.maxResvedId = g.maxResvedId := by
  rw [getNextAvailId]
  split <;> rfl

/-- The next id is free and above the one just taken, as soon as the greatest
reserved id bounds the reserved ids above that one. -/
theorem getNextAvailId_fresh {g : IdGenerator} {a b : ℤ} (ha : g.availId = some a)
    (hbound : ∀ i ∈ g.resvedIds, a < i → ∃ m, g.maxResvedId = some m ∧ i ≤ m)
    (hb : g.getNextAvailId.availId = some b) : b ∉ g.resvedIds ∧ a < b := by
  rw [getNextAvailId, ha] at hb
  dsimp only at hb
  split_ifs at hb
  cases hb
  refine ⟨?_, ?_⟩
  · refine nextAvailLoop_notMem _ _ (Finset.card_filter_le _ _) ?_
    exact fun i hi hai => hbound i hi (by omega)
  · have := le_nextAvailLoop g.resvedIds g.maxResvedId g.resvedIds.card (a + 1)
    omega

/-- A generator that takes the id `a` it would hand out next, and raises the
maximum to it, keeps its hints right. -/
theorem takeAvail_wf {g : IdGenerator} (hg : g.WF) {a : ℤ} (ha : g.availId = some a) :
    ((g.addId a).getNextAvailId.raiseMax a).WF := by
  have hmin := hg.min_le_avail a ha
  have hfresh : ∀ b, (g.addId a).getNextAvailId.availId = some b →
      b ∉ (g.addId a).resvedIds ∧ a < b := by
    intro b hb
    refine getNextAvailId_fresh ha ?_ hb
    intro i hi hai
    rcases Finset.mem_insert.mp hi with rfl | hi
    · exact absurd hai (lt_irrefl _)
    · exact hg.le_max i hi
  refine ⟨?_, ?_, ?_, ?_⟩
  · intro b hb
    rw [raiseMax_availId] at hb
    simpa using (hfresh b hb).1
  · intro b hb
    rw [raiseMax_availId] at hb
    have := (hfresh b hb).2
    simp only [raiseMax_minId, getNextAvailId_minId, addId_minId]
    omega
  · intro i hi
    simp only [raiseMax_resvedIds, getNextAvailId_resvedIds, addId_resvedIds,
      Finset.mem_insert] at hi
    simp only [raiseMax_minId, getNextAvailId_minId, addId_minId]
    rcases hi with rfl | hi
    · exact hmin
    · exact hg.min_le i hi
  · intro i hi
    simp only [raiseMax_resvedIds, getNextAvailId_resvedIds, addId_resvedIds,
      Finset.mem_insert] at hi
    refine raiseMax_bounds _ a i ?_
    rw [getNextAvailId_maxResvedId, addId_maxResvedId]
    exact hi.imp_right (hg.le_max i)

/-- `get_new_id` returns an id that was free and reserves it. -/
theorem getNewId_some {g g' : IdGenerator} (hg : g.WF) {a : ℤ}
    (h : g.getNewId = (some a, g')) :
    g'.WF ∧ a ∉ g.resvedIds ∧ g'.resvedIds = insert a g.resvedIds := by
  rw [getNewId] at h
  split at h
  · cases h
  · rename_i b hb
    obtain ⟨hab, rfl⟩ := Prod.mk.inj h
    cases hab
    exact ⟨takeAvail_wf hg hb, hg.avail_fresh a hb, by simp⟩

/-- `get_new_id` changes nothing when it has no id left. -/
theorem getNewId_none {g g' : IdGenerator} (h : g.getNewId = (none, g')) : g' = g := by
  rw [getNewId] at h
  split at h <;> cases h
  rfl

/-- A refused `reserve_id` changes nothing. -/
theorem reserveId_false {g g' : IdGenerator} {i : ℤ}
    (h : g.reserveId i = (false, g')) : g' = g := by
  rw [reserveId] at h
  split_ifs at h with hrange hmem havail
  · exact (Prod.mk.inj h).2.symm
  · exact (Prod.mk.inj h).2.symm
  · exact Bool.noConfusion (Prod.mk.inj h).1
  · exact Bool.noConfusion (Prod.mk.inj h).1

/-- A successful `reserve_id` reserves an id that was free. -/
theorem reserveId_true {g g' : IdGenerator} (hg : g.WF) {i : ℤ}
    (h : g.reserveId i = (true, g')) :
    g'.WF ∧ i ∉ g.resvedIds ∧ g'.resvedIds = insert i g.resvedIds := by
  rw [reserveId] at h
  split_ifs at h with hrange hmem havail
  · exact Bool.noConfusion (Prod.mk.inj h).1
  · exact Bool.noConfusion (Prod.mk.inj h).1
  · obtain rfl := (Prod.mk.inj h).2
    exact ⟨takeAvail_wf hg havail, hmem, by simp⟩
  · obtain rfl := (Prod.mk.inj h).2
    refine ⟨⟨?_, ?_, ?_, ?_⟩, hmem, by simp⟩
    · intro a ha
      rw [raiseMax_availId] at ha
      rw [raiseMax_resvedIds, addId_resvedIds, Finset.mem_insert, not_or]
      refine ⟨?_, hg.avail_fresh a ha⟩
      rintro rfl
      exact havail ha
    · intro a ha
      rw [raiseMax_availId] at ha
      rw [raiseMax_minId, addId_minId]
      exact hg.min_le_avail a ha
    · intro j hj
      rw [raiseMax_resvedIds, addId_resvedIds, Finset.mem_insert] at hj
      rw [raiseMax_minId, addId_minId]
      rcases hj with rfl | hj
      · exact not_lt.mp (not_or.mp hrange).1
      · exact hg.min_le j hj
    · intro j hj
      rw [raiseMax_resvedIds, addId_resvedIds, Finset.mem_insert] at hj
      exact raiseMax_bounds _ i j (hj.imp_right (hg.le_max j))

@[simp] theorem lowerMax_resvedIds (g : IdGenerator) (i : ℤ) :
    (g.lowerMax i).resvedIds = g.resvedIds := by
  rw [lowerMax]
  split <;> rfl

@[simp] theorem lowerMax_minId (g : IdGenerator) (i : ℤ) :
    (g.lowerMax i).minId = g.minId := by
  rw [lowerMax]
  split <;> rfl

@[simp] theorem lowerMax_maxId (g : IdGenerator) (i : ℤ) : (g.lowerMax i).maxId = g.maxId := by
  rw [lowerMax]
  split <;> rfl

@[simp] theorem lowerMax_availId (g : IdGenerator) (i : ℤ) :
    (g.lowerMax i).availId = g.availId := by
  rw [lowerMax]
  split <;> rfl

/-- After `lowerMax` the hint still bounds an id that is reserved. -/
theorem lowerMax_bounds {g : IdGenerator} (i : ℤ) {j : ℤ} (hj : j ∈ g.resvedIds)
    (hmin : g.minId ≤ j) (hmax : ∃ m, g.maxResvedId = some m ∧ j ≤ m) :
    ∃ m, (g.lowerMax i).maxResvedId = some m ∧ j ≤ m := by
  rw [lowerMax]
  split_ifs with hi
  · obtain ⟨m, hm, hjm⟩ := hmax
    rw [hi] at hm
    cases hm
    have hle := le_maxResvedLoop (i - g.minId + 1).toNat i (by omega) j hj hmin hjm
    refine ⟨_, if_neg ?_, hle⟩
    exact not_lt.mpr (hmin.trans hle)
  · exact hmax

/-- `release_id` takes the id out of the set. -/
theorem releaseId_resvedIds (g : IdGenerator) (i : ℤ) :
    (g.releaseId i).2.resvedIds = g.resvedIds.erase i := by
  rw [releaseId]
  split_ifs with hmem
  · rw [lowerMax_resvedIds, dropId]
  · exact (Finset.erase_eq_of_notMem hmem).symm

/-- `release_id` keeps the hints right. -/
theorem releaseId_wf {g : IdGenerator} (hg : g.WF) (i : ℤ) : (g.releaseId i).2.WF := by
  rw [releaseId]
  split_ifs with hmem
  · have havail : ∀ a, (g.dropId i).availId = some a → a = i ∨ g.availId = some a := by
      intro a ha
      obtain ⟨b, hb, rfl⟩ := Option.map_eq_some_iff.mp ha
      split_ifs
      · exact Or.inl rfl
      · exact Or.inr hb
    refine ⟨?_, ?_, ?_, ?_⟩
    · intro a ha
      rw [lowerMax_availId] at ha
      rw [lowerMax_resvedIds]
      rcases havail a ha with rfl | ha
      · exact Finset.notMem_erase _ _
      · exact fun h => hg.avail_fresh a ha (Finset.mem_of_mem_erase h)
    · intro a ha
      rw [lowerMax_availId] at ha
      rw [lowerMax_minId]
      rcases havail a ha with rfl | ha
      · exact hg.min_le _ hmem
      · exact hg.min_le_avail a ha
    · intro j hj
      rw [lowerMax_resvedIds] at hj
      rw [lowerMax_minId]
      exact hg.min_le j (Finset.mem_of_mem_erase hj)
    · intro j hj
      rw [lowerMax_resvedIds] at hj
      have hjr := Finset.mem_of_mem_erase hj
      exact lowerMax_bounds i hj (hg.min_le j hjr) (hg.le_max j hjr)
  · exact hg

end IdGenerator

end OpxNasLinux
