import OpxNasLinux.IdTool
import OpxNasLinux.Lib.Pool
import OpxNasLinux.Lib.Run

/-!
# Which id the generator hands out

`IdTool` shows that a new id is fresh.  This file says which fresh id it is:
the lowest one of the range, and `none` when the range is used up.  The two
hints of the class are then exact and not only bounds, which is `Exact`.

`release_id` lowers `avail_id` with the comparison `obj_id < self.avail_id`.
After the range is used up `avail_id` is `None`, which no number is below, so
the released id does not come back.  `right_iff` says for a whole run that
this, and a range that is empty from the start, is all that can go wrong.
-/

namespace OpxNasLinux

namespace IdGenerator

open Pool

/-- `__init__`.  `none` is its `ValueError`. -/
def init (minId maxId : Option ℤ) : Option IdGenerator :=
  if minId.any (fun lo => maxId.any (fun hi => decide (hi ≤ lo))) then none
  else
    let lo := minId.getD 1
    some { resvedIds := ∅, minId := lo, maxId, availId := some lo, maxResvedId := none }

/-- The ids that the generator may hand out. -/
def range (g : IdGenerator) : Set ℤ :=
  {i | g.minId ≤ i ∧ ∀ hi, g.maxId = some hi → i ≤ hi}

/-- A call of the class. -/
inductive Call where
  | getNewId
  | reserveId (i : ℤ)
  | releaseId (i : ℤ)

/-- The generator after a call. -/
def call (g : IdGenerator) : Call → IdGenerator
  | .getNewId => g.getNewId.2
  | .reserveId i => (g.reserveId i).2
  | .releaseId i => (g.releaseId i).2

/-- Every call made in this state answers as its name says, and
`max_resved_id` is the greatest reserved id. -/
structure Right (g : IdGenerator) : Prop where
  new_answer : LowestFree g.range ↑g.resvedIds g.getNewId.1
  new_reserved : ∀ j, j ∈ g.getNewId.2.resvedIds ↔ g.getNewId.1 = some j ∨ j ∈ g.resvedIds
  reserve_answer : ∀ i, (g.reserveId i).1 = true ↔ i ∈ g.range ∧ i ∉ g.resvedIds
  reserve_reserved : ∀ i j, j ∈ (g.reserveId i).2.resvedIds ↔
    (j = i ∧ i ∈ g.range) ∨ j ∈ g.resvedIds
  release_answer : ∀ i, (g.releaseId i).1 = true ↔ i ∈ g.resvedIds
  release_reserved : ∀ i j, j ∈ (g.releaseId i).2.resvedIds ↔ j ≠ i ∧ j ∈ g.resvedIds
  in_range : ∀ i ∈ g.resvedIds, i ∈ g.range
  greatest : Greatest ↑g.resvedIds g.maxResvedId

/-- The two hints are exact. -/
structure Exact (g : IdGenerator) : Prop where
  lowest : LowestFree g.range ↑g.resvedIds g.availId
  in_range : ∀ i ∈ g.resvedIds, i ∈ g.range
  greatest : Greatest ↑g.resvedIds g.maxResvedId

/-! ## The range stays -/

@[simp] theorem addId_maxId (g : IdGenerator) (i : ℤ) : (g.addId i).maxId = g.maxId := rfl

@[simp] theorem addId_availId (g : IdGenerator) (i : ℤ) : (g.addId i).availId = g.availId := rfl

theorem range_congr {g g' : IdGenerator} (hmin : g'.minId = g.minId)
    (hmax : g'.maxId = g.maxId) : g'.range = g.range := by
  rw [range, range, hmin, hmax]

theorem getNewId_range (g : IdGenerator) : g.getNewId.2.range = g.range := by
  rw [getNewId]
  split
  · rfl
  · apply range_congr <;> simp

theorem reserveId_range (g : IdGenerator) (i : ℤ) : (g.reserveId i).2.range = g.range := by
  rw [reserveId]
  split_ifs
  · rfl
  · rfl
  · apply range_congr <;> simp
  · apply range_congr <;> simp

theorem releaseId_range (g : IdGenerator) (i : ℤ) : (g.releaseId i).2.range = g.range := by
  rw [releaseId]
  split_ifs
  · apply range_congr <;> simp [dropId]
  · rfl

theorem call_range (g : IdGenerator) (c : Call) : (g.call c).range = g.range := by
  cases c with
  | getNewId => exact getNewId_range g
  | reserveId i => exact reserveId_range g i
  | releaseId i => exact releaseId_range g i

/-! ## The two searches are exact -/

/-- The search for the next free id only passes reserved ids. -/
theorem nextAvailLoop_passed {resved : Finset ℤ} {maxResved : Option ℤ} :
    ∀ fuel a i, a ≤ i → i < nextAvailLoop resved maxResved fuel a → i ∈ resved := by
  intro fuel
  induction fuel with
  | zero =>
    intro a i hai hi
    rw [nextAvailLoop] at hi
    omega
  | succ fuel ih =>
    intro a i hai hi
    rw [nextAvailLoop] at hi
    split_ifs at hi with hmax hmem
    · by_cases hia : i = a
      · rwa [hia]
      · exact ih (a + 1) i (by omega) hi
    · omega
    · omega

/-- The search of `release_id` ends at a reserved id or below the range. -/
theorem maxResvedLoop_end {resved : Finset ℤ} {minId : ℤ} :
    ∀ (fuel : ℕ) (i : ℤ), i < minId + fuel →
      maxResvedLoop resved minId fuel i ∈ resved ∨ maxResvedLoop resved minId fuel i < minId := by
  intro fuel
  induction fuel with
  | zero =>
    intro i hi
    rw [maxResvedLoop]
    exact Or.inr (by omega)
  | succ fuel ih =>
    intro i hi
    rw [maxResvedLoop]
    split_ifs with h1 h2
    · exact Or.inl h2
    · exact ih (i - 1) (by push_cast at hi; omega)
    · exact Or.inr (not_le.mp h1)

/-! ## What each operation keeps -/

theorem raiseMax_maxResvedId (g : IdGenerator) (i : ℤ) :
    (g.raiseMax i).maxResvedId =
      if g.maxResvedId.all (fun m => decide (m < i)) then some i else g.maxResvedId := by
  rw [raiseMax]
  split <;> rfl

theorem getNextAvailId_addId {g : IdGenerator} {a : ℤ} (ha : g.availId = some a) (b : ℤ)
    (hb : b = nextAvailLoop (insert a g.resvedIds) g.maxResvedId
      (insert a g.resvedIds).card (a + 1)) :
    (g.addId a).getNextAvailId.availId =
      if g.maxId.any (fun m => decide (m < b)) then none else some b := by
  have havail : (g.addId a).availId = some a := ha
  rw [getNextAvailId, havail]
  subst hb
  rfl

/-- The id that comes after the lowest free one. -/
theorem getNextAvailId_lowest {g : IdGenerator} (hg : g.Exact) {a : ℤ}
    (ha : g.availId = some a) :
    LowestFree g.range (insert a ↑g.resvedIds) (g.addId a).getNextAvailId.availId := by
  have hlow := hg.lowest
  rw [ha] at hlow
  have hle : ∀ i ∈ insert a g.resvedIds, a < i → ∃ m, g.maxResvedId = some m ∧ i ≤ m := by
    intro i hi hai
    rcases Finset.mem_insert.mp hi with rfl | hi
    · exact absurd hai (lt_irrefl _)
    have hgreat := hg.greatest
    cases hm : g.maxResvedId with
    | none =>
      rw [hm, Greatest] at hgreat
      exact absurd (Finset.mem_coe.mpr hi) (hgreat ▸ Set.notMem_empty i)
    | some m =>
      rw [hm] at hgreat
      exact ⟨m, rfl, hgreat.2 hi⟩
  obtain ⟨b, hb⟩ : ∃ b, b = nextAvailLoop (insert a g.resvedIds) g.maxResvedId
    (insert a g.resvedIds).card (a + 1) := ⟨_, rfl⟩
  rw [getNextAvailId_addId ha b hb]
  have hab : a < b := by
    have := le_nextAvailLoop (insert a g.resvedIds) g.maxResvedId
      (insert a g.resvedIds).card (a + 1)
    omega
  have hfree : b ∉ insert a g.resvedIds := by
    rw [hb]
    refine nextAvailLoop_notMem _ _ (Finset.card_filter_le _ _) ?_
    exact fun i hi hai => hle i hi (by omega)
  have hpassed : ∀ i, a < i → i < b → i ∈ g.resvedIds := by
    intro i hai hib
    rw [hb] at hib
    have hmem := nextAvailLoop_passed _ (a + 1) i (by omega) hib
    rcases Finset.mem_insert.mp hmem with rfl | hmem
    · exact absurd hai (lt_irrefl _)
    · exact hmem
  by_cases hout : g.maxId.any (fun m => decide (m < b)) = true
  · rw [if_pos hout]
    refine hlow.takeLast ?_
    intro i hi hai
    cases hhi : g.maxId with
    | none => simp [hhi] at hout
    | some m =>
      have hmb : m < b := by simpa [hhi] using hout
      exact hpassed i hai (lt_of_le_of_lt (hi.2 m hhi) hmb)
  · rw [if_neg hout]
    refine hlow.take ⟨?_, ?_⟩ hab ?_ hpassed
    · exact hlow.1.1.1.trans hab.le
    · intro m hhi
      rw [hhi] at hout
      simpa using hout
    · exact fun hmem => hfree (Finset.mem_insert_of_mem hmem)

/-- The lowest free id is reserved, by `get_new_id` or by `reserve_id`. -/
theorem takeAvail_exact {g : IdGenerator} (hg : g.Exact) {a : ℤ} (ha : g.availId = some a) :
    ((g.addId a).getNextAvailId.raiseMax a).Exact := by
  have hrange : ((g.addId a).getNextAvailId.raiseMax a).range = g.range := by
    apply range_congr <;> simp
  have hlow := hg.lowest
  rw [ha] at hlow
  refine ⟨?_, ?_, ?_⟩
  · rw [hrange, raiseMax_availId, raiseMax_resvedIds, getNextAvailId_resvedIds, addId_resvedIds,
      Finset.coe_insert]
    exact getNextAvailId_lowest hg ha
  · intro i hi
    rw [raiseMax_resvedIds, getNextAvailId_resvedIds, addId_resvedIds, Finset.mem_insert] at hi
    rw [hrange]
    rcases hi with rfl | hi
    · exact hlow.1.1
    · exact hg.in_range i hi
  · have huse := hg.greatest.use a
    rwa [raiseMax_resvedIds, getNextAvailId_resvedIds, addId_resvedIds, Finset.coe_insert,
      raiseMax_maxResvedId, getNextAvailId_maxResvedId, addId_maxResvedId]

/-- An id that is not the lowest free one is reserved. -/
theorem reserveOther_exact {g : IdGenerator} (hg : g.Exact) {i : ℤ} (hi : i ∈ g.range)
    (hne : g.availId ≠ some i) : ((g.addId i).raiseMax i).Exact := by
  have hrange : ((g.addId i).raiseMax i).range = g.range := by
    apply range_congr <;> simp
  refine ⟨?_, ?_, ?_⟩
  · rw [hrange, raiseMax_availId, raiseMax_resvedIds, addId_resvedIds, Finset.coe_insert]
    exact hg.lowest.use hne
  · intro j hj
    rw [raiseMax_resvedIds, addId_resvedIds, Finset.mem_insert] at hj
    rw [hrange]
    rcases hj with rfl | hj
    · exact hi
    · exact hg.in_range j hj
  · have huse := hg.greatest.use i
    rwa [raiseMax_resvedIds, addId_resvedIds, Finset.coe_insert, raiseMax_maxResvedId,
      addId_maxResvedId]

/-- The new maximum after a release. -/
theorem lowerMax_greatest {g : IdGenerator} (hg : g.Exact) (i : ℤ) :
    Greatest (↑g.resvedIds \ {i}) ((g.dropId i).lowerMax i).maxResvedId := by
  rw [lowerMax]
  split_ifs with hmax
  · have hgreat := hg.greatest
    have htop : g.maxResvedId = some i := hmax
    rw [htop] at hgreat
    have hmin : ∀ j ∈ g.resvedIds, g.minId ≤ j := fun j hj => (hg.in_range j hj).1
    obtain ⟨m, hm⟩ : ∃ m, m = maxResvedLoop (g.resvedIds.erase i) g.minId
      (i - g.minId + 1).toNat i := ⟨_, rfl⟩
    have hbound : ∀ j ∈ g.resvedIds.erase i, j ≤ m := by
      intro j hj
      rw [hm]
      have hjr := Finset.mem_of_mem_erase hj
      exact le_maxResvedLoop _ i (by omega) j hj (hmin j hjr) (hgreat.2 hjr)
    have hbelow : (g.dropId i).maxResvedBelow i = if m < g.minId then none else some m := by
      rw [hm]
      rfl
    show Greatest _ ((g.dropId i).maxResvedBelow i)
    rw [hbelow, ← Finset.coe_erase]
    split_ifs with hlt
    · rw [Greatest, Finset.coe_eq_empty, Finset.eq_empty_iff_forall_notMem]
      intro j hj
      have h1 := hbound j hj
      have h2 := hmin j (Finset.mem_of_mem_erase hj)
      omega
    · refine ⟨?_, fun j hj => hbound j hj⟩
      rw [hm] at hlt ⊢
      exact (maxResvedLoop_end _ i (by omega)).resolve_right hlt
  · exact hg.greatest.giveBack hmax

/-- An id is released while another one is free. -/
theorem releaseId_exact {g : IdGenerator} (hg : g.Exact) {i : ℤ} (hi : i ∈ g.resvedIds)
    (hroom : ¬ g.range ⊆ ↑g.resvedIds) : ((g.dropId i).lowerMax i).Exact := by
  have hrange : ((g.dropId i).lowerMax i).range = g.range := by
    apply range_congr <;> simp [dropId]
  have herase : (↑((g.dropId i).lowerMax i).resvedIds : Set ℤ) = ↑g.resvedIds \ {i} := by
    rw [lowerMax_resvedIds, dropId, Finset.coe_erase]
  refine ⟨?_, ?_, ?_⟩
  · rw [hrange, herase, lowerMax_availId, dropId]
    have hlow := hg.lowest
    cases ha : g.availId with
    | none =>
      rw [ha] at hlow
      exact absurd hlow hroom
    | some a =>
      rw [ha] at hlow
      exact hlow.giveBack (hg.in_range i hi)
  · intro j hj
    rw [lowerMax_resvedIds] at hj
    rw [hrange]
    exact hg.in_range j (Finset.mem_of_mem_erase hj)
  · rw [herase]
    exact lowerMax_greatest hg i

/-! ## Every call answers right -/

theorem getNewId_answer (g : IdGenerator) : g.getNewId.1 = g.availId := by
  rw [getNewId]
  split
  · rename_i h
    exact h.symm
  · rename_i a h
    exact h.symm

/-- The range test of `reserve_id`. -/
theorem notMem_range_iff {g : IdGenerator} {i : ℤ} :
    (i < g.minId ∨ g.maxId.any (fun m => decide (m < i))) ↔ i ∉ g.range := by
  have hrange : i ∈ g.range ↔ g.minId ≤ i ∧ ∀ hi, g.maxId = some hi → i ≤ hi := Iff.rfl
  rw [hrange, not_and_or, not_le]
  cases g.maxId with
  | none => simp
  | some m => simp

theorem reserveId_true_iff (g : IdGenerator) (i : ℤ) :
    (g.reserveId i).1 = true ↔ i ∈ g.range ∧ i ∉ g.resvedIds := by
  rw [reserveId]
  split_ifs with hout hmem havail
  · have hnot := notMem_range_iff.mp hout
    simp [hnot]
  · simp [hmem]
  · have hin := not_not.mp (mt notMem_range_iff.mpr hout)
    simp [hin, hmem]
  · have hin := not_not.mp (mt notMem_range_iff.mpr hout)
    simp [hin, hmem]

theorem mem_reserveId_iff (g : IdGenerator) (i j : ℤ) :
    j ∈ (g.reserveId i).2.resvedIds ↔ (j = i ∧ i ∈ g.range) ∨ j ∈ g.resvedIds := by
  rw [reserveId]
  split_ifs with hout hmem havail
  · have hnot := notMem_range_iff.mp hout
    simp [hnot]
  · constructor
    · exact Or.inr
    · rintro (⟨rfl, -⟩ | hj)
      · exact hmem
      · exact hj
  · have hin := not_not.mp (mt notMem_range_iff.mpr hout)
    simp [hin]
  · have hin := not_not.mp (mt notMem_range_iff.mpr hout)
    simp [hin]

theorem mem_getNewId_iff (g : IdGenerator) (j : ℤ) :
    j ∈ g.getNewId.2.resvedIds ↔ g.getNewId.1 = some j ∨ j ∈ g.resvedIds := by
  rw [getNewId]
  split
  · simp
  · simp [eq_comm]

theorem Exact.right {g : IdGenerator} (hg : g.Exact) : g.Right where
  new_answer := by
    rw [getNewId_answer]
    exact hg.lowest
  new_reserved := mem_getNewId_iff g
  reserve_answer := reserveId_true_iff g
  reserve_reserved := mem_reserveId_iff g
  release_answer := by
    intro i
    rw [releaseId]
    split_ifs with hmem
    · simp [hmem]
    · simp [hmem]
  release_reserved := by
    intro i j
    rw [releaseId_resvedIds, Finset.mem_erase]
  in_range := hg.in_range
  greatest := hg.greatest

/-! ## Whole runs -/

/-- No reserved id is released while the whole range is reserved. -/
def ReleasedInTime (g : IdGenerator) : Call → Prop
  | .releaseId i => i ∈ g.resvedIds → ¬ g.range ⊆ ↑g.resvedIds
  | _ => True

theorem call_exact {g : IdGenerator} (hg : g.Exact) {c : Call} (hc : g.ReleasedInTime c) :
    (g.call c).Exact := by
  cases c with
  | getNewId =>
    show g.getNewId.2.Exact
    rw [getNewId]
    split
    · exact hg
    · exact takeAvail_exact hg ‹_›
  | reserveId i =>
    show (g.reserveId i).2.Exact
    rw [reserveId]
    split_ifs with hout hmem havail
    · exact hg
    · exact hg
    · exact takeAvail_exact hg havail
    · exact reserveOther_exact hg (not_not.mp (mt notMem_range_iff.mpr hout)) havail
  | releaseId i =>
    show (g.releaseId i).2.Exact
    rw [releaseId]
    split_ifs with hmem
    · exact releaseId_exact hg hmem (hc hmem)
    · exact hg

/-- An id released while the whole range is reserved does not come back. -/
theorem releasedInTime_of_right {g : IdGenerator} (hg : g.Exact) {c : Call}
    (hc : (g.call c).Right) : g.ReleasedInTime c := by
  cases c with
  | getNewId => trivial
  | reserveId i => trivial
  | releaseId i =>
    intro hmem hfull
    have hnone : g.availId = none := hg.lowest.none_iff.mpr hfull
    have hnew := hc.new_answer
    rw [getNewId_answer, call_range] at hnew
    have havail : (g.call (.releaseId i)).availId = none := by
      show (g.releaseId i).2.availId = none
      rw [releaseId, if_pos hmem, lowerMax_availId, dropId, hnone]
      rfl
    rw [havail] at hnew
    have hback : i ∈ (g.releaseId i).2.resvedIds := hnew (hg.in_range i hmem)
    rw [releaseId_resvedIds] at hback
    exact Finset.notMem_erase i _ hback

theorem init_some {minId maxId : Option ℤ} {g : IdGenerator} (h : init minId maxId = some g) :
    g.resvedIds = ∅ ∧ g.availId = some g.minId ∧ g.maxResvedId = none := by
  rw [init] at h
  split_ifs at h
  cases h
  exact ⟨rfl, rfl, rfl⟩

theorem init_exact {minId maxId : Option ℤ} {g : IdGenerator} (h : init minId maxId = some g)
    (hrange : g.range.Nonempty) : g.Exact := by
  obtain ⟨hids, havail, hmax⟩ := init_some h
  refine ⟨?_, ?_, ?_⟩
  · rw [havail, hids, Finset.coe_empty]
    obtain ⟨i, hi⟩ := hrange
    refine ⟨⟨⟨le_rfl, ?_⟩, Set.notMem_empty _⟩, fun j hj => hj.1.1⟩
    exact fun hi' hhi => hi.1.trans (hi.2 hi' hhi)
  · intro i hi
    rw [hids] at hi
    exact absurd hi (Finset.notMem_empty i)
  · rw [hmax, hids, Finset.coe_empty]
    rfl

/-- In every state of a run every call answers right exactly when the range
is not empty and no reserved id is released while the whole range is
reserved. -/
theorem right_iff (minId maxId : Option ℤ) (g : IdGenerator) (h : init minId maxId = some g)
    (calls : List Call) :
    (∀ made, made <+: calls → (Run.run call g made).Right) ↔
      g.range.Nonempty ∧ Run.Along call ReleasedInTime g calls := by
  have hrun : g.Exact → ((∀ made, made <+: calls → (Run.run call g made).Right) ↔
      Run.Along call ReleasedInTime g calls) := fun hg =>
    Run.prefixes_iff (fun _ hs => hs.right) (fun _ _ hs hgood => releasedInTime_of_right hs hgood)
      (fun _ _ hs hc => call_exact hs hc) hg
  constructor
  · intro hright
    have hfirst : g.Right := hright [] (List.nil_prefix)
    have hrange : g.range.Nonempty := by
      have hnew := hfirst.new_answer
      rw [getNewId_answer, (init_some h).2.1] at hnew
      exact ⟨g.minId, hnew.1.1⟩
    exact ⟨hrange, (hrun (init_exact h hrange)).mp hright⟩
  · rintro ⟨hrange, halong⟩
    exact (hrun (init_exact h hrange)).mpr halong

/-- Two ids, both used, the first given back. -/
theorem right_iff_two : Run.Along call ReleasedInTime
      ((init (some 10) (some 11)).get (by decide)) [.getNewId, .releaseId 10, .getNewId] ∧
    ∀ made, made <+: [.getNewId, .releaseId 10, .getNewId] →
      (Run.run call ((init (some 10) (some 11)).get (by decide)) made).Right := by
  have h11 : (11 : ℤ) ∉ ({10} : Finset ℤ) := by decide
  have halong : Run.Along call ReleasedInTime
      ((init (some 10) (some 11)).get (by decide)) [.getNewId, .releaseId 10, .getNewId] := by
    refine ⟨trivial, ?_, trivial, trivial⟩
    intro _ hfull
    refine h11 (hfull ⟨by decide, ?_⟩)
    intro hi hhi
    cases hhi
    decide
  refine ⟨halong, ?_⟩
  refine (right_iff (some 10) (some 11) _ (Option.some_get _).symm _).mpr ⟨⟨10, ?_⟩, halong⟩
  refine ⟨by decide, ?_⟩
  intro hi hhi
  cases hhi
  decide

/-- `IdGenerator(10, 11)`: both ids are handed out, 10 is released, and the
next `get_new_id` still returns `None`. -/
theorem released_id_not_handed_out :
    ¬ ∀ (minId maxId : Option ℤ) (g : IdGenerator), init minId maxId = some g →
      ∀ calls made, made <+: calls → (Run.run call g made).Right := by
  intro hall
  have hright := hall (some 10) (some 11) _ (Option.some_get (by decide)).symm _
    [.getNewId, .getNewId, .releaseId 10] (List.prefix_refl _)
  have hnew := hright.new_answer
  have hmem : (10 : ℤ) ∈ (Run.run call ((init (some 10) (some 11)).get (by decide))
      [.getNewId, .getNewId, .releaseId 10]).resvedIds := by
    refine hnew ⟨by decide, ?_⟩
    intro hi hhi
    cases hhi
    decide
  exact absurd hmem (by decide)

end IdGenerator

end OpxNasLinux
