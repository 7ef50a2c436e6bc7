import Mathlib.Data.Finset.Basic
import OpxNasLinux.Lib.Alloc
import OpxNasLinux.Lib.Run
import OpxNasLinux.Lib.TwoWay
import OpxNasLinux.SvcsRule

/-!
# The ids of the VRFs

`nas_os_update_vrf_id` gives every VRF an id.  It keeps two maps, one in each
direction, and an id generator.  The management VRF has an id of its own that
does not come from the generator.

A delete gives back the id that it reads through an iterator into the map, and
it reads it after the entry is gone.  What that read yields is a part of the
request.

* `Consistent` is the invariant: the two maps are inverse to each other, and
  the ids in use are those of the VRFs other than the management VRF.
* `update_consistent` is the step, `deleteVrf_consistent_iff` says that its
  condition is exact.
* `vrf_ids_consistent` is the run.
-/

namespace OpxNasLinux

open Run

namespace VrfIds

/-! ## The code -/

/-- `nas::id_generator_t`: the ids in use, a request for another one that may
throw, and the release of one. -/
structure IdGenerator where
  State : Type
  empty : State
  inUse : State → Finset ℕ
  allocId : State → Option (ℕ × State)
  releaseId : ℕ → State → State
  inUse_empty : inUse empty = ∅
  /-- An id that is handed out was not in use and is in use from then on. -/
  allocId_fresh : ∀ s i s', allocId s = some (i, s') → i ∉ inUse s
  inUse_allocId : ∀ s i s', allocId s = some (i, s') → inUse s' = insert i (inUse s)
  /-- A release frees its id and no other. -/
  inUse_releaseId : ∀ s i, inUse (releaseId i s) = (inUse s).erase i

/-- What `nas_vrf_utils.h` defines, and the generator. -/
structure VrfDefs where
  defaultVrfName : Str
  defaultVrfId : ℕ
  mgmtVrfName : Str
  mgmtVrfId : ℕ
  vrfNameSz : ℕ
  generator : IdGenerator
  /-- The name of the management VRF is shorter than the names that are compared. -/
  mgmtVrfName_short : mgmtVrfName.length < vrfNameSz
  /-- The id of the management VRF is not one of the generator. -/
  mgmtVrfId_reserved : ∀ s i s', generator.allocId s = some (i, s') → i ≠ mgmtVrfId

/-- `strncmp(a, b, n) == 0`. -/
def strncmpEq (a b : Str) (n : ℕ) : Bool := decide (a.take n = b.take n)

variable (defs : VrfDefs)

/-- `vrf_map`, `vrf_id_map` and `vrf_id_gen`. -/
structure Tables where
  vrfMap : Dict Str ℕ
  vrfIdMap : Dict ℕ Str
  vrfIdGen : defs.generator.State

/-- The maps before the first VRF. -/
def Tables.initial : Tables defs := ⟨∅, ∅, defs.generator.empty⟩

/-- What a call gives back: success with what is stored through `p_vrf_id`, or
the error. -/
inductive Status where
  | ok (vrfId : Option ℕ)
  | fail
deriving DecidableEq

variable {defs}

/-- The delete of `nas_os_update_vrf_id`.  `stale` is what `it->second` reads
after the entry is erased. -/
def deleteVrf (vrfName : Str) (stale : ℕ) (t : Tables defs) : Status × Tables defs :=
  match t.vrfMap.lookup vrfName with
  | some vrfId =>
    (.ok none, ⟨t.vrfMap.erase vrfName, t.vrfIdMap.erase vrfId,
      defs.generator.releaseId stale t.vrfIdGen⟩)
  | none => (.ok none, t)

/-- The id of a new VRF. -/
def newId (vrfName : Str) (gen : defs.generator.State) : Option (ℕ × defs.generator.State) :=
  if strncmpEq vrfName defs.mgmtVrfName defs.vrfNameSz then some (defs.mgmtVrfId, gen)
  else defs.generator.allocId gen

/-- The add of `nas_os_update_vrf_id`. -/
def addVrf (vrfName : Str) (t : Tables defs) : Status × Tables defs :=
  match t.vrfMap.lookup vrfName with
  | some _ => (.fail, t)
  | none =>
    match newId vrfName t.vrfIdGen with
    | none => (.fail, t)
    | some (vrfId, gen) =>
      (.ok (some vrfId), ⟨t.vrfMap.insert vrfName vrfId, t.vrfIdMap.insert vrfId vrfName, gen⟩)

/-- `nas_os_update_vrf_id`. -/
def nasOsUpdateVrfId (isAdd : Bool) (vrfName : Str) (stale : ℕ) (t : Tables defs) :
    Status × Tables defs :=
  if isAdd then addVrf vrfName t else deleteVrf vrfName stale t

/-- `nas_os_get_vrf_name`. -/
def nasOsGetVrfName (vrfId : ℕ) (t : Tables defs) : Option Str :=
  if vrfId = defs.defaultVrfId then some defs.defaultVrfName
  else if vrfId = defs.mgmtVrfId then some defs.mgmtVrfName
  else t.vrfIdMap.lookup vrfId

/-- An add or a delete, with what a delete reads after the entry is gone. -/
structure Request where
  isAdd : Bool
  vrfName : Str
  stale : ℕ

/-- The tables after a call. -/
def step (t : Tables defs) (q : Request) : Tables defs :=
  (nasOsUpdateVrfId q.isAdd q.vrfName q.stale t).2

/-! ## The invariant -/

/-- The two maps are inverse to each other, and the ids in use are those of the
VRFs other than the management VRF. -/
structure Consistent (t : Tables defs) : Prop where
  twoWay : TwoWay t.vrfMap t.vrfIdMap
  inUse : ∀ i, i ∈ defs.generator.inUse t.vrfIdGen ↔
    ∃ n, t.vrfMap.lookup n = some i ∧ n ≠ defs.mgmtVrfName

/-- The management VRF has its own id, and no other VRF has it. -/
def MgmtApart (t : Tables defs) : Prop :=
  ∀ n i, t.vrfMap.lookup n = some i → (n = defs.mgmtVrfName ↔ i = defs.mgmtVrfId)

/-- What a delete of a VRF reads is the id of the VRF.  For the management VRF
it may be any id that is not in use. -/
def ReadsBack (t : Tables defs) (q : Request) : Prop :=
  q.isAdd = false → ∀ i, t.vrfMap.lookup q.vrfName = some i →
    (q.vrfName ≠ defs.mgmtVrfName → q.stale = i) ∧
      (q.vrfName = defs.mgmtVrfName → q.stale ∉ defs.generator.inUse t.vrfIdGen)

/-- The comparison with the name of the management VRF takes in the whole name. -/
theorem strncmpEq_mgmt {n : Str} :
    strncmpEq n defs.mgmtVrfName defs.vrfNameSz = true ↔ n = defs.mgmtVrfName := by
  have hshort := defs.mgmtVrfName_short
  rw [strncmpEq, decide_eq_true_iff, List.take_of_length_le (Nat.le_of_lt hshort)]
  constructor
  · intro h
    have hlen := congrArg List.length h
    rw [List.length_take] at hlen
    rw [← h, List.take_of_length_le]
    omega
  · rintro rfl
    exact List.take_of_length_le (Nat.le_of_lt hshort)

/-- A new id: the one of the management VRF, or one that was not in use. -/
theorem newId_cases {n : Str} {gen gen' : defs.generator.State} {i : ℕ}
    (h : newId n gen = some (i, gen')) :
    (n = defs.mgmtVrfName ∧ i = defs.mgmtVrfId ∧ gen' = gen) ∨
      (n ≠ defs.mgmtVrfName ∧ i ≠ defs.mgmtVrfId ∧ i ∉ defs.generator.inUse gen ∧
        defs.generator.inUse gen' = insert i (defs.generator.inUse gen)) := by
  rw [newId] at h
  split at h
  · rename_i hmgmt
    obtain ⟨rfl, rfl⟩ := Prod.mk.inj (Option.some.inj h)
    exact Or.inl ⟨strncmpEq_mgmt.mp hmgmt, rfl, rfl⟩
  · rename_i hmgmt
    exact Or.inr ⟨fun hn => hmgmt (strncmpEq_mgmt.mpr hn), defs.mgmtVrfId_reserved _ _ _ h,
      defs.generator.allocId_fresh _ _ _ h, defs.generator.inUse_allocId _ _ _ h⟩

/-- An add is refused and changes nothing, or enters the new pair in both maps. -/
theorem addVrf_cases (n : Str) (t : Tables defs) :
    (addVrf n t).2 = t ∨ ∃ i gen, t.vrfMap.lookup n = none ∧ newId n t.vrfIdGen = some (i, gen) ∧
      addVrf n t = (.ok (some i), ⟨t.vrfMap.insert n i, t.vrfIdMap.insert i n, gen⟩) := by
  rw [addVrf]
  split
  · exact Or.inl rfl
  · rename_i hnew
    split
    · exact Or.inl rfl
    · rename_i i gen hid
      exact Or.inr ⟨i, gen, hnew, hid, rfl⟩

/-- A new id is not the id of a VRF. -/
theorem Consistent.newId_fresh {t : Tables defs} (ht : Consistent t) (hm : MgmtApart t) {n : Str}
    {i : ℕ} {gen : defs.generator.State} (hnew : t.vrfMap.lookup n = none)
    (hid : newId n t.vrfIdGen = some (i, gen)) : t.vrfIdMap.lookup i = none := by
  rw [Option.eq_none_iff_forall_ne_some]
  intro n' hn'
  rw [← ht.twoWay] at hn'
  rcases newId_cases hid with ⟨rfl, rfl, -⟩ | ⟨-, hne, hfree, -⟩
  · rw [(hm n' _ hn').mpr rfl, hnew] at hn'
    cases hn'
  · exact hfree ((ht.inUse i).mpr ⟨n', hn', fun h => hne ((hm n' i hn').mp h)⟩)

theorem addVrf_mgmtApart {n : Str} {t : Tables defs} (hm : MgmtApart t) :
    MgmtApart (addVrf n t).2 := by
  rcases addVrf_cases n t with hsame | ⟨i, gen, -, hid, hadd⟩
  · rwa [hsame]
  rw [hadd]
  intro n' i' h'
  rcases Dict.lookup_insert_iff.mp h' with ⟨rfl, rfl⟩ | ⟨-, hold⟩
  · rcases newId_cases hid with ⟨hn, hi, -⟩ | ⟨hn, hi, -⟩
    · exact ⟨fun _ => hi, fun _ => hn⟩
    · exact ⟨fun h => absurd h hn, fun h => absurd h hi⟩
  · exact hm n' i' hold

/-- An add keeps the tables consistent. -/
theorem addVrf_consistent {n : Str} {t : Tables defs} (ht : Consistent t) (hm : MgmtApart t) :
    Consistent (addVrf n t).2 := by
  rcases addVrf_cases n t with hsame | ⟨i, gen, hnew, hid, hadd⟩
  · rwa [hsame]
  rw [hadd]
  refine ⟨ht.twoWay.insert hnew (ht.newId_fresh hm hnew hid), fun j => ?_⟩
  show j ∈ defs.generator.inUse gen ↔ _
  -- the entries other than the new one
  have hold : (∃ n', (t.vrfMap.insert n i).lookup n' = some j ∧ n' ≠ defs.mgmtVrfName) ↔
      (n ≠ defs.mgmtVrfName ∧ j = i) ∨ j ∈ defs.generator.inUse t.vrfIdGen := by
    rw [ht.inUse]
    constructor
    · rintro ⟨n', h', hn'⟩
      rcases Dict.lookup_insert_iff.mp h' with ⟨rfl, rfl⟩ | ⟨-, hback⟩
      · exact Or.inl ⟨hn', rfl⟩
      · exact Or.inr ⟨n', hback, hn'⟩
    · rintro (⟨hn, rfl⟩ | ⟨n', hback, hn'⟩)
      · exact ⟨n, Dict.lookup_insert_iff.mpr (Or.inl ⟨rfl, rfl⟩), hn⟩
      · refine ⟨n', Dict.lookup_insert_iff.mpr (Or.inr ⟨?_, hback⟩), hn'⟩
        rintro rfl
        rw [hnew] at hback
        cases hback
  rw [hold]
  rcases newId_cases hid with ⟨hn, -, rfl⟩ | ⟨hn, -, -, hgen⟩
  · exact ⟨Or.inr, fun h => h.resolve_left fun h => h.1 hn⟩
  · rw [hgen, Finset.mem_insert]
    exact or_congr_left ⟨fun h => ⟨hn, h⟩, And.right⟩

theorem deleteVrf_mgmtApart {n : Str} {stale : ℕ} {t : Tables defs} (hm : MgmtApart t) :
    MgmtApart (deleteVrf n stale t).2 := by
  rw [deleteVrf]
  split
  · intro n' i' h'
    exact hm n' i' (Dict.lookup_erase_iff.mp h').2
  · exact hm

/-- A delete keeps the tables consistent when it reads back what it erased, and
only then. -/
theorem deleteVrf_consistent_iff {n : Str} {stale : ℕ} {t : Tables defs} (ht : Consistent t) :
    Consistent (deleteVrf n stale t).2 ↔ ReadsBack t ⟨false, n, stale⟩ := by
  rw [deleteVrf]
  split
  · rename_i i hi
    -- the ids of the VRFs that stay
    have hrest : ∀ j, (∃ n', (t.vrfMap.erase n).lookup n' = some j ∧ n' ≠ defs.mgmtVrfName) ↔
        j ∈ defs.generator.inUse t.vrfIdGen ∧ j ≠ i := by
      intro j
      rw [ht.inUse]
      constructor
      · rintro ⟨n', h', hn'⟩
        obtain ⟨hne, hold⟩ := Dict.lookup_erase_iff.mp h'
        exact ⟨⟨n', hold, hn'⟩, fun hj => hne (ht.twoWay.inj hold (hj ▸ hi))⟩
      · rintro ⟨⟨n', hold, hn'⟩, hj⟩
        refine ⟨n', Dict.lookup_erase_iff.mpr ⟨?_, hold⟩, hn'⟩
        rintro rfl
        rw [hi] at hold
        exact hj (Option.some.inj hold).symm
    have hmem : n ≠ defs.mgmtVrfName → i ∈ defs.generator.inUse t.vrfIdGen :=
      fun hn => (ht.inUse i).mpr ⟨n, hi, hn⟩
    have hmgmt : n = defs.mgmtVrfName → i ∉ defs.generator.inUse t.vrfIdGen := by
      intro hn hin
      obtain ⟨n', hn', hne⟩ := (ht.inUse i).mp hin
      exact hne ((ht.twoWay.inj hn' hi).trans hn)
    constructor
    · intro hafter _ i' hi'
      obtain rfl : i = i' := Option.some.inj (hi.symm.trans hi')
      have hids : ∀ j, j ≠ stale ∧ j ∈ defs.generator.inUse t.vrfIdGen ↔
          j ∈ defs.generator.inUse t.vrfIdGen ∧ j ≠ i := by
        intro j
        rw [← hrest, ← Finset.mem_erase, ← defs.generator.inUse_releaseId]
        exact hafter.inUse j
      refine ⟨fun hn => ?_, fun hn hstale => ?_⟩
      · by_contra hne
        exact ((hids i).mp ⟨fun h => hne h.symm, hmem hn⟩).2 rfl
      · have hne : stale ≠ i := fun h => hmgmt hn (h ▸ hstale)
        exact ((hids stale).mpr ⟨hstale, hne⟩).1 rfl
    · intro hread
      obtain ⟨hdata, hother⟩ := hread rfl i hi
      refine ⟨ht.twoWay.erase hi, fun j => ?_⟩
      show j ∈ defs.generator.inUse (defs.generator.releaseId stale t.vrfIdGen) ↔ _
      rw [hrest, defs.generator.inUse_releaseId, Finset.mem_erase]
      by_cases hn : n = defs.mgmtVrfName
      · constructor
        · rintro ⟨-, hin⟩
          exact ⟨hin, fun hj => hmgmt hn (hj ▸ hin)⟩
        · rintro ⟨hin, -⟩
          exact ⟨fun hj => hother hn (hj ▸ hin), hin⟩
      · obtain rfl : stale = i := hdata hn
        exact and_comm
  · rename_i hnone
    refine ⟨fun _ _ i' hi' => ?_, fun _ => ht⟩
    replace hi' : t.vrfMap.lookup n = some i' := hi'
    rw [hnone] at hi'
    cases hi'

/-! ## The run -/

theorem initial_consistent : Consistent (Tables.initial defs) := by
  refine ⟨TwoWay.empty, fun i => ?_⟩
  show i ∈ defs.generator.inUse defs.generator.empty ↔ _
  rw [defs.generator.inUse_empty]
  constructor
  · intro h
    exact absurd h (Finset.notMem_empty i)
  · rintro ⟨n, hn, -⟩
    exact nomatch hn

/-- A call keeps the tables consistent when a delete reads back what it erased. -/
theorem step_consistent {t : Tables defs} {q : Request} (h : Consistent t ∧ MgmtApart t)
    (hok : ReadsBack t q) : Consistent (step t q) ∧ MgmtApart (step t q) := by
  obtain ⟨isAdd, n, stale⟩ := q
  cases isAdd with
  | true => exact ⟨addVrf_consistent h.1 h.2, addVrf_mgmtApart h.2⟩
  | false => exact ⟨(deleteVrf_consistent_iff h.1).mpr hok, deleteVrf_mgmtApart h.2⟩

theorem run_consistent {requests : List Request}
    (hok : Along step ReadsBack (Tables.initial defs) requests) :
    Consistent (run step (Tables.initial defs) requests) ∧
      MgmtApart (run step (Tables.initial defs) requests) := by
  have hinit : Consistent (Tables.initial defs) ∧ MgmtApart (Tables.initial defs) :=
    ⟨initial_consistent, fun _ _ h => nomatch h⟩
  have hstep : ∀ (t : Tables defs) (q : Request), Consistent t ∧ MgmtApart t → ReadsBack t q →
      Consistent (step t q) ∧ MgmtApart (step t q) :=
    fun _ _ => step_consistent
  exact run_preserves hstep hinit hok

/-- The id of a VRF leads back to its name. -/
theorem nasOsGetVrfName_run {requests : List Request}
    (hok : Along step ReadsBack (Tables.initial defs) requests) {n : Str} {i : ℕ}
    (h : (run step (Tables.initial defs) requests).vrfMap.lookup n = some i)
    (hi : i ≠ defs.defaultVrfId) :
    nasOsGetVrfName i (run step (Tables.initial defs) requests) = some n := by
  obtain ⟨hcons, hmgmt⟩ := run_consistent hok
  rw [nasOsGetVrfName, if_neg hi]
  split
  · rename_i hid
    rw [(hmgmt n i h).mpr hid]
  · exact (hcons.twoWay n i).mp h

/-- After any run in which every delete reads back what it erased, the tables
are consistent and no two VRFs share an id. -/
theorem vrf_ids_consistent (requests : List Request)
    (hok : Along step ReadsBack (Tables.initial defs) requests) :
    Consistent (run step (Tables.initial defs) requests) ∧
      ∀ n n' i, (run step (Tables.initial defs) requests).vrfMap.lookup n = some i →
        (run step (Tables.initial defs) requests).vrfMap.lookup n' = some i → n = n' := by
  obtain ⟨hcons, -⟩ := run_consistent hok
  exact ⟨hcons, fun n n' i h h' => hcons.twoWay.inj h h'⟩

/-- A generator that hands out the lowest free id from `1` to `max`. -/
def lowestFree (max : ℕ) : IdGenerator where
  State := List ℕ
  empty := []
  inUse := List.toFinset
  allocId used := (Alloc.firstFree 1 (max + 1) used).map fun i => (i, i :: used)
  releaseId i used := used.filter fun j => decide (j ≠ i)
  inUse_empty := rfl
  allocId_fresh := by
    intro used i used' h
    obtain ⟨j, hj, heq⟩ := Option.map_eq_some_iff.mp h
    obtain ⟨rfl, rfl⟩ := Prod.mk.inj heq
    rw [List.mem_toFinset]
    exact (Alloc.firstFree_some hj).2.2
  inUse_allocId := by
    intro used i used' h
    obtain ⟨j, hj, heq⟩ := Option.map_eq_some_iff.mp h
    obtain ⟨rfl, rfl⟩ := Prod.mk.inj heq
    exact List.toFinset_cons
  inUse_releaseId := by
    intro used i
    ext j
    rw [List.mem_toFinset, List.mem_filter, decide_eq_true_iff, Finset.mem_erase,
      List.mem_toFinset, and_comm]

/-- Definitions with three data VRFs. -/
def threeVrfs : VrfDefs where
  defaultVrfName := "default".toList
  defaultVrfId := 0
  mgmtVrfName := "management".toList
  mgmtVrfId := 1024
  vrfNameSz := 33
  generator := lowestFree 3
  mgmtVrfName_short := by decide
  mgmtVrfId_reserved := by
    intro used i used' h
    obtain ⟨j, hj, heq⟩ := Option.map_eq_some_iff.mp h
    obtain ⟨rfl, -⟩ := Prod.mk.inj heq
    have := (Alloc.firstFree_some hj).2.1
    omega

/-- A VRF is deleted and its id goes to the next one. -/
theorem vrf_ids_consistent_reused :
    let requests : List Request := [⟨true, "red".toList, 0⟩, ⟨false, "red".toList, 1⟩,
      ⟨true, "management".toList, 0⟩, ⟨true, "blue".toList, 0⟩]
    Along step ReadsBack (Tables.initial threeVrfs) requests ∧
      Consistent (run step (Tables.initial threeVrfs) requests) := by
  have hok : Along step ReadsBack (Tables.initial threeVrfs)
      [⟨true, "red".toList, 0⟩, ⟨false, "red".toList, 1⟩, ⟨true, "management".toList, 0⟩,
        ⟨true, "blue".toList, 0⟩] := by
    refine ⟨fun h => (nomatch h), fun _ i hi => ⟨fun _ => ?_, fun h => ?_⟩,
      fun h => (nomatch h), fun h => (nomatch h), trivial⟩
    · exact Option.some.inj hi
    · exact absurd h (by decide)
  exact ⟨hok, (vrf_ids_consistent _ hok).1⟩

/-- A delete that reads another value loses the id. -/
theorem vrf_id_lost :
    ¬ ∀ requests : List Request, Consistent (run step (Tables.initial threeVrfs) requests) := by
  intro h
  obtain ⟨n, hn, -⟩ := ((h [⟨true, "red".toList, 0⟩, ⟨false, "red".toList, 7⟩]).inUse 1).mp
    (by decide)
  exact nomatch hn

end VrfIds

end OpxNasLinux
