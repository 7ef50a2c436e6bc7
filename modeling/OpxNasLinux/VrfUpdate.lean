import OpxNasLinux.VrfIds

/-!
# Creating and deleting a VRF

`nas_os_update_vrf` gives a VRF an id, tells two modules about it and creates it
in the kernel.

* `addSteps` and `delSteps` are the two branches, with the notifications that
  are sent.
* `addSteps_fails` and `undone_iff` say what a failed creation leaves.
* `vrf_update_iff` says when it leaves the tables alone, and when a deletion of
  a VRF that is not there tells about no other VRF.
-/

namespace OpxNasLinux.VrfUpdate

open VrfIds

variable {defs : VrfDefs}

/-! ## The code -/

/-- `nas_rt_msg_type`. -/
inductive MsgType where
  | add
  | del
  | other
deriving DecidableEq

/-- What the steps of a call end with. -/
structure Sys where
  /-- `nas_update_vrf_info`. -/
  updateVrfInfo : ℕ → Str → Bool
  /-- The transaction of `nas_vrf_notify_vrf_config` gets as far as its commit. -/
  notifySent : ℕ → Str → Bool → Bool
  /-- `nas_vrf_notify_vrf_config`. -/
  notifyVrfConfig : ℕ → Str → Bool → Bool
  /-- `nas_os_program_vrf`. -/
  programVrf : Str → MsgType → ℕ → Bool
  /-- What a delete in `nas_os_update_vrf_id` reads after the entry is gone. -/
  stale : ℕ

/-- A notification about a VRF. -/
structure Notification where
  vrfId : ℕ
  vrfName : Str
  isAdd : Bool
deriving DecidableEq

/-- The result of a call. -/
structure Result (defs : VrfDefs) where
  ok : Bool
  tables : Tables defs
  sent : List Notification

/-- `nas_os_get_vrf_id`. -/
def nasOsGetVrfId (vrfName : Str) (t : Tables defs) : Option ℕ :=
  if strncmpEq vrfName defs.defaultVrfName defs.vrfNameSz then some defs.defaultVrfId
  else t.vrfMap.lookup vrfName

section Code

variable (sys : Sys) (vrfName : Str) (t : Tables defs)

/-- The notification that a call of `nas_vrf_notify_vrf_config` sends. -/
def notification (vrfId : ℕ) (isAdd : Bool) : List Notification :=
  if sys.notifySent vrfId vrfName isAdd then [⟨vrfId, vrfName, isAdd⟩] else []

/-- The branch for `NAS_RT_ADD`. -/
def addSteps : Result defs :=
  match nasOsUpdateVrfId true vrfName sys.stale t with
  | (.fail, t) => ⟨false, t, []⟩
  | (.ok p, t) =>
    let vrfId := p.getD 0
    if sys.updateVrfInfo vrfId vrfName = false then ⟨false, t, []⟩
    else if sys.notifyVrfConfig vrfId vrfName true = false then
      ⟨false, t, notification sys vrfName vrfId true⟩
    else if sys.programVrf vrfName .add vrfId = false then
      ⟨false, (nasOsUpdateVrfId false vrfName sys.stale t).2,
        notification sys vrfName vrfId true ++ notification sys vrfName vrfId false⟩
    else ⟨true, t, notification sys vrfName vrfId true⟩

/-- The branch for `NAS_RT_DEL`. -/
def delSteps : Result defs :=
  let vrfId := (nasOsGetVrfId vrfName t).getD 0
  let ok := (nasOsGetVrfId vrfName t).all (sys.programVrf vrfName .del)
  if ok = false then ⟨false, t, []⟩
  else if sys.notifyVrfConfig vrfId vrfName false = false then
    ⟨false, t, notification sys vrfName vrfId false⟩
  else
    ⟨true, (nasOsUpdateVrfId false vrfName sys.stale t).2, notification sys vrfName vrfId false⟩

end Code

/-- `nas_os_update_vrf`. -/
def nasOsUpdateVrf (sys : Sys) (vrfName : Option Str) (mType : MsgType) (t : Tables defs) :
    Result defs :=
  match vrfName, mType with
  | none, _ => ⟨false, t, []⟩
  | some vrfName, .add => addSteps sys vrfName t
  | some vrfName, .del => delSteps sys vrfName t
  | some _, .other => ⟨true, t, []⟩

/-! ## What it has to do -/

/-- The maps have the same entries, and the same ids are in use. -/
structure Same (t t' : Tables defs) : Prop where
  vrfMap : ∀ n, t'.vrfMap.lookup n = t.vrfMap.lookup n
  vrfIdMap : ∀ i, t'.vrfIdMap.lookup i = t.vrfIdMap.lookup i
  inUse : defs.generator.inUse t'.vrfIdGen = defs.generator.inUse t.vrfIdGen

/-- An error leaves the tables alone. -/
def Restores (r : Result defs) (t : Tables defs) : Prop := r.ok = false → Same t r.tables

/-- No notification of a delete has the id of another VRF. -/
def TellsNoOther (r : Result defs) (vrfName : Str) (t : Tables defs) : Prop :=
  ∀ x ∈ r.sent, x.isAdd = false → ∀ other, nasOsGetVrfId other t = some x.vrfId → other = vrfName

/-- A delete takes back what the creation of a VRF with this id has entered. -/
def TakesBack (stale : ℕ) (vrfName : Str) (t : Tables defs) (vrfId : ℕ) : Prop :=
  t.vrfIdMap.lookup vrfId = none ∧ (vrfName ≠ defs.mgmtVrfName → stale = vrfId) ∧
    (vrfName = defs.mgmtVrfName → stale ∉ defs.generator.inUse t.vrfIdGen)

/-- When a creation fails, it is not the update of the VRF information or the
notification that does, and the delete takes the VRF back. -/
def AddCondition (sys : Sys) (vrfName : Str) (t : Tables defs) : Prop :=
  ∀ vrfId gen, newId vrfName t.vrfIdGen = some (vrfId, gen) →
    sys.updateVrfInfo vrfId vrfName = true ∧ sys.notifyVrfConfig vrfId vrfName true = true ∧
      (sys.programVrf vrfName .add vrfId = false → TakesBack sys.stale vrfName t vrfId)

/-- No other VRF has the id zero, or nothing is sent. -/
def DelCondition (sys : Sys) (vrfName : Str) (t : Tables defs) : Prop :=
  sys.notifySent 0 vrfName false = true →
    ∀ other, nasOsGetVrfId other t = some 0 → other = vrfName

/-! ## Creation -/

section Proofs

variable {sys : Sys} {vrfName : Str} {t : Tables defs}

theorem Same.refl (t : Tables defs) : Same t t := ⟨fun _ => rfl, fun _ => rfl, rfl⟩

/-- The tables with a new VRF. -/
def entered (vrfName : Str) (t : Tables defs) (vrfId : ℕ) (gen : defs.generator.State) :
    Tables defs :=
  ⟨t.vrfMap.insert vrfName vrfId, t.vrfIdMap.insert vrfId vrfName, gen⟩

theorem update_add (hnew : t.vrfMap.lookup vrfName = none) (stale : ℕ) :
    nasOsUpdateVrfId true vrfName stale t =
      match newId vrfName t.vrfIdGen with
      | none => (.fail, t)
      | some (vrfId, gen) => (.ok (some vrfId), entered vrfName t vrfId gen) := by
  unfold nasOsUpdateVrfId addVrf
  rw [hnew]
  rfl

/-- A new VRF is one more entry. -/
theorem entered_not_same (hnew : t.vrfMap.lookup vrfName = none) (vrfId : ℕ)
    (gen : defs.generator.State) : ¬ Same t (entered vrfName t vrfId gen) := by
  intro h
  have hentry := h.vrfMap vrfName
  rw [hnew] at hentry
  unfold entered at hentry
  rw [AList.lookup_insert] at hentry
  cases hentry

theorem lookup_erase_insert {K V : Type} [DecidableEq K] {d : Dict K V} {k : K} (v : V)
    (hnew : d.lookup k = none) (k' : K) : ((d.insert k v).erase k).lookup k' = d.lookup k' := by
  apply Option.ext
  intro v'
  exact Dict.lookup_erase_insert_iff hnew

/-- The delete after a creation that the kernel refuses. -/
theorem undone_iff (hnew : t.vrfMap.lookup vrfName = none) {vrfId : ℕ}
    {gen : defs.generator.State} (hid : newId vrfName t.vrfIdGen = some (vrfId, gen)) :
    Same t (nasOsUpdateVrfId false vrfName sys.stale (entered vrfName t vrfId gen)).2 ↔
      TakesBack sys.stale vrfName t vrfId := by
  have hdelete : (nasOsUpdateVrfId false vrfName sys.stale (entered vrfName t vrfId gen)).2 =
      ⟨(t.vrfMap.insert vrfName vrfId).erase vrfName, (t.vrfIdMap.insert vrfId vrfName).erase vrfId,
        defs.generator.releaseId sys.stale gen⟩ := by
    unfold nasOsUpdateVrfId deleteVrf entered
    rw [AList.lookup_insert]
    rfl
  rw [hdelete]
  have hmaps : t.vrfIdMap.lookup vrfId = none ↔ ∀ i,
      ((t.vrfIdMap.insert vrfId vrfName).erase vrfId).lookup i = t.vrfIdMap.lookup i := by
    constructor
    · exact fun hfree => lookup_erase_insert vrfName hfree
    · intro h
      have hback := h vrfId
      rw [AList.lookup_erase] at hback
      exact hback.symm
  have hids : defs.generator.inUse (defs.generator.releaseId sys.stale gen) =
        defs.generator.inUse t.vrfIdGen ↔
      (vrfName ≠ defs.mgmtVrfName → sys.stale = vrfId) ∧
        (vrfName = defs.mgmtVrfName → sys.stale ∉ defs.generator.inUse t.vrfIdGen) := by
    rw [defs.generator.inUse_releaseId]
    obtain ⟨hmgmt, -, rfl⟩ | ⟨hmgmt, -, hfresh, hgen⟩ := newId_cases hid
    · rw [Finset.erase_eq_self]
      exact ⟨fun h => ⟨fun hne => absurd hmgmt hne, fun _ => h⟩, fun h => h.2 hmgmt⟩
    · rw [hgen]
      constructor
      · intro h
        refine ⟨fun _ => ?_, fun heq => absurd heq hmgmt⟩
        by_contra hne
        refine hfresh ?_
        rw [← h, Finset.mem_erase]
        exact ⟨fun heq => hne heq.symm, Finset.mem_insert_self _ _⟩
      · intro h
        rw [h.1 hmgmt, Finset.erase_insert hfresh]
  constructor
  · rintro ⟨-, hidMap, hinUse⟩
    exact ⟨hmaps.mpr hidMap, hids.mp hinUse⟩
  · rintro ⟨hidMap, hinUse⟩
    exact ⟨lookup_erase_insert vrfId hnew, hmaps.mp hidMap, hids.mpr hinUse⟩

/-- When a creation that fails leaves the tables alone. -/
theorem addSteps_restores_iff (hnew : t.vrfMap.lookup vrfName = none) :
    Restores (addSteps sys vrfName t) t ↔ AddCondition sys vrfName t := by
  unfold addSteps AddCondition
  rw [update_add hnew]
  cases hid : newId vrfName t.vrfIdGen with
  | none => exact iff_of_true (fun _ => Same.refl t) (by simp)
  | some out =>
    obtain ⟨vrfId, gen⟩ := out
    have hcond : ∀ P : ℕ → Prop,
        (∀ i gen', some (vrfId, gen) = some (i, gen') → P i) ↔ P vrfId := by
      intro P
      constructor
      · exact fun h => h vrfId gen rfl
      · rintro h i gen' heq
        obtain ⟨rfl, -⟩ := Prod.mk.inj (Option.some.inj heq)
        exact h
    rw [hcond fun i => sys.updateVrfInfo i vrfName = true ∧
      sys.notifyVrfConfig i vrfName true = true ∧
      (sys.programVrf vrfName .add i = false → TakesBack sys.stale vrfName t i)]
    unfold Restores
    dsimp only [Option.getD_some]
    have hchanged := entered_not_same hnew vrfId gen
    split_ifs with hinfo hnotify hprogram
    · exact iff_of_false (fun h => hchanged (h rfl)) (by simp [hinfo])
    · exact iff_of_false (fun h => hchanged (h rfl)) (by simp [hnotify])
    · rw [Bool.not_eq_false] at hinfo hnotify
      rw [and_iff_right hinfo, and_iff_right hnotify, ← undone_iff hnew hid]
      exact ⟨fun h _ => h rfl, fun h _ => h hprogram⟩
    · rw [Bool.not_eq_false] at hinfo hnotify
      exact iff_of_true (by simp) ⟨hinfo, hnotify, fun h => absurd h hprogram⟩

/-! ## Deletion -/

/-- A VRF that is not there is taken for one with the id zero. -/
theorem delSteps_sent (hmissing : nasOsGetVrfId vrfName t = none) :
    (delSteps sys vrfName t).sent = notification sys vrfName 0 false := by
  unfold delSteps
  rw [hmissing, Option.all_none, if_neg (by simp)]
  dsimp only [Option.getD_none]
  split_ifs
  · rfl
  · rfl

theorem delSteps_tells_iff (hmissing : nasOsGetVrfId vrfName t = none) :
    TellsNoOther (delSteps sys vrfName t) vrfName t ↔ DelCondition sys vrfName t := by
  unfold TellsNoOther DelCondition
  rw [delSteps_sent hmissing]
  unfold notification
  split_ifs with hsent
  · simp [hsent]
  · simp [hsent]

end Proofs

/-- Which creations leave the tables alone when they fail, and which deletions of
a VRF that is not there tell about no other VRF. -/
theorem vrf_update_iff (sys : Sys) (vrfName : Str) (t : Tables defs) :
    (t.vrfMap.lookup vrfName = none →
      (Restores (nasOsUpdateVrf sys (some vrfName) .add t) t ↔ AddCondition sys vrfName t)) ∧
    (nasOsGetVrfId vrfName t = none →
      (TellsNoOther (nasOsUpdateVrf sys (some vrfName) .del t) vrfName t ↔
        DelCondition sys vrfName t)) :=
  ⟨addSteps_restores_iff, delSteps_tells_iff⟩

/-- The kernel does not create a VRF, and the notifications of deletes get
lost. -/
def refusingSys : Sys where
  updateVrfInfo _ _ := true
  notifySent _ _ isAdd := isAdd
  notifyVrfConfig _ _ _ := true
  programVrf _ _ _ := false
  stale := 1

theorem vrf_update_refused :
    Restores (nasOsUpdateVrf refusingSys (some "red".toList) .add (Tables.initial threeVrfs))
        (Tables.initial threeVrfs) ∧
      TellsNoOther (nasOsUpdateVrf refusingSys (some "red".toList) .del (Tables.initial threeVrfs))
        "red".toList (Tables.initial threeVrfs) := by
  have hboth := vrf_update_iff refusingSys "red".toList (Tables.initial threeVrfs)
  refine ⟨(hboth.1 rfl).mpr fun vrfId gen hid => ⟨rfl, rfl, fun _ => ?_⟩, (hboth.2 ?_).mpr ?_⟩
  · obtain ⟨rfl, -⟩ := Prod.mk.inj (Option.some.inj hid)
    exact ⟨rfl, fun _ => rfl, fun h => absurd h (by decide)⟩
  · decide
  · intro hsent
    cases hsent

/-- The update of the VRF information fails. -/
def noInfoSys : Sys where
  updateVrfInfo _ _ := false
  notifySent _ _ _ := true
  notifyVrfConfig _ _ _ := true
  programVrf _ _ _ := true
  stale := 1

/-- The VRF stays in the maps, and the delete of another one tells about the
default VRF. -/
theorem noInfoSys_leaves :
    (¬ ∀ (sys : Sys) (vrfName : Str) (t : Tables threeVrfs), t.vrfMap.lookup vrfName = none →
      Restores (nasOsUpdateVrf sys (some vrfName) .add t) t) ∧
    ¬ ∀ (sys : Sys) (vrfName : Str) (t : Tables threeVrfs), nasOsGetVrfId vrfName t = none →
      TellsNoOther (nasOsUpdateVrf sys (some vrfName) .del t) vrfName t := by
  constructor
  · intro h
    have hsame := h noInfoSys "red".toList (Tables.initial threeVrfs) rfl rfl
    exact absurd (hsame.vrfMap "red".toList) (by decide)
  · intro h
    have htells := h noInfoSys "red".toList (Tables.initial threeVrfs) (by decide)
    have hsent : ⟨0, "red".toList, false⟩ ∈ (nasOsUpdateVrf noInfoSys (some "red".toList) .del
        (Tables.initial threeVrfs)).sent := by decide
    exact absurd (htells _ hsent rfl "default".toList (by decide)) (by decide)

end OpxNasLinux.VrfUpdate
