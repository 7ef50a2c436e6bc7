import OpxNasLinux.Lib.Run
import OpxNasLinux.VrfLifeCycle

/-!
# The default VRF comes and goes with the others

`process_vrf_config` registers `default` together with the first VRF and takes
it out again with the last one.  Both happen only when a map has exactly one
entry, and only behind a call of the `os` module that may raise.

* `createVrf_defaultRegistered` and `deleteVrf_defaultRegistered` are the two
  steps.
* `default_registered` is the run.
-/

namespace OpxNasLinux

open Run

namespace VrfTool

/-- A call of `process_vrf_config`, or what the rest of the system does to the
namespaces and to the map of the veths. -/
inductive LifeRequest where
  | vrfConfig (isAdd : Bool) (vrf : Str) (id : ℕ)
  | outside (netns : List Str) (subNets : Dict Str ℕ)

/-- The state after a call. -/
def lifeStep (t : VrfTool) : LifeRequest → VrfTool
  | .vrfConfig isAdd vrf id => (processVrfConfig isAdd vrf id t).2
  | .outside netns subNets => (t.setNetns netns).setSubNet subNets

/-- `default` has an id when another VRF has one. -/
def DefaultRegistered (t : VrfTool) : Prop :=
  defaultVrf ∈ t.vrfNameToId ↔ ∃ v ∈ t.vrfNameToId, v ≠ defaultVrf

/-- The veths that a deletion goes through, with the VRF tool before the first
of them. -/
def vethsOf (vrf : Str) (t : VrfTool) : List Str × VrfTool :=
  let h := (processVrfTopChainRule false vrf t.host).2
  ((h.keysOf t.vrfSubNetMap).1, t.setHost (h.keysOf t.vrfSubNetMap).2)

/-- The call is for another VRF than `default`, and `os.symlink` does not raise
for the first VRF, nor `os.unlink` for the last one.  A deletion that stops at a
veth does not come to `os.unlink`. -/
def LinkWorks (t : VrfTool) : LifeRequest → Prop
  | .vrfConfig true vrf id =>
    vrf ≠ defaultVrf ∧
      ((t.host.runAll [.netnsAdd vrf, .netnsSet vrf id]).1 = true →
        (t.vrfNameToId.insert vrf id).keys.length = 1 → t.host.env.osCalls.head = true)
  | .vrfConfig false vrf _ =>
    vrf ≠ defaultVrf ∧
      ((deleteSubNets vrf (vethsOf vrf t).1 (vethsOf vrf t).2).1 = true →
        vrf ∈ t.vrfNameToId → (t.vrfNameToId.erase vrf).keys.length = 1 →
          t.host.env.osCalls.head = true)
  | .outside .. => True

theorem createVrf_defaultRegistered {vrf : Str} {id : ℕ} {t : VrfTool}
    (ht : DefaultRegistered t) (hok : LinkWorks t (.vrfConfig true vrf id)) :
    DefaultRegistered (createVrf vrf id t).2 := by
  obtain ⟨hne, hlink⟩ := hok
  obtain ⟨-, hcreated, -⟩ := createVrf_cases vrf id t
  have hvrf : vrf ∈ t.vrfNameToId.insert vrf id := Dict.mem_insert_iff.mpr (Or.inl rfl)
  cases hcreated with
  | refused hids hnetns =>
    rw [DefaultRegistered, hids]
    exact ht
  | added hnew hran hshared hids hnetns =>
    have hmore : (t.vrfNameToId.insert vrf id).keys.length ≠ 1 := by
      intro halone
      have hfails := hshared halone
      rw [hlink hran halone] at hfails
      cases hfails
    -- the other entry is `default`, or brought `default` with it
    obtain ⟨w, hw, hwne⟩ := Dict.exists_ne_of_length_ne_one hmore hvrf
    have hw : w ∈ t.vrfNameToId := (Dict.mem_insert_iff.mp hw).resolve_left hwne
    have hdef : defaultVrf ∈ t.vrfNameToId := by
      by_cases hwdef : w = defaultVrf
      · exact hwdef ▸ hw
      · exact ht.mpr ⟨w, hw, hwdef⟩
    rw [DefaultRegistered, hids]
    exact ⟨fun _ => ⟨vrf, hvrf, hne⟩, fun _ => Dict.mem_insert_iff.mpr (Or.inr hdef)⟩
  | first hnew halone hids hnetns =>
    rw [DefaultRegistered, hids]
    exact ⟨fun _ => ⟨vrf, Dict.mem_insert_iff.mpr (Or.inr hvrf), hne⟩,
      fun _ => Dict.mem_insert_iff.mpr (Or.inl rfl)⟩

/-- The loop over the veths looks at the ids only. -/
theorem deleteSubNets_ids (vrf : Str) (keys : List Str) (t : VrfTool) :
    (deleteSubNets vrf keys t).2.vrfNameToId = t.vrfNameToId ∧
      (deleteSubNets vrf keys t).2.host.env.osCalls = t.host.env.osCalls := by
  refine @deleteSubNets_keeps
    (fun t' => t'.vrfNameToId = t.vrfNameToId ∧ t'.host.env.osCalls = t.host.env.osCalls)
    (fun src dst t' ht' => ?_) vrf keys t ⟨rfl, rfl⟩
  obtain ⟨-, hruns⟩ | ⟨-, hruns, -⟩ := dropSubNet_cases src dst t'
  · exact ⟨hruns.ids.trans ht'.1, hruns.host.osCalls.trans ht'.2⟩
  · exact ⟨(show _ = t'.vrfNameToId from hruns.ids).trans ht'.1,
      (show _ = t'.host.env.osCalls from hruns.host.osCalls).trans ht'.2⟩

/-- A deletion that stops at a veth. -/
theorem deleteVrf_stopped {vrf : Str} {t : VrfTool}
    (h : (deleteSubNets vrf (vethsOf vrf t).1 (vethsOf vrf t).2).1 = false) :
    (deleteVrf vrf t).2 = (deleteSubNets vrf (vethsOf vrf t).1 (vethsOf vrf t).2).2 := by
  rw [deleteVrf]
  generalize hhost : (processVrfTopChainRule false vrf t.host).2 = h1
  rw [vethsOf, hhost] at h ⊢
  rcases hloop : deleteSubNets vrf ((t.setHost h1).host.keysOf (t.setHost h1).vrfSubNetMap).1
    ((t.setHost h1).setHost ((t.setHost h1).host.keysOf (t.setHost h1).vrfSubNetMap).2) with
    ⟨done, t1⟩
  have hloop' : deleteSubNets vrf (h1.keysOf t.vrfSubNetMap).1
      (t.setHost (h1.keysOf t.vrfSubNetMap).2) = (done, t1) := hloop
  dsimp only at h ⊢
  rw [hloop'] at h ⊢
  obtain rfl : done = false := h
  rfl

theorem deleteVrf_defaultRegistered {vrf : Str} {id : ℕ} {t : VrfTool}
    (ht : DefaultRegistered t) (hok : LinkWorks t (.vrfConfig false vrf id)) :
    DefaultRegistered (deleteVrf vrf t).2 := by
  obtain ⟨hne, hlink⟩ := hok
  by_cases hveths : (deleteSubNets vrf (vethsOf vrf t).1 (vethsOf vrf t).2).1 = true
  swap
  · have hids := (deleteSubNets_ids vrf (vethsOf vrf t).1 (vethsOf vrf t).2).1
    rw [DefaultRegistered, deleteVrf_stopped (Bool.not_eq_true _ ▸ hveths), hids]
    exact ht
  replace hlink := hlink hveths
  obtain ⟨t0, keys, done, t1, ok, t', heq, hstart, -, hloop, hend⟩ := deleteVrf_cases vrf t
  obtain ⟨hids1, hcalls1⟩ : t1.vrfNameToId = t.vrfNameToId ∧
      t1.host.env.osCalls = t.host.env.osCalls := by
    have hkeep := deleteSubNets_ids vrf keys t0
    rw [hloop] at hkeep
    exact ⟨hkeep.1.trans hstart.ids, hkeep.2.trans hstart.host.osCalls⟩
  rw [heq]
  obtain ⟨-, rfl⟩ | ⟨-, k, hdrop⟩ := hend
  · rw [DefaultRegistered, hids1]
    exact ht
  have hknown := hdrop.known
  have hids := hdrop.ids
  rw [hids1] at hknown hids
  rw [hcalls1] at hids
  have hdef : defaultVrf ∈ t.vrfNameToId.erase vrf :=
    Dict.mem_erase_iff.mpr ⟨hne.symm, ht.mpr ⟨vrf, hknown, hne⟩⟩
  rcases hids with ⟨hids, hshared⟩ | ⟨hids, halone⟩
  · have hmore : (t.vrfNameToId.erase vrf).keys.length ≠ 1 := by
      intro halone
      rcases hshared halone with hfails | hnot
      · rw [hlink hknown halone] at hfails
        cases hfails
      · exact hnot hdef
    obtain ⟨w, hw, hwne⟩ := Dict.exists_ne_of_length_ne_one hmore hdef
    rw [DefaultRegistered, hids]
    exact ⟨fun _ => ⟨w, hw, hwne⟩, fun _ => hdef⟩
  · rw [DefaultRegistered, hids]
    refine ⟨fun h => absurd rfl (Dict.mem_erase_iff.mp h).1, ?_⟩
    rintro ⟨w, hw, hwne⟩
    exact absurd (Dict.eq_of_length_one halone (Dict.mem_erase_iff.mp hw).2 hdef) hwne

/-- What a call keeps. -/
theorem lifeStep_defaultRegistered (t : VrfTool) (q : LifeRequest) (ht : DefaultRegistered t)
    (hok : LinkWorks t q) : DefaultRegistered (lifeStep t q) := by
  cases q with
  | vrfConfig isAdd vrf id =>
    cases isAdd with
    | true => exact createVrf_defaultRegistered ht hok
    | false => exact deleteVrf_defaultRegistered ht hok
  | outside netns subNets => exact ht

theorem init_defaultRegistered (env : Env) : DefaultRegistered (init env) :=
  ⟨fun h => absurd h (AList.notMem_empty _), fun ⟨_, h, _⟩ => absurd h (AList.notMem_empty _)⟩

/-- As long as the soft link of the default VRF can be made and removed when
its time comes, `default` has an id when another VRF has one. -/
theorem default_registered {env : Env} {requests : List LifeRequest}
    (hok : Along lifeStep LinkWorks (init env) requests) :
    defaultVrf ∈ (run lifeStep (init env) requests).vrfNameToId ↔
      ∃ v ∈ (run lifeStep (init env) requests).vrfNameToId, v ≠ defaultVrf :=
  run_preserves lifeStep_defaultRegistered (init_defaultRegistered env) hok

theorem default_registered_small :
    defaultVrf ∈ (run lifeStep (init .willing)
      [.vrfConfig true "blue".toList 1, .vrfConfig true "red".toList 2,
        .vrfConfig false "blue".toList 1]).vrfNameToId :=
  (@default_registered .willing [.vrfConfig true "blue".toList 1, .vrfConfig true "red".toList 2,
      .vrfConfig false "blue".toList 1]
    ⟨⟨by decide, fun _ _ => rfl⟩, ⟨by decide, fun _ _ => rfl⟩, ⟨by decide, fun _ _ _ => rfl⟩,
      trivial⟩).mpr ⟨"red".toList, by decide +kernel, by decide⟩

/-- When `os.symlink` raises for the first VRF, that VRF has an id and
`default` has none.  When `os.unlink` raises for the last one, `default` keeps
its id. -/
theorem default_differs :
    let t := run lifeStep (init { Env.willing with osCalls := .const false })
      [.vrfConfig true "blue".toList 1]
    let t' := run lifeStep (init { Env.willing with
        osCalls := .cons true (.cons true (.const false)) })
      [.vrfConfig true "blue".toList 1, .vrfConfig false "blue".toList 1]
    (t.vrfNameToId.lookup "blue".toList = some 1 ∧ defaultVrf ∉ t.vrfNameToId) ∧
      t'.vrfNameToId.keys = [defaultVrf] := by
  decide +kernel

end VrfTool

end OpxNasLinux
