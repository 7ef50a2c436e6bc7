import OpxNasLinux.Lib.Run
import OpxNasLinux.VrfLifeCycle

/-!
# The registry of veths

`_vrf_sub_net_map` says which pairs of VRFs have a veth, and which number the
addresses of the veth are made of.

* `Backed` is the invariant that ties the map to the veths of the kernel.  A
  set-up that fails breaks it, because the entry is written first and stays.
* `Registry` is the invariant about the numbers: no two pairs share one, and a
  pair is in the map one way around only.
-/

namespace OpxNasLinux

open Delimited Run

namespace VrfTool

/-! ## Requests -/

/-- A call of one of the functions that the other parts of the daemon use. -/
inductive Request where
  | vethIpGet (src dst : Str) (isPeerIp : Bool)
  | vrfConfig (isAdd : Bool) (vrf : Str) (id : ℕ)
  | srcIpConfig (vrf : Str) (isAdd : Bool) (ip : IpAddr)

/-- The state after a call. -/
def step (t : VrfTool) : Request → VrfTool
  | .vethIpGet src dst isPeerIp => (vethIpGet src dst isPeerIp t).2
  | .vrfConfig isAdd vrf id => (processVrfConfig isAdd vrf id t).2
  | .srcIpConfig vrf isAdd ip => processSrcIpConfig vrf isAdd ip t

/-! ## Entries and veths -/

/-- Every pair that has an entry has its veth. -/
structure Backed (t : VrfTool) : Prop where
  formed : Formed t.vrfSubNetMap
  veth : ∀ src dst, vethKey src dst ∈ t.vrfSubNetMap → (src, dst) ∈ t.host.kernel.veths

/-- If the request sets up a veth, it does so for two VRFs that are known, and
the commands succeed. -/
def SetUpWorks (t : VrfTool) : Request → Prop
  | .vethIpGet src dst _ =>
    OpensVeth src dst t → '*' ∉ src ∧ '*' ∉ dst ∧ dst ∈ t.vrfNameToId ∧ VethWorks t.host
  | _ => True

theorem init_backed (env : Env) : Backed (init env) :=
  ⟨fun _ h => absurd h (AList.notMem_empty _), fun _ _ h => absurd h (AList.notMem_empty _)⟩

/-- The map and the veths are all that `Backed` looks at. -/
theorem Backed.of_eq {t t' : VrfTool} (ht : Backed t) (hmap : t'.vrfSubNetMap = t.vrfSubNetMap)
    (hveths : t'.host.kernel.veths = t.host.kernel.veths) : Backed t' :=
  ⟨hmap ▸ ht.formed, hmap ▸ hveths ▸ ht.veth⟩

/-- A veth that is set up gets its entry. -/
theorem vethIpGet_backed {src dst : Str} {isPeerIp : Bool} {t : VrfTool} (ht : Backed t)
    (hok : SetUpWorks t (.vethIpGet src dst isPeerIp)) :
    Backed (vethIpGet src dst isPeerIp t).2 := by
  obtain ⟨hruns, -⟩ | ⟨hopens, val, -, hruns, hveths, -⟩ := vethIpGet_cases src dst isPeerIp t
  · exact ht.of_eq hruns.subNet hruns.host.frame.veths
  obtain ⟨hsrc, hdst, hknown, hworks⟩ := hok hopens
  have hmap : (vethIpGet src dst isPeerIp t).2.vrfSubNetMap =
      t.vrfSubNetMap.insert (vethKey src dst) val := hruns.subNet
  have hnew := hveths.resolve_right fun h => h.2 ⟨hknown, hworks⟩
  refine ⟨?_, ?_⟩
  · intro key hkey
    rw [hmap, Dict.mem_insert_iff] at hkey
    rcases hkey with rfl | hkey
    · exact ⟨src, dst, hsrc, hdst, rfl⟩
    · exact ht.formed key hkey
  · intro a b hkey
    rw [hmap, Dict.mem_insert_iff] at hkey
    rw [hnew]
    rcases hkey with heq | hkey
    · obtain ⟨rfl, rfl⟩ := vethKey_inj hsrc hdst heq
      exact List.mem_cons_self
    · exact List.mem_cons_of_mem _ (ht.veth a b hkey)

/-- A veth that is deleted loses its entry. -/
theorem dropSubNet_backed (src dst : Str) (t : VrfTool) (ht : Backed t) :
    Backed (ipSvcsSubnetSetup false src dst t).2 := by
  obtain ⟨-, hruns⟩ | ⟨-, hruns, hveths⟩ := dropSubNet_cases src dst t
  · exact ht.of_eq hruns.subNet hruns.host.frame.veths
  have hmap : (ipSvcsSubnetSetup false src dst t).2.vrfSubNetMap =
      t.vrfSubNetMap.erase (vethKey src dst) := hruns.subNet
  refine ⟨?_, ?_⟩
  · intro key hkey
    rw [hmap, Dict.mem_erase_iff] at hkey
    exact ht.formed key hkey.2
  · intro a b hkey
    rw [hmap, Dict.mem_erase_iff] at hkey
    rw [hveths, List.mem_filter]
    refine ⟨ht.veth a b hkey.2, decide_eq_true fun heq => hkey.1 ?_⟩
    rw [(Prod.mk.inj heq).1, (Prod.mk.inj heq).2]

/-- The veths of a VRF go before its namespace does. -/
theorem deleteVrf_backed (vrf : Str) (t : VrfTool) (ht : Backed t) :
    Backed (deleteVrf vrf t).2 := by
  obtain ⟨t0, keys, done, t1, ok, t', heq, hstart, hkeys, hloop, hend⟩ := deleteVrf_cases vrf t
  have ht0 : Backed t0 := ht.of_eq hstart.subNet hstart.host.frame.veths
  have ht1 : Backed t1 := by
    have hkeep := deleteSubNets_keeps dropSubNet_backed vrf keys ht0
    rwa [hloop] at hkeep
  rw [heq]
  obtain ⟨-, rfl⟩ | ⟨rfl, k, hdrop⟩ := hend
  · exact ht1
  have hclean := deleteSubNets_clean ht0.formed
    (fun key hkey _ => (hkeys key).mpr (hstart.subNet ▸ hkey)) hloop
  have hmap : t'.vrfSubNetMap = t1.vrfSubNetMap := hdrop.names.subNet
  refine ⟨hmap ▸ ht1.formed, fun a b hkey => ?_⟩
  rw [hmap] at hkey
  -- the entry is for two other VRFs, or the loop would have deleted it
  have hother : ¬ (vrf = a ∨ vrf = b) := fun hvrf =>
    absurd (names_vethKey hvrf) (by rw [hclean _ hkey]; exact Bool.false_ne_true)
  exact hdrop.mem_veths (ht1.veth a b hkey) (fun ha => hother (Or.inl ha.symm))
    (fun hb => hother (Or.inr hb.symm))

/-- What a request keeps. -/
theorem step_backed (t : VrfTool) (q : Request) (ht : Backed t) (hok : SetUpWorks t q) :
    Backed (step t q) := by
  cases q with
  | vethIpGet src dst isPeerIp => exact vethIpGet_backed ht hok
  | vrfConfig isAdd vrf id =>
    rw [step, processVrfConfig]
    split
    · have hcreate := (createVrf_cases vrf id t).1
      exact ht.of_eq hcreate.subNet hcreate.host.frame.veths
    · exact deleteVrf_backed vrf t ht
  | srcIpConfig vrf isAdd ip =>
    have hsrc := processSrcIpConfig_onlyRuns vrf isAdd ip t
    exact ht.of_eq hsrc.subNet hsrc.host.frame.veths

/-- A call of `_veth_ip_get` that returns addresses returns those of a veth
that is there. -/
theorem vethIpGet_veth {src dst : Str} {isPeerIp : Bool} {t : VrfTool} (ht : Backed t)
    (hok : SetUpWorks t (.vethIpGet src dst isPeerIp))
    (hsome : (vethIpGet src dst isPeerIp t).1.isSome) :
    (src, dst) ∈ (vethIpGet src dst isPeerIp t).2.host.kernel.veths ∨
      (dst, src) ∈ (vethIpGet src dst isPeerIp t).2.host.kernel.veths := by
  obtain ⟨hops, hhops⟩ := Option.isSome_iff_exists.mp hsome
  obtain ⟨hruns, hmap⟩ | ⟨hopens, val, -, -, hveths, -⟩ := vethIpGet_cases src dst isPeerIp t
  · rw [hruns.host.frame.veths]
    have hentry := hmap hops hhops
    rw [vethHops] at hentry
    split at hentry
    · rename_i val heq
      exact Or.inl (ht.veth src dst (Dict.mem_iff.mpr ⟨val, heq⟩))
    · obtain ⟨val, heq, -⟩ := Option.map_eq_some_iff.mp hentry
      exact Or.inr (ht.veth dst src (Dict.mem_iff.mpr ⟨val, heq⟩))
  · obtain ⟨-, -, hknown, hworks⟩ := hok hopens
    rw [hveths.resolve_right fun h => h.2 ⟨hknown, hworks⟩]
    exact Or.inl List.mem_cons_self

/-- As long as every veth that is set up is set up completely, a pair has an
entry only if it has its veth, and no call returns the addresses of a veth that
is not there. -/
theorem subNetMap_backed {env : Env} {requests : List Request}
    (hok : Along step SetUpWorks (init env) requests) :
    (∀ src dst, vethKey src dst ∈ (run step (init env) requests).vrfSubNetMap →
        (src, dst) ∈ (run step (init env) requests).host.kernel.veths) ∧
      ∀ src dst isPeerIp,
        SetUpWorks (run step (init env) requests) (.vethIpGet src dst isPeerIp) →
        (vethIpGet src dst isPeerIp (run step (init env) requests)).1.isSome →
        (src, dst) ∈ (run step (init env) (requests ++
            [.vethIpGet src dst isPeerIp])).host.kernel.veths ∨
          (dst, src) ∈ (run step (init env) (requests ++
            [.vethIpGet src dst isPeerIp])).host.kernel.veths := by
  have hrun : Backed (run step (init env) requests) :=
    run_preserves step_backed (init_backed env) hok
  refine ⟨hrun.veth, fun src dst isPeerIp hlast hsome => ?_⟩
  rw [run, List.foldl_append]
  exact vethIpGet_veth hrun hlast hsome

theorem subNetMap_backed_small :
    ("blue".toList, defaultVrf) ∈ (run step (init .willing)
      [.vrfConfig true "blue".toList 1,
        .vethIpGet "blue".toList defaultVrf true]).host.kernel.veths := by
  have hworks : VethWorks (run step (init .willing)
      [.vrfConfig true "blue".toList 1]).host := by
    unfold VethWorks
    decide +kernel
  have hok : Along step SetUpWorks (init .willing)
      [.vrfConfig true "blue".toList 1, .vethIpGet "blue".toList defaultVrf true] :=
    ⟨trivial, fun _ => ⟨by decide, by decide, by decide +kernel, hworks⟩, trivial⟩
  exact (subNetMap_backed hok).1 _ _ (by decide +kernel)

/-- When the first command of the set-up fails, the call fails and its entry
stays, and the next call returns addresses of a veth that nobody has set up. -/
theorem failed_setUp_keeps_entry :
    let env := Env.steady fun kind =>
      if kind = .veth then .cons false (.const true) else .const true
    let t := step (init env) (.vrfConfig true "blue".toList 1)
    let t' := step t (.vethIpGet "blue".toList defaultVrf true)
    (vethIpGet "blue".toList defaultVrf true t).1 = none ∧
      vethKey "blue".toList defaultVrf ∈ t'.vrfSubNetMap ∧ t'.host.kernel.veths = [] ∧
      (vethIpGet "blue".toList defaultVrf true t').1 =
        some ("127.100.100.2".toList, "fda5:74c8:b79e:4:100::2".toList) := by
  decide +kernel

/-! ## Numbers -/

/-- No two pairs share a number, and a pair of two VRFs is in the map one way
around only. -/
structure Registry (m : Dict Str ℕ) : Prop where
  allocated : Alloc.Allocated 100 200 m
  ends : ∀ key ∈ m, ∃ src dst, '*' ∉ src ∧ '*' ∉ dst ∧ src ≠ dst ∧ key = vethKey src dst
  oneWay : ∀ a b, vethKey a b ∈ m → vethKey b a ∉ m

theorem registry_empty : Registry ∅ :=
  ⟨Alloc.allocated_empty 100 200, fun _ h => absurd h (AList.notMem_empty _),
    fun _ _ h => absurd h (AList.notMem_empty _)⟩

/-- A pair that has no entry gets one. -/
theorem Registry.insert {m : Dict Str ℕ} (hm : Registry m) {src dst : Str} {val : ℕ}
    (hsrc : '*' ∉ src) (hdst : '*' ∉ dst) (hne : src ≠ dst) (hback : vethKey dst src ∉ m)
    (hfree : Alloc.firstFree 100 200 m.values = some val) :
    Registry (m.insert (vethKey src dst) val) := by
  refine ⟨hm.allocated.insert _ hfree, ?_, ?_⟩
  · intro key hkey
    rcases Dict.mem_insert_iff.mp hkey with rfl | hold
    · exact ⟨src, dst, hsrc, hdst, hne, rfl⟩
    · exact hm.ends key hold
  · intro a b hab hba
    rcases Dict.mem_insert_iff.mp hab with hnew | hold <;>
      rcases Dict.mem_insert_iff.mp hba with hnew' | hold'
    · exact hne ((vethKey_inj hsrc hdst hnew).1.symm.trans (vethKey_inj hsrc hdst hnew').2)
    · obtain ⟨rfl, rfl⟩ := vethKey_inj hsrc hdst hnew
      exact hback hold'
    · obtain ⟨rfl, rfl⟩ := vethKey_inj hsrc hdst hnew'
      exact hback hold
    · exact hm.oneWay a b hold hold'

theorem Registry.erase {m : Dict Str ℕ} (hm : Registry m) (key : Str) : Registry (m.erase key) := by
  refine ⟨hm.allocated.erase key, ?_, ?_⟩
  · intro key' hkey
    exact hm.ends key' (Dict.mem_erase_iff.mp hkey).2
  · intro a b hab hba
    exact hm.oneWay a b (Dict.mem_erase_iff.mp hab).2 (Dict.mem_erase_iff.mp hba).2

/-- The request is for two different VRFs. -/
def Request.Distinct : Request → Prop
  | .vethIpGet src dst _ => '*' ∉ src ∧ '*' ∉ dst ∧ src ≠ dst
  | _ => True

/-- `process_vrf_config` takes entries out of the map and puts none in. -/
theorem processVrfConfig_registry (isAdd : Bool) (vrf : Str) (id : ℕ) (t : VrfTool)
    (ht : Registry t.vrfSubNetMap) : Registry (processVrfConfig isAdd vrf id t).2.vrfSubNetMap := by
  have hdrop : ∀ src dst (t : VrfTool), Registry t.vrfSubNetMap →
      Registry (ipSvcsSubnetSetup false src dst t).2.vrfSubNetMap := by
    intro src dst t ht
    obtain ⟨-, hruns⟩ | ⟨-, hruns, -⟩ := dropSubNet_cases src dst t
    · exact hruns.subNet ▸ ht
    · exact (show _ = t.vrfSubNetMap.erase (vethKey src dst) from hruns.subNet) ▸ ht.erase _
  rw [processVrfConfig]
  split
  · exact (show _ = t.vrfSubNetMap from (createVrf_cases vrf id t).1.subNet) ▸ ht
  obtain ⟨t0, keys, done, t1, ok, t', heq, hstart, -, hloop, hend⟩ := deleteVrf_cases vrf t
  have ht1 : Registry t1.vrfSubNetMap := by
    have hkeep := deleteSubNets_keeps (P := fun t => Registry t.vrfSubNetMap) hdrop vrf keys
      (hstart.subNet ▸ ht)
    rwa [hloop] at hkeep
  rw [heq]
  obtain ⟨-, rfl⟩ | ⟨-, k, hdropped⟩ := hend
  · exact ht1
  · exact (show t'.vrfSubNetMap = t1.vrfSubNetMap from hdropped.names.subNet) ▸ ht1

/-- What a request keeps. -/
theorem step_registry (t : VrfTool) (q : Request) (ht : Registry t.vrfSubNetMap)
    (hq : q.Distinct) : Registry (step t q).vrfSubNetMap := by
  cases q with
  | vethIpGet src dst isPeerIp =>
    obtain ⟨hsrc, hdst, hne⟩ := hq
    obtain ⟨hruns, -⟩ | ⟨hopens, val, hfree, hruns, -, -⟩ := vethIpGet_cases src dst isPeerIp t
    · exact hruns.subNet ▸ ht
    · have hmap : (vethIpGet src dst isPeerIp t).2.vrfSubNetMap =
          t.vrfSubNetMap.insert (vethKey src dst) val := hruns.subNet
      exact hmap ▸ ht.insert hsrc hdst hne hopens.newBack hfree
  | vrfConfig isAdd vrf id => exact processVrfConfig_registry isAdd vrf id t ht
  | srcIpConfig vrf isAdd ip =>
    have hmap : (processSrcIpConfig vrf isAdd ip t).vrfSubNetMap = t.vrfSubNetMap :=
      (processSrcIpConfig_onlyRuns vrf isAdd ip t).subNet
    exact hmap ▸ ht

/-! ## Addresses -/

/-- The addresses tell the number and the end. -/
theorem nexthop_ne {val val' : ℕ} {isSrc isSrc' : Bool} (h : val ≠ val' ∨ isSrc ≠ isSrc') :
    (nexthop val isSrc).1 ≠ (nexthop val' isSrc').1 ∧
      (nexthop val isSrc).2 ≠ (nexthop val' isSrc').2 := by
  have hsplit : ∀ {pre suf suf' : Str}, suf.length = suf'.length →
      pre ++ (str val ++ suf) = pre ++ (str val' ++ suf') → val = val' ∧ suf = suf' := by
    intro pre suf suf' hlen heq
    obtain ⟨hval, hsuf⟩ := List.append_inj' (List.append_cancel_left heq) hlen
    exact ⟨str_inj hval, hsuf⟩
  constructor <;> intro heq <;>
    · obtain ⟨hval, hsuf⟩ := hsplit (by cases isSrc <;> cases isSrc' <;> decide) heq
      refine h.elim (fun hne => hne hval) fun hne => hne ?_
      revert hsuf
      cases isSrc <;> cases isSrc' <;> decide

/-- The entry that the next hops are made of. -/
theorem vethHops_cases {m : Dict Str ℕ} {src dst : Str} {isPeerIp : Bool} {hops : Str × Str}
    (h : vethHops m src dst isPeerIp = some hops) :
    ∃ val isSrc, hops = nexthop val isSrc ∧
      (m.lookup (vethKey src dst) = some val ∨ m.lookup (vethKey dst src) = some val) := by
  rw [vethHops] at h
  split at h
  · rename_i val heq
    exact ⟨val, !isPeerIp, (Option.some_inj.mp h).symm, Or.inl heq⟩
  · obtain ⟨val, heq, rfl⟩ := Option.map_eq_some_iff.mp h
    exact ⟨val, isPeerIp, rfl, Or.inr heq⟩

/-- The peer of one end is the other end. -/
theorem vethHops_swap {m : Dict Str ℕ} (hm : Registry m) (src dst : Str) (isPeerIp : Bool) :
    vethHops m dst src (!isPeerIp) = vethHops m src dst isPeerIp := by
  rw [vethHops, vethHops]
  rcases h1 : m.lookup (vethKey src dst) with _ | val <;>
    rcases h2 : m.lookup (vethKey dst src) with _ | val'
  · rfl
  · cases isPeerIp <;> rfl
  · rfl
  · exact absurd (Dict.mem_iff.mpr ⟨val', h2⟩) (hm.oneWay src dst (Dict.mem_iff.mpr ⟨val, h1⟩))

/-- A pair that has an entry has two ends. -/
theorem vethHops_of_mem {m : Dict Str ℕ} {src dst : Str}
    (h : vethKey src dst ∈ m ∨ vethKey dst src ∈ m) :
    ∃ val isSrc, vethHops m src dst false = some (nexthop val isSrc) ∧
      vethHops m src dst true = some (nexthop val !isSrc) ∧
      (m.lookup (vethKey src dst) = some val ∨ m.lookup (vethKey dst src) = some val) := by
  rw [vethHops, vethHops]
  rcases h1 : m.lookup (vethKey src dst) with _ | val
  · rcases h2 : m.lookup (vethKey dst src) with _ | val
    · rcases h with h | h
      · exact absurd h (AList.lookup_eq_none.mp h1)
      · exact absurd h (AList.lookup_eq_none.mp h2)
    · exact ⟨val, false, rfl, rfl, Or.inr rfl⟩
  · exact ⟨val, true, rfl, rfl, Or.inl rfl⟩

/-- The number of the addresses that a call returns is one that no other pair
has. -/
theorem vethIpGet_val_ne {t : VrfTool} (ht : Registry t.vrfSubNetMap) {a b c d : Str} {val : ℕ}
    {isPeerIp : Bool} {hops : Str × Str} (hc : '*' ∉ c) (hd : '*' ∉ d)
    (hval : t.vrfSubNetMap.lookup (vethKey a b) = some val)
    (hne : ¬ (a = c ∧ b = d)) (hne' : ¬ (a = d ∧ b = c))
    (hhops : (vethIpGet c d isPeerIp t).1 = some hops) :
    ∃ val' isSrc, hops = nexthop val' isSrc ∧ val' ≠ val := by
  obtain ⟨-, hmap⟩ | ⟨-, val', hfree, -, -, hnew⟩ := vethIpGet_cases c d isPeerIp t
  · obtain ⟨val', isSrc, rfl, hentry⟩ := vethHops_cases (hmap hops hhops)
    refine ⟨val', isSrc, rfl, ?_⟩
    rintro rfl
    rcases hentry with hentry | hentry
    · exact hne (vethKey_inj hc hd (ht.allocated.inj _ _ val' hval hentry))
    · exact hne' (vethKey_inj hd hc (ht.allocated.inj _ _ val' hval hentry))
  · refine ⟨val', !isPeerIp, hnew hops hhops, ?_⟩
    rintro rfl
    exact (Alloc.firstFree_some hfree).2.2 (Dict.mem_values_iff.mpr ⟨_, hval⟩)

/-- Whatever the commands do, the numbers are in the range and belong to one
pair each, and the two ends of a veth agree on their addresses, which no other
pair gets. -/
theorem veth_ends_agree {env : Env} {requests : List Request}
    (hdistinct : ∀ q ∈ requests, q.Distinct) :
    let t := run step (init env) requests
    (∀ key val, t.vrfSubNetMap.lookup key = some val → 100 ≤ val ∧ val < 200) ∧
      (∀ key key' val, t.vrfSubNetMap.lookup key = some val →
        t.vrfSubNetMap.lookup key' = some val → key = key') ∧
      (∀ a b, vethKey a b ∈ t.vrfSubNetMap → vethKey b a ∉ t.vrfSubNetMap) ∧
      ∀ a b, (vethKey a b ∈ t.vrfSubNetMap ∨ vethKey b a ∈ t.vrfSubNetMap) →
        ∃ near far : Str × Str, vethIpGet a b false t = (some near, t) ∧
          vethIpGet b a true t = (some near, t) ∧ vethIpGet a b true t = (some far, t) ∧
          near.1 ≠ far.1 ∧ near.2 ≠ far.2 ∧
          ∀ c d isPeerIp hops, '*' ∉ c → '*' ∉ d → c ≠ d → ¬ (c = a ∧ d = b) →
            ¬ (c = b ∧ d = a) → (vethIpGet c d isPeerIp t).1 = some hops →
            hops.1 ≠ near.1 ∧ hops.1 ≠ far.1 ∧ hops.2 ≠ near.2 ∧ hops.2 ≠ far.2 := by
  have hrun : Registry (run step (init env) requests).vrfSubNetMap :=
    @run_preserves _ _ step (fun _ q => q.Distinct) (fun t => Registry t.vrfSubNetMap)
      step_registry _ _ registry_empty (along_of_forall _ hdistinct)
  generalize run step (init env) requests = t at hrun
  refine ⟨hrun.allocated.range, hrun.allocated.inj, hrun.oneWay, fun a b hentry => ?_⟩
  obtain ⟨val, isSrc, hnear, hfar, hval⟩ := vethHops_of_mem hentry
  -- the entry is not for the default VRF twice
  have hends : ∀ x y, x = defaultVrf ∧ y = defaultVrf → vethKey x y ∉ t.vrfSubNetMap := by
    rintro x y ⟨rfl, rfl⟩ hmem
    exact hrun.oneWay _ _ hmem hmem
  have hne : ¬ (a = defaultVrf ∧ b = defaultVrf) := fun h =>
    hentry.elim (hends a b h) (hends b a h.symm)
  have hne' : ¬ (b = defaultVrf ∧ a = defaultVrf) := fun h => hne h.symm
  have hback : vethHops t.vrfSubNetMap b a true = some (nexthop val isSrc) :=
    (vethHops_swap hrun a b false).trans hnear
  obtain ⟨h1, h2⟩ : (nexthop val isSrc).1 ≠ (nexthop val !isSrc).1 ∧
      (nexthop val isSrc).2 ≠ (nexthop val !isSrc).2 :=
    nexthop_ne (Or.inr (by cases isSrc <;> decide))
  refine ⟨nexthop val isSrc, nexthop val !isSrc, ?_, ?_, ?_, h1, h2, ?_⟩
  · rw [vethIpGet_of_entry false hne hentry, hnear]
  · rw [vethIpGet_of_entry true hne' hentry.symm, hback]
  · rw [vethIpGet_of_entry true hne hentry, hfar]
  · intro c d isPeerIp hops hc hd hcd hother hother' hhops
    have hnumber : ∃ val' isSrc', hops = nexthop val' isSrc' ∧ val' ≠ val := by
      rcases hval with hval | hval
      · exact vethIpGet_val_ne hrun hc hd hval (fun h => hother ⟨h.1.symm, h.2.symm⟩)
          (fun h => hother' ⟨h.2.symm, h.1.symm⟩) hhops
      · exact vethIpGet_val_ne hrun hc hd hval (fun h => hother' ⟨h.1.symm, h.2.symm⟩)
          (fun h => hother ⟨h.2.symm, h.1.symm⟩) hhops
    obtain ⟨val', isSrc', rfl, hval'⟩ := hnumber
    exact ⟨(nexthop_ne (Or.inl hval')).1, (nexthop_ne (Or.inl hval')).1,
      (nexthop_ne (Or.inl hval')).2, (nexthop_ne (Or.inl hval')).2⟩

theorem veth_ends_agree_small :
    let t := run step (init .willing)
      [.vrfConfig true "blue".toList 1, .vethIpGet "blue".toList defaultVrf true]
    vethKey defaultVrf "blue".toList ∉ t.vrfSubNetMap ∧
      ∃ near far, vethIpGet defaultVrf "blue".toList false t = (some near, t) ∧
        vethIpGet "blue".toList defaultVrf true t = (some near, t) ∧
        vethIpGet defaultVrf "blue".toList true t = (some far, t) ∧ near.1 ≠ far.1 := by
  have h := @veth_ends_agree .willing
    [.vrfConfig true "blue".toList 1, .vethIpGet "blue".toList defaultVrf true] (by
      intro q hq
      rcases List.mem_cons.mp hq with rfl | hq
      · trivial
      · rw [List.mem_singleton.mp hq]
        exact ⟨by decide, by decide, by decide⟩)
  refine ⟨h.2.2.1 _ _ (by decide +kernel), ?_⟩
  obtain ⟨near, far, h1, h2, h3, h4, -⟩ :=
    h.2.2.2 defaultVrf "blue".toList (Or.inr (by decide +kernel))
  exact ⟨near, far, h1, h2, h3, h4⟩

end VrfTool

end OpxNasLinux
