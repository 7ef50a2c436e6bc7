import OpxNasLinux.HostFrames

/-!
# Setting up a veth

What `process_veth_config`, `ip_svcs_subnet_setup` and `_veth_ip_get` do to the
map of the veths and to the kernel.

* `vethKey_inj` reads the two ends of a veth off its key.
* `addSubNet_cases` says what a set-up leaves, which writes the entry first and
  keeps it when a command fails.
* `vethIpGet_cases` says what a call of `_veth_ip_get` leaves, and
  `dropSubNet_cases` what the deletion of a veth leaves.
-/

namespace OpxNasLinux

open Delimited

/-! ## Keys -/

/-- The two ends of a key. -/
theorem vethKey_inj {a b c d : Str} (hc : '*' ∉ c) (hd : '*' ∉ d)
    (h : vethKey a b = vethKey c d) : a = c ∧ b = d := by
  rw [vethKey, vethKey] at h
  have hfields : [a, b] = [c, d] := enclose_injective (by simp [hc, hd]) rfl h
  exact ⟨(List.cons.inj hfields).1, (List.cons.inj (List.cons.inj hfields).2).1⟩

theorem field_vethKey {a b : Str} (ha : '*' ∉ a) (hb : '*' ∉ b) :
    field 1 (vethKey a b) = a ∧ field 2 (vethKey a b) = b := by
  have hsplit : (enclose '*' [a, b]).splitOn '*' = [] :: ([a, b] ++ [[]]) :=
    splitOn_enclose (by simp [ha, hb])
  constructor <;>
    · rw [field, vethKey, hsplit]
      rfl

theorem Af.name_starFree (af : Af) : '*' ∉ af.name := by
  cases af <;> decide

theorem Af.name_inj {af af' : Af} (h : af.name = af'.name) : af = af' := by
  cases af <;> cases af' <;> first | rfl | exact absurd h (by decide)

/-- An address key tells its VRF, its family and its address. -/
theorem addrKey_inj {a b addr addr' : Str} {af af' : Af} (haddr : '*' ∉ addr)
    (haddr' : '*' ∉ addr') (h : addrKey a af addr = addrKey b af' addr') :
    a = b ∧ af = af' ∧ addr = addr' := by
  have hfields : ∀ {addr : Str} (af : Af), '*' ∉ addr → ∀ x ∈ [af.name, addr], '*' ∉ x := by
    intro addr af haddr
    simp [haddr, Af.name_starFree]
  obtain ⟨hvrf, hrest⟩ := enclose_inj (hfields af haddr) (hfields af' haddr') rfl h
  obtain ⟨hname, hrest⟩ := List.cons.inj hrest
  exact ⟨hvrf, Af.name_inj hname, (List.cons.inj hrest).1⟩

/-- A key names its two ends. -/
theorem names_vethKey {a b vrf : Str} (h : vrf = a ∨ vrf = b) : names (vethKey a b) vrf = true := by
  rw [names, decide_eq_true_iff]
  exact enclose_infix_of_mem '*' (by simpa using h)

namespace VrfTool

/-! ## `process_veth_config` -/

theorem vethCmds_kind (src dst : Str) (srcId dstId : ℕ) (ips : VethIps) :
    ∀ c ∈ vethCmds src dst srcId dstId ips, c.kind = .veth := by
  simp [vethCmds, Cmd.kind]

/-- A veth that is set up completely is there. -/
theorem addVeth_cases (src dst : Str) (srcId dstId : ℕ) (ips : VethIps) (h : Host) :
    ∃ ok h', addVeth src dst srcId dstId ips h = (ok, h') ∧
      h.Runs [.veth] (h'.setVeths h.kernel.veths) ∧
      h'.kernel.veths = if ok then (src, dst) :: h.kernel.veths else h.kernel.veths := by
  have hruns : h.Runs [.veth] (h.runAll (vethCmds src dst srcId dstId ips)).2 :=
    Host.runAll_runs (fun c hc => by simp [vethCmds_kind src dst srcId dstId ips c hc])
      (by decide) h
  rw [addVeth]
  rcases hall : h.runAll (vethCmds src dst srcId dstId ips) with ⟨_ | _, h'⟩ <;>
    rw [hall] at hruns
  · refine ⟨false, h', rfl, ?_, hruns.frame.veths⟩
    rwa [← hruns.frame.veths]
  · refine ⟨true, _, rfl, ?_, congrArg (List.cons (src, dst)) hruns.frame.veths⟩
    rwa [← hruns.frame.veths]

/-- The ten commands of the next set-up of a veth succeed. -/
def VethWorks (h : Host) : Prop := ∀ n < 10, (h.env.answers .veth).get n = true

theorem addVeth_works (src dst : Str) (srcId dstId : ℕ) (ips : VethIps) {h : Host}
    (hw : VethWorks h) : (addVeth src dst srcId dstId ips h).1 = true := by
  have hall := Host.runAll_true (vethCmds_kind src dst srcId dstId ips) (by
    simp [vethCmds, Kernel.accepts]) (h := h) hw
  rw [addVeth]
  split
  · rename_i h1 heq
    rw [heq] at hall
    cases hall
  · rfl

/-- A veth that is deleted is gone. -/
theorem deleteVeth_cases (src dst : Str) (srcId dstId : ℕ) (h : Host) :
    ∃ ok h', deleteVeth src dst srcId dstId h = (ok, h') ∧
      h.Runs [.vethDelete] (h'.setVeths h.kernel.veths) ∧
      h'.kernel.veths =
        if ok then h.kernel.veths.filter fun p => decide (p ≠ (src, dst))
        else h.kernel.veths := by
  have hone : ∀ (dev : Str) (h' : Host),
      h'.Runs [.vethDelete] (h'.runCommand (.linkDelete src dev)).2 := fun dev h' =>
    Host.runCommand_runs (by simp [Cmd.kind]) (by decide) h'
  have h1 := hone (vethDev dstId) h
  rw [deleteVeth]
  rcases hfirst : h.runCommand (.linkDelete src (vethDev dstId)) with ⟨_ | _, h'⟩ <;>
    rw [hfirst] at h1
  · have h2 := h1.trans (hone (vethDev srcId) h')
    dsimp only
    rcases hsecond : h'.runCommand (.linkDelete src (vethDev srcId)) with ⟨_ | _, h''⟩ <;>
      rw [hsecond] at h2
    · refine ⟨false, h'', rfl, ?_, h2.frame.veths⟩
      rwa [← h2.frame.veths]
    · refine ⟨true, _, rfl, ?_, congrArg (List.filter _) h2.frame.veths⟩
      rwa [← h2.frame.veths]
  · refine ⟨true, _, rfl, ?_, congrArg (List.filter _) h1.frame.veths⟩
    rwa [← h1.frame.veths]

/-- What a set-up of a veth does: it writes no map, and the veth is there if
it succeeds. -/
theorem addVethConfig_cases (ips : VethIps) (src dst : Str) (t : VrfTool) :
    ∃ ok t', processVethConfig (some ips) src dst t = (ok, t') ∧
      t.OnlyRuns [.veth] (t'.setVeths t.host.kernel.veths) ∧
      t'.host.kernel.veths =
        (if ok then (src, dst) :: t.host.kernel.veths else t.host.kernel.veths) ∧
      (src ∈ t.vrfNameToId → dst ∈ t.vrfNameToId → VethWorks t.host → ok = true) := by
  rw [processVethConfig]
  rcases hsrc : t.vrfNameToId.lookup src with _ | srcId
  · refine ⟨false, t, rfl, .refl _ t, rfl, fun hmem => ?_⟩
    exact absurd hmem (AList.lookup_eq_none.mp hsrc)
  · rcases hdst : t.vrfNameToId.lookup dst with _ | dstId
    · refine ⟨false, t, rfl, .refl _ t, rfl, fun _ hmem => ?_⟩
      exact absurd hmem (AList.lookup_eq_none.mp hdst)
    · obtain ⟨ok, h', heq, hruns, hveths⟩ := addVeth_cases src dst srcId dstId ips t.host
      dsimp only
      rw [heq]
      refine ⟨ok, t.setHost h', rfl, ⟨rfl, rfl, rfl, rfl, hruns⟩, hveths, fun _ _ hw => ?_⟩
      have hok := addVeth_works src dst srcId dstId ips hw
      rwa [heq] at hok

/-- What the deletion of a veth does. -/
theorem deleteVethConfig_cases (src dst : Str) (t : VrfTool) :
    ∃ ok t', processVethConfig none src dst t = (ok, t') ∧
      t.OnlyRuns [.vethDelete] (t'.setVeths t.host.kernel.veths) ∧
      t'.host.kernel.veths =
        if ok then t.host.kernel.veths.filter fun p => decide (p ≠ (src, dst))
        else t.host.kernel.veths := by
  rw [processVethConfig]
  rcases hsrc : t.vrfNameToId.lookup src with _ | srcId
  · exact ⟨false, t, rfl, .refl _ t, rfl⟩
  · rcases hdst : t.vrfNameToId.lookup dst with _ | dstId
    · exact ⟨false, t, rfl, .refl _ t, rfl⟩
    · obtain ⟨ok, h', heq, hruns, hveths⟩ := deleteVeth_cases src dst srcId dstId t.host
      dsimp only
      rw [heq]
      exact ⟨ok, t.setHost h', rfl, ⟨rfl, rfl, rfl, rfl, hruns⟩, hveths⟩

/-! ## `ip_svcs_subnet_setup` and `_veth_ip_get` -/

theorem applySrcIps_runs (vrf : Str) (id : ℕ) (keys : List Str) (h : Host) :
    h.Runs [.srcAddr] (applySrcIps vrf id keys h) := by
  induction keys generalizing h with
  | nil => exact .refl _ h
  | cons key rest ih =>
    rw [applySrcIps, List.foldl_cons]
    refine Host.Runs.trans ?_ (ih _)
    split
    · exact Host.runCommand_runs (c := .addrAdd _ _ _) (by simp [Cmd.kind]) (by decide) h
    · exact .refl _ h

theorem applySide_onlyRuns (vrf other : Str) (t : VrfTool) :
    t.OnlyRuns [.srcAddr] (applySide vrf other t) := by
  rw [applySide]
  split
  · exact .setHost (Host.keysOf_runs _ _ _)
  · exact .setHost ((Host.keysOf_runs _ _ _).trans (applySrcIps_runs _ _ _ _))

theorem snatCmds_kind (isAdd : Bool) (src : Str) (val : ℕ) (tool : Af) :
    ∀ c ∈ snatCmds isAdd src val tool, c.kind = .snat := by
  simp [snatCmds, Cmd.kind]

/-- After the veth is there, source addresses and the rules of the source
translation follow. -/
theorem applyVeth_onlyRuns (src dst : Str) (val : ℕ) (t : VrfTool) :
    t.OnlyRuns [.srcAddr, .snat] (applyVeth src dst val t).2 ∧
      (applyVeth src dst val t).1.2 = some val := by
  have hsides : t.OnlyRuns [.srcAddr, .snat] (applySide dst src (applySide src dst t)) :=
    ((applySide_onlyRuns src dst t).trans (applySide_onlyRuns dst src _)).mono (by simp)
  rw [applyVeth]
  split
  · refine ⟨hsides.trans (.setHost (Host.runAll_runs ?_ (by decide) _)), rfl⟩
    intro c hc
    rcases List.mem_append.mp hc with hc | hc <;> simp [snatCmds_kind _ _ _ _ c hc]
  · exact ⟨hsides, rfl⟩

/-- What `ip_svcs_subnet_setup(True)` does to a pair that has no entry: the
entry is written, and the veth is there unless the set-up of the veth fails. -/
theorem addSubNet_cases (src dst : Str) (t : VrfTool) {val : ℕ}
    (hnew : vethKey src dst ∉ t.vrfSubNetMap)
    (hfree : Alloc.firstFree 100 200 t.vrfSubNetMap.values = some val) :
    ∃ ok t', addSubNet src dst t = ((ok, some val), t') ∧
      (t.setSubNet (t.vrfSubNetMap.insert (vethKey src dst) val)).OnlyRuns
        [.veth, .srcAddr, .snat] (t'.setVeths t.host.kernel.veths) ∧
      (t'.host.kernel.veths = (src, dst) :: t.host.kernel.veths ∨
        t'.host.kernel.veths = t.host.kernel.veths ∧
          ¬ (src ∈ t.vrfNameToId ∧ dst ∈ t.vrfNameToId ∧ VethWorks t.host)) := by
  obtain ⟨ok, t1, heq, hruns, hveths, hworks⟩ := addVethConfig_cases (vethIps val) src dst
    (t.setSubNet (t.vrfSubNetMap.insert (vethKey src dst) val))
  rw [addSubNet, AList.lookup_eq_none.mpr hnew, hfree]
  dsimp only
  rw [heq]
  cases ok with
  | false =>
    refine ⟨false, t1, rfl, hruns.mono (by simp), Or.inr ⟨hveths, ?_⟩⟩
    rintro ⟨hsrc, hdst, hw⟩
    exact absurd (hworks hsrc hdst hw) (by simp)
  | true =>
    obtain ⟨happly, hval⟩ := applyVeth_onlyRuns src dst val t1
    refine ⟨(applyVeth src dst val t1).1.1, (applyVeth src dst val t1).2, ?_, ?_, Or.inl ?_⟩
    · dsimp only
      rw [← hval]
    · exact (hruns.mono (by simp)).trans
        ((happly.mono (by simp)).setVeths t.host.kernel.veths)
    · exact happly.host.frame.veths.trans hveths

/-- `_veth_ip_get` sets up a veth. -/
structure OpensVeth (src dst : Str) (t : VrfTool) : Prop where
  notDefault : ¬ (src = defaultVrf ∧ dst = defaultVrf)
  new : vethKey src dst ∉ t.vrfSubNetMap
  newBack : vethKey dst src ∉ t.vrfSubNetMap
  known : src ∈ t.vrfNameToId
  free : ∃ val, Alloc.firstFree 100 200 t.vrfSubNetMap.values = some val

/-- The next hops that `_veth_ip_get` reads from the map. -/
def vethHops (m : Dict Str ℕ) (src dst : Str) (isPeerIp : Bool) : Option (Str × Str) :=
  match m.lookup (vethKey src dst) with
  | some val => some (nexthop val (!isPeerIp))
  | none => (m.lookup (vethKey dst src)).map fun val => nexthop val isPeerIp

/-- A pair that has an entry gets its next hops from the map. -/
theorem vethIpGet_of_entry {src dst : Str} (isPeerIp : Bool) {t : VrfTool}
    (hne : ¬ (src = defaultVrf ∧ dst = defaultVrf))
    (hmem : vethKey src dst ∈ t.vrfSubNetMap ∨ vethKey dst src ∈ t.vrfSubNetMap) :
    vethIpGet src dst isPeerIp t = (vethHops t.vrfSubNetMap src dst isPeerIp, t) := by
  rw [vethIpGet, if_neg hne, vethHops]
  rcases h1 : t.vrfSubNetMap.lookup (vethKey src dst) with _ | val
  · rcases h2 : t.vrfSubNetMap.lookup (vethKey dst src) with _ | val
    · rcases hmem with hmem | hmem
      · exact absurd hmem (AList.lookup_eq_none.mp h1)
      · exact absurd hmem (AList.lookup_eq_none.mp h2)
    · rfl
  · rfl

/-- What a call of `_veth_ip_get` leaves.  It changes no map but the one of the
veths, and that one only when it sets up a veth. -/
theorem vethIpGet_cases (src dst : Str) (isPeerIp : Bool) (t : VrfTool) :
    (t.OnlyRuns [.jump, .linkLocal] (vethIpGet src dst isPeerIp t).2 ∧
      ∀ hops, (vethIpGet src dst isPeerIp t).1 = some hops →
        vethHops t.vrfSubNetMap src dst isPeerIp = some hops) ∨
    (OpensVeth src dst t ∧ ∃ val, Alloc.firstFree 100 200 t.vrfSubNetMap.values = some val ∧
      (t.setSubNet (t.vrfSubNetMap.insert (vethKey src dst) val)).OnlyRuns
        [.jump, .linkLocal, .veth, .srcAddr, .snat]
        ((vethIpGet src dst isPeerIp t).2.setVeths t.host.kernel.veths) ∧
      ((vethIpGet src dst isPeerIp t).2.host.kernel.veths = (src, dst) :: t.host.kernel.veths ∨
        (vethIpGet src dst isPeerIp t).2.host.kernel.veths = t.host.kernel.veths ∧
          ¬ (dst ∈ t.vrfNameToId ∧ VethWorks t.host)) ∧
      ∀ hops, (vethIpGet src dst isPeerIp t).1 = some hops → hops = nexthop val (!isPeerIp)) := by
  rw [vethIpGet]
  split
  · exact Or.inl ⟨.refl _ t, by simp⟩
  rename_i hne
  rcases h1 : t.vrfSubNetMap.lookup (vethKey src dst) with _ | val
  · rcases h2 : t.vrfSubNetMap.lookup (vethKey dst src) with _ | val
    · rcases hsrc : t.vrfNameToId.lookup src with _ | srcId
      · rw [ipSvcsSubnetSetup, hsrc]
        exact Or.inl ⟨.refl _ t, by simp⟩
      · have hside := setUpSide_onlyRuns true src dst t
        rw [ipSvcsSubnetSetup, hsrc]
        rcases hfree : Alloc.firstFree 100 200 t.vrfSubNetMap.values with _ | val
        · left
          dsimp only
          rw [if_pos rfl, addSubNet, hside.subNet, h1, hfree]
          exact ⟨hside, by simp⟩
        · right
          have hnew := AList.lookup_eq_none.mp h1
          have hknown : src ∈ t.vrfNameToId := Dict.mem_iff.mpr ⟨srcId, hsrc⟩
          refine ⟨⟨hne, hnew, AList.lookup_eq_none.mp h2, hknown, ⟨val, hfree⟩⟩, val, rfl, ?_⟩
          obtain ⟨ok, t', heq, hruns, hveths⟩ := addSubNet_cases src dst
            (setUpSide true src dst t) (by rwa [hside.subNet]) (by rwa [hside.subNet])
          rw [hside.subNet, hside.host.frame.veths] at hruns
          rw [hside.host.frame.veths, hside.ids] at hveths
          have hall : (t.setSubNet (t.vrfSubNetMap.insert (vethKey src dst) val)).OnlyRuns
              [.jump, .linkLocal, .veth, .srcAddr, .snat]
              (t'.setVeths t.host.kernel.veths) :=
            ((hside.setSubNet _).mono (by simp)).trans (hruns.mono (by simp))
          have hveths' : t'.host.kernel.veths = (src, dst) :: t.host.kernel.veths ∨
              t'.host.kernel.veths = t.host.kernel.veths ∧
                ¬ (dst ∈ t.vrfNameToId ∧ VethWorks t.host) := by
            refine hveths.imp_right fun ⟨hsame, hfail⟩ => ⟨hsame, fun ⟨hdst, hw⟩ => ?_⟩
            refine hfail ⟨hknown, hdst, fun n hn => ?_⟩
            rw [hside.host.answers .veth (by simp)]
            exact hw n hn
          rw [if_pos rfl, heq]
          cases ok with
          | false => exact ⟨hall, hveths', by simp⟩
          | true => exact ⟨hall, hveths', fun hops hhops => (Option.some_inj.mp hhops).symm⟩
    · left
      dsimp only
      refine ⟨.refl _ t, fun hops hhops => ?_⟩
      rw [vethHops, h1]
      dsimp only
      rw [h2]
      exact hhops
  · left
    dsimp only
    refine ⟨.refl _ t, fun hops hhops => ?_⟩
    rw [vethHops, h1]
    exact hhops

/-! ## Deletion of a veth -/

theorem dropNat_runs (src : Str) (val : ℕ) (tools : List Af) (h : Host) :
    h.Runs [.snat, .natFlush] (dropNat src val tools h).2 := by
  induction tools generalizing h with
  | nil => exact .refl _ h
  | cons tool rest ih =>
    have hsnat : h.Runs [.snat, .natFlush] (h.runAll (snatCmds false src val tool)).2 :=
      Host.runAll_runs (fun c hc => by simp [snatCmds_kind false src val tool c hc]) (by decide) h
    rw [dropNat]
    rcases hall : h.runAll (snatCmds false src val tool) with ⟨_ | _, h1⟩ <;> rw [hall] at hsnat
    · exact hsnat
    · exact (hsnat.trans (Host.runEach_runs (by simp [Cmd.kind]) (by decide) h1)).trans (ih _)

/-- What `ip_svcs_subnet_setup(False)` does: nothing to the map and the veths,
or the veth goes and its entry too. -/
theorem dropSubNet_cases (src dst : Str) (t : VrfTool) :
    ((ipSvcsSubnetSetup false src dst t).1.1 = false ∧
      t.OnlyRuns [.jump, .linkLocal, .vethDelete] (ipSvcsSubnetSetup false src dst t).2) ∨
    (vethKey src dst ∈ t.vrfSubNetMap ∧
      (t.setSubNet (t.vrfSubNetMap.erase (vethKey src dst))).OnlyRuns
        [.jump, .linkLocal, .vethDelete, .snat, .natFlush]
        ((ipSvcsSubnetSetup false src dst t).2.setVeths t.host.kernel.veths) ∧
      (ipSvcsSubnetSetup false src dst t).2.host.kernel.veths =
        t.host.kernel.veths.filter fun p => decide (p ≠ (src, dst))) := by
  rw [ipSvcsSubnetSetup]
  rcases hsrc : t.vrfNameToId.lookup src with _ | srcId
  · exact Or.inl ⟨rfl, .refl _ t⟩
  have hside := setUpSide_onlyRuns false src dst t
  dsimp only
  rw [if_neg Bool.false_ne_true, deleteSubNet, hside.subNet]
  rcases hkey : t.vrfSubNetMap.lookup (vethKey src dst) with _ | val
  · exact Or.inl ⟨rfl, hside.mono (by simp)⟩
  obtain ⟨ok, t1, heq, hruns, hveths⟩ := deleteVethConfig_cases src dst (setUpSide false src dst t)
  dsimp only
  rw [heq]
  cases ok with
  | false =>
    left
    exact ⟨rfl, (hside.mono (by simp)).trans ((hruns.of_setVeths hveths).mono (by simp))⟩
  | true =>
    right
    rw [if_pos rfl, hside.host.frame.veths] at hveths
    rw [hside.host.frame.veths] at hruns
    have hmap : t1.vrfSubNetMap = t.vrfSubNetMap := hruns.subNet.trans hside.subNet
    have hall : (t.setSubNet (t.vrfSubNetMap.erase (vethKey src dst))).OnlyRuns
        [.jump, .linkLocal, .vethDelete, .snat, .natFlush]
        ((t1.setSubNet (t1.vrfSubNetMap.erase (vethKey src dst))).setVeths
          t.host.kernel.veths) := by
      rw [hmap]
      exact ((hside.setSubNet _).mono (by simp)).trans ((hruns.setSubNet _).mono (by simp))
    refine ⟨Dict.mem_iff.mpr ⟨val, hkey⟩, ?_⟩
    dsimp only
    split
    · have hdrop := dropNat_runs src val [.inet, .inet6]
        (t1.setSubNet (t1.vrfSubNetMap.erase (vethKey src dst))).host
      refine ⟨hall.trans ?_, hdrop.frame.veths.trans hveths⟩
      exact (((OnlyRuns.setHost hdrop).setVeths _).mono (by simp))
    · exact ⟨hall, hveths⟩

end VrfTool

end OpxNasLinux
