import OpxNasLinux.VethSetUp

/-!
# The life of a VRF

What `process_vrf_config` does to the maps and to the kernel.

* `createVrf_cases` says what the creation of a VRF leaves.  It changes no map
  but the ids, and in the kernel the names of the namespaces only.
* `deleteVrf_cases` says the same of a deletion: first the veths of the VRF go,
  one by one, and when all are gone, its id and its namespace.
-/

namespace OpxNasLinux

open Delimited

namespace VrfTool

/-! ## Names of namespaces -/

/-- A function changes no map but the ids, and in the kernel the names of the
namespaces only.  It may call the `os` module. -/
def OnlyNames (t t' : VrfTool) : Prop :=
  (((t.setIds t'.vrfNameToId).setNetns t'.host.kernel.netns).setOsCalls
    t'.host.env.osCalls).OnlyRuns [.netns, .vrf] t'

theorem OnlyNames.trans {t t' t'' : VrfTool} (h1 : t.OnlyNames t') (h2 : t'.OnlyNames t'') :
    t.OnlyNames t'' :=
  (((OnlyRuns.setIds h1 t''.vrfNameToId).setNetns t''.host.kernel.netns).setOsCalls
    t''.host.env.osCalls).trans h2

theorem OnlyRuns.onlyNames {t t' : VrfTool} (h : t.OnlyRuns [.vrf] t') : t.OnlyNames t' := by
  have hids := h.ids
  have hnetns := h.host.frame.netns
  have hcalls := h.host.osCalls
  rw [OnlyNames, hids, hnetns, hcalls]
  exact h.mono (by simp)

/-- The commands that add a namespace or give it an id. -/
theorem netnsCommand_onlyNames {c : Cmd} (vrf : Str) (id : ℕ)
    (hc : c = .netnsAdd vrf ∨ c = .netnsSet vrf id) (t : VrfTool) :
    t.OnlyNames (t.setHost (t.host.runCommand c).2) := by
  have hkind : c.kind ∈ [CmdKind.netns, .vrf] := by
    rcases hc with rfl | rfl <;> simp [Cmd.kind]
  have hans := Host.answer_runs hkind t.host
  refine ⟨rfl, rfl, rfl, rfl, ?_⟩
  rw [Host.runCommand]
  split
  · refine ⟨?_, fun _ => ?_, fun _ _ _ => ?_, hans.answers, hans.willing, rfl⟩ <;>
      rcases hc with rfl | rfl
    · exact ⟨rfl, rfl⟩
    · exact ⟨rfl, rfl⟩
    · exact ⟨rfl, rfl⟩
    · exact ⟨rfl, rfl⟩
    · rfl
    · rfl
  · exact (hans.setNetns _).setOsCalls _

/-! ## Creation -/

theorem defaultVrfChain_kind (isAdd : Bool) : ∀ c ∈ defaultVrfChain isAdd, c.kind = .vrf := by
  simp [defaultVrfChain, Cmd.kind]

theorem topChainCmds_kind (isAdd : Bool) (vrf : Str) :
    ∀ c ∈ topChainCmds isAdd vrf, c.kind = .vrf := by
  intro c hc
  obtain ⟨tool, -, hmem⟩ := List.mem_flatMap.mp hc
  rcases List.mem_cons.mp hmem with rfl | hrej
  · rfl
  · obtain ⟨chain, -, rfl⟩ := List.mem_map.mp hrej
    rfl

theorem vrfChainCmds_kind (actions : List Char) (vrf : Str) :
    ∀ c ∈ vrfChainCmds actions vrf, c.kind = .vrf := by
  intro c hc
  obtain ⟨tool, -, htool⟩ := List.mem_flatMap.mp hc
  obtain ⟨table, -, htable⟩ := List.mem_flatMap.mp htool
  obtain ⟨action, -, rfl⟩ := List.mem_map.mp htable
  rfl

/-- Commands of the kind `vrf`, up to the first failure. -/
theorem runVrfCmds_runs (cmds : List Cmd) (hc : ∀ c ∈ cmds, c.kind = .vrf) (h : Host) :
    h.Runs [.vrf] (h.runAll cmds).2 :=
  Host.runAll_runs (fun c hmem => by simp [hc c hmem]) (by decide) h

theorem processVrfTopChainRule_runs (isAdd : Bool) (vrf : Str) (h : Host) :
    h.Runs [.vrf] (processVrfTopChainRule isAdd vrf h).2 := by
  have hopt : ∀ (p : Prop) [Decidable p] (b : Bool), ∀ c ∈ (if p then defaultVrfChain b else []),
      c.kind = .vrf := by
    intro p _ b c hc
    split at hc
    · exact defaultVrfChain_kind b c hc
    · exact absurd hc List.not_mem_nil
  have h1 := runVrfCmds_runs _ (hopt (isAdd ∧ vrf = defaultVrf) true) h
  rw [processVrfTopChainRule]
  split
  · rename_i h' heq
    rwa [heq] at h1
  · rename_i h' heq
    rw [heq] at h1
    have h2 := h1.trans (runVrfCmds_runs _ (topChainCmds_kind isAdd vrf) h')
    split
    · rename_i h'' heq'
      rwa [heq'] at h2
    · rename_i h'' heq'
      rw [heq'] at h2
      exact h2.trans (runVrfCmds_runs _ (hopt _ false) h'')

theorem igmpCmds_kind (vrf : Str) (lines : Option (List Str)) :
    ∀ c ∈ igmpCmds vrf lines, c.kind = .vrf := by
  intro c hc
  rw [igmpCmds] at hc
  split at hc
  · exact absurd hc List.not_mem_nil
  · rcases List.mem_append.mp hc with hc | hc <;>
      obtain ⟨v, -, rfl⟩ := Option.map_eq_some_iff.mp (Option.mem_toList.mp hc) <;> rfl

theorem prepareNetns_runs (vrf : Str) (h : Host) : h.Runs [.vrf] (prepareNetns vrf h).2 := by
  have h1 := runVrfCmds_runs [.sysctl vrf "net.ipv6.conf.all.forwarding=1".toList]
    (by simp [Cmd.kind]) h
  rw [prepareNetns]
  split
  · rename_i h' heq
    rwa [heq] at h1
  rename_i h' heq
  rw [heq] at h1
  have h2 := (h1.trans (Host.readIgmpConf_runs _ h')).trans
    (runVrfCmds_runs _ (igmpCmds_kind vrf h'.readIgmpConf.1) h'.readIgmpConf.2)
  split
  · rename_i h'' heq'
    rwa [heq'] at h2
  rename_i h'' heq'
  rw [heq'] at h2
  have h3 := h2.trans (runVrfCmds_runs [.loUp vrf] (by simp [Cmd.kind]) h'')
  split
  · rename_i h3' heq3
    rwa [heq3] at h3
  rename_i h3' heq3
  rw [heq3] at h3
  have hlo : h3'.Runs [.vrf] (h3'.runEach [.loAddr defaultVrf, .loAddr vrf]) :=
    Host.runEach_runs (by simp [Cmd.kind]) (by decide) h3'
  have h4 := (h3.trans hlo).trans (runVrfCmds_runs _ (vrfChainCmds_kind ['N'] vrf) _)
  split
  · rename_i h4' heq4
    rwa [heq4] at h4
  rename_i h4' heq4
  rw [heq4] at h4
  exact h4.trans (processVrfTopChainRule_runs true vrf h4')

/-- How `process_vrf_config(True)` ends. -/
inductive Created (vrf : Str) (id : ℕ) (t t' : VrfTool) : Prop where
  /-- A command fails before the VRF gets its id. -/
  | refused (ids : t'.vrfNameToId = t.vrfNameToId)
      (netns : t'.host.kernel.netns = t.host.kernel.netns ∨
        t'.host.kernel.netns = vrf :: t.host.kernel.netns)
  /-- The VRF has its id.  If it is the first one, the soft link of the default
  VRF could not be made. -/
  | added (new : vrf ∉ t.host.kernel.netns)
      (ran : (t.host.runAll [.netnsAdd vrf, .netnsSet vrf id]).1 = true)
      (shared : (t.vrfNameToId.insert vrf id).keys.length = 1 →
        t.host.env.osCalls.head = false)
      (ids : t'.vrfNameToId = t.vrfNameToId.insert vrf id)
      (netns : t'.host.kernel.netns = vrf :: t.host.kernel.netns)
  /-- The first VRF has its id, and the default VRF too. -/
  | first (new : vrf ∉ t.host.kernel.netns)
      (alone : (t.vrfNameToId.insert vrf id).keys.length = 1)
      (ids : t'.vrfNameToId = (t.vrfNameToId.insert vrf id).insert defaultVrf 0)
      (netns : t'.host.kernel.netns = defaultVrf :: vrf :: t.host.kernel.netns)

theorem registerVrf_cases (vrf : Str) (id : ℕ) (t : VrfTool) :
    t.OnlyNames (registerVrf vrf id t) ∧
      (((t.vrfNameToId.insert vrf id).keys.length = 1 → t.host.env.osCalls.head = false) ∧
          (registerVrf vrf id t).vrfNameToId = t.vrfNameToId.insert vrf id ∧
          (registerVrf vrf id t).host.kernel.netns = t.host.kernel.netns ∨
        (t.vrfNameToId.insert vrf id).keys.length = 1 ∧
          (registerVrf vrf id t).vrfNameToId =
            (t.vrfNameToId.insert vrf id).insert defaultVrf 0 ∧
          (registerVrf vrf id t).host.kernel.netns = defaultVrf :: t.host.kernel.netns) := by
  rw [registerVrf]
  dsimp only
  split
  · rename_i halone
    split
    · rename_i h1 heq
      obtain ⟨hfails, rfl⟩ := Prod.mk.inj heq
      exact ⟨OnlyRuns.refl _ _, Or.inl ⟨fun _ => hfails, rfl, rfl⟩⟩
    · rename_i h1 heq
      obtain ⟨-, rfl⟩ := Prod.mk.inj heq
      exact ⟨OnlyRuns.refl _ _, Or.inr ⟨halone, rfl, rfl⟩⟩
  · rename_i hmore
    exact ⟨OnlyRuns.refl _ _, Or.inl ⟨fun halone => absurd halone hmore, rfl, rfl⟩⟩

/-- A command calls nothing of the `os` module. -/
theorem runCommand_osCalls (c : Cmd) (h : Host) :
    (h.runCommand c).2.env.osCalls = h.env.osCalls := by
  rw [Host.runCommand]
  split <;> rfl

/-- A namespace that is added was not there. -/
theorem netnsAdd_cases (vrf : Str) (h : Host) :
    ∃ ok h', h.runCommand (.netnsAdd vrf) = (ok, h') ∧
      (ok = false ∧ h'.kernel.netns = h.kernel.netns ∧ (h.Willing .netns → vrf ∈ h.kernel.netns) ∨
        ok = true ∧ vrf ∉ h.kernel.netns ∧ h'.kernel.netns = vrf :: h.kernel.netns) := by
  rw [Host.runCommand]
  split
  · rename_i hok
    have hnew : vrf ∉ h.kernel.netns := of_decide_eq_true (Bool.and_eq_true_iff.mp hok).2
    exact ⟨true, _, rfl, Or.inr ⟨rfl, hnew, rfl⟩⟩
  · rename_i hok
    refine ⟨false, _, rfl, Or.inl ⟨rfl, rfl, fun hw => ?_⟩⟩
    by_contra hnew
    exact hok (Bool.and_eq_true_iff.mpr ⟨hw 0, decide_eq_true hnew⟩)

theorem netnsSet_cases (vrf : Str) (id : ℕ) (h : Host) :
    ∃ ok h', h.runCommand (.netnsSet vrf id) = (ok, h') ∧
      h'.kernel.netns = h.kernel.netns ∧ (h.Willing .netns → ok = true) := by
  rw [Host.runCommand]
  split
  · exact ⟨true, _, rfl, rfl, fun _ => rfl⟩
  · rename_i hok
    exact ⟨false, _, rfl, rfl, fun hw => absurd (Bool.and_eq_true_iff.mpr ⟨hw 0, rfl⟩) hok⟩

/-- What the creation of a VRF leaves.  When the commands for namespaces
succeed, it registers a VRF that has no namespace. -/
theorem createVrf_cases (vrf : Str) (id : ℕ) (t : VrfTool) :
    t.OnlyNames (createVrf vrf id t).2 ∧ Created vrf id t (createVrf vrf id t).2 ∧
      (t.host.Willing .netns → vrf ∉ t.host.kernel.netns →
        vrf ∈ (createVrf vrf id t).2.host.kernel.netns ∧
          vrf ∈ (createVrf vrf id t).2.vrfNameToId) := by
  obtain ⟨ok1, h1, heq1, hcases1⟩ := netnsAdd_cases vrf t.host
  have hcalls1 : h1.env.osCalls = t.host.env.osCalls := by
    have hone := runCommand_osCalls (.netnsAdd vrf) t.host
    rwa [heq1] at hone
  have hadd : t.OnlyNames (t.setHost h1) := by
    have hone := netnsCommand_onlyNames vrf id (Or.inl rfl) t
    rwa [heq1] at hone
  rw [createVrf, Host.runAll, heq1]
  obtain ⟨rfl, hnetns1, hrefused⟩ | ⟨rfl, hnew, hnetns1⟩ := hcases1
  · refine ⟨hadd, .refused rfl (Or.inl hnetns1), fun hw hnotin => ?_⟩
    exact absurd (hrefused hw) hnotin
  obtain ⟨ok2, h2, heq2, hnetns2, hok2⟩ := netnsSet_cases vrf id h1
  have hcalls2 : h2.env.osCalls = h1.env.osCalls := by
    have htwo := runCommand_osCalls (.netnsSet vrf id) h1
    rwa [heq2] at htwo
  have hset : t.OnlyNames (t.setHost h2) := by
    have htwo := netnsCommand_onlyNames vrf id (Or.inr rfl) (t.setHost h1)
    change (t.setHost h1).OnlyNames (t.setHost (h1.runCommand (.netnsSet vrf id)).2) at htwo
    rw [heq2] at htwo
    exact hadd.trans htwo
  rw [hnetns1] at hnetns2
  have hran : (t.host.runAll [.netnsAdd vrf, .netnsSet vrf id]).1 = ok2 := by
    rw [Host.runAll, heq1]
    change (h1.runAll [.netnsSet vrf id]).1 = ok2
    rw [Host.runAll, heq2]
    cases ok2 <;> rfl
  dsimp only
  rw [Host.runAll, heq2]
  cases ok2 with
  | false =>
    refine ⟨hset, .refused rfl (Or.inr hnetns2), fun hw _ => ?_⟩
    exact absurd (hok2 (hadd.host.willing .netns hw)) Bool.false_ne_true
  | true =>
    dsimp only
    rw [Host.runAll]
    obtain ⟨hreg, hcases⟩ := registerVrf_cases vrf id (t.setHost h2)
    have hprep := prepareNetns_runs vrf (registerVrf vrf id (t.setHost h2)).host
    have hall := (hset.trans hreg).trans (OnlyRuns.setHost hprep).onlyNames
    have hnetns := hprep.frame.netns
    obtain ⟨hshared, hids, hsame⟩ | ⟨halone, hids, hmore⟩ := hcases
    · have hnetns' := (hnetns.trans hsame).trans hnetns2
      have hcalls : h2.env.osCalls = t.host.env.osCalls := hcalls2.trans hcalls1
      rw [show (t.setHost h2).host.env.osCalls = _ from hcalls] at hshared
      refine ⟨hall, .added hnew hran hshared hids hnetns', fun _ _ => ⟨?_, ?_⟩⟩
      · exact hnetns' ▸ List.mem_cons_self
      · exact hids ▸ Dict.mem_insert_iff.mpr (Or.inl rfl)
    · have hnetns' := (hnetns.trans hmore).trans (congrArg (List.cons defaultVrf) hnetns2)
      refine ⟨hall, .first hnew halone hids hnetns', fun _ _ => ⟨?_, ?_⟩⟩
      · exact hnetns' ▸ List.mem_cons_of_mem _ List.mem_cons_self
      · exact hids ▸ Dict.mem_insert_iff.mpr (Or.inr (Dict.mem_insert_iff.mpr (Or.inl rfl)))

/-! ## The loop over the veths -/

/-- Every entry of the map is for two names without stars. -/
def Formed (m : Dict Str ℕ) : Prop :=
  ∀ key ∈ m, ∃ src dst, '*' ∉ src ∧ '*' ∉ dst ∧ key = vethKey src dst

/-- What the deletion of one veth keeps, the loop over the veths keeps. -/
theorem deleteSubNets_keeps {P : VrfTool → Prop}
    (hdrop : ∀ src dst t, P t → P (ipSvcsSubnetSetup false src dst t).2) (vrf : Str)
    (keys : List Str) {t : VrfTool} (ht : P t) : P (deleteSubNets vrf keys t).2 := by
  induction keys generalizing t with
  | nil => exact ht
  | cons key rest ih =>
    have hone := hdrop (field 1 key) (field 2 key) t ht
    rw [deleteSubNets]
    split
    · rcases hsetup : ipSvcsSubnetSetup false (field 1 key) (field 2 key) t with
        ⟨⟨_ | _, val⟩, t1⟩ <;>
        rw [hsetup] at hone
      · exact hone
      · exact ih hone
    · exact ih ht

/-- When the loop over the veths gets to its end, no entry names the VRF. -/
theorem deleteSubNets_clean {vrf : Str} {keys : List Str} {t t' : VrfTool}
    (hformed : Formed t.vrfSubNetMap)
    (hkeys : ∀ key ∈ t.vrfSubNetMap, names key vrf = true → key ∈ keys)
    (h : deleteSubNets vrf keys t = (true, t')) :
    ∀ key ∈ t'.vrfSubNetMap, names key vrf = false := by
  induction keys generalizing t with
  | nil =>
    obtain rfl := (Prod.mk.inj h).2
    intro key hmem
    rw [← Bool.not_eq_true]
    exact fun hnames => absurd (hkeys key hmem hnames) List.not_mem_nil
  | cons key rest ih =>
    rw [deleteSubNets] at h
    split at h
    · rename_i hnames
      rcases hsetup : ipSvcsSubnetSetup false (field 1 key) (field 2 key) t with ⟨⟨ok, val⟩, t1⟩
      rw [hsetup] at h
      cases ok with
      | false => cases (Prod.mk.inj h).1
      | true =>
        have hcases := dropSubNet_cases (field 1 key) (field 2 key) t
        rw [hsetup] at hcases
        obtain ⟨hfail, -⟩ | ⟨-, hruns, -⟩ := hcases
        · cases hfail
        have hmap : t1.vrfSubNetMap =
            t.vrfSubNetMap.erase (vethKey (field 1 key) (field 2 key)) := hruns.subNet
        refine ih ?_ ?_ h
        · intro key' hmem
          rw [hmap, Dict.mem_erase_iff] at hmem
          exact hformed key' hmem.2
        · intro key' hmem hnames'
          rw [hmap, Dict.mem_erase_iff] at hmem
          rcases List.mem_cons.mp (hkeys key' hmem.2 hnames') with rfl | hrest
          · obtain ⟨src, dst, hsrc, hdst, rfl⟩ := hformed key' hmem.2
            rw [(field_vethKey hsrc hdst).1, (field_vethKey hsrc hdst).2] at hmem
            exact absurd rfl hmem.1
          · exact hrest
    · rename_i hnames
      refine ih hformed (fun key' hmem hnames' => ?_) h
      rcases List.mem_cons.mp (hkeys key' hmem hnames') with rfl | hrest
      · exact absurd hnames' hnames
      · exact hrest

/-! ## Deletion -/

/-- The same tool with another kernel. -/
def setKernel (t : VrfTool) (kernel : Kernel) : VrfTool := t.setHost { t.host with kernel }

/-- The soft link of the default VRF stays, or goes with the default VRF. -/
theorem unlinkDefault_cases (t : VrfTool) :
    ∃ ok t', unlinkDefault t = (ok, t') ∧ t.OnlyNames t' ∧
      ((t.vrfNameToId.keys.length = 1 → t.host.env.osCalls.head = false) ∧
          t'.vrfNameToId = t.vrfNameToId ∧ t'.host.kernel.netns = t.host.kernel.netns ∨
        t.vrfNameToId.keys.length = 1 ∧
          t'.host.kernel.netns = t.host.kernel.netns.filter (fun n => decide (n ≠ defaultVrf)) ∧
          (defaultVrf ∉ t.vrfNameToId ∧ t'.vrfNameToId = t.vrfNameToId ∨
            t'.vrfNameToId = t.vrfNameToId.erase defaultVrf)) := by
  rw [unlinkDefault]
  split
  · rename_i halone
    split
    · rename_i h1 heq
      obtain ⟨hfails, rfl⟩ := Prod.mk.inj heq
      exact ⟨true, _, rfl, OnlyRuns.refl _ _, Or.inl ⟨fun _ => hfails, rfl, rfl⟩⟩
    · rename_i h1 heq
      obtain ⟨-, rfl⟩ := Prod.mk.inj heq
      dsimp only
      split
      · rename_i hnone
        exact ⟨false, _, rfl, OnlyRuns.refl _ _,
          Or.inr ⟨halone, rfl, Or.inl ⟨AList.lookup_eq_none.mp hnone, rfl⟩⟩⟩
      · exact ⟨true, _, rfl, OnlyRuns.refl _ _, Or.inr ⟨halone, rfl, Or.inr rfl⟩⟩
  · rename_i hmore
    exact ⟨true, _, rfl, OnlyRuns.refl _ _,
      Or.inl ⟨fun halone => absurd halone hmore, rfl, rfl⟩⟩

/-- The namespace goes when `ip netns delete` succeeds. -/
theorem removeNetns_cases (vrf : Str) (t : VrfTool) :
    ∃ ok t' k, removeNetns vrf t = (ok, t') ∧ t.OnlyRuns [.netns, .vrf] (t'.setKernel k) ∧
      t'.host.kernel = if ok then k.effect (.netnsDelete vrf) else k := by
  have hcmds : t.host.Runs [.vrf] (t.host.runEach (vrfChainCmds ['F', 'X'] vrf)) :=
    Host.runEach_runs (fun c hc => by simp [vrfChainCmds_kind _ _ c hc]) (by decide) t.host
  rw [removeNetns]
  generalize t.host.runEach (vrfChainCmds ['F', 'X'] vrf) = h at hcmds
  have hans : h.Runs [.netns, .vrf] (h.answer .netns).2 := Host.answer_runs (by simp) h
  have hall := (hcmds.mono (by simp)).trans hans
  rw [Host.runCommand]
  split
  · exact ⟨true, _, h.kernel, rfl, ⟨rfl, rfl, rfl, rfl, hall⟩, rfl⟩
  · exact ⟨false, _, h.kernel, rfl, ⟨rfl, rfl, rfl, rfl, hall⟩, rfl⟩

/-- What the end of `process_vrf_config(False)` leaves of a VRF whose veths are
gone.  `k` is the kernel before its namespace is deleted. -/
structure Dropped (vrf : Str) (t : VrfTool) (ok : Bool) (t' : VrfTool) (k : Kernel) : Prop where
  known : vrf ∈ t.vrfNameToId
  ids : t'.vrfNameToId = t.vrfNameToId.erase vrf ∧
      ((t.vrfNameToId.erase vrf).keys.length = 1 →
        t.host.env.osCalls.head = false ∨ defaultVrf ∉ t.vrfNameToId.erase vrf) ∨
    t'.vrfNameToId = (t.vrfNameToId.erase vrf).erase defaultVrf ∧
      (t.vrfNameToId.erase vrf).keys.length = 1
  names : t.OnlyNames (t'.setKernel k)
  netns : k.netns = t.host.kernel.netns ∨
    k.netns = t.host.kernel.netns.filter (fun n => decide (n ≠ defaultVrf)) ∧
      defaultVrf ∉ t'.vrfNameToId
  kernel : t'.host.kernel = if ok then k.effect (.netnsDelete vrf) else k

/-- The veths between other VRFs stay. -/
theorem Dropped.mem_veths {vrf : Str} {t t' : VrfTool} {ok : Bool} {k : Kernel}
    (h : Dropped vrf t ok t' k) {p : Str × Str} (hp : p ∈ t.host.kernel.veths) (hsrc : p.1 ≠ vrf)
    (hdst : p.2 ≠ vrf) : p ∈ t'.host.kernel.veths := by
  have hk : p ∈ k.veths := (show k.veths = _ from h.names.host.frame.veths) ▸ hp
  rw [h.kernel]
  cases ok with
  | false => exact hk
  | true =>
    rw [if_pos rfl, Kernel.effect, Kernel.wipe]
    split
    · exact hk
    · exact List.mem_filter.mpr ⟨hk, decide_eq_true ⟨hsrc, hdst⟩⟩

/-- The interfaces of other VRFs stay as they are. -/
theorem Dropped.addrs {vrf : Str} {t t' : VrfTool} {ok : Bool} {k : Kernel}
    (h : Dropped vrf t ok t' k) {ns : Str} (hns : ns ≠ vrf) (dev : Str) :
    t'.host.kernel.addrs ns dev = t.host.kernel.addrs ns dev := by
  have hk : k.addrs = t.host.kernel.addrs :=
    h.names.host.addrs (by decide) (by decide) (by decide)
  rw [h.kernel, ← hk]
  cases ok with
  | false => rfl
  | true =>
    rw [if_pos rfl, Kernel.effect, Kernel.wipe]
    split
    · rfl
    · exact if_neg hns

/-- A VRF that still has its id is another one, and has it from before. -/
theorem Dropped.lookup {vrf : Str} {t t' : VrfTool} {ok : Bool} {k : Kernel}
    (h : Dropped vrf t ok t' k) {v : Str} {id : ℕ} (hv : t'.vrfNameToId.lookup v = some id) :
    v ≠ vrf ∧ t.vrfNameToId.lookup v = some id := by
  rcases h.ids with ⟨hids, -⟩ | ⟨hids, -⟩ <;> rw [hids] at hv
  · exact Dict.lookup_erase_iff.mp hv
  · exact Dict.lookup_erase_iff.mp (Dict.lookup_erase_iff.mp hv).2

/-- A VRF that still has its id still has its namespace. -/
theorem Dropped.mem_netns {vrf : Str} {t t' : VrfTool} {ok : Bool} {k : Kernel}
    (h : Dropped vrf t ok t' k) {v : Str} (hv : v ∈ t'.vrfNameToId)
    (hnetns : v ∈ t.host.kernel.netns) : v ∈ t'.host.kernel.netns := by
  obtain ⟨id, hid⟩ := Dict.mem_iff.mp hv
  have hne := (h.lookup hid).1
  have hk : v ∈ k.netns := by
    rcases h.netns with hsame | ⟨hfilter, hdef⟩
    · exact hsame ▸ hnetns
    · rw [hfilter, List.mem_filter, decide_eq_true_iff]
      exact ⟨hnetns, fun heq => hdef (heq ▸ hv)⟩
  rw [h.kernel]
  cases ok with
  | false => exact hk
  | true =>
    have hwipe : ∀ k : Kernel, (k.wipe vrf).netns = k.netns := by
      intro k
      rw [Kernel.wipe]
      split <;> rfl
    rw [if_pos rfl, Kernel.effect, hwipe, List.mem_filter, decide_eq_true_iff]
    exact ⟨hk, hne⟩

/-- A deletion first goes through the veths, and ends there when one of them
stays. -/
theorem deleteVrf_cases (vrf : Str) (t : VrfTool) :
    ∃ t0 keys done t1 ok t', deleteVrf vrf t = (ok, t') ∧ t.OnlyRuns [.vrf] t0 ∧
      (∀ key, key ∈ keys ↔ key ∈ t.vrfSubNetMap) ∧ deleteSubNets vrf keys t0 = (done, t1) ∧
      (ok = false ∧ t' = t1 ∨ done = true ∧ ∃ k, Dropped vrf t1 ok t' k) := by
  have htop := processVrfTopChainRule_runs false vrf t.host
  rw [deleteVrf]
  generalize (processVrfTopChainRule false vrf t.host).2 = h at htop
  have hstart : t.OnlyRuns [.vrf] (t.setHost (h.keysOf t.vrfSubNetMap).2) :=
    .setHost (htop.trans (Host.keysOf_runs [.vrf] t.vrfSubNetMap h))
  rcases hloop : deleteSubNets vrf ((t.setHost h).host.keysOf (t.setHost h).vrfSubNetMap).1
    ((t.setHost h).setHost ((t.setHost h).host.keysOf (t.setHost h).vrfSubNetMap).2) with
    ⟨done, t1⟩
  cases done with
  | false =>
    exact ⟨_, _, false, t1, false, t1, rfl, hstart, fun key => Host.mem_keysOf, hloop,
      Or.inl ⟨rfl, rfl⟩⟩
  | true =>
    dsimp only
    rcases hid : t1.vrfNameToId.lookup vrf with _ | id
    · exact ⟨_, _, true, t1, false, t1, rfl, hstart, fun key => Host.mem_keysOf, hloop,
        Or.inl ⟨rfl, rfl⟩⟩
    have hknown : vrf ∈ t1.vrfNameToId := Dict.mem_iff.mpr ⟨id, hid⟩
    obtain ⟨go, t2, heq, hnames, hunlink⟩ :=
      unlinkDefault_cases (t1.setIds (t1.vrfNameToId.erase vrf))
    have hids : t2.vrfNameToId = t1.vrfNameToId.erase vrf ∧
          ((t1.vrfNameToId.erase vrf).keys.length = 1 →
            t1.host.env.osCalls.head = false ∨ defaultVrf ∉ t1.vrfNameToId.erase vrf) ∨
        t2.vrfNameToId = (t1.vrfNameToId.erase vrf).erase defaultVrf ∧
          (t1.vrfNameToId.erase vrf).keys.length = 1 := by
      rcases hunlink with ⟨hshared, hsame, -⟩ | ⟨halone, -, ⟨hnone, hsame⟩ | hdef⟩
      · exact Or.inl ⟨hsame, fun h => Or.inl (hshared h)⟩
      · exact Or.inl ⟨hsame, fun _ => Or.inr hnone⟩
      · exact Or.inr ⟨hdef, halone⟩
    have hnetns : t2.host.kernel.netns = t1.host.kernel.netns ∨
        t2.host.kernel.netns = t1.host.kernel.netns.filter (fun n => decide (n ≠ defaultVrf)) ∧
          defaultVrf ∉ t2.vrfNameToId := by
      rcases hunlink with ⟨-, -, hsame⟩ | ⟨-, hfilter, ⟨hnone, hsame⟩ | hdef⟩
      · exact Or.inl hsame
      · exact Or.inr ⟨hfilter, hsame ▸ hnone⟩
      · exact Or.inr ⟨hfilter, hdef ▸ fun h => (Dict.mem_erase_iff.mp h).1 rfl⟩
    have hnames' : t1.OnlyNames t2 := OnlyRuns.setIds hnames t2.vrfNameToId
    dsimp only
    rw [heq]
    cases go with
    | false =>
      exact ⟨_, _, true, t1, false, t2, rfl, hstart, fun key => Host.mem_keysOf, hloop,
        Or.inr ⟨rfl, t2.host.kernel, hknown, hids, hnames', hnetns, rfl⟩⟩
    | true =>
      obtain ⟨ok, t', k, heq', hruns, hkernel⟩ := removeNetns_cases vrf t2
      have hi : t'.vrfNameToId = t2.vrfNameToId := hruns.ids
      have hn : k.netns = t2.host.kernel.netns := hruns.host.frame.netns
      have hsame : t2.OnlyNames (t'.setKernel k) := by
        change (((t2.setIds t'.vrfNameToId).setNetns k.netns).setOsCalls
          t'.host.env.osCalls).OnlyRuns _ _
        rw [hi, hn, show t'.host.env.osCalls = t2.host.env.osCalls from hruns.host.osCalls]
        exact hruns
      refine ⟨_, _, true, t1, ok, t', heq', hstart, fun key => Host.mem_keysOf, hloop,
        Or.inr ⟨rfl, k, hknown, ?_, hnames'.trans hsame, ?_, hkernel⟩⟩
      · rwa [hi]
      · rwa [hi, hn]

end VrfTool

end OpxNasLinux
