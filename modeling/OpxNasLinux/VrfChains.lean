import OpxNasLinux.BaseVrf
import OpxNasLinux.KernelChain

/-!
# The chains of a VRF

The chains of the outgoing rules of a VRF are in its namespace.  A new namespace
has empty ones, and a namespace that is deleted takes its chains with it.  The
deletion of a VRF also flushes the `nat` table of every namespace that has a
veth to the default one and whose key names the VRF.

* `Host.Spares` says that the chains and the namespaces stay as they are.
* `createVrf_chains` and `deleteVrf_chains` are `process_vrf_config`.
* `BaseVrf.createRequest_chains` and `BaseVrf.deleteRequest_chains` are the
  handler.
-/

namespace OpxNasLinux

open SvcsRule SvcsRuleCache

/-! ## Open VRFs -/

/-- The chains of a VRF exist: it is the default one, or its namespace
exists. -/
def Kernel.opened (k : Kernel) (vrf : Str) : Bool :=
  decide (vrf = defaultVrf) || decide (vrf ∈ k.netns)

theorem Kernel.opened_iff {k : Kernel} {vrf : Str} :
    k.opened vrf = true ↔ vrf = defaultVrf ∨ vrf ∈ k.netns := by
  rw [opened, Bool.or_eq_true, decide_eq_true_iff, decide_eq_true_iff]

theorem Kernel.opened_false_iff {k : Kernel} {vrf : Str} :
    k.opened vrf = false ↔ vrf ≠ defaultVrf ∧ vrf ∉ k.netns := by
  rw [← Bool.not_eq_true, opened_iff, not_or]

/-- VRFs are closed.  The chains of the others stay, and closed VRFs have empty
ones. -/
structure Kernel.Closes (k k' : Kernel) : Prop where
  kept : ∀ lc : Loc, k'.opened lc.vrfName = true →
    k.opened lc.vrfName = true ∧ k'.outgoing lc = k.outgoing lc
  gone : (∀ lc : Loc, k.opened lc.vrfName = false → k.outgoing lc = []) →
    ∀ lc : Loc, k'.opened lc.vrfName = false → k'.outgoing lc = []

namespace Host

/-- Every command succeeds from now on. -/
def AllWilling (h : Host) : Prop := ∀ kind, h.Willing kind

/-- The namespaces and the chains of the outgoing rules stay as they are. -/
structure Spares (h h' : Host) : Prop where
  netns : h'.kernel.netns = h.kernel.netns
  outgoing : h'.kernel.outgoing = h.kernel.outgoing
  willing : h.AllWilling → h'.AllWilling

variable {h h' h'' : Host}

theorem Spares.refl (h : Host) : h.Spares h := ⟨rfl, rfl, fun hw => hw⟩

theorem Spares.trans (h1 : h.Spares h') (h2 : h'.Spares h'') : h.Spares h'' :=
  ⟨h2.netns.trans h1.netns, h2.outgoing.trans h1.outgoing, fun hw => h2.willing (h1.willing hw)⟩

theorem Runs.spares {kinds : List CmdKind} (hr : h.Runs kinds h') (hf : .natFlush ∉ kinds) :
    h.Spares h' :=
  ⟨hr.frame.netns, (hr.chains hf).outgoing, fun hw kind => hr.willing kind (hw kind)⟩

theorem answer_willing (kind : CmdKind) (hw : h.AllWilling) : (h.answer kind).2.AllWilling := by
  have hruns : h.Runs [kind] (h.answer kind).2 := answer_runs List.mem_cons_self h
  exact fun kind' => hruns.willing kind' (hw kind')

/-- An answer is all that is used up. -/
theorem answer_spares (kind : CmdKind) (h : Host) : h.Spares (h.answer kind).2 :=
  ⟨rfl, rfl, answer_willing kind⟩

theorem Spares.opened (hs : h.Spares h') : h'.kernel.opened = h.kernel.opened := by
  funext vrf
  rw [Kernel.opened, Kernel.opened, hs.netns]

theorem Spares.closes (hs : h.Spares h') : h.kernel.Closes h'.kernel := by
  refine ⟨fun lc hlc => ⟨hs.opened ▸ hlc, congrFun hs.outgoing lc⟩, ?_⟩
  intro hclosed lc hlc
  rw [hs.outgoing]
  exact hclosed lc (hs.opened ▸ hlc)

end Host

namespace VrfTool

/-! ## Veths -/

theorem vethIpGet_spares (src dst : Str) (isPeerIp : Bool) (t : VrfTool) :
    t.host.Spares (vethIpGet src dst isPeerIp t).2.host := by
  obtain ⟨hruns, -⟩ | ⟨-, val, -, hruns, -⟩ := vethIpGet_cases src dst isPeerIp t
  · exact hruns.host.spares (by decide)
  · have hs := hruns.host.spares (by decide)
    exact ⟨hs.netns, hs.outgoing, hs.willing⟩

/-- The `nat` tables of a namespace are flushed for some families. -/
structure Flushes (src : Str) (tools : List Af) (h h' : Host) : Prop where
  netns : h'.kernel.netns = h.kernel.netns
  outgoing : ∀ lc, h'.kernel.outgoing lc =
    if lc.vrfName = src ∧ lc.af ∈ tools then [] else h.kernel.outgoing lc
  willing : h'.AllWilling

/-- One round of the loop that deletes the source translation. -/
theorem flush_flushes (src : Str) (tool : Af) {h : Host} (hw : h.AllWilling) :
    Flushes src [tool] h (h.runEach [.natFlush src tool, .natDropVrf src tool]) := by
  have h1 := Host.runCommand_of_head (h := h) (c := .natFlush src tool) (hw .natFlush 0) rfl
  have hw1 : Host.AllWilling { (h.answer .natFlush).2 with kernel := h.kernel.flushNat src tool } :=
    Host.answer_willing .natFlush hw
  have h2 := Host.runCommand_of_head (c := .natDropVrf src tool) (hw1 .natFlush 0) rfl
  have heach : h.runEach [.natFlush src tool, .natDropVrf src tool] =
      ((h.runCommand (.natFlush src tool)).2.runCommand (.natDropVrf src tool)).2 := rfl
  have heq := congrArg Prod.snd h1
  rw [heach, heq]
  refine ⟨congrArg (fun r => r.2.kernel.netns) h2, fun lc => ?_, ?_⟩
  · refine (congrArg (fun r => r.2.kernel.outgoing lc) h2).trans ?_
    show (if lc.vrfName = src ∧ lc.af = tool then [] else h.kernel.outgoing lc) = _
    simp
  · exact congrArg Prod.snd h2 ▸ Host.answer_willing .natFlush hw1

theorem dropNat_flushes (src : Str) (val : ℕ) (tools : List Af) {h : Host} (hw : h.AllWilling) :
    (dropNat src val tools h).1 = true ∧ Flushes src tools h (dropNat src val tools h).2 := by
  induction tools generalizing h with
  | nil => exact ⟨rfl, rfl, fun lc => by simp [dropNat], hw⟩
  | cons tool rest ih =>
    have hkind := snatCmds_kind false src val tool
    have hcmds : h.Runs [.snat] (h.runAll (snatCmds false src val tool)).2 :=
      Host.runAll_runs (fun c hc => by simp [hkind c hc]) (by decide) h
    have hruns := hcmds.spares (by decide)
    have hall : (h.runAll (snatCmds false src val tool)).1 = true := by
      refine Host.runAll_true hkind ?_ fun n _ => hw .snat n
      simp [snatCmds, Kernel.accepts]
    rw [dropNat]
    rcases hrun : h.runAll (snatCmds false src val tool) with ⟨ok, h1⟩
    rw [hrun] at hruns hall
    subst hall
    dsimp only
    have hone := flush_flushes src tool (hruns.willing hw)
    obtain ⟨hok, hrest⟩ := ih hone.willing
    refine ⟨hok, (hrest.netns.trans hone.netns).trans hruns.netns, fun lc => ?_, hrest.willing⟩
    rw [hrest.outgoing, hone.outgoing, hruns.outgoing]
    by_cases hsrc : lc.vrfName = src
    · by_cases htool : lc.af = tool
      · simp [hsrc, htool]
      · simp [hsrc, htool]
    · simp [hsrc]

/-- The deletion of a veth flushes the `nat` tables at its end, when it leads to
the default VRF. -/
theorem dropSubNet_chains (src dst : Str) {t : VrfTool} (hw : t.host.AllWilling) :
    (ipSvcsSubnetSetup false src dst t).2.vrfNameToId = t.vrfNameToId ∧
      (t.host.Spares (ipSvcsSubnetSetup false src dst t).2.host ∨
        ((ipSvcsSubnetSetup false src dst t).1.1 = true ∧ isNatPair src dst = true ∧
          src ∈ t.vrfNameToId ∧ dst ∈ t.vrfNameToId) ∧
          Flushes src [.inet, .inet6] t.host (ipSvcsSubnetSetup false src dst t).2.host) := by
  rw [ipSvcsSubnetSetup]
  rcases hsrc : t.vrfNameToId.lookup src with _ | srcId
  · exact ⟨rfl, Or.inl (.refl _)⟩
  have hside := setUpSide_onlyRuns false src dst t
  have hspares : t.host.Spares (setUpSide false src dst t).host := hside.host.spares (by decide)
  dsimp only
  rw [if_neg Bool.false_ne_true, deleteSubNet, hside.subNet]
  rcases t.vrfSubNetMap.lookup (vethKey src dst) with _ | val
  · exact ⟨hside.ids, Or.inl hspares⟩
  obtain ⟨ok, t1, heq, hruns, -⟩ := deleteVethConfig_cases src dst (setUpSide false src dst t)
  have hids : t1.vrfNameToId = t.vrfNameToId := hruns.ids.trans hside.ids
  have hveth : t.host.Spares t1.host := by
    have h1 := hruns.host.spares (by decide)
    exact hspares.trans ⟨h1.netns, h1.outgoing, h1.willing⟩
  dsimp only
  rw [heq]
  cases ok with
  | false => exact ⟨hids, Or.inl hveth⟩
  | true =>
    have hdst : dst ∈ t.vrfNameToId := by
      rw [processVethConfig, hside.ids, hsrc] at heq
      rcases hlookup : t.vrfNameToId.lookup dst with _ | dstId
      · rw [hlookup] at heq
        cases (Prod.mk.inj heq).1
      · exact Dict.mem_iff.mpr ⟨dstId, hlookup⟩
    dsimp only
    split
    · rename_i hnat
      obtain ⟨hok, hflush⟩ := dropNat_flushes src val [.inet, .inet6] (hveth.willing hw)
      refine ⟨hids, Or.inr ⟨⟨hok, hnat, Dict.mem_iff.mpr ⟨srcId, hsrc⟩, hdst⟩, ?_⟩⟩
      exact ⟨hflush.netns.trans hveth.netns,
        fun lc => (hflush.outgoing lc).trans (by rw [hveth.outgoing]), hflush.willing⟩
    · exact ⟨hids, Or.inl hveth⟩

/-! ## Deletion -/

/-- A deletion of the VRF that goes through these keys flushes only tables
without rules and the one of the VRF itself, whose veth is then the only one. -/
def FlushOk (vrf : Str) (keys : List Str) (bare : Str → Prop) : Prop :=
  ∀ key ∈ keys, names key vrf = true → isNatPair (field 1 key) (field 2 key) = true →
    bare (field 1 key) ∨ field 1 key = vrf ∧ ∀ key' ∈ keys, names key' vrf = true → key' = key

theorem FlushOk.mono {vrf : Str} {keys keys' : List Str} {bare bare' : Str → Prop}
    (h : FlushOk vrf keys bare) (hsub : ∀ key ∈ keys', key ∈ keys)
    (hbare : ∀ x, bare x → bare' x) : FlushOk vrf keys' bare' := by
  intro key hkey hnames hnat
  rcases h key (hsub key hkey) hnames hnat with hx | ⟨hx, honly⟩
  · exact Or.inl (hbare _ hx)
  · exact Or.inr ⟨hx, fun key' hkey' => honly key' (hsub key' hkey')⟩

/-- The chains of the VRF are empty. -/
def Bare (t : VrfTool) (x : Str) : Prop :=
  ∀ lc : Loc, lc.vrfName = x → t.host.kernel.outgoing lc = []

/-- The loop has flushed the rules of the VRF. -/
structure OwnFlush (vrf : Str) (t t' : VrfTool) : Prop where
  notDefault : vrf ≠ defaultVrf
  known : vrf ∈ t'.vrfNameToId
  knownDefault : defaultVrf ∈ t'.vrfNameToId
  netns : t'.host.kernel.netns = t.host.kernel.netns
  outgoing : ∀ lc : Loc, lc.vrfName ≠ vrf → t'.host.kernel.outgoing lc = t.host.kernel.outgoing lc
  willing : t'.host.AllWilling

/-- Keys that do not name the VRF are skipped. -/
theorem deleteSubNets_skip {vrf : Str} {keys : List Str} (h : ∀ key ∈ keys, names key vrf = false)
    (t : VrfTool) : deleteSubNets vrf keys t = (true, t) := by
  induction keys with
  | nil => rfl
  | cons key rest ih =>
    rw [deleteSubNets, if_neg (by simp [h key List.mem_cons_self])]
    exact ih fun key' hkey' => h key' (List.mem_cons_of_mem _ hkey')

/-- The loop leaves the chains as they are, or it gets to its end and has
flushed those of the VRF. -/
theorem deleteSubNets_chains {vrf : Str} {keys : List Str} {t : VrfTool} (hw : t.host.AllWilling)
    (hnodup : keys.Nodup) (hok : FlushOk vrf keys t.Bare) :
    t.host.Spares (deleteSubNets vrf keys t).2.host ∨
      (deleteSubNets vrf keys t).1 = true ∧ OwnFlush vrf t (deleteSubNets vrf keys t).2 := by
  induction keys generalizing t with
  | nil => exact Or.inl (.refl _)
  | cons key rest ih =>
    obtain ⟨hnew, hnodup⟩ := List.nodup_cons.mp hnodup
    have hrest : FlushOk vrf rest t.Bare :=
      hok.mono (fun _ hkey => List.mem_cons_of_mem _ hkey) fun _ h => h
    rw [deleteSubNets]
    split
    swap
    · exact ih hw hnodup hrest
    rename_i hnames
    obtain ⟨hids, hcases⟩ := dropSubNet_chains (field 1 key) (field 2 key) hw
    rcases hdrop : ipSvcsSubnetSetup false (field 1 key) (field 2 key) t with ⟨⟨ok, val⟩, t1⟩
    rw [hdrop] at hids hcases
    -- the chains are as before, and the loop goes on if it can
    have hgo : t.host.Spares t1.host →
        t.host.Spares (deleteSubNets vrf rest t1).2.host ∨
          (deleteSubNets vrf rest t1).1 = true ∧ OwnFlush vrf t (deleteSubNets vrf rest t1).2 := by
      intro hs
      have hbare : FlushOk vrf rest t1.Bare :=
        hrest.mono (fun _ hkey => hkey) fun x hx lc hlc => by
          rw [hs.outgoing]
          exact hx lc hlc
      rcases ih (hs.willing hw) hnodup hbare with h | ⟨hdone, h⟩
      · exact Or.inl (hs.trans h)
      · refine Or.inr ⟨hdone, h.notDefault, h.known, h.knownDefault, h.netns.trans hs.netns, ?_,
          h.willing⟩
        exact fun lc hlc => (h.outgoing lc hlc).trans (congrFun hs.outgoing lc)
    rcases hcases with hs | ⟨⟨rfl, hnat, hsrc, hdst⟩, hflush⟩
    · cases ok with
      | false => exact Or.inl hs
      | true => exact hgo hs
    · obtain ⟨hne, hdefault⟩ := of_decide_eq_true hnat
      have hall : ∀ lc : Loc, lc.af ∈ [Af.inet, .inet6] := fun lc => by cases lc.af <;> simp
      rcases hok key List.mem_cons_self hnames hnat with hbare | ⟨hself, honly⟩
      · refine hgo ⟨hflush.netns, funext fun lc => ?_, fun _ => hflush.willing⟩
        rw [hflush.outgoing]
        split
        · rename_i hlc
          exact (hbare lc hlc.1).symm
        · rfl
      · have hskip : ∀ key' ∈ rest, names key' vrf = false := by
          intro key' hkey'
          rw [← Bool.not_eq_true]
          intro hnames'
          exact hnew (honly key' (List.mem_cons_of_mem _ hkey') hnames' ▸ hkey')
        dsimp only
        rw [deleteSubNets_skip hskip]
        refine Or.inr ⟨rfl, hself ▸ hne, ?_, ?_, hflush.netns, fun lc hlc => ?_, hflush.willing⟩
        · exact hids ▸ hself ▸ hsrc
        · exact hids ▸ hdefault ▸ hdst
        · rw [hflush.outgoing, if_neg fun h => hlc (h.1.trans hself)]

/-- The loop has no part in which namespaces there are, and the chains of the
other VRFs stay. -/
theorem deleteSubNets_others {vrf : Str} {keys : List Str} {t : VrfTool} (hw : t.host.AllWilling)
    (hnodup : keys.Nodup) (hok : FlushOk vrf keys t.Bare) :
    (deleteSubNets vrf keys t).2.host.kernel.netns = t.host.kernel.netns ∧
      (deleteSubNets vrf keys t).2.host.AllWilling ∧
      ∀ lc : Loc, lc.vrfName ≠ vrf ∨ vrf = defaultVrf →
        (deleteSubNets vrf keys t).2.host.kernel.outgoing lc = t.host.kernel.outgoing lc := by
  rcases deleteSubNets_chains hw hnodup hok with hs | ⟨-, hown⟩
  · exact ⟨hs.netns, hs.willing hw, fun lc _ => congrFun hs.outgoing lc⟩
  · exact ⟨hown.netns, hown.willing, fun lc hlc =>
      hown.outgoing lc (hlc.resolve_right hown.notDefault)⟩

/-- With the id of the default VRF, the end of the deletion goes on. -/
theorem unlinkDefault_true {t : VrfTool} (h : defaultVrf ∈ t.vrfNameToId) :
    (unlinkDefault t).1 = true := by
  rw [unlinkDefault]
  split
  · split
    · rfl
    · dsimp only
      split
      · rename_i hnone
        exact absurd h (AList.lookup_eq_none.mp hnone)
      · rfl
  · rfl

/-- The namespace goes, with its chains. -/
theorem removeNetns_chains (vrf : Str) {t : VrfTool} (hw : t.host.AllWilling) :
    (removeNetns vrf t).2.host.kernel.netns =
        t.host.kernel.netns.filter (fun n => decide (n ≠ vrf)) ∧
      ∀ lc : Loc, (removeNetns vrf t).2.host.kernel.outgoing lc =
        if vrf ≠ defaultVrf ∧ lc.vrfName = vrf then [] else t.host.kernel.outgoing lc := by
  have hruns : t.host.Runs [.vrf] (t.host.runEach (vrfChainCmds ['F', 'X'] vrf)) :=
    Host.runEach_runs (fun c hc => by simp [vrfChainCmds_kind _ _ c hc]) (by decide) t.host
  have hcmds := hruns.spares (by decide)
  rw [removeNetns]
  generalize t.host.runEach (vrfChainCmds ['F', 'X'] vrf) = h at hcmds
  have hone := Host.runCommand_of_head (c := .netnsDelete vrf) (hcmds.willing hw .netns 0) rfl
  have hkernel : (h.runCommand (.netnsDelete vrf)).2.kernel =
      h.kernel.effect (.netnsDelete vrf) := congrArg (fun r => r.2.kernel) hone
  show (h.runCommand (.netnsDelete vrf)).2.kernel.netns = _ ∧ ∀ lc,
    (h.runCommand (.netnsDelete vrf)).2.kernel.outgoing lc = _
  rw [hkernel, ← hcmds.netns, ← hcmds.outgoing, Kernel.effect, Kernel.wipe]
  by_cases hdefault : vrf = defaultVrf
  · rw [if_pos hdefault]
    exact ⟨rfl, fun lc => (if_neg fun hlc => hlc.1 hdefault).symm⟩
  · rw [if_neg hdefault]
    refine ⟨rfl, fun lc => ?_⟩
    by_cases hlc : lc.vrfName = vrf
    · rw [if_pos ⟨hdefault, hlc⟩]
      exact if_pos hlc
    · rw [if_neg fun h => hlc h.2]
      exact if_neg hlc

/-- What is left of the chains when the namespace of a VRF is gone. -/
theorem closes_of_removed {k k' : Kernel} {vrf : Str} {netns : List Str}
    (hfirst : netns = k.netns ∨ netns = k.netns.filter fun n => decide (n ≠ defaultVrf))
    (hnetns : k'.netns = netns.filter fun n => decide (n ≠ vrf))
    (hsame : ∀ lc : Loc, lc.vrfName ≠ vrf ∨ vrf = defaultVrf → k'.outgoing lc = k.outgoing lc)
    (hgone : ∀ lc : Loc, lc.vrfName = vrf → vrf ≠ defaultVrf → k'.outgoing lc = []) :
    k.Closes k' := by
  have hmem : ∀ x, x ≠ defaultVrf → (x ∈ k'.netns ↔ x ∈ k.netns ∧ x ≠ vrf) := by
    intro x hx
    rw [hnetns, List.mem_filter, decide_eq_true_iff]
    rcases hfirst with hfirst | hfirst <;> rw [hfirst]
    rw [List.mem_filter, decide_eq_true_iff, and_iff_left hx]
  constructor
  · intro lc hopen
    rw [Kernel.opened_iff] at hopen ⊢
    by_cases hx : lc.vrfName = defaultVrf
    · refine ⟨Or.inl hx, hsame lc ?_⟩
      rw [hx]
      exact (eq_or_ne vrf defaultVrf).symm.imp_left fun h => h.symm
    · obtain ⟨hin, hne⟩ := (hmem _ hx).mp (hopen.resolve_left hx)
      exact ⟨Or.inr hin, hsame lc (Or.inl hne)⟩
  · intro hclosed lc hshut
    obtain ⟨hx, hout⟩ := Kernel.opened_false_iff.mp hshut
    by_cases hlc : lc.vrfName = vrf
    · exact hgone lc hlc fun h => hx (hlc.trans h)
    · rw [hsame lc (Or.inl hlc)]
      refine hclosed lc (Kernel.opened_false_iff.mpr ⟨hx, fun hin => hout ?_⟩)
      exact (hmem _ hx).mpr ⟨hin, hlc⟩

/-- A deletion closes VRFs and leaves the chains of the others as they are. -/
theorem deleteVrf_chains {vrf : Str} {t : VrfTool} (hw : t.host.AllWilling)
    (hok : FlushOk vrf t.vrfSubNetMap.keys t.Bare) :
    t.host.kernel.Closes (deleteVrf vrf t).2.host.kernel := by
  have htop := (processVrfTopChainRule_runs false vrf t.host).spares (by decide)
  rw [deleteVrf]
  generalize (processVrfTopChainRule false vrf t.host).2 = h at htop
  generalize hkeys : ((t.setHost h).host.keysOf (t.setHost h).vrfSubNetMap).1 = keys
  generalize ht0 : (t.setHost h).setHost
    ((t.setHost h).host.keysOf (t.setHost h).vrfSubNetMap).2 = t0
  have hperm : keys.Perm t.vrfSubNetMap.keys :=
    hkeys ▸ h.env.orders.head.perm t.vrfSubNetMap.keys
  have hstart : t.host.Spares t0.host :=
    ht0 ▸ htop.trans ((Host.keysOf_runs [] t.vrfSubNetMap h).spares (by simp))
  have hw0 : t0.host.AllWilling := hstart.willing hw
  have hok0 : FlushOk vrf keys t0.Bare :=
    hok.mono (fun _ hkey => hperm.mem_iff.mp hkey) fun x hx lc hlc => by
      rw [hstart.outgoing]
      exact hx lc hlc
  have hnodup : keys.Nodup := hperm.nodup_iff.mpr t.vrfSubNetMap.nodupKeys
  have hloop := deleteSubNets_chains hw0 hnodup hok0
  have hothers := deleteSubNets_others hw0 hnodup hok0
  rcases hrun : deleteSubNets vrf keys t0 with ⟨done, t1⟩
  rw [hrun] at hloop hothers
  obtain ⟨hnetns1, hw1, hout1⟩ := hothers
  cases done with
  | false =>
    rcases hloop with hs | ⟨hdone, -⟩
    · exact (hstart.trans hs).closes
    · cases hdone
  | true =>
    dsimp only
    rcases hid : t1.vrfNameToId.lookup vrf with _ | id
    · rcases hloop with hs | ⟨-, hown⟩
      · exact (hstart.trans hs).closes
      · exact absurd hown.known (AList.lookup_eq_none.mp hid)
    obtain ⟨go, t2, heq, hnames, hunlink⟩ :=
      unlinkDefault_cases (t1.setIds (t1.vrfNameToId.erase vrf))
    have hout2 : t2.host.kernel.outgoing = t1.host.kernel.outgoing :=
      (hnames.host.chains (by decide)).outgoing
    have hnetns2 : t2.host.kernel.netns = t1.host.kernel.netns ∨
        t2.host.kernel.netns = t1.host.kernel.netns.filter fun n => decide (n ≠ defaultVrf) :=
      hunlink.imp (fun h => h.2.2) fun h => h.2.1
    rw [hnetns1, hstart.netns] at hnetns2
    dsimp only
    rw [heq]
    cases go with
    | false =>
      dsimp only
      have hall : ∀ lc, t2.host.kernel.outgoing lc = t.host.kernel.outgoing lc := by
        rcases hloop with hs | ⟨-, hown⟩
        · intro lc
          rw [hout2, hs.outgoing, hstart.outgoing]
        · have hgo := @unlinkDefault_true (t1.setIds (t1.vrfNameToId.erase vrf))
            (Dict.mem_erase_iff.mpr ⟨hown.notDefault.symm, hown.knownDefault⟩)
          rw [heq] at hgo
          cases hgo
      rcases hnetns2 with hn | hn
      · exact Host.Spares.closes ⟨hn, funext hall, fun _ => fun kind =>
          hnames.host.willing kind (hw1 kind)⟩
      · exact closes_of_removed (Or.inl rfl) hn (fun lc _ => hall lc)
          fun _ _ hne => absurd rfl hne
    | true =>
      have hw2 : t2.host.AllWilling := fun kind => hnames.host.willing kind (hw1 kind)
      obtain ⟨hnetns, hout⟩ := removeNetns_chains vrf hw2
      refine closes_of_removed hnetns2 hnetns (fun lc hlc => ?_) fun lc hlc hne => ?_
      · rw [hout, if_neg fun h => hlc.elim (fun hx => hx h.2) fun hd => h.1 hd, hout2, hout1 lc hlc,
          hstart.outgoing]
      · rw [hout, if_pos ⟨hne, hlc⟩]

theorem deleteVrf_willing (vrf : Str) {t : VrfTool} (hw : t.host.AllWilling) :
    (deleteVrf vrf t).2.host.AllWilling := by
  obtain ⟨t0, keys, done, t1, ok, t', heq, hstart, -, hloop, hend⟩ := deleteVrf_cases vrf t
  have hw1 : t1.host.AllWilling := by
    have hkeep := @deleteSubNets_keeps (fun u => u.host.AllWilling) (fun src dst u hu => by
      rcases (dropSubNet_chains src dst hu).2 with hs | ⟨-, hflush⟩
      · exact hs.willing hu
      · exact hflush.willing) vrf keys t0 fun kind => hstart.host.willing kind (hw kind)
    rwa [hloop] at hkeep
  rw [heq]
  obtain ⟨-, rfl⟩ | ⟨-, k, hdropped⟩ := hend
  · exact hw1
  · exact fun kind => hdropped.names.host.willing kind (hw1 kind)

/-! ## Creation -/

/-- A creation leaves the chains as they are, and opens the VRF. -/
theorem createVrf_chains (vrf : Str) (id : ℕ) {t : VrfTool} (hw : t.host.AllWilling) :
    (createVrf vrf id t).2.host.AllWilling ∧
      (createVrf vrf id t).2.host.kernel.outgoing = t.host.kernel.outgoing ∧
      ∀ x, (createVrf vrf id t).2.host.kernel.opened x = true ↔
        t.host.kernel.opened x = true ∨ x = vrf := by
  obtain ⟨hnames, hcreated, hadds⟩ := createVrf_cases vrf id t
  refine ⟨fun kind => hnames.host.willing kind (hw kind),
    (hnames.host.chains (by decide)).outgoing, fun x => ?_⟩
  have hnetns : ∀ x, x ≠ defaultVrf → (x ∈ (createVrf vrf id t).2.host.kernel.netns ↔
      x ∈ t.host.kernel.netns ∨ x = vrf) := by
    intro x hx
    cases hcreated with
    | refused hids hnetns =>
      rcases hnetns with hnetns | hnetns
      · rw [hnetns, iff_self_or]
        rintro rfl
        by_contra hnew
        exact hnew (hnetns ▸ (hadds (hw .netns) hnew).1)
      · rw [hnetns, List.mem_cons, or_comm]
    | added hnew hran hshared hids hnetns => rw [hnetns, List.mem_cons, or_comm]
    | first hnew halone hids hnetns =>
      rw [hnetns, List.mem_cons, List.mem_cons, or_iff_right hx, or_comm]
  rw [Kernel.opened_iff, Kernel.opened_iff]
  by_cases hx : x = defaultVrf
  · simp [hx]
  · rw [or_iff_right hx, or_iff_right hx, hnetns x hx]

end VrfTool

/-! ## The incoming cache -/

/-- An `iptables` command for a rule: the kernel has its chain edited, if its
VRF is open and `iptables` can do it. -/
def editRules {R : Type} [SvcsRule R] [DecidableEq R] (chains : Loc → List R)
    (put : (Loc → List R) → Kernel) (op : IptOp) (r : R) (idx : Option ℕ) (h : Host) :
    Bool × Host :=
  if (h.answer .iptables).1 && h.kernel.opened (loc r).vrfName then
    match editChain op (core r) idx (chains (loc r)) with
    | some chain =>
      (true, { (h.answer .iptables).2 with
        kernel := put (Function.update chains (loc r) chain) })
    | none => (false, (h.answer .iptables).2)
  else (false, (h.answer .iptables).2)

namespace IptablesHandler

/-- The commands for incoming rules.  `counts` are the counters that are read. -/
def commands (counts : VrfIncomingSvcsRule → ℕ → Host → Outcome (Option Stats)) : Commands where
  edit op r idx h :=
    editRules h.kernel.incoming (fun incoming => { h.kernel with incoming }) op r idx h
  stats r idx h := (counts r idx h, (h.answer .iptables).2)

end IptablesHandler

namespace VrfTool

/-- The veths, the namespaces and the chains of the outgoing rules stay as they
are. -/
structure Spares (t t' : VrfTool) : Prop where
  subNet : t'.vrfSubNetMap = t.vrfSubNetMap
  host : t.host.Spares t'.host

theorem Spares.refl (t : VrfTool) : t.Spares t := ⟨rfl, .refl _⟩

theorem Spares.trans {t t' t'' : VrfTool} (h1 : t.Spares t') (h2 : t'.Spares t'') :
    t.Spares t'' := ⟨h2.subNet.trans h1.subNet, h1.host.trans h2.host⟩

theorem isVrfValid_spares (vrf : Str) (t : VrfTool) : t.Spares (isVrfValid vrf t).2 :=
  ⟨rfl, Host.answer_spares .netnsShow t.host⟩

end VrfTool

namespace IptablesHandler

theorem commands_spares (counts : VrfIncomingSvcsRule → ℕ → Host → Outcome (Option Stats))
    (op : IptOp) (r : VrfIncomingSvcsRule) (idx : Option ℕ) (h : Host) :
    h.Spares ((commands counts).edit op r idx h).2 := by
  have hanswer := Host.answer_spares .iptables h
  show h.Spares (editRules _ _ op r idx h).2
  rw [editRules]
  split
  · split
    · exact ⟨rfl, rfl, hanswer.willing⟩
    · exact hanswer
  · exact hanswer

/-- What the incoming cache calls leaves the outgoing rules alone. -/
theorem handlers_spares (counts : VrfIncomingSvcsRule → ℕ → Host → Outcome (Option Stats)) :
    (handlers (commands counts)).Respects VrfTool.Spares where
  refl := .refl
  trans _ _ _ h1 h2 := h1.trans h2
  procRule op r idx t := by
    have hopened : t.Spares (vrfOpened (op = .delete) r.vrfName t).2 := by
      rw [vrfOpened]
      split
      · exact VrfTool.isVrfValid_spares r.vrfName t
      · exact .refl t
    show t.Spares (procRule (commands counts) op r idx t).2
    rw [procRule]
    rcases hopen : vrfOpened (op = .delete) r.vrfName t with ⟨_ | _, t1⟩ <;> rw [hopen] at hopened
    · exact hopened
    · dsimp only at hopened ⊢
      split_ifs
      · exact hopened
      · exact hopened.trans ⟨rfl, commands_spares counts op r idx t1.host⟩
      · exact hopened
  getStats r idx t := by
    have hopened : t.Spares (vrfOpened true r.vrfName t).2 := by
      rw [vrfOpened]
      split
      · exact VrfTool.isVrfValid_spares r.vrfName t
      · exact .refl t
    show t.Spares (procGet (commands counts) r idx t).2
    rw [procGet]
    rcases hopen : vrfOpened true r.vrfName t with ⟨_ | _, t1⟩ <;> rw [hopen] at hopened
    · exact hopened
    · dsimp only at hopened ⊢
      split_ifs
      · exact hopened.trans ⟨rfl, Host.answer_spares .iptables t1.host⟩
      · exact hopened
  subNetInsert _ t := .refl t
  subNetDelete _ t := .refl t

end IptablesHandler

namespace BaseVrf

/-! ## The handler -/

section

variable {h : Handlers VrfIncomingSvcsRule VrfTool} {rel : VrfTool → VrfTool → Prop}

theorem processVrfSvcsRuleAdd_respects (hr : h.Respects rel) (a : VrfIncomingSvcsRule.Args)
    (s : VrfIncomingSvcsRuleCache VrfTool) : rel s.world (processVrfSvcsRuleAdd h a s).2.world := by
  show rel s.world (processAdd h (VrfIncomingSvcsRule.init a) s).2.world
  cases VrfIncomingSvcsRule.init a with
  | none => exact hr.refl _
  | some rule =>
    have hins := insertRule_respects hr rule s
    rw [processAdd]
    split
    · rename_i heq
      rwa [heq] at hins
    · rename_i heq
      rwa [heq] at hins

theorem createVrfDefaultRules_respects (hr : h.Respects rel) (vrf : Str) (afs : List Af)
    (s : VrfIncomingSvcsRuleCache VrfTool) :
    rel s.world (createVrfDefaultRules h vrf afs s).2.world := by
  induction afs generalizing s with
  | nil => exact hr.refl _
  | cons af rest ih =>
    have hadd := processVrfSvcsRuleAdd_respects hr (defaultRule vrf af) s
    rw [createVrfDefaultRules]
    split
    · rename_i heq
      rwa [heq] at hadd
    · rename_i heq
      rw [heq] at hadd
      exact hr.trans _ _ _ hadd (ih _)

theorem ensureDefaultRules_respects (hr : h.Respects rel) (vrf : Str) (d : BaseVrf) :
    rel d.tool (ensureDefaultRules h vrf d).tool := by
  rw [ensureDefaultRules]
  split
  · exact hr.refl _
  · exact createVrfDefaultRules_respects hr vrf [.inet, .inet6] d.cache

theorem deleteRules_respects (hr : h.Respects rel) (ord : DictOrder) (ids : List ℤ)
    (s : VrfIncomingSvcsRuleCache VrfTool) : rel s.world (deleteRules h ord ids s).world := by
  induction ids generalizing s with
  | nil => exact hr.refl _
  | cons id rest ih =>
    refine hr.trans _ _ _ ?_ (ih _)
    have hdel := deleteRuleById_respects hr ord id s
    show rel s.world (processDelById h ord id s).2.world
    rw [processDelById]
    split
    · rename_i heq
      rwa [heq] at hdel
    · rename_i heq
      rwa [heq] at hdel

theorem dropDefaultRules_respects (hr : h.Respects rel) (ord : DictOrder) (vrf : Str)
    (d : BaseVrf) : rel d.tool (dropDefaultRules h ord vrf d).tool := by
  rw [dropDefaultRules]
  split
  · exact hr.refl _
  · exact deleteRules_respects hr ord _ d.cache

/-- A deletion as far as `process_vrf_config`. -/
theorem deleteRequest_tool (hr : h.Respects rel) (ord : DictOrder) (vrf : Str) (id : ℕ)
    (d : BaseVrf) : ∃ t, rel d.tool t ∧
      (deleteRequest h ord vrf id d).2.tool = (VrfTool.deleteVrf vrf t).2 := by
  have hown := dropDefaultRules_respects hr ord vrf d
  rw [deleteRequest]
  split
  · exact ⟨_, hr.trans _ _ _ hown (dropDefaultRules_respects hr ord defaultVrf _), rfl⟩
  · exact ⟨_, hown, rfl⟩

end

section

variable {h : Handlers VrfIncomingSvcsRule VrfTool} {d : BaseVrf}

/-- A creation opens the VRF, and leaves the chains as they are. -/
theorem createRequest_chains (hr : h.Respects VrfTool.Spares) (ord : DictOrder) (vrf : Str)
    (id : ℕ) (hw : d.tool.host.AllWilling) :
    (createRequest h ord vrf id d).2.tool.host.AllWilling ∧
      (createRequest h ord vrf id d).2.tool.host.kernel.outgoing =
        d.tool.host.kernel.outgoing ∧
      ∀ x, (createRequest h ord vrf id d).2.tool.host.kernel.opened x = true ↔
        d.tool.host.kernel.opened x = true ∨ x = vrf := by
  have hclear : d.tool.Spares (processVrfSvcsClearRules h ord (some vrf) d.cache).2.world :=
    step_respects hr d.cache (.clearAllRules ord (some vrf) none)
  obtain ⟨hwilling, hout, hopened⟩ := VrfTool.createVrf_chains vrf id (hclear.host.willing hw)
  rw [hclear.host.outgoing] at hout
  rw [hclear.host.opened] at hopened
  rw [createRequest]
  split
  · rename_i t heq
    have heq' : VrfTool.createVrf vrf id
      (processVrfSvcsClearRules h ord (some vrf) d.cache).2.world = (true, t) := heq
    rw [heq'] at hwilling hout hopened
    have hrules := hr.trans _ _ _
      (ensureDefaultRules_respects hr vrf
        ((d.setCache (processVrfSvcsClearRules h ord (some vrf) d.cache).2).setTool t))
      (ensureDefaultRules_respects hr defaultVrf _)
    refine ⟨hrules.host.willing hwilling, hrules.host.outgoing.trans hout, fun x => ?_⟩
    rw [hrules.host.opened]
    exact hopened x
  · rename_i t heq
    have heq' : VrfTool.createVrf vrf id
      (processVrfSvcsClearRules h ord (some vrf) d.cache).2.world = (false, t) := heq
    rw [heq'] at hwilling hout hopened
    exact ⟨hwilling, hout, hopened⟩

/-- A deletion closes VRFs. -/
theorem deleteRequest_chains (hr : h.Respects VrfTool.Spares) (ord : DictOrder) {vrf : Str}
    (id : ℕ) (hw : d.tool.host.AllWilling)
    (hok : VrfTool.FlushOk vrf d.tool.vrfSubNetMap.keys d.tool.Bare) :
    d.tool.host.kernel.Closes (deleteRequest h ord vrf id d).2.tool.host.kernel := by
  obtain ⟨t, hs, heq⟩ := deleteRequest_tool hr ord vrf id d
  have hok' : VrfTool.FlushOk vrf t.vrfSubNetMap.keys t.Bare := by
    rw [hs.subNet]
    refine hok.mono (fun _ hkey => hkey) fun x hx lc hlc => ?_
    rw [hs.host.outgoing]
    exact hx lc hlc
  have hcloses := VrfTool.deleteVrf_chains (hs.host.willing hw) hok'
  rw [heq]
  refine ⟨fun lc hlc => ?_, fun hclosed => hcloses.gone fun lc hlc => ?_⟩
  · obtain ⟨hopen, hout⟩ := hcloses.kept lc hlc
    exact ⟨hs.host.opened ▸ hopen, hout.trans (congrFun hs.host.outgoing lc)⟩
  · rw [hs.host.outgoing]
    exact hclosed lc (hs.host.opened ▸ hlc)

/-- Commands that succeed go on to succeed. -/
theorem setVrfCbInt_willing (hr : h.Respects VrfTool.Spares) (ord : DictOrder) (op : Operation)
    (vrfName : Option Str) (vrfId : Option ℕ) (hw : d.tool.host.AllWilling) :
    (setVrfCbInt h ord op vrfName vrfId d).2.tool.host.AllWilling := by
  cases vrfName with
  | none => exact hw
  | some vrf =>
    cases vrfId with
    | none => exact hw
    | some id =>
      cases op with
      | create => exact (createRequest_chains hr ord vrf id hw).1
      | delete =>
        obtain ⟨t, hs, heq⟩ := deleteRequest_tool hr ord vrf id d
        show (deleteRequest h ord vrf id d).2.tool.host.AllWilling
        rw [heq]
        exact VrfTool.deleteVrf_willing vrf (hs.host.willing hw)
      | set => exact hw
      | other => exact hw

end

end BaseVrf

end OpxNasLinux
