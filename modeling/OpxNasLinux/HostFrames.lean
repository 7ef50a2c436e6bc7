import OpxNasLinux.VrfTool

/-!
# What the commands leave alone

Only the commands of `ip netns` change which namespaces exist, and only the
commands for interfaces change addresses.  `Host.Runs` collects what a piece of
the code leaves alone when it runs no commands but those of the given kinds.

* The first group has the single command and the lists of commands.
* `VrfTool.OnlyRuns` is the same for a function of the VRF tool that leaves all
  maps alone but the one of the rules of addresses.
-/

namespace OpxNasLinux

/-! ## Commands -/

/-- The namespaces and the veths stay. -/
structure Kernel.SameFrame (k k' : Kernel) : Prop where
  netns : k'.netns = k.netns
  veths : k'.veths = k.veths

/-- The chains of the service rules stay. -/
structure Kernel.SameChains (k k' : Kernel) : Prop where
  incoming : k'.incoming = k.incoming
  outgoing : k'.outgoing = k.outgoing

/-- A command that is no `ip netns` leaves the namespaces alone. -/
theorem Kernel.effect_sameFrame {c : Cmd} (k : Kernel) (hc : c.kind ≠ .netns) :
    k.SameFrame (k.effect c) := by
  cases c with
  | netnsAdd | netnsSet | netnsDelete => exact absurd rfl hc
  | jump isAdd => cases isAdd <;> exact ⟨rfl, rfl⟩
  | _ => exact ⟨rfl, rfl⟩

/-- A command that flushes no table leaves the chains alone too. -/
theorem Kernel.effect_sameChains {c : Cmd} (k : Kernel) (hc : c.kind ≠ .netns)
    (hf : c.kind ≠ .natFlush) : k.SameChains (k.effect c) := by
  cases c with
  | netnsAdd | netnsSet | netnsDelete => exact absurd rfl hc
  | natFlush | natDropVrf => exact absurd rfl hf
  | jump isAdd => cases isAdd <;> exact ⟨rfl, rfl⟩
  | _ => exact ⟨rfl, rfl⟩

/-- A command that is for no interface leaves the addresses alone. -/
theorem Kernel.effect_addrs {c : Cmd} (k : Kernel) (hn : c.kind ≠ .netns) (hv : c.kind ≠ .veth)
    (hd : c.kind ≠ .vethDelete) (hs : c.kind ≠ .srcAddr) : (k.effect c).addrs = k.addrs := by
  cases c with
  | netnsAdd | netnsSet | netnsDelete => exact absurd rfl hn
  | linkAdd | linkUp | linkNetns | vethAddr | routeLocalnet => exact absurd rfl hv
  | linkDelete => exact absurd rfl hd
  | addrAdd | addrDel => exact absurd rfl hs
  | jump isAdd => cases isAdd <;> rfl
  | _ => rfl

namespace Host

/-- Every command of a kind succeeds from now on. -/
def Willing (kind : CmdKind) (h : Host) : Prop := ∀ n, (h.env.answers kind).get n = true

/-- What stays the same when only commands of some kinds are run. -/
structure Runs (kinds : List CmdKind) (h h' : Host) : Prop where
  frame : h.kernel.SameFrame h'.kernel
  chains : .natFlush ∉ kinds → h.kernel.SameChains h'.kernel
  addrs : .veth ∉ kinds → .vethDelete ∉ kinds → .srcAddr ∉ kinds →
    h'.kernel.addrs = h.kernel.addrs
  answers : ∀ kind, kind ∉ kinds → h'.env.answers kind = h.env.answers kind
  willing : ∀ kind, h.Willing kind → h'.Willing kind
  osCalls : h'.env.osCalls = h.env.osCalls

/-- The same host with other outcomes of the `os` module. -/
def setOsCalls (h : Host) (osCalls : Stream' Bool) : Host :=
  { h with env := { h.env with osCalls } }

variable {kinds : List CmdKind} {h h' h'' : Host}

theorem Runs.refl (kinds : List CmdKind) (h : Host) : h.Runs kinds h :=
  ⟨⟨rfl, rfl⟩, fun _ => ⟨rfl, rfl⟩, fun _ _ _ => rfl, fun _ _ => rfl, fun _ hw => hw, rfl⟩

theorem Runs.trans (h1 : h.Runs kinds h') (h2 : h'.Runs kinds h'') : h.Runs kinds h'' :=
  { frame := ⟨h2.frame.netns.trans h1.frame.netns, h2.frame.veths.trans h1.frame.veths⟩
    chains := fun hf =>
      ⟨(h2.chains hf).incoming.trans (h1.chains hf).incoming,
        (h2.chains hf).outgoing.trans (h1.chains hf).outgoing⟩
    addrs := fun hv hd hs => (h2.addrs hv hd hs).trans (h1.addrs hv hd hs)
    answers := fun kind hk => (h2.answers kind hk).trans (h1.answers kind hk)
    willing := fun kind hw => h2.willing kind (h1.willing kind hw)
    osCalls := h2.osCalls.trans h1.osCalls }

/-- More kinds may be named. -/
theorem Runs.mono {kinds' : List CmdKind} (hr : h.Runs kinds h') (hk : kinds ⊆ kinds') :
    h.Runs kinds' h' :=
  { frame := hr.frame
    chains := fun hf => hr.chains fun hm => hf (hk hm)
    addrs := fun hv hd hs =>
      hr.addrs (fun hm => hv (hk hm)) (fun hm => hd (hk hm)) (fun hm => hs (hk hm))
    answers := fun kind hn => hr.answers kind fun hm => hn (hk hm)
    willing := hr.willing
    osCalls := hr.osCalls }

/-- `Runs` may be read with the same veths before and after. -/
theorem Runs.setVeths (hr : h.Runs kinds h') (veths : List (Str × Str)) :
    (h.setVeths veths).Runs kinds (h'.setVeths veths) :=
  { frame := ⟨hr.frame.netns, rfl⟩
    chains := fun hf => ⟨(hr.chains hf).incoming, (hr.chains hf).outgoing⟩
    addrs := hr.addrs
    answers := hr.answers
    willing := hr.willing
    osCalls := hr.osCalls }

/-- `Runs` may be read with the same namespaces before and after. -/
theorem Runs.setNetns (hr : h.Runs kinds h') (netns : List Str) :
    (h.setNetns netns).Runs kinds (h'.setNetns netns) :=
  { frame := ⟨rfl, hr.frame.veths⟩
    chains := fun hf => ⟨(hr.chains hf).incoming, (hr.chains hf).outgoing⟩
    addrs := hr.addrs
    answers := hr.answers
    willing := hr.willing
    osCalls := hr.osCalls }

/-- `Runs` may be read with the same outcomes of the `os` module before and
after. -/
theorem Runs.setOsCalls (hr : h.Runs kinds h') (calls : Stream' Bool) :
    (h.setOsCalls calls).Runs kinds (h'.setOsCalls calls) :=
  { frame := hr.frame
    chains := hr.chains
    addrs := hr.addrs
    answers := hr.answers
    willing := hr.willing
    osCalls := rfl }

/-- The kernel, the answers and the outcomes of the `os` module are all that
`Runs` looks at. -/
theorem Runs.of_eq (kinds : List CmdKind) (hk : h'.kernel = h.kernel)
    (ha : h'.env.answers = h.env.answers) (ho : h'.env.osCalls = h.env.osCalls) :
    h.Runs kinds h' :=
  { frame := by
      rw [hk]
      exact ⟨rfl, rfl⟩
    chains := fun _ => by
      rw [hk]
      exact ⟨rfl, rfl⟩
    addrs := fun _ _ _ => by rw [hk]
    answers := fun _ _ => by rw [ha]
    willing := fun kind hw n => by
      rw [ha]
      exact hw n
    osCalls := ho }

theorem answer_self (kind : CmdKind) (h : Host) :
    (h.answer kind).2.env.answers kind = (h.env.answers kind).tail := Function.update_self _ _ _

theorem answer_ne {kind kind' : CmdKind} (hne : kind' ≠ kind) (h : Host) :
    (h.answer kind).2.env.answers kind' = h.env.answers kind' := Function.update_of_ne hne _ _

theorem answer_runs {kind : CmdKind} (hk : kind ∈ kinds) (h : Host) :
    h.Runs kinds (h.answer kind).2 :=
  { frame := ⟨rfl, rfl⟩
    chains := fun _ => ⟨rfl, rfl⟩
    addrs := fun _ _ _ => rfl
    answers := fun kind' hk' => by
      have hne : kind' ≠ kind := fun heq => hk' (heq ▸ hk)
      exact answer_ne hne h
    willing := fun kind' hw n => by
      by_cases hkk : kind' = kind
      · subst hkk
        rw [answer_self]
        exact hw (n + 1)
      · rw [answer_ne hkk]
        exact hw n
    osCalls := rfl }

/-- One command. -/
theorem runCommand_runs {c : Cmd} (hc : c.kind ∈ kinds) (hn : .netns ∉ kinds) (h : Host) :
    h.Runs kinds (h.runCommand c).2 := by
  have hans := answer_runs hc h
  have hne : c.kind ≠ .netns := fun heq => hn (heq ▸ hc)
  rw [runCommand]
  split
  · refine ⟨Kernel.effect_sameFrame h.kernel hne,
      fun hf => Kernel.effect_sameChains h.kernel hne fun heq => hf (heq ▸ hc), ?_, hans.answers,
      hans.willing, rfl⟩
    intro hv hd hs
    exact Kernel.effect_addrs h.kernel hne (fun heq => hv (heq ▸ hc)) (fun heq => hd (heq ▸ hc))
      (fun heq => hs (heq ▸ hc))
  · exact hans

/-- Commands up to the first failure. -/
theorem runAll_runs {cmds : List Cmd} (hc : ∀ c ∈ cmds, c.kind ∈ kinds) (hn : .netns ∉ kinds)
    (h : Host) : h.Runs kinds (h.runAll cmds).2 := by
  induction cmds generalizing h with
  | nil => exact .refl kinds h
  | cons c rest ih =>
    have hfirst := runCommand_runs (hc c List.mem_cons_self) hn h
    rw [runAll]
    split
    · rename_i h1 heq
      rw [heq] at hfirst
      exact hfirst.trans (ih (fun c' hc' => hc c' (List.mem_cons_of_mem _ hc')) h1)
    · rename_i h1 heq
      rwa [heq] at hfirst

/-- Commands whose failure is only logged. -/
theorem runEach_runs {cmds : List Cmd} (hc : ∀ c ∈ cmds, c.kind ∈ kinds) (hn : .netns ∉ kinds)
    (h : Host) : h.Runs kinds (h.runEach cmds) := by
  induction cmds generalizing h with
  | nil => exact .refl kinds h
  | cons c rest ih =>
    exact (runCommand_runs (hc c List.mem_cons_self) hn h).trans
      (ih (fun c' hc' => hc c' (List.mem_cons_of_mem _ hc')) _)

theorem readInterfaces_runs (kinds : List CmdKind) (h : Host) :
    h.Runs kinds h.readInterfaces.2 := .of_eq kinds rfl rfl rfl

theorem readIgmpConf_runs (kinds : List CmdKind) (h : Host) : h.Runs kinds h.readIgmpConf.2 :=
  .of_eq kinds rfl rfl rfl

theorem keysOf_runs {V : Type} (kinds : List CmdKind) (d : Dict Str V) (h : Host) :
    h.Runs kinds (h.keysOf d).2 := .of_eq kinds rfl rfl rfl

/-- A list of keys has every key of the dictionary. -/
theorem mem_keysOf {V : Type} {d : Dict Str V} {h : Host} {key : Str} :
    key ∈ (h.keysOf d).1 ↔ key ∈ d := by
  rw [keysOf, (h.env.orders.head.perm d.keys).mem_iff, ← AList.mem_keys]

/-- A command that the kernel takes succeeds when the next answer of its kind
is good. -/
theorem runCommand_of_head {c : Cmd} (hans : (h.env.answers c.kind).get 0 = true)
    (hacc : h.kernel.accepts c = true) :
    h.runCommand c = (true, { (h.answer c.kind).2 with kernel := h.kernel.effect c }) := by
  have hhead : (h.answer c.kind).1 = true := hans
  rw [runCommand, hhead, hacc]
  rfl

/-- Commands of one kind succeed when as many answers are good. -/
theorem runAll_true {cmds : List Cmd} {kind : CmdKind} (hk : ∀ c ∈ cmds, c.kind = kind)
    (hacc : ∀ c ∈ cmds, ∀ k : Kernel, k.accepts c = true) {h : Host}
    (hans : ∀ n < cmds.length, (h.env.answers kind).get n = true) : (h.runAll cmds).1 = true := by
  induction cmds generalizing h with
  | nil => rfl
  | cons c rest ih =>
    have hck := hk c List.mem_cons_self
    have hrun := runCommand_of_head (h := h) (c := c) (by
      rw [hck]
      exact hans 0 (Nat.succ_pos _)) (hacc c List.mem_cons_self h.kernel)
    rw [runAll, hrun]
    refine ih (fun c' hc' => hk c' (List.mem_cons_of_mem _ hc'))
      (fun c' hc' => hacc c' (List.mem_cons_of_mem _ hc')) ?_
    intro n hn
    change ((h.answer c.kind).2.env.answers kind).get n = true
    rw [hck, answer_self]
    exact hans (n + 1) (Nat.succ_lt_succ hn)

end Host

/-! ## The rules of addresses -/

namespace VrfTool

/-- A function writes no map but the one of the rules of addresses, and runs
commands of the given kinds. -/
structure OnlyRuns (kinds : List CmdKind) (t t' : VrfTool) : Prop where
  subNet : t'.vrfSubNetMap = t.vrfSubNetMap
  srcIp : t'.vrfSrcIpMap = t.vrfSrcIpMap
  ids : t'.vrfNameToId = t.vrfNameToId
  outgoing : t'.outgoingIpSvcsMap = t.outgoingIpSvcsMap
  host : t.host.Runs kinds t'.host

/-- The same tool with other veths in the kernel. -/
def setVeths (t : VrfTool) (veths : List (Str × Str)) : VrfTool :=
  t.setHost (t.host.setVeths veths)

/-- The same tool with other namespaces in the kernel. -/
def setNetns (t : VrfTool) (netns : List Str) : VrfTool := t.setHost (t.host.setNetns netns)

/-- The same tool with other outcomes of the `os` module. -/
def setOsCalls (t : VrfTool) (osCalls : Stream' Bool) : VrfTool :=
  t.setHost (t.host.setOsCalls osCalls)

variable {kinds : List CmdKind} {t t' t'' : VrfTool}

theorem OnlyRuns.refl (kinds : List CmdKind) (t : VrfTool) : t.OnlyRuns kinds t :=
  ⟨rfl, rfl, rfl, rfl, .refl _ _⟩

theorem OnlyRuns.trans (h1 : t.OnlyRuns kinds t') (h2 : t'.OnlyRuns kinds t'') :
    t.OnlyRuns kinds t'' :=
  ⟨h2.subNet.trans h1.subNet, h2.srcIp.trans h1.srcIp, h2.ids.trans h1.ids,
    h2.outgoing.trans h1.outgoing, h1.host.trans h2.host⟩

theorem OnlyRuns.mono {kinds' : List CmdKind} (ht : t.OnlyRuns kinds t') (hk : kinds ⊆ kinds') :
    t.OnlyRuns kinds' t' :=
  ⟨ht.subNet, ht.srcIp, ht.ids, ht.outgoing, ht.host.mono hk⟩

theorem OnlyRuns.setVeths (ht : t.OnlyRuns kinds t') (veths : List (Str × Str)) :
    (t.setVeths veths).OnlyRuns kinds (t'.setVeths veths) :=
  ⟨ht.subNet, ht.srcIp, ht.ids, ht.outgoing, ht.host.setVeths veths⟩

theorem OnlyRuns.setSubNet (ht : t.OnlyRuns kinds t') (m : Dict Str ℕ) :
    (t.setSubNet m).OnlyRuns kinds (t'.setSubNet m) :=
  ⟨rfl, ht.srcIp, ht.ids, ht.outgoing, ht.host⟩

theorem OnlyRuns.setIds (ht : t.OnlyRuns kinds t') (m : Dict Str ℕ) :
    (t.setIds m).OnlyRuns kinds (t'.setIds m) :=
  ⟨ht.subNet, ht.srcIp, rfl, ht.outgoing, ht.host⟩

theorem OnlyRuns.setNetns (ht : t.OnlyRuns kinds t') (netns : List Str) :
    (t.setNetns netns).OnlyRuns kinds (t'.setNetns netns) :=
  ⟨ht.subNet, ht.srcIp, ht.ids, ht.outgoing, ht.host.setNetns netns⟩

theorem OnlyRuns.setOsCalls (ht : t.OnlyRuns kinds t') (calls : Stream' Bool) :
    (t.setOsCalls calls).OnlyRuns kinds (t'.setOsCalls calls) :=
  ⟨ht.subNet, ht.srcIp, ht.ids, ht.outgoing, ht.host.setOsCalls calls⟩

/-- When the veths are the same, they need no mention. -/
theorem OnlyRuns.of_setVeths (ht : t.OnlyRuns kinds (t'.setVeths t.host.kernel.veths))
    (hveths : t'.host.kernel.veths = t.host.kernel.veths) : t.OnlyRuns kinds t' := by
  rwa [← hveths] at ht

theorem OnlyRuns.setHost {h : Host} (hr : t.host.Runs kinds h) : t.OnlyRuns kinds (t.setHost h) :=
  ⟨rfl, rfl, rfl, rfl, hr⟩

theorem setIpRule_onlyRuns (isAdd : Bool) (vrf : Str) (af : Af) (addr : Str) (t : VrfTool) :
    t.OnlyRuns [.jump, .linkLocal] (t.setIpRule isAdd vrf af addr).2 :=
  ⟨rfl, rfl, rfl, rfl,
    Host.runCommand_runs (c := .jump isAdd vrf af addr) (by simp [Cmd.kind]) (by decide) _⟩

theorem setUpIps_onlyRuns (vrf : Str) (isAdd : Bool) (ips : List IpAddr) (af : Af)
    (t : VrfTool) : t.OnlyRuns [.jump, .linkLocal] (setUpIps vrf isAdd ips af t).2 := by
  induction ips generalizing af t with
  | nil => exact .refl _ t
  | cons ip rest ih =>
    rw [setUpIps]
    generalize (if ip.af = .inet6 then Af.inet6 else af) = af'
    split
    · exact ih af' t
    · split
      · exact ih af' t
      · have hone := setIpRule_onlyRuns isAdd vrf af' ip.text t
        split
        · rename_i t1 heq
          rw [heq] at hone
          exact hone.trans (ih af' t1)
        · rename_i t1 heq
          rwa [heq] at hone

theorem setUpInterfaces_onlyRuns (vrf : Str) (isAdd : Bool) (lines : List InterfaceObject)
    (t : VrfTool) : t.OnlyRuns [.jump, .linkLocal] (setUpInterfaces vrf isAdd lines t).2 := by
  induction lines generalizing t with
  | nil => exact .refl _ t
  | cons line rest ih =>
    rw [setUpInterfaces]
    split
    · have hone := setUpIps_onlyRuns vrf isAdd line.ip .inet t
      split
      · rename_i t1 heq
        rw [heq] at hone
        exact hone.trans (ih t1)
      · rename_i t1 heq
        rwa [heq] at hone
    · exact ih t

theorem ipSvcsIptableRuleSetup_onlyRuns (vrf : Str) (isAdd : Bool) (t : VrfTool) :
    t.OnlyRuns [.jump, .linkLocal] (ipSvcsIptableRuleSetup vrf isAdd t).2 := by
  have hread : t.OnlyRuns [.jump, .linkLocal] (t.setHost t.host.readInterfaces.2) :=
    .setHost (Host.readInterfaces_runs _ _)
  have hlines := setUpInterfaces_onlyRuns vrf isAdd t.host.readInterfaces.1
    (t.setHost t.host.readInterfaces.2)
  rw [ipSvcsIptableRuleSetup]
  split
  · rename_i t1 heq
    rw [heq] at hlines
    exact hread.trans hlines
  · rename_i t1 heq
    rw [heq] at hlines
    exact (hread.trans hlines).trans
      (.setHost (Host.runCommand_runs (c := .linkLocalJump isAdd vrf) (by simp [Cmd.kind])
        (by decide) _))

theorem setUpSide_onlyRuns (isAdd : Bool) (src dst : Str) (t : VrfTool) :
    t.OnlyRuns [.jump, .linkLocal] (setUpSide isAdd src dst t) := by
  rw [setUpSide]
  split
  · exact ipSvcsIptableRuleSetup_onlyRuns src isAdd t
  · split
    · exact ipSvcsIptableRuleSetup_onlyRuns dst isAdd t
    · exact .refl _ t

/-! ## Source addresses -/

theorem changeVeths_runs (isAdd : Bool) (vrf addr : Str) (ids : Dict Str ℕ) (keys : List Str)
    (dst : Option Str) (h : Host) :
    h.Runs [.srcAddr] (changeVeths isAdd vrf addr ids keys dst h) := by
  induction keys generalizing dst h with
  | nil => exact .refl _ h
  | cons key rest ih =>
    rw [changeVeths]
    split
    · dsimp only
      split
      · exact ih _ h
      · refine Host.Runs.trans ?_ (ih _ _)
        split
        · exact Host.runCommand_runs (c := .addrAdd _ _ _) (by simp [Cmd.kind]) (by decide) h
        · exact Host.runCommand_runs (c := .addrDel _ _ _) (by simp [Cmd.kind]) (by decide) h
    · exact ih dst h

/-- The same tool with other source addresses. -/
def setSrcIp (t : VrfTool) (m : Dict Str ℕ) : VrfTool := { t with vrfSrcIpMap := m }

/-- A change of a source address changes no other map. -/
theorem processSrcIpConfig_onlyRuns (vrf : Str) (isAdd : Bool) (ip : IpAddr) (t : VrfTool) :
    (t.setSrcIp (processSrcIpConfig vrf isAdd ip t).vrfSrcIpMap).OnlyRuns [.srcAddr]
      (processSrcIpConfig vrf isAdd ip t) := by
  rw [processSrcIpConfig]
  dsimp only
  split
  · exact .refl _ t
  · exact .setHost ((Host.keysOf_runs _ _ _).trans (changeVeths_runs _ _ _ _ _ _ _))

end VrfTool

end OpxNasLinux
