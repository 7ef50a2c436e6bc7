import OpxNasLinux.VethSetUp

/-!
# What the commands do to the addresses of an interface

Each lemma says which addresses an interface has after a command, a list of
commands or a loop of the code.

* `mem_addrs_vethCmds`: a veth that is set up starts without source addresses
  at both ends.
* `mem_addrs_applySide`: the loop over the source addresses when a veth is new.
* `mem_addrs_changeVeths`: the loop over the veths when a source address
  changes.
-/

namespace OpxNasLinux

open Delimited

/-! ## Texts -/

/-- Two equal texts end alike. -/
theorem last_eq {s s' suf suf' : Str} (c c' : Char) (hsuf : suf.getLast? = some c)
    (hsuf' : suf'.getLast? = some c') (h : s ++ suf = s' ++ suf') : c = c' := by
  have hlast := congrArg List.getLast? h
  rw [List.getLast?_append, List.getLast?_append, hsuf, hsuf'] at hlast
  exact Option.some_inj.mp hlast

/-- The text of a host address tells the family. -/
theorem hostAddr_af {ip ip' : IpAddr} (h : VrfTool.hostAddr ip = VrfTool.hostAddr ip') :
    ip.af = ip'.af := by
  rw [VrfTool.hostAddr, VrfTool.hostAddr] at h
  cases haf : ip.af <;> cases haf' : ip'.af <;> rw [haf, haf'] at h
  · exact absurd (last_eq '2' '8' rfl rfl h) (by decide)
  · exact absurd (last_eq '8' '2' rfl rfl h) (by decide)

/-- No host address is the address of a veth. -/
theorem hostAddr_ne {ip : IpAddr} {s suf : Str} (h : suf = "/24".toList ∨ suf = "/80".toList) :
    VrfTool.hostAddr ip ≠ s ++ suf := by
  intro heq
  rw [VrfTool.hostAddr] at heq
  rcases h with rfl | rfl <;> cases haf : ip.af <;> rw [haf] at heq
  · exact absurd (last_eq '2' '4' rfl rfl heq) (by decide)
  · exact absurd (last_eq '8' '4' rfl rfl heq) (by decide)
  · exact absurd (last_eq '2' '0' rfl rfl heq) (by decide)
  · exact absurd (last_eq '8' '0' rfl rfl heq) (by decide)

theorem hostAddr_starFree (ip : IpAddr) : '*' ∉ VrfTool.hostAddr ip := by
  rw [VrfTool.hostAddr, List.mem_append, not_or]
  refine ⟨ip.starFree, ?_⟩
  cases ip.af <;> decide

theorem field_addrKey {vrf addr : Str} (af : Af) (hvrf : '*' ∉ vrf) (haddr : '*' ∉ addr) :
    field 1 (addrKey vrf af addr) = vrf ∧ field 3 (addrKey vrf af addr) = addr := by
  have hsplit : (enclose '*' [vrf, af.name, addr]).splitOn '*' =
      [] :: ([vrf, af.name, addr] ++ [[]]) :=
    splitOn_enclose (by simp [hvrf, haddr, Af.name_starFree])
  constructor <;>
    · rw [field, addrKey, hsplit]
      rfl

/-- An address key names its VRF. -/
theorem names_addrKey (vrf : Str) (af : Af) (addr : Str) :
    names (addrKey vrf af addr) vrf = true := by
  rw [names, decide_eq_true_iff]
  exact enclose_infix_of_mem '*' List.mem_cons_self

/-! ## Single commands -/

namespace Kernel

theorem mem_setAddrs {k : Kernel} {ns dev ns' dev' a : Str} {addrs : List Str} :
    a ∈ (k.setAddrs ns' dev' addrs).addrs ns dev ↔
      if ns = ns' ∧ dev = dev' then a ∈ addrs else a ∈ k.addrs ns dev := by
  rw [setAddrs]
  dsimp only
  split <;> rfl

/-- The commands that add an address. -/
theorem mem_addrs_add {k : Kernel} {ns dev ns' dev' a addr : Str} {c : Cmd}
    (hc : c = .vethAddr ns' addr dev' ∨ c = .addrAdd ns' addr dev') :
    a ∈ (k.effect c).addrs ns dev ↔
      a ∈ k.addrs ns dev ∨ ns = ns' ∧ dev = dev' ∧ a = addr := by
  have heffect : k.effect c = k.setAddrs ns' dev'
      (addr :: (k.addrs ns' dev').filter fun a => decide (a ≠ addr)) := by
    rcases hc with rfl | rfl <;> rfl
  rw [heffect, mem_setAddrs]
  split
  · rename_i h
    obtain ⟨rfl, rfl⟩ := h
    rw [List.mem_cons, List.mem_filter, decide_eq_true_iff]
    by_cases ha : a = addr <;> simp [ha]
  · rename_i h
    have hno : ¬ (ns = ns' ∧ dev = dev' ∧ a = addr) := fun h' => h ⟨h'.1, h'.2.1⟩
    simp [hno]

/-- The command that deletes an address. -/
theorem mem_addrs_addrDel {k : Kernel} {ns dev ns' dev' a addr : Str} :
    a ∈ (k.effect (.addrDel ns' addr dev')).addrs ns dev ↔
      a ∈ k.addrs ns dev ∧ ¬ (ns = ns' ∧ dev = dev' ∧ a = addr) := by
  rw [effect, mem_setAddrs]
  split
  · rename_i h
    obtain ⟨rfl, rfl⟩ := h
    rw [List.mem_filter, decide_eq_true_iff]
    simp
  · rename_i h
    have hno : ¬ (ns = ns' ∧ dev = dev' ∧ a = addr) := fun h' => h ⟨h'.1, h'.2.1⟩
    simp [hno]

/-- An interface that is deleted or set anew has no address. -/
theorem mem_setAddrs_nil {k : Kernel} {ns dev ns' dev' a : Str} :
    a ∈ (k.setAddrs ns' dev' []).addrs ns dev ↔
      a ∈ k.addrs ns dev ∧ ¬ (ns = ns' ∧ dev = dev') := by
  rw [mem_setAddrs]
  split
  · rename_i h
    simp [h]
  · rename_i h
    simp [h]

/-- The addresses of a veth are none of its source addresses. -/
theorem hostAddr_mem_vethAddr {k : Kernel} {ns dev ns' dev' s suf : Str} {ip : IpAddr}
    (h : suf = "/24".toList ∨ suf = "/80".toList) :
    VrfTool.hostAddr ip ∈ (k.effect (.vethAddr ns' (s ++ suf) dev')).addrs ns dev ↔
      VrfTool.hostAddr ip ∈ k.addrs ns dev := by
  rw [mem_addrs_add (Or.inl rfl)]
  exact or_iff_left fun h' => hostAddr_ne h h'.2.2

/-- Both ends of a new veth start without source addresses. -/
theorem mem_addrs_vethCmds {k : Kernel} {src dst ns dev : Str} {srcId dstId : ℕ}
    {ips : VethIps} {ip : IpAddr} :
    VrfTool.hostAddr ip ∈
        ((VrfTool.vethCmds src dst srcId dstId ips).foldl effect k).addrs ns dev ↔
      VrfTool.hostAddr ip ∈ k.addrs ns dev ∧ ¬ (ns = src ∧ dev = vethDev dstId) ∧
        ¬ (ns = src ∧ dev = vethDev srcId) ∧ ¬ (ns = dst ∧ dev = vethDev srcId) := by
  have hup : ∀ (k : Kernel) ns dev, k.effect (.linkUp ns dev) = k := fun _ _ _ => rfl
  have hroute : ∀ (k : Kernel) ns dev, k.effect (.routeLocalnet ns dev) = k := fun _ _ _ => rfl
  have hadd : ∀ (k : Kernel) ns dev peer,
      k.effect (.linkAdd ns dev peer) = (k.setAddrs ns dev []).setAddrs ns peer [] :=
    fun _ _ _ _ => rfl
  have hmove : ∀ (k : Kernel) ns dev dst,
      k.effect (.linkNetns ns dev dst) = (k.setAddrs ns dev []).setAddrs dst dev [] :=
    fun _ _ _ _ => rfl
  rw [VrfTool.vethCmds]
  simp only [List.foldl_cons, List.foldl_nil, hup, hroute, hadd, hmove, mem_setAddrs_nil,
    hostAddr_mem_vethAddr (Or.inl rfl : "/24".toList = _ ∨ _),
    hostAddr_mem_vethAddr (Or.inr rfl : "/80".toList = _ ∨ _)]
  tauto

end Kernel

/-! ## Commands that succeed -/

namespace Host

/-- A command that the kernel takes and that succeeds has its effect. -/
theorem runCommand_willing {c : Cmd} {h : Host} (hw : h.Willing c.kind)
    (hacc : h.kernel.accepts c = true) :
    (h.runCommand c).1 = true ∧ (h.runCommand c).2.kernel = h.kernel.effect c := by
  rw [runCommand_of_head (hw 0) hacc]
  exact ⟨rfl, rfl⟩

/-- Commands that succeed have their effects one after the other. -/
theorem runAll_willing {cmds : List Cmd} {kind : CmdKind} (hne : kind ≠ .netns)
    (hk : ∀ c ∈ cmds, c.kind = kind) {h : Host} (hw : h.Willing kind) :
    (h.runAll cmds).1 = true ∧ (h.runAll cmds).2.kernel = cmds.foldl Kernel.effect h.kernel := by
  induction cmds generalizing h with
  | nil => exact ⟨rfl, rfl⟩
  | cons c rest ih =>
    have hck := hk c List.mem_cons_self
    have hacc : h.kernel.accepts c = true := by
      cases c with
      | netnsAdd => exact absurd hck.symm hne
      | _ => rfl
    have hruns : h.Runs [kind] (h.runCommand c).2 :=
      runCommand_runs (by simp [hck]) (by simpa using hne.symm) h
    obtain ⟨hok, hkernel⟩ := runCommand_willing (hck.symm ▸ hw) hacc
    rw [runAll]
    rcases hrun : h.runCommand c with ⟨ok, h'⟩
    rw [hrun] at hok hkernel hruns
    obtain rfl : ok = true := hok
    have hrest := ih (fun c' hc' => hk c' (List.mem_cons_of_mem _ hc')) (hruns.willing kind hw)
    rw [List.foldl_cons, ← hkernel]
    exact hrest

end Host

/-! ## The loops over the maps -/

namespace VrfTool

/-- The addresses that the loop over the source addresses adds. -/
theorem mem_addrs_applySrcIps {vrf ns dev a : Str} {id : ℕ} {keys : List Str} {h : Host}
    (hw : h.Willing .srcAddr) :
    a ∈ (applySrcIps vrf id keys h).kernel.addrs ns dev ↔
      a ∈ h.kernel.addrs ns dev ∨
        dev = vethDev id ∧ ∃ key ∈ keys, names key vrf = true ∧ field 1 key = ns ∧
          field 3 key = a := by
  induction keys generalizing h with
  | nil => simp [applySrcIps]
  | cons key rest ih =>
    rw [applySrcIps, List.foldl_cons]
    change a ∈ (applySrcIps vrf id rest _).kernel.addrs ns dev ↔ _
    split
    · rename_i hnames
      have hruns : h.Runs [.srcAddr] (addIpAddr (field 3 key) (vethDev id) (field 1 key) h) :=
        Host.runCommand_runs (c := .addrAdd _ _ _) (by simp [Cmd.kind]) (by decide) h
      rw [ih (hruns.willing _ hw), addIpAddr,
        (Host.runCommand_willing (c := .addrAdd _ _ _) hw rfl).2,
        Kernel.mem_addrs_add (Or.inr rfl)]
      constructor
      · rintro ((hold | ⟨rfl, rfl, rfl⟩) | ⟨hdev, key', hmem, hrest⟩)
        · exact Or.inl hold
        · exact Or.inr ⟨rfl, key, List.mem_cons_self, hnames, rfl, rfl⟩
        · exact Or.inr ⟨hdev, key', List.mem_cons_of_mem _ hmem, hrest⟩
      · rintro (hold | ⟨hdev, key', hmem, hn, h1, h3⟩)
        · exact Or.inl (Or.inl hold)
        · rcases List.mem_cons.mp hmem with rfl | hmem
          · exact Or.inl (Or.inr ⟨h1.symm, hdev, h3.symm⟩)
          · exact Or.inr ⟨hdev, key', hmem, hn, h1, h3⟩
    · rename_i hnames
      rw [ih hw]
      refine or_congr_right (and_congr_right fun _ => ?_)
      simp [hnames]

/-- The keys of the source addresses are those of host addresses. -/
def SrcIpKeys (m : Dict Str ℕ) : Prop :=
  ∀ key ∈ m, ∃ vrf ip, '*' ∉ vrf ∧ key = addrKey vrf ip.af (hostAddr ip)

/-- A key is found by the fields that are read out of it. -/
theorem SrcIpKeys.mem_of_fields {m : Dict Str ℕ} (hm : SrcIpKeys m) {key ns : Str} {ip : IpAddr}
    (hkey : key ∈ m) (h1 : field 1 key = ns) (h3 : field 3 key = hostAddr ip) :
    addrKey ns ip.af (hostAddr ip) ∈ m := by
  obtain ⟨v, ip', hv, rfl⟩ := hm key hkey
  obtain ⟨hf1, hf3⟩ := field_addrKey ip'.af hv (hostAddr_starFree ip')
  rw [hf1] at h1
  rw [hf3] at h3
  rwa [← h1, ← h3, ← hostAddr_af h3]

/-- The loop for one side of a new veth adds source addresses of the map only,
and all that belong on the device. -/
theorem mem_addrs_applySide {vrf other : Str} {id : ℕ} {t : VrfTool} {ip : IpAddr}
    (hw : t.host.Willing .srcAddr) (hkeys : SrcIpKeys t.vrfSrcIpMap) (hvrf : '*' ∉ vrf)
    (hid : t.vrfNameToId.lookup other = some id) :
    (∀ ns dev, hostAddr ip ∈ t.host.kernel.addrs ns dev →
        hostAddr ip ∈ (applySide vrf other t).host.kernel.addrs ns dev) ∧
      (∀ ns dev, hostAddr ip ∈ (applySide vrf other t).host.kernel.addrs ns dev →
        hostAddr ip ∈ t.host.kernel.addrs ns dev ∨
          addrKey ns ip.af (hostAddr ip) ∈ t.vrfSrcIpMap) ∧
      (addrKey vrf ip.af (hostAddr ip) ∈ t.vrfSrcIpMap →
        hostAddr ip ∈ (applySide vrf other t).host.kernel.addrs vrf (vethDev id)) := by
  have hruns := Host.keysOf_runs [.srcAddr] t.vrfSrcIpMap t.host
  rw [applySide, hid]
  dsimp only [setHost]
  refine ⟨fun ns dev hold => ?_, fun ns dev hnew => ?_, fun hmem => ?_⟩
  · exact (mem_addrs_applySrcIps (hruns.willing _ hw)).mpr (Or.inl hold)
  · rcases (mem_addrs_applySrcIps (hruns.willing _ hw)).mp hnew with
      hold | ⟨-, key, hkey, -, h1, h3⟩
    · exact Or.inl hold
    · exact Or.inr (hkeys.mem_of_fields (Host.mem_keysOf.mp hkey) h1 h3)
  · obtain ⟨h1, h3⟩ := field_addrKey ip.af hvrf (hostAddr_starFree ip)
    exact (mem_addrs_applySrcIps (hruns.willing _ hw)).mpr
      (Or.inr ⟨rfl, _, Host.mem_keysOf.mpr hmem, names_addrKey _ _ _, h1, h3⟩)

/-! ## A new veth -/

/-- The commands of the source translation change no address. -/
theorem applyVeth_addrs (src dst : Str) (val : ℕ) (t : VrfTool) :
    (applyVeth src dst val t).2.host.kernel.addrs =
      (applySide dst src (applySide src dst t)).host.kernel.addrs := by
  rw [applyVeth]
  split
  · have hruns : (applySide dst src (applySide src dst t)).host.Runs [.snat]
        ((applySide dst src (applySide src dst t)).host.runAll
          (snatCmds true src val .inet ++ snatCmds true src val .inet6)).2 := by
      refine Host.runAll_runs (fun c hc => ?_) (by decide) _
      rcases List.mem_append.mp hc with hc | hc <;> simp [snatCmds_kind _ _ _ _ c hc]
    exact hruns.addrs (by decide) (by decide) (by decide)
  · rfl

/-- The addresses after the commands of a set-up that succeed. -/
theorem addVethConfig_addrs {ips : VethIps} {src dst : Str} {srcId dstId : ℕ} {t : VrfTool}
    (hw : t.host.Willing .veth) (hsrc : t.vrfNameToId.lookup src = some srcId)
    (hdst : t.vrfNameToId.lookup dst = some dstId) :
    ∃ t', processVethConfig (some ips) src dst t = (true, t') ∧
      t'.host.kernel.addrs =
        ((vethCmds src dst srcId dstId ips).foldl Kernel.effect t.host.kernel).addrs := by
  obtain ⟨hok, hkernel⟩ := Host.runAll_willing (by decide)
    (vethCmds_kind src dst srcId dstId ips) hw
  rw [processVethConfig, hsrc, hdst]
  dsimp only
  rw [addVeth]
  rcases hrun : t.host.runAll (vethCmds src dst srcId dstId ips) with ⟨ok, h'⟩
  rw [hrun] at hok hkernel
  obtain rfl : ok = true := hok
  have haddrs : h'.kernel.addrs = _ := congrArg Kernel.addrs hkernel
  exact ⟨_, rfl, haddrs⟩

/-- A veth that is opened starts without source addresses, and then gets those
of its two VRFs. -/
theorem vethIpGet_addrs {src dst : Str} {isPeerIp : Bool} {srcId dstId : ℕ} {t : VrfTool}
    (hopens : OpensVeth src dst t) (hw : t.host.Willing .veth)
    (hsrc : t.vrfNameToId.lookup src = some srcId)
    (hdst : t.vrfNameToId.lookup dst = some dstId) :
    ∃ t1 : VrfTool, t1.vrfSrcIpMap = t.vrfSrcIpMap ∧ t1.vrfNameToId = t.vrfNameToId ∧
      (∀ kind, t.host.Willing kind → t1.host.Willing kind) ∧
      (∀ ip ns dev, hostAddr ip ∈ t1.host.kernel.addrs ns dev ↔
        hostAddr ip ∈ t.host.kernel.addrs ns dev ∧ ¬ (ns = src ∧ dev = vethDev dstId) ∧
          ¬ (ns = src ∧ dev = vethDev srcId) ∧ ¬ (ns = dst ∧ dev = vethDev srcId)) ∧
      (vethIpGet src dst isPeerIp t).2.host.kernel.addrs =
        (applySide dst src (applySide src dst t1)).host.kernel.addrs := by
  obtain ⟨val, hfree⟩ := hopens.free
  have hside := setUpSide_onlyRuns true src dst t
  have hmap := hside.subNet
  have hids := hside.ids
  generalize htside : setUpSide true src dst t = ts at hside hmap hids
  obtain ⟨t1, heq, haddrs⟩ := @addVethConfig_addrs (vethIps val) src dst srcId dstId
    (ts.setSubNet (t.vrfSubNetMap.insert (vethKey src dst) val))
    (hside.host.willing _ hw) (by rw [← hsrc]; exact congrArg _ hids)
    (by rw [← hdst]; exact congrArg _ hids)
  obtain ⟨ok, t1', heq', hruns, -, -⟩ := addVethConfig_cases (vethIps val) src dst
    (ts.setSubNet (t.vrfSubNetMap.insert (vethKey src dst) val))
  obtain ⟨-, rfl⟩ := Prod.mk.inj (heq.symm.trans heq')
  refine ⟨t1, hruns.srcIp.trans hside.srcIp, hruns.ids.trans hids,
    fun kind hk => hruns.host.willing kind (hside.host.willing kind hk), fun ip ns dev => ?_, ?_⟩
  · rw [haddrs, Kernel.mem_addrs_vethCmds]
    change hostAddr ip ∈ ts.host.kernel.addrs ns dev ∧ _ ↔ _
    rw [hside.host.addrs (by decide) (by decide) (by decide)]
  · rw [← applyVeth_addrs src dst val t1, vethIpGet, if_neg hopens.notDefault,
      AList.lookup_eq_none.mpr hopens.new, AList.lookup_eq_none.mpr hopens.newBack,
      ipSvcsSubnetSetup, hsrc, if_pos rfl, addSubNet, htside, hmap,
      AList.lookup_eq_none.mpr hopens.new, hfree]
    dsimp only
    rw [heq]
    dsimp only
    rcases applyVeth src dst val t1 with ⟨⟨_ | _, _ | v⟩, t2⟩ <;> rfl

/-! ## A veth that is deleted -/

/-- What a command leaves, whether it succeeds or not. -/
theorem runCommand_kernel (c : Cmd) (h : Host) :
    (h.runCommand c).2.kernel =
      if (h.runCommand c).1 then h.kernel.effect c else h.kernel := by
  rw [Host.runCommand]
  split <;> rfl

/-- The deletion of an interface changes the addresses of no other interface. -/
theorem linkDelete_addrs {ns dev ns' dev' : Str} (h : Host) (hne : ¬ (ns' = ns ∧ dev' = dev)) :
    (h.runCommand (.linkDelete ns dev)).2.kernel.addrs ns' dev' = h.kernel.addrs ns' dev' := by
  rw [runCommand_kernel]
  split
  · exact if_neg hne
  · rfl

theorem deleteVeth_addrs (src dst : Str) (srcId dstId : ℕ) (h : Host) :
    ((deleteVeth src dst srcId dstId h).1 = false →
        (deleteVeth src dst srcId dstId h).2.kernel.addrs = h.kernel.addrs) ∧
      ∀ ns dev, ¬ (ns = src ∧ (dev = vethDev srcId ∨ dev = vethDev dstId)) →
        (deleteVeth src dst srcId dstId h).2.kernel.addrs ns dev = h.kernel.addrs ns dev := by
  have hkernel := runCommand_kernel (.linkDelete src (vethDev dstId)) h
  have hother := fun ns dev => @linkDelete_addrs src (vethDev dstId) ns dev h
  rw [deleteVeth]
  rcases h1 : h.runCommand (.linkDelete src (vethDev dstId)) with ⟨_ | _, h'⟩ <;>
    rw [h1] at hkernel hother
  · have hkernel' := runCommand_kernel (.linkDelete src (vethDev srcId)) h'
    have hother' := fun ns dev => @linkDelete_addrs src (vethDev srcId) ns dev h'
    dsimp only
    rcases h2 : h'.runCommand (.linkDelete src (vethDev srcId)) with ⟨_ | _, h''⟩ <;>
      rw [h2] at hkernel' hother'
    · refine ⟨fun _ => congrArg Kernel.addrs (hkernel'.trans hkernel), fun ns dev hne => ?_⟩
      exact (hother' ns dev fun h => hne ⟨h.1, Or.inl h.2⟩).trans
        (hother ns dev fun h => hne ⟨h.1, Or.inr h.2⟩)
    · refine ⟨fun hok => absurd hok.symm Bool.false_ne_true, fun ns dev hne => ?_⟩
      exact (hother' ns dev fun h => hne ⟨h.1, Or.inl h.2⟩).trans
        (hother ns dev fun h => hne ⟨h.1, Or.inr h.2⟩)
  · refine ⟨fun hok => absurd hok.symm Bool.false_ne_true, fun ns dev hne => ?_⟩
    exact hother ns dev fun h => hne ⟨h.1, Or.inr h.2⟩

/-- A veth that is deleted changes the addresses of its own devices only, and
only together with its entry. -/
theorem dropSubNet_addrs (src dst : Str) (t : VrfTool) :
    (ipSvcsSubnetSetup false src dst t).2.vrfSubNetMap = t.vrfSubNetMap ∧
        (ipSvcsSubnetSetup false src dst t).2.host.kernel.addrs = t.host.kernel.addrs ∨
      vethKey src dst ∈ t.vrfSubNetMap ∧
        (ipSvcsSubnetSetup false src dst t).2.vrfSubNetMap =
          t.vrfSubNetMap.erase (vethKey src dst) ∧
        ∃ srcId dstId, t.vrfNameToId.lookup src = some srcId ∧
          t.vrfNameToId.lookup dst = some dstId ∧
          ∀ ns dev, ¬ (ns = src ∧ (dev = vethDev srcId ∨ dev = vethDev dstId)) →
            (ipSvcsSubnetSetup false src dst t).2.host.kernel.addrs ns dev =
              t.host.kernel.addrs ns dev := by
  have hside := setUpSide_onlyRuns false src dst t
  have hsame := hside.host.addrs (by decide) (by decide) (by decide)
  rw [ipSvcsSubnetSetup]
  rcases hsrc : t.vrfNameToId.lookup src with _ | srcId
  · exact Or.inl ⟨rfl, rfl⟩
  dsimp only
  rw [if_neg Bool.false_ne_true, deleteSubNet, hside.subNet]
  rcases hkey : t.vrfSubNetMap.lookup (vethKey src dst) with _ | val
  · exact Or.inl ⟨hside.subNet, hsame⟩
  dsimp only
  rw [processVethConfig, hside.ids, hsrc]
  rcases hdst : t.vrfNameToId.lookup dst with _ | dstId
  · exact Or.inl ⟨hside.subNet, hsame⟩
  obtain ⟨hfalse, hother⟩ := deleteVeth_addrs src dst srcId dstId (setUpSide false src dst t).host
  dsimp only
  rcases hdel : deleteVeth src dst srcId dstId (setUpSide false src dst t).host with ⟨_ | _, h'⟩ <;>
    rw [hdel] at hfalse hother
  · exact Or.inl ⟨hside.subNet, (hfalse rfl).trans hsame⟩
  · right
    refine ⟨Dict.mem_iff.mpr ⟨val, hkey⟩, ?_⟩
    rw [hsame] at hother
    have hmap : ((setUpSide false src dst t).vrfSubNetMap).erase (vethKey src dst) =
        t.vrfSubNetMap.erase (vethKey src dst) := by rw [hside.subNet]
    dsimp only
    split
    · have hdrop := dropNat_runs src val [.inet, .inet6] h'
      have haddrs := hdrop.addrs (by decide) (by decide) (by decide)
      refine ⟨hmap, srcId, dstId, rfl, rfl, fun ns dev hne => ?_⟩
      exact (congrFun (congrFun haddrs ns) dev).trans (hother ns dev hne)
    · exact ⟨hmap, srcId, dstId, rfl, rfl, hother⟩

/-! ## A source address that changes -/

/-- The key is for a veth between the two VRFs. -/
def Joins (key vrf other : Str) : Prop := key = vethKey vrf other ∨ key = vethKey other vrf

/-- The other end of a veth is read off its key. -/
theorem otherEnd_vethKey {src dst vrf : Str} (hsrc : '*' ∉ src) (hdst : '*' ∉ dst)
    (hne : src ≠ dst) (hvrf : vrf = src ∨ vrf = dst) (old : Option Str) :
    ∃ other, otherEnd vrf (vethKey src dst) old = some other ∧
      ∀ other', Joins (vethKey src dst) vrf other' ↔ other' = other := by
  have hunique : ∀ x y : Str, vethKey src dst = vethKey x y ↔ src = x ∧ dst = y := by
    intro x y
    refine ⟨fun h => ?_, fun ⟨h1, h2⟩ => by rw [h1, h2]⟩
    obtain ⟨h1, h2⟩ := vethKey_inj hsrc hdst h.symm
    exact ⟨h1.symm, h2.symm⟩
  rw [otherEnd, (field_vethKey hsrc hdst).1, (field_vethKey hsrc hdst).2]
  rcases hvrf with rfl | rfl
  · refine ⟨dst, ?_, fun other' => ?_⟩
    · rw [if_pos rfl, if_neg hne.symm]
    · rw [Joins, hunique, hunique]
      exact ⟨fun h => h.elim (fun h => h.2.symm) fun h => absurd h.2.symm hne,
        fun h => Or.inl ⟨rfl, h.symm⟩⟩
  · refine ⟨src, if_pos rfl, fun other' => ?_⟩
    rw [Joins, hunique, hunique]
    exact ⟨fun h => h.elim (fun h => absurd h.1 hne) fun h => h.1.symm,
      fun h => Or.inr ⟨h.symm, rfl⟩⟩

/-- A key for other VRFs does not name the VRF. -/
theorem names_vethKey_iff {src dst vrf : Str} (hsrc : '*' ∉ src) (hdst : '*' ∉ dst)
    (hvrf : '*' ∉ vrf) : names (vethKey src dst) vrf = true ↔ vrf = src ∨ vrf = dst := by
  rw [names, decide_eq_true_iff, vethKey, enclose_infix_iff hvrf (by simp [hsrc, hdst])]
  simp

/-- The device is one of those that lead from the VRF along the keys. -/
def Towards (vrf : Str) (keys : List Str) (ids : Dict Str ℕ) (dev : Str) : Prop :=
  ∃ key ∈ keys, ∃ other id, Joins key vrf other ∧ ids.lookup other = some id ∧ dev = vethDev id

theorem towards_cons {vrf key dev : Str} {rest : List Str} {ids : Dict Str ℕ} :
    Towards vrf (key :: rest) ids dev ↔
      (∃ other id, Joins key vrf other ∧ ids.lookup other = some id ∧ dev = vethDev id) ∨
        Towards vrf rest ids dev := by
  simp [Towards]

/-- The loop over the veths changes one address on every device of the VRF. -/
theorem mem_addrs_changeVeths {isAdd : Bool} {vrf addr ns dev a : Str} {ids : Dict Str ℕ}
    {keys : List Str} (hvrf : '*' ∉ vrf)
    (hkeys : ∀ key ∈ keys, ∃ src dst, '*' ∉ src ∧ '*' ∉ dst ∧ src ≠ dst ∧ key = vethKey src dst)
    (old : Option Str) {h : Host} (hw : h.Willing .srcAddr) :
    a ∈ (changeVeths isAdd vrf addr ids keys old h).kernel.addrs ns dev ↔
      if isAdd then
        a ∈ h.kernel.addrs ns dev ∨ ns = vrf ∧ a = addr ∧ Towards vrf keys ids dev
      else a ∈ h.kernel.addrs ns dev ∧ ¬ (ns = vrf ∧ a = addr ∧ Towards vrf keys ids dev) := by
  induction keys generalizing old h with
  | nil =>
    rw [changeVeths]
    cases isAdd <;> simp [Towards]
  | cons key rest ih =>
    have hrest := fun key' hkey' => hkeys key' (List.mem_cons_of_mem key hkey')
    obtain ⟨src, dst, hsrc, hdst, hne, rfl⟩ := hkeys key List.mem_cons_self
    rw [changeVeths]
    split
    · rename_i hnames
      obtain ⟨other, hother, hjoins⟩ := otherEnd_vethKey hsrc hdst hne
        ((names_vethKey_iff hsrc hdst hvrf).mp hnames) old
      rw [hother]
      simp only [towards_cons, hjoins, Option.bind_some]
      rcases hid : ids.lookup other with _ | id
      · rw [ih hrest _ hw]
        simp [hid]
      · dsimp only
        cases isAdd with
        | true =>
          have hruns : h.Runs [.srcAddr] (addIpAddr addr (vethDev id) vrf h) :=
            Host.runCommand_runs (c := .addrAdd _ _ _) (by simp [Cmd.kind]) (by decide) h
          rw [if_pos rfl, ih hrest _ (hruns.willing _ hw), addIpAddr,
            (Host.runCommand_willing (c := .addrAdd _ _ _) hw rfl).2,
            Kernel.mem_addrs_add (Or.inr rfl)]
          simp [hid]
          tauto
        | false =>
          have hruns : h.Runs [.srcAddr] (delIpAddr addr (vethDev id) vrf h) :=
            Host.runCommand_runs (c := .addrDel _ _ _) (by simp [Cmd.kind]) (by decide) h
          rw [if_neg Bool.false_ne_true, ih hrest _ (hruns.willing _ hw), delIpAddr,
            (Host.runCommand_willing (c := .addrDel _ _ _) hw rfl).2,
            Kernel.mem_addrs_addrDel]
          simp [hid]
          tauto
    · rename_i hnames
      have hno : ∀ other, ¬ Joins (vethKey src dst) vrf other := by
        rintro other (heq | heq) <;> refine hnames ?_ <;> rw [heq]
        · exact names_vethKey (Or.inl rfl)
        · exact names_vethKey (Or.inr rfl)
      rw [ih hrest _ hw]
      simp [towards_cons, hno]

end VrfTool

end OpxNasLinux
