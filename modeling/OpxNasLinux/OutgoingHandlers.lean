import OpxNasLinux.CacheInvariants
import OpxNasLinux.VrfLifeCycle

/-!
# What the outgoing cache calls

The outgoing cache reaches the host through two functions: `proc_rule`, which
runs the `iptables` command of a rule, and
`process_outgoing_ip_svcs_sub_net_config`, which hands out private ports.  Both
are modelled over the globals of the VRF tool.

* `procRule` is `IptablesHandler.proc_rule` for an outgoing rule.  The command
  that it runs in the end is a parameter `iptables`, which may do anything to
  the host.
* `processOutgoingIpSvcsSubNetConfig` needs the veth of the VRF before it looks
  at the ports, also when it takes a port back.
* `VethReady` says when `_veth_ip_get` has a veth to answer with.
* The last section has what the two functions leave alone.
-/

namespace OpxNasLinux

namespace VrfOutgoingSvcsRule

/-- The key of the rule in `_outgoing_ip_svcs_map`. -/
def svcAlias (r : VrfOutgoingSvcsRule) : Alias :=
  { vrfName := r.vrfName, af := r.af, publicIp := r.dstIp, protocol := r.protocol
    publicPort := r.dstPort }

/-- `socket.inet_ntop` raises: there is no address, or one of the wrong
length. -/
def noAddress (af : Af) (ip : Option Bytes) : Bool :=
  ip.all fun bs => decide (bs.length ≠ af.length)

/-- `proc_rule` raises at an address that the rule filters by. -/
def filterRaises (r : VrfOutgoingSvcsRule) : Bool :=
  VrfIncomingSvcsRule.badAddress r.af r.srcIp ||
    (decide (r.ruleType = .snat) && VrfIncomingSvcsRule.badAddress r.af r.dstIp)

/-- `proc_rule` raises at the address of the action. -/
def actionRaises (r : VrfOutgoingSvcsRule) : Bool :=
  match r.action with
  | .dnat => noAddress r.af r.dstIp
  | .snat => noAddress r.af r.outSrcIp
  | _ => false

end VrfOutgoingSvcsRule

/-! ## Addresses -/

/-- The number that hexadecimal digits stand for. -/
def hexVal (digits : Str) : ℕ :=
  digits.foldl (fun n c => 16 * n + (if c.isDigit then c.toNat - 48 else c.toNat - 87)) 0

/-- `socket.inet_pton`, for the texts of a veth address. -/
def inetPton : Af → Str → Bytes
  | .inet, text => (text.splitOn '.').map fun digits => UInt8.ofNat (Nat.ofDigitChars 10 digits 0)
  | .inet6, text =>
    let groups := text.splitOn ':'
    groups.flatMap fun digits =>
      -- the empty group between the two colons is for the zeros left out
      if digits.isEmpty then List.replicate (18 - 2 * groups.length) 0
      else [UInt8.ofNat (hexVal digits / 256), UInt8.ofNat (hexVal digits % 256)]

example : inetPton .inet (vethIp 100 ".100.2".toList) = [127, 100, 100, 2] := by decide

example : inetPton .inet6 (vethIp6 100 "::2".toList) =
    [0xfd, 0xa5, 0x74, 0xc8, 0xb7, 0x9e, 0, 4, 1, 0, 0, 0, 0, 0, 0, 2] := by decide

namespace VrfTool

/-! ## `proc_rule` -/

/-- `is_vrf_valid`. -/
def isVrfValid (vrf : Str) (t : VrfTool) : Bool × VrfTool :=
  ((t.host.answer .netnsShow).1 && t.host.kernel.netns.any fun ns => decide (ns = vrf),
    t.setHost (t.host.answer .netnsShow).2)

/-- The address of the veth, which the filter of a binding names. -/
def filterVeth (r : VrfOutgoingSvcsRule) (t : VrfTool) : VrfTool :=
  if r.ruleType = .outIp ∧ r.vrfName ∈ t.vrfNameToId then
    (getVethIpStr r.af r.vrfName false t).2
  else t

/-- The `iptables` command of a rule: whether it succeeds, and what it does to
the host. -/
abbrev Iptables := IptOp → VrfOutgoingSvcsRule → Option ℕ → Host → Bool × Host

/-- `proc_rule` after the look at the VRF. -/
def procArgs (iptables : Iptables) (op : IptOp) (r : VrfOutgoingSvcsRule) (idx : Option ℕ)
    (t : VrfTool) : Outcome Bool × VrfTool :=
  if r.vrfName = defaultVrf ∧ r.ruleType = .outIp then (.returned false, t)
  else if op = .replace ∧ idx = none then (.returned false, t)
  else if r.filterRaises then (.raised, t)
  else
    let t := filterVeth r t
    if r.actionRaises then (.raised, t)
    else (.returned (iptables op r idx t.host).1, t.setHost (iptables op r idx t.host).2)

/-- `IptablesHandler.proc_rule`.  A delete for a VRF that is not open is
bypassed. -/
def procRule (iptables : Iptables) (op : IptOp) (r : VrfOutgoingSvcsRule) (idx : Option ℕ)
    (t : VrfTool) : Outcome Bool × VrfTool :=
  if op = .delete ∧ r.vrfName ≠ defaultVrf then
    match isVrfValid r.vrfName t with
    | (false, t) => (.returned true, t)
    | (true, t) => procArgs iptables op r idx t
  else procArgs iptables op r idx t

/-! ## `process_outgoing_ip_svcs_sub_net_config` -/

def setPorts (t : VrfTool) (m : Dict Alias ℕ) : VrfTool := { t with outgoingIpSvcsMap := m }

/-- The lowest free private port is taken for a key that has none. -/
def takePort (a : Alias) (t : VrfTool) : Option ℕ × VrfTool :=
  match t.outgoingIpSvcsMap.lookup a with
  | some _ => (none, t)
  | none =>
    match Alloc.firstFree 62000 65000 t.outgoingIpSvcsMap.values with
    | none => (none, t)
    | some port => (some port, t.setPorts (t.outgoingIpSvcsMap.insert a port))

/-- The private port of a key is given back. -/
def popPort (a : Alias) (t : VrfTool) : Option ℕ × VrfTool :=
  (t.outgoingIpSvcsMap.lookup a, t.setPorts (t.outgoingIpSvcsMap.erase a))

/-- `process_outgoing_ip_svcs_sub_net_config`. -/
def processOutgoingIpSvcsSubNetConfig (isAdd : Bool) (a : Alias) (t : VrfTool) :
    Option Private × VrfTool :=
  match vethIpGet a.vrfName defaultVrf false t with
  | (none, t) => (none, t)
  | (some hops, t) =>
    match if isAdd then takePort a t else popPort a t with
    | (none, t) => (none, t)
    | (some port, t) =>
      let nexthop := match a.af with | .inet => hops.1 | .inet6 => hops.2
      (some ⟨inetPton a.af nexthop, port⟩, t)

/-- What the outgoing cache calls.  It reads no counters. -/
def outgoingHandlers (iptables : Iptables) : Handlers VrfOutgoingSvcsRule VrfTool where
  procRule := procRule iptables
  getStats _ _ t := (.returned none, t)
  subNetInsert r t :=
    if r.ruleType = .outIp then processOutgoingIpSvcsSubNetConfig true r.svcAlias t else (none, t)
  subNetDelete r t :=
    if r.ruleType = .outIp then (processOutgoingIpSvcsSubNetConfig false r.svcAlias t).2 else t

/-! ## When there is a veth -/

/-- The six commands of the next source translation succeed. -/
def SnatWorks (h : Host) : Prop := ∀ n < 6, (h.env.answers .snat).get n = true

/-- A veth between the VRF and the default one has an entry, or can be set
up. -/
def VethReady (vrf : Str) (t : VrfTool) : Prop :=
  vrf ≠ defaultVrf ∧
    (vethKey vrf defaultVrf ∈ t.vrfSubNetMap ∨ vethKey defaultVrf vrf ∈ t.vrfSubNetMap ∨
      vrf ∈ t.vrfNameToId ∧ defaultVrf ∈ t.vrfNameToId ∧
        (Alloc.firstFree 100 200 t.vrfSubNetMap.values).isSome ∧ VethWorks t.host ∧
        SnatWorks t.host)

instance (vrf : Str) (t : VrfTool) : Decidable (VethReady vrf t) := by
  unfold VethReady VethWorks SnatWorks
  infer_instance

/-- `applyVeth` succeeds when its commands do. -/
theorem applyVeth_works (src dst : Str) (val : ℕ) {t : VrfTool} (hw : SnatWorks t.host) :
    (applyVeth src dst val t).1.1 = true := by
  have hsides : t.OnlyRuns [.srcAddr] (applySide dst src (applySide src dst t)) :=
    (applySide_onlyRuns src dst t).trans (applySide_onlyRuns dst src _)
  rw [applyVeth]
  split
  · have hkind : ∀ c ∈ snatCmds true src val .inet ++ snatCmds true src val .inet6,
        c.kind = .snat := by
      intro c hc
      rcases List.mem_append.mp hc with hc | hc <;> exact snatCmds_kind _ _ _ _ c hc
    refine Host.runAll_true hkind ?_ ?_
    · intro c hc k
      rcases List.mem_append.mp hc with hc | hc <;>
        simp only [snatCmds, List.mem_cons, List.not_mem_nil, or_false] at hc <;>
        rcases hc with rfl | rfl | rfl <;> rfl
    · intro n hn
      rw [hsides.host.answers .snat (by decide)]
      exact hw n hn
  · rfl

/-- `_veth_ip_get` answers when there is a veth, or one can be set up. -/
theorem vethIpGet_isSome {vrf : Str} {t : VrfTool} (hr : VethReady vrf t) (isPeerIp : Bool) :
    (vethIpGet vrf defaultVrf isPeerIp t).1.isSome := by
  obtain ⟨hne, hcases⟩ := hr
  rw [vethIpGet, if_neg fun h => hne h.1]
  rcases h1 : t.vrfSubNetMap.lookup (vethKey vrf defaultVrf) with _ | val
  · rcases h2 : t.vrfSubNetMap.lookup (vethKey defaultVrf vrf) with _ | val
    · obtain hmem | hmem | ⟨hsrc, hdst, hfree, hveth, hsnat⟩ := hcases
      · exact absurd hmem (AList.lookup_eq_none.mp h1)
      · exact absurd hmem (AList.lookup_eq_none.mp h2)
      obtain ⟨id, hid⟩ := Dict.mem_iff.mp hsrc
      obtain ⟨val, hval⟩ := Option.isSome_iff_exists.mp hfree
      have hside := setUpSide_onlyRuns true vrf defaultVrf t
      generalize hu : setUpSide true vrf defaultVrf t = u at hside
      obtain ⟨ok, t1, heq, hruns, -, hworks⟩ := addVethConfig_cases (vethIps val) vrf defaultVrf
        (u.setSubNet (u.vrfSubNetMap.insert (vethKey vrf defaultVrf) val))
      have hok : ok = true := by
        refine hworks (hside.ids ▸ hsrc) (hside.ids ▸ hdst) fun n hn => ?_
        change (u.host.env.answers .veth).get n = true
        rw [hside.host.answers .veth (by decide)]
        exact hveth n hn
      subst hok
      have hsnat' : SnatWorks t1.host := by
        intro n hn
        have hsame : t1.host.env.answers .snat = u.host.env.answers .snat :=
          hruns.host.answers .snat (by decide)
        rw [hsame, hside.host.answers .snat (by decide)]
        exact hsnat n hn
      dsimp only
      rw [ipSvcsSubnetSetup, hid]
      dsimp only
      rw [if_pos rfl, hu, addSubNet, hside.subNet, h1, hval]
      rw [hside.subNet] at heq
      dsimp only
      rw [heq]
      dsimp only
      have happly := applyVeth_works vrf defaultVrf val hsnat'
      have hval' := (applyVeth_onlyRuns vrf defaultVrf val t1).2
      generalize applyVeth vrf defaultVrf val t1 = applied at happly hval'
      obtain ⟨⟨ok, val'⟩, t2⟩ := applied
      obtain rfl : ok = true := happly
      obtain rfl : val' = some val := hval'
      rfl
    · rfl
  · rfl

/-! ## What stays the same -/

theorem vethIpGet_outgoing (src dst : Str) (isPeerIp : Bool) (t : VrfTool) :
    (vethIpGet src dst isPeerIp t).2.outgoingIpSvcsMap = t.outgoingIpSvcsMap := by
  obtain ⟨hruns, -⟩ | ⟨-, val, -, hruns, -⟩ := vethIpGet_cases src dst isPeerIp t
  · exact hruns.outgoing
  · exact hruns.outgoing

theorem filterVeth_outgoing (r : VrfOutgoingSvcsRule) (t : VrfTool) :
    (filterVeth r t).outgoingIpSvcsMap = t.outgoingIpSvcsMap := by
  rw [filterVeth]
  split
  · exact vethIpGet_outgoing _ _ _ t
  · rfl

/-- `proc_rule` leaves the private ports alone. -/
theorem procRule_outgoing (iptables : Iptables) (op : IptOp) (r : VrfOutgoingSvcsRule)
    (idx : Option ℕ) (t : VrfTool) :
    (procRule iptables op r idx t).2.outgoingIpSvcsMap = t.outgoingIpSvcsMap := by
  have hargs : ∀ u : VrfTool,
      (procArgs iptables op r idx u).2.outgoingIpSvcsMap = u.outgoingIpSvcsMap := by
    intro u
    rw [procArgs]
    split_ifs
    · rfl
    · rfl
    · rfl
    · exact filterVeth_outgoing r u
    · exact filterVeth_outgoing r u
  rw [procRule]
  split
  · split
    · rename_i u heq
      obtain rfl := (Prod.mk.inj heq).2
      rfl
    · rename_i u heq
      obtain rfl := (Prod.mk.inj heq).2
      exact hargs _
  · exact hargs t

/-- The life cycle of the VRFs leaves the private ports alone. -/
theorem processVrfConfig_outgoing (isAdd : Bool) (vrf : Str) (id : ℕ) (t : VrfTool) :
    (processVrfConfig isAdd vrf id t).2.outgoingIpSvcsMap = t.outgoingIpSvcsMap := by
  rw [processVrfConfig]
  split
  · exact (createVrf_cases vrf id t).1.outgoing
  · have hdrop : ∀ src dst (u : VrfTool), u.outgoingIpSvcsMap = t.outgoingIpSvcsMap →
        (ipSvcsSubnetSetup false src dst u).2.outgoingIpSvcsMap = t.outgoingIpSvcsMap := by
      intro src dst u hu
      obtain ⟨-, hruns⟩ | ⟨-, hruns, -⟩ := dropSubNet_cases src dst u
      · exact hruns.outgoing.trans hu
      · exact Eq.trans hruns.outgoing hu
    obtain ⟨t0, keys, done, t1, ok, t', heq, hstart, -, hloop, hend⟩ := deleteVrf_cases vrf t
    have ht1 : t1.outgoingIpSvcsMap = t.outgoingIpSvcsMap := by
      have hkeep := deleteSubNets_keeps hdrop vrf keys hstart.outgoing
      rwa [hloop] at hkeep
    rw [heq]
    obtain ⟨-, rfl⟩ | ⟨-, k, hdropped⟩ := hend
    · exact ht1
    · exact Eq.trans hdropped.names.outgoing ht1

/-! ## What a call does to the private ports -/

/-- A call that hands out a port. -/
theorem subNetConfig_add {a : Alias} {t t' : VrfTool} {p : Private}
    (h : processOutgoingIpSvcsSubNetConfig true a t = (some p, t')) :
    t.outgoingIpSvcsMap.lookup a = none ∧
      Alloc.firstFree 62000 65000 t.outgoingIpSvcsMap.values = some p.port ∧
      t'.outgoingIpSvcsMap = t.outgoingIpSvcsMap.insert a p.port := by
  have hkeep := vethIpGet_outgoing a.vrfName defaultVrf false t
  rw [processOutgoingIpSvcsSubNetConfig] at h
  rcases hget : vethIpGet a.vrfName defaultVrf false t with ⟨_ | hops, u⟩ <;>
    rw [hget] at h hkeep
  · cases (Prod.mk.inj h).1
  · dsimp only at h hkeep
    rw [if_pos rfl, takePort, hkeep] at h
    rcases hlookup : t.outgoingIpSvcsMap.lookup a with _ | port <;> rw [hlookup] at h
    · rcases hfree : Alloc.firstFree 62000 65000 t.outgoingIpSvcsMap.values with _ | port <;>
        rw [hfree] at h
      · cases (Prod.mk.inj h).1
      · obtain ⟨hp, rfl⟩ := Prod.mk.inj h
        obtain rfl := Option.some_inj.mp hp
        exact ⟨rfl, rfl, rfl⟩
    · cases (Prod.mk.inj h).1

/-- A call that hands out no port leaves the ports as they are. -/
theorem subNetConfig_refused {a : Alias} {t t' : VrfTool}
    (h : processOutgoingIpSvcsSubNetConfig true a t = (none, t')) :
    t'.outgoingIpSvcsMap = t.outgoingIpSvcsMap := by
  have hkeep := vethIpGet_outgoing a.vrfName defaultVrf false t
  rw [processOutgoingIpSvcsSubNetConfig] at h
  rcases hget : vethIpGet a.vrfName defaultVrf false t with ⟨_ | hops, u⟩ <;>
    rw [hget] at h hkeep
  · obtain rfl := (Prod.mk.inj h).2
    exact hkeep
  · dsimp only at h hkeep
    rw [if_pos rfl, takePort] at h
    rcases hlookup : u.outgoingIpSvcsMap.lookup a with _ | port <;> rw [hlookup] at h
    · rcases hfree : Alloc.firstFree 62000 65000 u.outgoingIpSvcsMap.values with _ | port <;>
        rw [hfree] at h
      · obtain rfl := (Prod.mk.inj h).2
        exact hkeep
      · cases (Prod.mk.inj h).1
    · obtain rfl := (Prod.mk.inj h).2
      exact hkeep

/-- A call that takes a port back does so when there is a veth. -/
theorem subNetConfig_delete {a : Alias} {t : VrfTool} (hr : VethReady a.vrfName t) :
    (processOutgoingIpSvcsSubNetConfig false a t).2.outgoingIpSvcsMap =
      t.outgoingIpSvcsMap.erase a := by
  have hkeep := vethIpGet_outgoing a.vrfName defaultVrf false t
  have hsome := vethIpGet_isSome hr false
  rw [processOutgoingIpSvcsSubNetConfig]
  rcases hget : vethIpGet a.vrfName defaultVrf false t with ⟨_ | hops, u⟩ <;>
    rw [hget] at hkeep hsome
  · cases hsome
  · dsimp only at hkeep
    dsimp only
    rw [if_neg Bool.false_ne_true, popPort, hkeep]
    rcases t.outgoingIpSvcsMap.lookup a with _ | port <;> rfl

end VrfTool

end OpxNasLinux
