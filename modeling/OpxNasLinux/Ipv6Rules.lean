import OpxNasLinux.IpSvcsRules
import OpxNasLinux.Ipv6Text

/-!
# Rules of IPv6 addresses

`ip_svcs_iptable_rule_setup` and `ipv6_rule_programming` install a rule for an
IPv6 address unless it is an internal or a link local one.  The prefixes are
looked for in the text of the address, wherever they stand in it.

* `isInternal_iff` and `isLinkLocal_iff` say which addresses are taken for such
  ones.
* `Honours` is what the two functions are for, and `rules_honour_iff` says for
  which addresses they do it.
-/

namespace OpxNasLinux

open Delimited

/-! ## Prefixes -/

/-- The groups of the prefix of the veths. -/
def vethGroups : List ℕ := [0xfda5, 0x74c8, 0xb79e, 4]

namespace Ipv6

/-- The address is in `fda5:74c8:b79e:4::/64`. -/
def InVeth (a : Ipv6) : Prop := a.groups.take 4 = vethGroups

/-- The address is in `fe80::/10`. -/
def InLinkLocal (a : Ipv6) : Prop := a.groups.headD 0 / 64 = 0xfe80 / 64

/-- The address as the daemon has it. -/
def ipAddr (a : Ipv6) : IpAddr where
  af := .inet6
  text := inetNtop6 a
  starFree := inetNtop6_chars a (by decide)
  colon := iff_of_true (colon_mem_inetNtop6 a) rfl

end Ipv6

namespace VrfTool

theorem isInternal_iff (a : Ipv6) :
    isInternal a.ipAddr.text = true ↔
      a.dotted = false ∧ vethGroups <:+: a.groups.dropLast := by
  have hpiece : "fda5:74c8:b79e:4:".toList =
      close ':' ([0xfda5, 0x74c8, 0xb79e, 4].map Ipv6.hex) := by decide +kernel
  have h := @Ipv6.close_infix_inetNtop6_iff a 0xfda5 [0x74c8, 0xb79e, 4] (by decide) (by omega)
    (by omega)
  rw [← hpiece] at h
  exact decide_eq_true_iff.trans h

theorem isLinkLocal_iff (a : Ipv6) :
    isLinkLocal a.ipAddr.text = true ↔ a.dotted = false ∧ 0xfe80 ∈ a.groups.dropLast := by
  have hpiece : "fe80:".toList = close ':' ([0xfe80].map Ipv6.hex) := by decide +kernel
  have h := @Ipv6.close_infix_inetNtop6_iff a 0xfe80 [] (by decide) (by omega) (by omega)
  rw [← hpiece, List.singleton_infix_iff] at h
  exact decide_eq_true_iff.trans h

/-- The test that lets an address be skipped. -/
def isSkipped (ip : IpAddr) : Bool := isInternal ip.text || isLinkLocal ip.text

/-- An address that is skipped has one of the groups in its text. -/
theorem isSkipped_iff (a : Ipv6) :
    isSkipped a.ipAddr = true ↔
      a.dotted = false ∧ (vethGroups <:+: a.groups.dropLast ∨ 0xfe80 ∈ a.groups.dropLast) := by
  rw [isSkipped, Bool.or_eq_true, isInternal_iff, isLinkLocal_iff, ← and_or_left]

/-! ## What is installed -/

/-- No key and no rule is lost, and a new key of an IPv6 address has its rule. -/
structure Adds (vrf : Str) (t t' : VrfTool) : Prop where
  keys : ∀ key ∈ t.vrfIpServiceIpAddr, key ∈ t'.vrfIpServiceIpAddr
  jumps : t.host.kernel.jumps ⊆ t'.host.kernel.jumps
  new : ∀ ip : IpAddr, addrKey vrf .inet6 ip.text ∈ t'.vrfIpServiceIpAddr →
    addrKey vrf .inet6 ip.text ∉ t.vrfIpServiceIpAddr →
    ⟨vrf, .inet6, ip.text⟩ ∈ t'.host.kernel.jumps

theorem Adds.of_eq {vrf : Str} {t t' : VrfTool}
    (hmap : t'.vrfIpServiceIpAddr = t.vrfIpServiceIpAddr)
    (hjumps : t'.host.kernel.jumps = t.host.kernel.jumps) : Adds vrf t t' := by
  refine ⟨fun key hkey => ?_, ?_, fun ip hkey hnot => ?_⟩
  · rwa [hmap]
  · rw [hjumps]
    exact List.Subset.refl _
  · rw [hmap] at hkey
    exact absurd hkey hnot

theorem Adds.trans {vrf : Str} {t t' t'' : VrfTool} (h : Adds vrf t t') (h' : Adds vrf t' t'') :
    Adds vrf t t'' := by
  refine ⟨fun key hkey => h'.keys key (h.keys key hkey), fun j hj => h'.jumps (h.jumps hj),
    fun ip hkey hnot => ?_⟩
  by_cases hmid : addrKey vrf .inet6 ip.text ∈ t'.vrfIpServiceIpAddr
  · exact h'.jumps (h.new ip hmid hnot)
  · exact h'.new ip hkey hmid

/-- A command for a rule that succeeds. -/
theorem setIpRule_adds {vrf : Str} {af : Af} {ip : IpAddr} {t : VrfTool}
    (h : (t.setIpRule true vrf af ip.text).1 = true) :
    Adds vrf t (t.setIpRule true vrf af ip.text).2 ∧
      addrKey vrf af ip.text ∈ (t.setIpRule true vrf af ip.text).2.vrfIpServiceIpAddr := by
  have hans : (t.host.answer .jump).1 = true := by
    by_contra hno
    have hfail : t.host.runCommand (.jump true vrf af ip.text) =
        (false, (t.host.answer .jump).2) := by
      rw [Host.runCommand]
      exact if_neg fun hand => hno (Bool.and_eq_true_iff.mp hand).1
    rw [setIpRule, hfail] at h
    cases h
  have hrun := @Host.runCommand_of_head t.host (.jump true vrf af ip.text) hans rfl
  rw [setIpRule, hrun]
  have hkeys : ∀ key, key ∈ t.vrfIpServiceIpAddr.insert (addrKey vrf af ip.text) 1 ↔
      key = addrKey vrf af ip.text ∨ key ∈ t.vrfIpServiceIpAddr := fun _ => Dict.mem_insert_iff
  refine ⟨⟨fun key hkey => (hkeys key).mpr (Or.inr hkey), List.subset_append_left _ _,
    fun ip' hkey hnot => ?_⟩, (hkeys _).mpr (Or.inl rfl)⟩
  rcases (hkeys _).mp hkey with heq | hold
  · obtain ⟨-, rfl, htext⟩ := addrKey_inj ip'.starFree ip.starFree heq
    rw [htext]
    exact List.mem_append_right _ (List.mem_singleton_self _)
  · exact absurd hold hnot

/-- The loop over the addresses of an interface. -/
theorem setUpIps_adds {vrf : Str} {ips : List IpAddr} {af : Af} {t : VrfTool}
    (h : (setUpIps vrf true ips af t).1 = true) :
    Adds vrf t (setUpIps vrf true ips af t).2 ∧
      ∀ ip ∈ ips, ip.af = .inet6 → isSkipped ip = false →
        addrKey vrf .inet6 ip.text ∈ (setUpIps vrf true ips af t).2.vrfIpServiceIpAddr := by
  induction ips generalizing af t with
  | nil => exact ⟨.of_eq rfl rfl, List.forall_mem_nil _⟩
  | cons ip rest ih =>
    rw [setUpIps] at h ⊢
    generalize haf : (if ip.af = .inet6 then Af.inet6 else af) = af' at h ⊢
    have haf : ip.af = .inet6 → af' = .inet6 := fun h6 => by rw [← haf, if_pos h6]
    split at h
    · rename_i hskip
      rw [if_pos hskip]
      obtain ⟨hadds, hrest⟩ := ih h
      refine ⟨hadds, List.forall_mem_cons.mpr ⟨fun _ hnot => ?_, hrest⟩⟩
      rw [isSkipped, Bool.or_eq_false_iff] at hnot
      rcases hskip.2 with hskip | hskip
      · rw [hnot.1] at hskip
        cases hskip
      · rw [hnot.2] at hskip
        cases hskip
    rename_i hskip
    rw [if_neg hskip]
    split at h
    · rename_i hthere
      rw [if_pos hthere]
      obtain ⟨hadds, hrest⟩ := ih h
      refine ⟨hadds, List.forall_mem_cons.mpr ⟨fun h6 _ => ?_, hrest⟩⟩
      rw [haf h6] at hthere
      exact hadds.keys _ (of_decide_eq_true hthere.symm)
    · rename_i hthere
      rw [if_neg hthere]
      split at h
      · rename_i t' heq
        have hrule : (t.setIpRule true vrf af' ip.text).1 = true := congrArg Prod.fst heq
        obtain ⟨hone, hkey⟩ := setIpRule_adds hrule
        rw [heq] at hone hkey
        obtain ⟨hadds, hrest⟩ := ih h
        refine ⟨hone.trans hadds, List.forall_mem_cons.mpr ⟨fun h6 _ => ?_, hrest⟩⟩
        rw [haf h6] at hkey
        exact hadds.keys _ hkey
      · cases h

/-- The loop over the interfaces. -/
theorem setUpInterfaces_adds {vrf : Str} {lines : List InterfaceObject} {t : VrfTool}
    (h : (setUpInterfaces vrf true lines t).1 = true) :
    Adds vrf t (setUpInterfaces vrf true lines t).2 ∧
      ∀ line ∈ lines, line.type = 1 → ∀ ip ∈ line.ip, ip.af = .inet6 → isSkipped ip = false →
        addrKey vrf .inet6 ip.text ∈ (setUpInterfaces vrf true lines t).2.vrfIpServiceIpAddr := by
  induction lines generalizing t with
  | nil => exact ⟨.of_eq rfl rfl, List.forall_mem_nil _⟩
  | cons line rest ih =>
    rw [setUpInterfaces] at h ⊢
    split at h
    · rename_i htype
      rw [if_pos htype]
      split at h
      · rename_i t' heq
        have hips : (setUpIps vrf true line.ip .inet t).1 = true := congrArg Prod.fst heq
        obtain ⟨hone, hkeys⟩ := setUpIps_adds hips
        rw [heq] at hone hkeys
        obtain ⟨hadds, hrest⟩ := ih h
        refine ⟨hone.trans hadds, List.forall_mem_cons.mpr ⟨fun _ ip hip h6 hnot => ?_, hrest⟩⟩
        exact hadds.keys _ (hkeys ip hip h6 hnot)
      · cases h
    · rename_i htype
      rw [if_neg htype]
      obtain ⟨hadds, hrest⟩ := ih h
      exact ⟨hadds, List.forall_mem_cons.mpr ⟨fun h1 => absurd h1 htype, hrest⟩⟩

/-- The address has its key afterwards, and if the key is new its rule. -/
structure Installed (vrf : Str) (ip : IpAddr) (t t' : VrfTool) : Prop where
  key : addrKey vrf .inet6 ip.text ∈ t'.vrfIpServiceIpAddr
  rule : addrKey vrf .inet6 ip.text ∉ t.vrfIpServiceIpAddr →
    ⟨vrf, .inet6, ip.text⟩ ∈ t'.host.kernel.jumps

/-- All interfaces. -/
theorem ipSvcsIptableRuleSetup_installs {vrf : Str} {t : VrfTool} {line : InterfaceObject}
    {ip : IpAddr} (hline : line ∈ t.host.readInterfaces.1) (htype : line.type = 1)
    (hip : ip ∈ line.ip) (h6 : ip.af = .inet6) (hnot : isSkipped ip = false)
    (h : (ipSvcsIptableRuleSetup vrf true t).1 = true) :
    Installed vrf ip t (ipSvcsIptableRuleSetup vrf true t).2 := by
  rw [ipSvcsIptableRuleSetup] at h ⊢
  split at h
  · cases h
  · rename_i t' heq
    have hlines : (setUpInterfaces vrf true t.host.readInterfaces.1
        (t.setHost t.host.readInterfaces.2)).1 = true := congrArg Prod.fst heq
    obtain ⟨hadds, hkeys⟩ := setUpInterfaces_adds hlines
    have hkey := hkeys line hline htype ip hip h6 hnot
    rw [heq] at hadds hkey
    have hlast : (t'.host.runCommand (.linkLocalJump true vrf)).2.kernel.jumps =
        t'.host.kernel.jumps := by
      rw [Host.runCommand]
      split <;> rfl
    have hread : Adds vrf t (t.setHost t.host.readInterfaces.2) := .of_eq rfl rfl
    have hall : Adds vrf t (t'.setHost (t'.host.runCommand (.linkLocalJump true vrf)).2) :=
      (hread.trans hadds).trans (.of_eq rfl hlast)
    exact ⟨hkey, hall.new ip hkey⟩

/-- The event of one address. -/
theorem ipv6RuleProgramming_installs {vrf name : Str} {t : VrfTool}
    {ip : { ip : IpAddr // ip.af = .inet6 }} (hsvcs : (getVethIpSubnet vrf t).isSome = true)
    (helig : vrf ≠ "management".toList → ∀ line ∈ t.host.readInterfaces.1, line.type = 1)
    (hnot : isSkipped ip.1 = false)
    (h : (ipv6RuleProgramming ⟨some vrf, some name, some ip⟩ true t).1 = true) :
    Installed vrf ip.1 t (ipv6RuleProgramming ⟨some vrf, some name, some ip⟩ true t).2 := by
  have hread : Adds vrf t (if decide (vrf = "management".toList) then t
      else t.setHost t.host.readInterfaces.2) := by
    split
    · exact .of_eq rfl rfl
    · exact .of_eq rfl rfl
  have hnone : (getVethIpSubnet vrf t).isNone = false := by
    rw [Option.isNone_eq_false_iff]
    exact hsvcs
  rw [ipv6RuleProgramming, ruleProgramming] at h ⊢
  dsimp only at h ⊢
  rw [hnone, if_neg Bool.false_ne_true] at h ⊢
  generalize (if decide (vrf = "management".toList) then t
    else t.setHost t.host.readInterfaces.2) = t' at hread h ⊢
  have hany : (!decide (vrf = "management".toList) &&
      t.host.readInterfaces.1.any fun line => decide (line.type ≠ 1)) = false := by
    by_cases hmgmt : vrf = "management".toList
    · simp [hmgmt]
    · rw [Bool.and_eq_false_iff, List.any_eq_false]
      exact Or.inr fun line hline => by simp [helig hmgmt line hline]
  have hskip : (isInternal ip.1.text || isLinkLocal ip.1.text) = false := hnot
  rw [hany, if_neg Bool.false_ne_true, hskip, if_neg Bool.false_ne_true] at h ⊢
  split at h
  · rename_i hthere
    rw [if_pos hthere]
    have hkey := of_decide_eq_true hthere.symm
    exact ⟨hkey, hread.new ip.1 hkey⟩
  · rename_i hthere
    rw [if_neg hthere]
    obtain ⟨hone, hkey⟩ := setIpRule_adds h
    exact ⟨hkey, (hread.trans hone).new ip.1 hkey⟩

/-! ## The functions -/

/-- The address is one that the functions are to skip. -/
def ToSkip (a : Ipv6) : Prop := a.InVeth ∨ a.InLinkLocal

/-- What the functions are for: an address that is skipped is one to skip, and
any other address has its rule when they return `True`. -/
structure Honours (a : Ipv6) : Prop where
  skipped : isSkipped a.ipAddr = true → ToSkip a
  event : ∀ (t : VrfTool) (vrf name : Str), (getVethIpSubnet vrf t).isSome = true →
    (vrf ≠ "management".toList → ∀ line ∈ t.host.readInterfaces.1, line.type = 1) →
    ¬ ToSkip a → (ipv6RuleProgramming ⟨some vrf, some name, some ⟨a.ipAddr, rfl⟩⟩ true t).1 = true →
    Installed vrf a.ipAddr t
      (ipv6RuleProgramming ⟨some vrf, some name, some ⟨a.ipAddr, rfl⟩⟩ true t).2
  setUp : ∀ (t : VrfTool) (vrf : Str), ∀ line ∈ t.host.readInterfaces.1, line.type = 1 →
    a.ipAddr ∈ line.ip → ¬ ToSkip a → (ipSvcsIptableRuleSetup vrf true t).1 = true →
    Installed vrf a.ipAddr t (ipSvcsIptableRuleSetup vrf true t).2

/-- The functions do what they are for exactly for the addresses that are to be
skipped, that embed an IPv4 address, or that have the groups of neither prefix
among their first seven groups. -/
theorem rules_honour_iff (a : Ipv6) :
    Honours a ↔ ToSkip a ∨ a.dotted = true ∨
      (0xfe80 ∉ a.groups.dropLast ∧ ¬ vethGroups <:+: a.groups.dropLast) := by
  have hcond : (isSkipped a.ipAddr = true → ToSkip a) ↔ ToSkip a ∨ a.dotted = true ∨
      (0xfe80 ∉ a.groups.dropLast ∧ ¬ vethGroups <:+: a.groups.dropLast) := by
    rw [isSkipped_iff, ← Bool.not_eq_true]
    tauto
  rw [← hcond]
  refine ⟨Honours.skipped, fun h => ⟨h, fun t vrf name hsvcs helig hnot => ?_,
    fun t vrf line hline htype hip hnot => ?_⟩⟩
  · exact ipv6RuleProgramming_installs hsvcs helig (Bool.eq_false_iff.mpr fun hs => hnot (h hs))
  · exact ipSvcsIptableRuleSetup_installs hline htype hip rfl
      (Bool.eq_false_iff.mpr fun hs => hnot (h hs))

/-- The address `2001:db8::fe80:1`. -/
def mistakenIpv6 : Ipv6 := ⟨[0x2001, 0xdb8, 0, 0, 0, 0, 0xfe80, 1], rfl, by decide⟩

/-- A global address is skipped for one of its groups, and gets no rule. -/
theorem global_address_skipped :
    let r := ipSvcsIptableRuleSetup "blue".toList true
      (init (macvlanEnv (fun _ => .const true) [mistakenIpv6.ipAddr]))
    mistakenIpv6.ipAddr.text = "2001:db8::fe80:1".toList ∧ isSkipped mistakenIpv6.ipAddr = true ∧
      ¬ ToSkip mistakenIpv6 ∧ r.1 = true ∧ r.2.host.kernel.jumps = [] ∧
      ¬ Honours mistakenIpv6 := by
  have hskip : isSkipped mistakenIpv6.ipAddr = true := by decide +kernel
  have hnot : ¬ ToSkip mistakenIpv6 := by
    rintro (hveth | hlink)
    · cases hveth
    · cases hlink
  exact ⟨by decide +kernel, hskip, hnot, by decide +kernel, by decide +kernel,
    fun h => hnot (h.skipped hskip)⟩

end VrfTool

end OpxNasLinux
