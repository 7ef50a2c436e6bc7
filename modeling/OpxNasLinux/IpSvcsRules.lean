import OpxNasLinux.Lib.Run
import OpxNasLinux.VethSetUp

/-!
# The rules of addresses

`_vrf_ip_service_ip_addr` says for which addresses of a VRF there is a rule in
the `PREROUTING` chain.  Three functions write it: one goes through the
addresses of all interfaces, and two handle the event of one address.

* `RulesMatch` is the invariant: an address has its key when its rule is
  installed by the tool of its family.
* `ipSvcsRules_match` says that it holds after any calls, unless an interface
  lists an IPv4 address behind an IPv6 one or a command for a rule fails.
-/

namespace OpxNasLinux

open Delimited Run

namespace VrfTool

/-! ## Requests -/

/-- A call of one of the functions that write the rules of addresses.  What
the rest of the daemon does to the map of the veths is `subNets`. -/
inductive RuleRequest where
  | setUp (vrf : Str) (isAdd : Bool)
  | ipv4 (e : IpEvent .inet) (isAdd : Bool)
  | ipv6 (e : IpEvent .inet6) (isAdd : Bool)
  | subNets (m : Dict Str ℕ)

/-- The state after a call. -/
def ruleStep (t : VrfTool) : RuleRequest → VrfTool
  | .setUp vrf isAdd => (ipSvcsIptableRuleSetup vrf isAdd t).2
  | .ipv4 e isAdd => (ipv4RuleProgramming e isAdd t).2
  | .ipv6 e isAdd => (ipv6RuleProgramming e isAdd t).2
  | .subNets m => t.setSubNet m

/-- An address has its key when its rule is installed. -/
structure RulesMatch (t : VrfTool) : Prop where
  willing : t.host.Willing .jump
  key_iff : ∀ vrf af (ip : IpAddr), addrKey vrf af ip.text ∈ t.vrfIpServiceIpAddr ↔
    af = ip.af ∧ ⟨vrf, ip.af, ip.text⟩ ∈ t.host.kernel.jumps
  nodup : t.host.kernel.jumps.Nodup

/-- No IPv4 address comes behind an IPv6 one. -/
def FamiliesSorted (ips : List IpAddr) : Prop :=
  ips.Pairwise fun ip ip' => ip.af = .inet6 → ip'.af = .inet6

/-- If the call installs the rules of all interfaces, the macvlan ones list
their addresses in order. -/
def InterfacesSorted (t : VrfTool) : RuleRequest → Prop
  | .setUp _ isAdd =>
    isAdd = true → ∀ line ∈ t.host.readInterfaces.1, line.type = 1 → FamiliesSorted line.ip
  | _ => True

/-! ## One rule -/

/-- The map, the rules and the answers are all that `RulesMatch` looks at. -/
theorem RulesMatch.of_eq {t t' : VrfTool} (ht : RulesMatch t)
    (hmap : t'.vrfIpServiceIpAddr = t.vrfIpServiceIpAddr)
    (hjumps : t'.host.kernel.jumps = t.host.kernel.jumps)
    (hanswers : t'.host.env.answers .jump = t.host.env.answers .jump) : RulesMatch t' := by
  refine ⟨fun n => ?_, ?_, ?_⟩
  · rw [hanswers]
    exact ht.willing n
  · rw [hmap, hjumps]
    exact ht.key_iff
  · rw [hjumps]
    exact ht.nodup

/-- Two addresses of the host with one key have one rule. -/
theorem addrKey_text_iff {vrf vrf' : Str} {af : Af} {ip ip' : IpAddr} :
    addrKey vrf' af ip'.text = addrKey vrf ip.af ip.text ↔
      af = ip'.af ∧ (⟨vrf', ip'.af, ip'.text⟩ : Jump) = ⟨vrf, ip.af, ip.text⟩ := by
  rw [Jump.mk.injEq]
  constructor
  · intro h
    obtain ⟨hvrf, haf, htext⟩ := addrKey_inj ip'.starFree ip.starFree h
    have hfamily := IpAddr.af_eq htext
    exact ⟨haf.trans hfamily.symm, hvrf, hfamily, htext⟩
  · rintro ⟨rfl, rfl, haf, htext⟩
    rw [haf, htext]

/-- A rule follows its address when the command succeeds. -/
theorem setIpRule_rulesMatch {isAdd : Bool} {vrf : Str} {ip : IpAddr} {t : VrfTool}
    (ht : RulesMatch t)
    (hchange : isAdd ≠ decide (addrKey vrf ip.af ip.text ∈ t.vrfIpServiceIpAddr)) :
    RulesMatch (t.setIpRule isAdd vrf ip.af ip.text).2 := by
  have hrun := @Host.runCommand_of_head t.host (.jump isAdd vrf ip.af ip.text) (ht.willing 0) rfl
  have hanswers := Host.answer_self .jump t.host
  rw [setIpRule, hrun]
  cases isAdd with
  | true =>
    have hnew : (⟨vrf, ip.af, ip.text⟩ : Jump) ∉ t.host.kernel.jumps := fun hmem =>
      hchange (decide_eq_true ((ht.key_iff vrf ip.af ip).mpr ⟨rfl, hmem⟩)).symm
    refine ⟨fun n => ?_, fun vrf' af ip' => ?_, ?_⟩
    · change ((t.host.answer .jump).2.env.answers .jump).get n = true
      rw [hanswers]
      exact ht.willing (n + 1)
    · change addrKey vrf' af ip'.text ∈ t.vrfIpServiceIpAddr.insert _ 1 ↔
        af = ip'.af ∧ _ ∈ t.host.kernel.jumps ++ [_]
      rw [Dict.mem_insert_iff, addrKey_text_iff, ht.key_iff, List.mem_append, List.mem_singleton]
      tauto
    · exact ht.nodup.append (List.nodup_singleton _) (by simpa using hnew)
  | false =>
    refine ⟨fun n => ?_, fun vrf' af ip' => ?_, ht.nodup.erase _⟩
    · change ((t.host.answer .jump).2.env.answers .jump).get n = true
      rw [hanswers]
      exact ht.willing (n + 1)
    · change addrKey vrf' af ip'.text ∈ t.vrfIpServiceIpAddr.erase _ ↔
        af = ip'.af ∧ _ ∈ t.host.kernel.jumps.erase _
      rw [Dict.mem_erase_iff, Ne, addrKey_text_iff, ht.key_iff, ht.nodup.mem_erase_iff]
      tauto

/-! ## All interfaces -/

/-- The loop over the addresses of an interface.  `af` is the family of the
address before. -/
theorem setUpIps_rulesMatch {vrf : Str} {isAdd : Bool} {ips : List IpAddr} {af : Af} {t : VrfTool}
    (ht : RulesMatch t)
    (hips : isAdd = true → FamiliesSorted ips ∧ (af = .inet6 → ∀ ip ∈ ips, ip.af = .inet6)) :
    RulesMatch (setUpIps vrf isAdd ips af t).2 := by
  induction ips generalizing af t with
  | nil => exact ht
  | cons ip rest ih =>
    have hrest : isAdd = true → FamiliesSorted rest ∧
        ((if ip.af = .inet6 then Af.inet6 else af) = .inet6 → ∀ ip' ∈ rest, ip'.af = .inet6) := by
      intro hadd
      obtain ⟨hsorted, hbefore⟩ := hips hadd
      obtain ⟨hfirst, hsorted⟩ := List.pairwise_cons.mp hsorted
      refine ⟨hsorted, fun haf ip' hip' => ?_⟩
      split at haf
      · rename_i h6
        exact hfirst ip' hip' h6
      · exact hbefore haf ip' (List.mem_cons_of_mem _ hip')
    rw [setUpIps]
    generalize haf : (if ip.af = .inet6 then Af.inet6 else af) = af' at hrest ⊢
    split
    · exact ih ht hrest
    split
    · exact ih ht hrest
    rename_i hchange
    -- a rule is changed for an address that is taken for its own family only
    have hfamily : af' = ip.af := by
      by_cases h6 : ip.af = .inet6
      · rw [← haf, if_pos h6, h6]
      · rw [if_neg h6] at haf
        subst haf
        cases isAdd with
        | true =>
          have hne : af ≠ .inet6 := fun haf => h6 ((hips rfl).2 haf ip List.mem_cons_self)
          cases haf : af <;> cases hip : ip.af <;> first | rfl | contradiction
        | false =>
          have hmem : addrKey vrf af ip.text ∈ t.vrfIpServiceIpAddr := by
            by_contra hnot
            exact hchange (decide_eq_false hnot).symm
          exact ((ht.key_iff vrf af ip).mp hmem).1
    subst hfamily
    have hrule := setIpRule_rulesMatch ht hchange
    rcases hset : t.setIpRule isAdd vrf ip.af ip.text with ⟨_ | _, t'⟩ <;> rw [hset] at hrule
    · exact hrule
    · exact ih hrule hrest

theorem setUpInterfaces_rulesMatch (vrf : Str) {isAdd : Bool} {lines : List InterfaceObject}
    {t : VrfTool} (ht : RulesMatch t)
    (hlines : isAdd = true → ∀ line ∈ lines, line.type = 1 → FamiliesSorted line.ip) :
    RulesMatch (setUpInterfaces vrf isAdd lines t).2 := by
  induction lines generalizing t with
  | nil => exact ht
  | cons line rest ih =>
    have hrest := fun hadd line' hline' => hlines hadd line' (List.mem_cons_of_mem line hline')
    rw [setUpInterfaces]
    split
    · rename_i htype
      have hone := @setUpIps_rulesMatch vrf isAdd line.ip .inet t ht fun hadd =>
        ⟨hlines hadd line List.mem_cons_self htype, fun h => by cases h⟩
      rcases hset : setUpIps vrf isAdd line.ip .inet t with ⟨_ | _, t'⟩ <;> rw [hset] at hone
      · exact hone
      · exact ih hone hrest
    · exact ih ht hrest

theorem ipSvcsIptableRuleSetup_rulesMatch {vrf : Str} {isAdd : Bool} {t : VrfTool}
    (ht : RulesMatch t) (hok : InterfacesSorted t (.setUp vrf isAdd)) :
    RulesMatch (ipSvcsIptableRuleSetup vrf isAdd t).2 := by
  have hread : RulesMatch (t.setHost t.host.readInterfaces.2) := ht.of_eq rfl rfl rfl
  have hlines := setUpInterfaces_rulesMatch vrf hread hok
  rw [ipSvcsIptableRuleSetup]
  rcases hset : setUpInterfaces vrf isAdd t.host.readInterfaces.1
    (t.setHost t.host.readInterfaces.2) with ⟨_ | _, t'⟩ <;> rw [hset] at hlines
  · exact hlines
  · have hruns : t'.host.Runs [.linkLocal] (t'.host.runCommand (.linkLocalJump isAdd vrf)).2 :=
      Host.runCommand_runs (by simp [Cmd.kind]) (by decide) _
    refine hlines.of_eq rfl ?_ (hruns.answers _ (by decide))
    change (t'.host.runCommand (.linkLocalJump isAdd vrf)).2.kernel.jumps = _
    rw [Host.runCommand]
    split <;> rfl

/-! ## Events -/

/-- The event of one address. -/
theorem ruleProgramming_rulesMatch {af : Af} {skipped : Str → Bool} {e : IpEvent af} {isAdd : Bool}
    {t : VrfTool} (ht : RulesMatch t) : RulesMatch (ruleProgramming skipped e isAdd t).2 := by
  rw [ruleProgramming]
  split
  · rename_i vrf _ ip _ _ _
    obtain ⟨ip, haf⟩ := ip
    subst haf
    split
    · exact ht
    have hread : RulesMatch (if decide (vrf = "management".toList) then t
        else t.setHost t.host.readInterfaces.2) := by
      split
      · exact ht
      · exact ht.of_eq rfl rfl rfl
    dsimp only
    generalize (if decide (vrf = "management".toList) then t
      else t.setHost t.host.readInterfaces.2) = t' at hread ⊢
    split
    · exact hread
    split
    · exact hread
    split
    · exact hread
    · rename_i hchange
      exact setIpRule_rulesMatch hread hchange
  · exact ht

/-! ## Runs -/

theorem init_rulesMatch {env : Env} (hw : (init env).host.Willing .jump) :
    RulesMatch (init env) :=
  ⟨hw, fun _ _ _ => ⟨fun h => absurd h (AList.notMem_empty _),
    fun h => absurd h.2 List.not_mem_nil⟩, List.nodup_nil⟩

/-- What a call keeps. -/
theorem ruleStep_rulesMatch (t : VrfTool) (q : RuleRequest) (ht : RulesMatch t)
    (hok : InterfacesSorted t q) : RulesMatch (ruleStep t q) := by
  cases q with
  | setUp vrf isAdd => exact ipSvcsIptableRuleSetup_rulesMatch ht hok
  | ipv4 e isAdd => exact ruleProgramming_rulesMatch ht
  | ipv6 e isAdd => exact ruleProgramming_rulesMatch ht
  | subNets m => exact ht.of_eq rfl rfl rfl

/-- As long as the commands for rules succeed and the interfaces list their
IPv4 addresses first, an address has its key when its rule is installed by the
tool of its family, and no key of the other family. -/
theorem ipSvcsRules_match {env : Env} {requests : List RuleRequest}
    (hw : (init env).host.Willing .jump)
    (hok : Along ruleStep InterfacesSorted (init env) requests) (vrf : Str) (af : Af)
    (ip : IpAddr) :
    addrKey vrf af ip.text ∈ (run ruleStep (init env) requests).vrfIpServiceIpAddr ↔
      af = ip.af ∧
        ⟨vrf, ip.af, ip.text⟩ ∈ (run ruleStep (init env) requests).host.kernel.jumps :=
  (run_preserves ruleStep_rulesMatch (init_rulesMatch hw) hok).key_iff vrf af ip

/-- A host with one macvlan interface. -/
def macvlanEnv (answers : CmdKind → Stream' Bool) (ips : List IpAddr) : Env :=
  { Env.steady answers with interfaces := .const [⟨1, ips⟩] }

theorem ipSvcsRules_match_small :
    (⟨"blue".toList, .inet, sampleIpv4.text⟩ : Jump) ∈
      (run ruleStep (init (macvlanEnv (fun _ => .const true) [sampleIpv4, sampleIpv6]))
        [.setUp "blue".toList true]).host.kernel.jumps := by
  have hok : Along ruleStep InterfacesSorted
      (init (macvlanEnv (fun _ => .const true) [sampleIpv4, sampleIpv6]))
      [.setUp "blue".toList true] := by
    refine ⟨fun _ line hline _ => ?_, trivial⟩
    rw [List.mem_singleton.mp hline]
    exact List.pairwise_pair.mpr fun h => absurd h (by decide)
  exact ((ipSvcsRules_match (fun _ => rfl) hok "blue".toList .inet sampleIpv4).mp
    (by decide +kernel)).2

/-- An IPv4 address behind an IPv6 one is taken for an IPv6 address, and a
command that fails leaves its key. -/
theorem ipSvcsRules_differ :
    let t := run ruleStep (init (macvlanEnv (fun _ => .const true) [sampleIpv6, sampleIpv4]))
      [.setUp "blue".toList true]
    let t' := run ruleStep (init (macvlanEnv (fun _ => .const false) [sampleIpv4]))
      [.setUp "blue".toList true]
    (addrKey "blue".toList .inet6 sampleIpv4.text ∈ t.vrfIpServiceIpAddr ∧
        ⟨"blue".toList, .inet, sampleIpv4.text⟩ ∉ t.host.kernel.jumps ∧
        ⟨"blue".toList, .inet6, sampleIpv4.text⟩ ∈ t.host.kernel.jumps) ∧
      addrKey "blue".toList .inet sampleIpv4.text ∈ t'.vrfIpServiceIpAddr ∧
        ⟨"blue".toList, .inet, sampleIpv4.text⟩ ∉ t'.host.kernel.jumps := by
  decide +kernel

end VrfTool

end OpxNasLinux
