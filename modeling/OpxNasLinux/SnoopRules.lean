import OpxNasLinux.Host
import OpxNasLinux.Lib.Report

/-!
# The rules of multicast snooping

`snoop_update_global_rules` of `dn_base_mcast_snoop.py` installs and removes
the rules that keep the kernel from flooding the reports of hosts: a chain for
the protocol and a rule that leads there, rules of the bridge, and a switch of
the bridge.

* `Shell` runs the commands and writes the switch, and may let any of them
  fail.  `Truthful` is what `iptables` and `ebtables` say about the rules.
* `World` keeps the steps that a removal has attempted.
* `JumpFound`, `ChainGoes`, `BridgeListed` and `BridgeGoes` are about what the
  shell answers to the commands of a removal.
* `snoop_update_global_rules_iff` says when the result can be trusted.  The
  removal of the chain has a result of its own, and the removal of the rules of
  the bridge overwrites it.  Nobody looks at the exit status of the listing that
  shows these rules.
-/

namespace OpxNasLinux

open Report

namespace Snoop

/-! ## The rules -/

/-- `IGMP_CHAIN_NAME`. -/
def igmpChainName : Str := "IGMPSNOOP ".toList

/-- `MLD_CHAIN_NAME`. -/
def mldChainName : Str := " MLDSNOOP ".toList

def igmpAddRules : List Str :=
  ["-p igmp -m u32 --u32 0>>22&0x3C@0>>16&0xFF00=0x1200 -j ACCEPT",
    "-p igmp -m u32 --u32 0>>22&0x3C@0>>16&0xFF00=0x1600 -j ACCEPT",
    "-p igmp -m u32 --u32 0>>22&0x3C@0>>16&0xFF00=0x1700 -j ACCEPT",
    "-p igmp -m u32 --u32 0>>22&0x3C@0>>16&0xFF00=0x2200 -j ACCEPT",
    "-p igmp -m u32 --u32 0>>22&0x3C@0>>16&0xFF00=0x1100 ! -d 224.0.0.1 -j ACCEPT",
    "-j MARK --set-mark 0"].map fun rule => igmpChainName ++ rule.toList

def mldAddRules : List Str :=
  ["-p icmpv6 -m icmp6 --icmpv6-type 131 -j ACCEPT",
    "-p icmpv6 -m icmp6 --icmpv6-type 132 -j ACCEPT",
    "-p icmpv6 -m icmp6 --icmpv6-type 143 -j ACCEPT",
    "-p icmpv6 -m icmp6 --icmpv6-type 130 ! -d ff02::01 -j ACCEPT",
    "-p icmpv6 -j MARK --set-mark 0"].map fun rule => mldChainName ++ rule.toList

def igmpPrerouteRule : Str := " PREROUTING -m mark --mark 0x64 -j ".toList ++ igmpChainName

def mldPrerouteRule : Str := " PREROUTING -m mark --mark 0x64 -j ".toList ++ mldChainName

def igmpGlobalEbtableRule : List Str := ["-p IPv4 --ip-proto igmp --mark 0x1 -j ACCEPT".toList]

def mldGlobalEbtableRule : List Str :=
  ["-p IPv6 --ip6-proto ipv6-icmp --ip6-icmp-type 132/0:255 --mark 0x1 -j ACCEPT".toList,
    "-p IPv6 --ip6-proto ipv6-icmp --ip6-icmp-type 131/0:255 --mark 0x1 -j ACCEPT".toList,
    "-p IPv6 --ip6-proto ipv6-icmp --ip6-icmp-type 130/0:255 --mark 0x1 -j ACCEPT".toList,
    "-p IPv6 --ip6-proto ipv6-icmp --ip6-icmp-type 143/0:255 --mark 0x1 -j ACCEPT".toList]

/-! ## Commands -/

/-- A command.  `tool` is `iptables` for `inet` and `ip6tables` for `inet6`, and
a rule starts with the name of its chain. -/
inductive Cmd where
  /-- `tool -t raw -N chain`. -/
  | newChain (tool : Af) (chain : Str)
  /-- `tool -t raw -C rule`. -/
  | check (tool : Af) (rule : Str)
  /-- `tool -t raw -A rule`. -/
  | append (tool : Af) (rule : Str)
  /-- `tool -t raw -D rule`. -/
  | delete (tool : Af) (rule : Str)
  /-- `tool -t raw -F chain`. -/
  | flush (tool : Af) (chain : Str)
  /-- `tool -t raw -X chain`. -/
  | dropChain (tool : Af) (chain : Str)
  /-- `ebtables -t nat -L POSTROUTING`. -/
  | ebtList
  /-- `ebtables -t nat -I POSTROUTING rule`. -/
  | ebtInsert (rule : Str)
  /-- `ebtables -t nat -D POSTROUTING rule`. -/
  | ebtDelete (rule : Str)
deriving DecidableEq

/-- What runs the commands.  `run` gives the exit status, which is -1 when the
command could not be started, and the lines that were printed.  `update` writes
`bridge-nf-call-iptables`, or `bridge-nf-call-ip6tables` for `inet6`, and says
whether that succeeded. -/
structure Shell (H : Type) where
  run : Cmd → H → (ℤ × List Str) × H
  update : Af → ℕ → H → Bool × H

/-- A step of a removal. -/
inductive Act where
  | cmd (c : Cmd)
  | update (tool : Af) (value : ℕ)
deriving DecidableEq

/-- The host, with the steps of a removal that were attempted. -/
structure World (H : Type) where
  host : H
  steps : List (Step Act)

section

variable {H : Type} (sh : Shell H)

/-- `run_command`, for a command that changes nothing or adds something. -/
def runCommand (c : Cmd) (w : World H) : (ℤ × List Str) × World H :=
  ((sh.run c w.host).1, { w with host := (sh.run c w.host).2 })

/-- `run_command`, for a command that removes something, or lists what there is
to remove. -/
def runRemoval (c : Cmd) (w : World H) : (ℤ × List Str) × World H :=
  ((sh.run c w.host).1,
    { host := (sh.run c w.host).2
      steps := w.steps ++ [⟨.cmd c, decide ((sh.run c w.host).1.1 = 0)⟩] })

/-- `_update_file_system` for the switch of the bridge. -/
def updateSwitch (tool : Af) (value : ℕ) (w : World H) : Bool × World H :=
  ((sh.update tool value w.host).1,
    { host := (sh.update tool value w.host).2
      steps := w.steps ++ [⟨.update tool value, (sh.update tool value w.host).1⟩] })

/-! ## The functions for the bridge -/

/-- The loop of `add_ebtable_rules`.  `res` has the listing, and what the
commands have printed since. -/
def addRules : List Str → List Str → World H → Bool × World H
  | [], _, w => (true, w)
  | rule :: rest, res, w =>
    if rule ∈ res then addRules rest res w
    else
      let r := runCommand sh (.ebtInsert rule) w
      let later := addRules rest (res ++ r.1.2) r.2
      (decide (r.1.1 = 0) && later.1, later.2)

/-- `add_ebtable_rules`. -/
def addEbtableRules (rules : List Str) (w : World H) : Bool × World H :=
  let r := runCommand sh .ebtList w
  addRules sh rules r.1.2 r.2

/-- The loop of `remove_ebtables_rules`. -/
def removeRules : List Str → List Str → World H → Bool × World H
  | [], _, w => (true, w)
  | rule :: rest, res, w =>
    if rule ∈ res then
      let r := runRemoval sh (.ebtDelete rule) w
      let later := removeRules rest (res ++ r.1.2) r.2
      (decide (r.1.1 = 0) && later.1, later.2)
    else removeRules rest res w

/-- `remove_ebtables_rules`. -/
def removeEbtablesRules (rules : List Str) (w : World H) : Bool × World H :=
  let r := runRemoval sh .ebtList w
  removeRules sh rules r.1.2 r.2

/-! ## The functions for the chain -/

/-- A rule is added when the check does not find it. -/
def ensureRule (tool : Af) (rule : Str) (w : World H) : Bool × World H :=
  let c := runCommand sh (.check tool rule) w
  if c.1.1 ≠ 0 then
    let a := runCommand sh (.append tool rule) c.2
    (decide (a.1.1 = 0), a.2)
  else (true, c.2)

/-- The loop of `snoop_create_iptables_chain`. -/
def ensureRules (tool : Af) : List Str → World H → Bool × World H
  | [], w => (true, w)
  | rule :: rest, w =>
    let r := ensureRule sh tool rule w
    let later := ensureRules tool rest r.2
    (r.1 && later.1, later.2)

/-- `iptables` or `ip6tables`. -/
def toolOf (isIgmp : Bool) : Af := if isIgmp then .inet else .inet6

def chainName (isIgmp : Bool) : Str := if isIgmp then igmpChainName else mldChainName

def addRulesOf (isIgmp : Bool) : List Str := if isIgmp then igmpAddRules else mldAddRules

def prerouteRule (isIgmp : Bool) : Str := if isIgmp then igmpPrerouteRule else mldPrerouteRule

def globalEbtableRule (isIgmp : Bool) : List Str :=
  if isIgmp then igmpGlobalEbtableRule else mldGlobalEbtableRule

/-- `snoop_create_iptables_chain`.  The chain may be there already, so the
result of the first command is not looked at. -/
def snoopCreateIptablesChain (isIgmp : Bool) (chain : Str) (w : World H) : Bool × World H :=
  ensureRules sh (toolOf isIgmp) (addRulesOf isIgmp)
    (runCommand sh (.newChain (toolOf isIgmp) chain) w).2

/-- `snoop_delete_iptables_chain`. -/
def snoopDeleteIptablesChain (isIgmp : Bool) (chain : Str) (w : World H) : Bool × World H :=
  let f := runRemoval sh (.flush (toolOf isIgmp) chain) w
  let x := runRemoval sh (.dropChain (toolOf isIgmp) chain) f.2
  (decide (f.1.1 = 0) && decide (x.1.1 = 0), x.2)

/-- `snoop_bridge_nf_iptables_enable`. -/
def snoopBridgeNfIptablesEnable (isIgmp : Bool) (w : World H) : Bool × World H :=
  updateSwitch sh (toolOf isIgmp) 1 w

/-- `snoop_bridge_nf_iptables_disable`. -/
def snoopBridgeNfIptablesDisable (isIgmp : Bool) (w : World H) : Bool × World H :=
  updateSwitch sh (toolOf isIgmp) 0 w

/-! ## The requests -/

/-- `snoop_add_rule_chain`. -/
def snoopAddRuleChain (isIgmp : Bool) (w : World H) : Bool × World H :=
  match snoopCreateIptablesChain sh isIgmp (chainName isIgmp) w with
  | (false, w) => (false, w)
  | (true, w) =>
    match ensureRule sh (toolOf isIgmp) (prerouteRule isIgmp) w with
    | (false, w) => (false, w)
    | (true, w) =>
      match addEbtableRules sh (globalEbtableRule isIgmp) w with
      | (false, w) => (false, w)
      | (true, w) => snoopBridgeNfIptablesEnable sh isIgmp w

/-- `snoop_remove_rule_chain` as far as the chain: the rule that leads there is
deleted when the check finds it, and the chain only if that succeeded. -/
def removeChain (isIgmp : Bool) (w : World H) : Bool × World H :=
  let c := runCommand sh (.check (toolOf isIgmp) (prerouteRule isIgmp)) w
  if c.1.1 = 0 then
    let d := runRemoval sh (.delete (toolOf isIgmp) (prerouteRule isIgmp)) c.2
    if d.1.1 = 0 then snoopDeleteIptablesChain sh isIgmp (chainName isIgmp) d.2 else (false, d.2)
  else snoopDeleteIptablesChain sh isIgmp (chainName isIgmp) c.2

/-- `snoop_remove_rule_chain` from the rules of the bridge on. -/
def removeBridge (isIgmp : Bool) (w : World H) : Bool × World H :=
  match removeEbtablesRules sh (globalEbtableRule isIgmp) w with
  | (false, w) => (false, w)
  | (true, w) => snoopBridgeNfIptablesDisable sh isIgmp w

/-- `snoop_remove_rule_chain`.  The result for the chain is overwritten. -/
def snoopRemoveRuleChain (isIgmp : Bool) (w : World H) : Bool × World H :=
  removeBridge sh isIgmp (removeChain sh isIgmp w).2

/-- `snoop_update_global_rules`. -/
def snoopUpdateGlobalRules (isIgmp : Bool) (status : ℤ) (w : World H) : Bool × World H :=
  if status = 1 then snoopAddRuleChain sh isIgmp w
  else if status = 0 then snoopRemoveRuleChain sh isIgmp w
  else (false, w)

end

/-! ## The commands of a removal -/

section

variable {H : Type} (sh : Shell H)

/-- The commands exit with 0, each on the host that the one before has left. -/
def Exits : List Cmd → H → Prop
  | [], _ => True
  | c :: rest, h => (sh.run c h).1.1 = 0 ∧ Exits rest (sh.run c h).2

instance Exits.decidable : ∀ (cs : List Cmd) (h : H), Decidable (Exits sh cs h)
  | [], _ => inferInstanceAs (Decidable True)
  | c :: rest, h =>
    have := Exits.decidable rest (sh.run c h).2
    inferInstanceAs (Decidable ((sh.run c h).1.1 = 0 ∧ Exits sh rest (sh.run c h).2))

/-- The host after commands. -/
def hostAfter : List Cmd → H → H
  | [], h => h
  | c :: rest, h => hostAfter rest (sh.run c h).2

/-- The rule that leads to the chain is deleted when the check finds it. -/
def jumpCmds (isIgmp : Bool) (h : H) : List Cmd :=
  if (sh.run (.check (toolOf isIgmp) (prerouteRule isIgmp)) h).1.1 = 0 then
    [.delete (toolOf isIgmp) (prerouteRule isIgmp)]
  else []

/-- The chain is flushed and deleted. -/
def chainCmds (isIgmp : Bool) : List Cmd :=
  [.flush (toolOf isIgmp) (chainName isIgmp), .dropChain (toolOf isIgmp) (chainName isIgmp)]

/-- The host after the check. -/
def hostChecked (isIgmp : Bool) (h : H) : H :=
  (sh.run (.check (toolOf isIgmp) (prerouteRule isIgmp)) h).2

/-- The chain goes, and the rule that leads there. -/
def ChainGoes (isIgmp : Bool) (h : H) : Prop :=
  Exits sh (jumpCmds sh isIgmp h ++ chainCmds isIgmp) (hostChecked sh isIgmp h)

instance (isIgmp : Bool) (h : H) : Decidable (ChainGoes sh isIgmp h) :=
  inferInstanceAs (Decidable (Exits sh _ _))

/-- The host when the bridge gets its turn.  The chain is left alone when the
rule that leads there cannot be deleted. -/
def hostUnchained (isIgmp : Bool) (h : H) : H :=
  if Exits sh (jumpCmds sh isIgmp h) (hostChecked sh isIgmp h) then
    hostAfter sh (jumpCmds sh isIgmp h ++ chainCmds isIgmp) (hostChecked sh isIgmp h)
  else hostAfter sh (jumpCmds sh isIgmp h) (hostChecked sh isIgmp h)

/-- The rules of the bridge can be listed. -/
def BridgeListed (h : H) : Prop := (sh.run .ebtList h).1.1 = 0

instance (h : H) : Decidable (BridgeListed sh h) := inferInstanceAs (Decidable (_ = _))

/-- The rules of the bridge that are shown go, and the switch is written. -/
def RulesGo (isIgmp : Bool) : List Str → List Str → H → Prop
  | [], _, h => (sh.update (toolOf isIgmp) 0 h).1 = true
  | rule :: rest, res, h =>
    if rule ∈ res then
      (sh.run (.ebtDelete rule) h).1.1 = 0 ∧
        RulesGo isIgmp rest (res ++ (sh.run (.ebtDelete rule) h).1.2) (sh.run (.ebtDelete rule) h).2
    else RulesGo isIgmp rest res h

/-- The rules of the bridge go, those that the listing shows. -/
def BridgeGoes (isIgmp : Bool) (h : H) : Prop :=
  RulesGo sh isIgmp (globalEbtableRule isIgmp) (sh.run .ebtList h).1.2 (sh.run .ebtList h).2

end

section

variable {H : Type} {sh : Shell H}

/-- The part of the code about the chain says whether that goes. -/
theorem removeChain_spec (isIgmp : Bool) (w : World H) :
    ((removeChain sh isIgmp w).1 = true ↔ ChainGoes sh isIgmp w.host) ∧
      (removeChain sh isIgmp w).2.host = hostUnchained sh isIgmp w.host := by
  have hdrop : ∀ w' : World H,
      (snoopDeleteIptablesChain sh isIgmp (chainName isIgmp) w').1 = true ↔
        Exits sh (chainCmds isIgmp) w'.host := by
    intro w'
    rw [snoopDeleteIptablesChain, Bool.and_eq_true, decide_eq_true_iff, decide_eq_true_iff]
    exact and_congr Iff.rfl (iff_of_eq (and_true _)).symm
  rw [ChainGoes, hostUnchained, jumpCmds, removeChain]
  by_cases hfound : (sh.run (.check (toolOf isIgmp) (prerouteRule isIgmp)) w.host).1.1 = 0
  · have hfound' : (runCommand sh (.check (toolOf isIgmp) (prerouteRule isIgmp)) w).1.1 = 0 :=
      hfound
    simp only [if_pos hfound, if_pos hfound']
    split
    · rename_i hdeleted
      have hexit : Exits sh [.delete (toolOf isIgmp) (prerouteRule isIgmp)]
          (hostChecked sh isIgmp w.host) := ⟨hdeleted, trivial⟩
      rw [if_pos hexit]
      exact ⟨(hdrop _).trans (and_iff_right hdeleted).symm, rfl⟩
    · rename_i hfailed
      have hexit : ¬ Exits sh [.delete (toolOf isIgmp) (prerouteRule isIgmp)]
          (hostChecked sh isIgmp w.host) := fun h => hfailed h.1
      rw [if_neg hexit]
      exact ⟨iff_of_false Bool.false_ne_true fun h => hfailed h.1, rfl⟩
  · have hfound' : ¬ (runCommand sh (.check (toolOf isIgmp) (prerouteRule isIgmp)) w).1.1 = 0 :=
      hfound
    simp only [if_neg hfound, if_neg hfound']
    have hexit : Exits sh [] (hostChecked sh isIgmp w.host) := trivial
    rw [if_pos hexit]
    exact ⟨hdrop _, rfl⟩

theorem rulesGo_iff (isIgmp : Bool) (rules res : List Str) (w : World H) :
    RulesGo sh isIgmp rules res w.host ↔ (removeRules sh rules res w).1 = true ∧
      (snoopBridgeNfIptablesDisable sh isIgmp (removeRules sh rules res w).2).1 = true := by
  induction rules generalizing res w with
  | nil => exact (and_iff_right rfl).symm
  | cons rule rest ih =>
    rw [RulesGo, removeRules]
    split
    · rw [Bool.and_eq_true, decide_eq_true_iff, and_assoc]
      exact and_congr Iff.rfl (ih _ (runRemoval sh (.ebtDelete rule) w).2)
    · exact ih res w

/-- The part of the code about the bridge says whether that goes. -/
theorem removeBridge_iff (isIgmp : Bool) (w : World H) :
    (removeBridge sh isIgmp w).1 = true ↔ BridgeGoes sh isIgmp w.host := by
  have hrules : BridgeGoes sh isIgmp w.host ↔
      (removeEbtablesRules sh (globalEbtableRule isIgmp) w).1 = true ∧
        (snoopBridgeNfIptablesDisable sh isIgmp
          (removeEbtablesRules sh (globalEbtableRule isIgmp) w).2).1 = true :=
    rulesGo_iff isIgmp _ _ (runRemoval sh .ebtList w).2
  rw [hrules, removeBridge]
  split
  · rename_i w' heq
    rw [heq]
    exact iff_of_false Bool.false_ne_true fun h => Bool.false_ne_true h.1
  · rename_i w' heq
    rw [heq]
    exact (and_iff_right rfl).symm

end

/-! ## The steps of a removal -/

/-- The code has attempted more steps, and its report of them is exact. -/
def Reports {H : Type} (w : World H) (r : Bool × World H) : Prop :=
  ∃ steps, r.2.steps = w.steps ++ steps ∧ Exact r.1 steps

section

variable {H : Type} {sh : Shell H}

/-- Nothing was attempted. -/
theorem Reports.none {w w' : World H} (h : w'.steps = w.steps) : Reports w (true, w') :=
  ⟨[], by rw [h, List.append_nil], exact_nil⟩

/-- One step was attempted. -/
theorem Reports.single {w w' : World H} {act : Act} {ok : Bool}
    (h : w'.steps = w.steps ++ [⟨act, ok⟩]) : Reports w (ok, w') :=
  ⟨_, h, exact_single act ok⟩

/-- Reports of parts that are and-ed. -/
theorem Reports.and {w : World H} {r r' : Bool × World H} (h : Reports w r)
    (h' : Reports r.2 r') : Reports w (r.1 && r'.1, r'.2) := by
  obtain ⟨steps, heq, hex⟩ := h
  obtain ⟨steps', heq', hex'⟩ := h'
  refine ⟨steps ++ steps', ?_, hex.and hex'⟩
  rw [heq', heq, List.append_assoc]

/-- What was attempted before starts where a command has left off. -/
theorem Reports.after {w w' : World H} {r : Bool × World H} (hsteps : w'.steps = w.steps)
    (h : Reports w' r) : Reports w r := by
  obtain ⟨steps, heq, hrest⟩ := h
  exact ⟨steps, hsteps ▸ heq, hrest⟩

theorem runRemoval_reports (c : Cmd) (w : World H) :
    Reports w (decide ((runRemoval sh c w).1.1 = 0), (runRemoval sh c w).2) :=
  Reports.single rfl

theorem removeRules_reports (rules res : List Str) (w : World H) :
    Reports w (removeRules sh rules res w) := by
  induction rules generalizing res w with
  | nil => exact .none rfl
  | cons rule rest ih =>
    rw [removeRules]
    split
    · exact (runRemoval_reports (.ebtDelete rule) w).and (ih _ _)
    · exact ih res w

/-- The report about the bridge leaves the listing out. -/
theorem removeBridge_reports (isIgmp : Bool) (w : World H) :
    Reports (runRemoval sh .ebtList w).2 (removeBridge sh isIgmp w) := by
  have hrules : Reports (runRemoval sh .ebtList w).2
      (removeEbtablesRules sh (globalEbtableRule isIgmp) w) := removeRules_reports _ _ _
  rw [removeBridge]
  split
  · rename_i w' heq
    rwa [heq] at hrules
  · rename_i w' heq
    rw [heq] at hrules
    have hswitch : Reports w' (snoopBridgeNfIptablesDisable sh isIgmp w') := .single rfl
    exact hrules.and hswitch

theorem snoopDeleteIptablesChain_reports (isIgmp : Bool) (chain : Str) (w : World H) :
    Reports w (snoopDeleteIptablesChain sh isIgmp chain w) :=
  (runRemoval_reports (.flush (toolOf isIgmp) chain) w).and
    (runRemoval_reports (.dropChain (toolOf isIgmp) chain) _)

theorem removeChain_reports (isIgmp : Bool) (w : World H) :
    Reports w (removeChain sh isIgmp w) := by
  have hcheck : (runCommand sh (.check (toolOf isIgmp) (prerouteRule isIgmp)) w).2.steps =
      w.steps := rfl
  rw [removeChain]
  dsimp only
  split
  · refine .after hcheck ?_
    have hdelete := @runRemoval_reports _ sh (.delete (toolOf isIgmp) (prerouteRule isIgmp))
      (runCommand sh (.check (toolOf isIgmp) (prerouteRule isIgmp)) w).2
    split
    · rename_i hok
      rw [decide_eq_true hok] at hdelete
      exact hdelete.and (snoopDeleteIptablesChain_reports isIgmp _ _)
    · rename_i hfail
      rwa [decide_eq_false hfail] at hdelete
  · exact .after hcheck (snoopDeleteIptablesChain_reports isIgmp _ _)

/-- A removal returns `True` when the rules of the bridge go that are shown. -/
theorem snoopRemoveRuleChain_iff (isIgmp : Bool) (h : H) :
    (snoopRemoveRuleChain sh isIgmp ⟨h, []⟩).1 = true ↔
      BridgeGoes sh isIgmp (hostUnchained sh isIgmp h) := by
  have hhost := (@removeChain_spec _ sh isIgmp ⟨h, []⟩).2
  rw [← hhost]
  exact removeBridge_iff isIgmp _

/-- The result of a removal is right exactly when the chain goes and the rules of
the bridge can be listed, or these rules do not go. -/
theorem snoopRemoveRuleChain_honest_iff (isIgmp : Bool) (h : H) :
    let r := snoopRemoveRuleChain sh isIgmp ⟨h, []⟩
    Honest r.1 r.2.steps ↔
      (ChainGoes sh isIgmp h ∧ BridgeListed sh (hostUnchained sh isIgmp h)) ∨
        ¬ BridgeGoes sh isIgmp (hostUnchained sh isIgmp h) := by
  intro r
  obtain ⟨hgoes, hhost⟩ := @removeChain_spec _ sh isIgmp ⟨h, []⟩
  obtain ⟨chain, hchain, hexact⟩ := @removeChain_reports _ sh isIgmp ⟨h, []⟩
  let unchained := (removeChain sh isIgmp ⟨h, []⟩).2
  obtain ⟨bridge, hbridge, hexact'⟩ := @removeBridge_reports _ sh isIgmp unchained
  let listing : Step Act := ⟨.cmd .ebtList, decide ((sh.run .ebtList unchained.host).1.1 = 0)⟩
  have hsteps : r.2.steps = (chain ++ [listing]) ++ bridge := by
    have hlist : (runRemoval sh .ebtList unchained).2.steps = unchained.steps ++ [listing] := rfl
    rw [hlist, hchain, List.nil_append] at hbridge
    exact hbridge
  have hlast : Honest r.1 ((chain ++ [listing]) ++ bridge) ↔
      AllOk (chain ++ [listing]) ∨ ¬ AllOk bridge := honest_last_iff hexact'
  have hlisted : AllOk [listing] ↔ BridgeListed sh unchained.host :=
    (exact_single _ _).symm.trans decide_eq_true_iff
  rw [hsteps, hlast, allOk_append, hlisted, ← hhost]
  exact or_congr (and_congr_left' (hexact.symm.trans hgoes))
    (not_congr (hexact'.symm.trans (removeBridge_iff _ _)))

end

/-! ## The rules after an addition -/

/-- A rule of the host. -/
inductive Rule where
  /-- A rule of the `raw` table of `iptables`, or of `ip6tables` for `inet6`. -/
  | ipt (tool : Af) (rule : Str)
  /-- A rule of the chain `POSTROUTING` of the `nat` table of `ebtables`. -/
  | ebt (rule : Str)
deriving DecidableEq

/-- The rules that a protocol needs. -/
def needed (isIgmp : Bool) : List Rule :=
  (addRulesOf isIgmp).map (.ipt (toolOf isIgmp)) ++
    ([.ipt (toolOf isIgmp) (prerouteRule isIgmp)] ++ (globalEbtableRule isIgmp).map .ebt)

/-- The line of a listing is that of a rule. -/
def isRuleLine (line : Str) : Bool := "-p ".toList.isPrefixOf line

def Cmd.removes : Cmd → Bool
  | .delete _ _ | .flush _ _ | .dropChain _ _ | .ebtDelete _ => true
  | _ => false

/-- What the commands say about the rules: a check and a listing find rules that
are there, a rule that is added without an error is there, and only a removal
takes rules away. -/
structure Truthful {H : Type} (sh : Shell H) (has : H → Rule → Prop) : Prop where
  check : ∀ tool rule h, (sh.run (.check tool rule) h).1.1 = 0 → has h (.ipt tool rule)
  append : ∀ tool rule h, (sh.run (.append tool rule) h).1.1 = 0 →
    has (sh.run (.append tool rule) h).2 (.ipt tool rule)
  insert : ∀ rule h, (sh.run (.ebtInsert rule) h).1.1 = 0 →
    has (sh.run (.ebtInsert rule) h).2 (.ebt rule)
  listed : ∀ h, ∀ line ∈ (sh.run .ebtList h).1.2, isRuleLine line = true → has h (.ebt line)
  silent : ∀ rule h, ∀ line ∈ (sh.run (.ebtInsert rule) h).1.2, isRuleLine line = false
  keeps : ∀ c h rule, c.removes = false → has h rule → has (sh.run c h).2 rule
  keepsUpdate : ∀ tool value h rule, has h rule → has (sh.update tool value h).2 rule

/-- No rule is lost, and the rules are there when the report says so. -/
structure Adds {H : Type} (has : H → Rule → Prop) (rules : List Rule) (w : World H)
    (r : Bool × World H) : Prop where
  kept : ∀ rule, has w.host rule → has r.2.host rule
  there : r.1 = true → ∀ rule ∈ rules, has r.2.host rule

section

variable {H : Type} {sh : Shell H} {has : H → Rule → Prop} {rules rules' : List Rule}
  {w : World H} {r r' : Bool × World H}

/-- A part that fails is the end. -/
theorem Adds.stop (h : Adds has rules w r) (hfail : r.1 = false) :
    Adds has (rules ++ rules') w r :=
  ⟨h.kept, fun htrue => absurd (htrue.symm.trans hfail) (by simp)⟩

/-- A part that succeeds is followed by another one. -/
theorem Adds.next (h : Adds has rules w r) (htrue : r.1 = true) (h' : Adds has rules' r.2 r') :
    Adds has (rules ++ rules') w r' := by
  refine ⟨fun rule hrule => h'.kept rule (h.kept rule hrule), fun htrue' rule hrule => ?_⟩
  rcases List.mem_append.mp hrule with hrule | hrule
  · exact h'.kept rule (h.there htrue rule hrule)
  · exact h'.there htrue' rule hrule

/-- Reports of parts that are and-ed. -/
theorem Adds.and (h : Adds has rules w r) (h' : Adds has rules' r.2 r') :
    Adds has (rules ++ rules') w (r.1 && r'.1, r'.2) := by
  cases hr : r.1 with
  | true => exact h.next hr h'
  | false => exact ⟨fun rule hrule => h'.kept rule (h.kept rule hrule), fun hf => by cases hf⟩

theorem ensureRule_adds (spec : Truthful sh has) (tool : Af) (rule : Str) (w : World H) :
    Adds has [.ipt tool rule] w (ensureRule sh tool rule w) := by
  have hcheck : ∀ rule', has w.host rule' →
      has (sh.run (.check tool rule) w.host).2 rule' := fun rule' => spec.keeps _ _ rule' rfl
  rw [ensureRule]
  split
  · refine ⟨fun rule' hrule' => spec.keeps _ _ rule' rfl (hcheck rule' hrule'), fun hok => ?_⟩
    exact List.forall_mem_singleton.mpr (spec.append tool rule _ (of_decide_eq_true hok))
  · rename_i hfound
    refine ⟨hcheck, fun _ => List.forall_mem_singleton.mpr (hcheck _ ?_)⟩
    exact spec.check tool rule w.host (not_not.mp hfound)

theorem ensureRules_adds (spec : Truthful sh has) (tool : Af) (rules : List Str) (w : World H) :
    Adds has (rules.map (.ipt tool)) w (ensureRules sh tool rules w) := by
  induction rules generalizing w with
  | nil => exact ⟨fun _ hrule => hrule, fun _ => List.forall_mem_nil _⟩
  | cons rule rest ih => exact (ensureRule_adds spec tool rule w).and (ih _)

/-- The loop over the rules of the bridge.  The lines so far show rules that are
there. -/
theorem addRules_adds (spec : Truthful sh has) {rules res : List Str} {w : World H}
    (hrules : ∀ rule ∈ rules, isRuleLine rule = true)
    (hres : ∀ line ∈ res, isRuleLine line = true → has w.host (.ebt line)) :
    Adds has (rules.map .ebt) w (addRules sh rules res w) := by
  induction rules generalizing res w with
  | nil => exact ⟨fun _ hrule => hrule, fun _ => List.forall_mem_nil _⟩
  | cons rule rest ih =>
    obtain ⟨hrule, hrest⟩ := List.forall_mem_cons.mp hrules
    rw [addRules]
    split
    · rename_i hlisted
      have hone : Adds has [.ebt rule] w (true, w) :=
        ⟨fun _ h => h, fun _ => List.forall_mem_singleton.mpr (hres rule hlisted hrule)⟩
      exact hone.next rfl (ih hrest hres)
    · have hkept : ∀ rule', has w.host rule' → has (sh.run (.ebtInsert rule) w.host).2 rule' :=
        fun rule' => spec.keeps _ _ rule' rfl
      have hone : Adds has [.ebt rule] w (decide ((runCommand sh (.ebtInsert rule) w).1.1 = 0),
          (runCommand sh (.ebtInsert rule) w).2) := by
        refine ⟨hkept, fun hok => List.forall_mem_singleton.mpr ?_⟩
        exact spec.insert rule w.host (of_decide_eq_true hok)
      refine hone.and (ih hrest fun line hline hshown => ?_)
      -- a command that inserts prints no rule
      rcases List.mem_append.mp hline with hline | hline
      · exact hkept _ (hres line hline hshown)
      · rw [spec.silent rule w.host line hline] at hshown
        cases hshown

theorem addEbtableRules_adds (spec : Truthful sh has) (isIgmp : Bool) (w : World H) :
    Adds has ((globalEbtableRule isIgmp).map .ebt) w
      (addEbtableRules sh (globalEbtableRule isIgmp) w) := by
  have hlines : ∀ rule ∈ globalEbtableRule isIgmp, isRuleLine rule = true := by
    cases isIgmp <;> decide
  have hkept : ∀ rule, has w.host rule → has (sh.run .ebtList w.host).2 rule :=
    fun rule => spec.keeps _ _ rule rfl
  have hloop := @addRules_adds _ sh has spec _ (runCommand sh .ebtList w).1.2
    (runCommand sh .ebtList w).2 hlines fun line hline hshown =>
      hkept _ (spec.listed w.host line hline hshown)
  exact ⟨fun rule hrule => hloop.kept rule (hkept rule hrule), hloop.there⟩

theorem snoopCreateIptablesChain_adds (spec : Truthful sh has) (isIgmp : Bool) (chain : Str)
    (w : World H) :
    Adds has ((addRulesOf isIgmp).map (.ipt (toolOf isIgmp))) w
      (snoopCreateIptablesChain sh isIgmp chain w) := by
  have hloop := ensureRules_adds spec (toolOf isIgmp) (addRulesOf isIgmp)
    (runCommand sh (.newChain (toolOf isIgmp) chain) w).2
  exact ⟨fun rule hrule => hloop.kept rule (spec.keeps _ _ rule rfl hrule), hloop.there⟩

/-- The result of an addition is right. -/
theorem snoopAddRuleChain_adds (spec : Truthful sh has) (isIgmp : Bool) (w : World H) :
    Adds has (needed isIgmp) w (snoopAddRuleChain sh isIgmp w) := by
  have hchain := snoopCreateIptablesChain_adds spec isIgmp (chainName isIgmp) w
  rw [snoopAddRuleChain]
  split
  · rename_i w1 heq
    rw [heq] at hchain
    exact hchain.stop rfl
  rename_i w1 heq
  rw [heq] at hchain
  have hjump := ensureRule_adds spec (toolOf isIgmp) (prerouteRule isIgmp) w1
  refine hchain.next rfl ?_
  split
  · rename_i w2 heq
    rw [heq] at hjump
    exact hjump.stop rfl
  rename_i w2 heq
  rw [heq] at hjump
  have hbridge := addEbtableRules_adds spec isIgmp w2
  refine hjump.next rfl ?_
  split
  · rename_i w3 heq
    rwa [heq] at hbridge
  · rename_i w3 heq
    rw [heq] at hbridge
    have hkept : ∀ rule, has w3.host rule → has (sh.update (toolOf isIgmp) 1 w3.host).2 rule :=
      spec.keepsUpdate _ _ _
    exact ⟨fun rule hrule => hkept rule (hbridge.kept rule hrule),
      fun _ rule hrule => hkept rule (hbridge.there rfl rule hrule)⟩

end

/-! ## The request -/

/-- The check finds the rule that leads to the chain when it is there.  Otherwise
the removal leaves the rule alone. -/
def JumpFound {H : Type} (sh : Shell H) (has : H → Rule → Prop) (isIgmp : Bool) (h : H) : Prop :=
  has h (.ipt (toolOf isIgmp) (prerouteRule isIgmp)) →
    (sh.run (.check (toolOf isIgmp) (prerouteRule isIgmp)) h).1.1 = 0

/-- A request that returns `True` has done what it was for.  A removal has failed
at no step, the listing of the rules of the bridge included, and has found the
rule that leads to the chain.  After an addition the rules are there. -/
structure Trusted {H : Type} (sh : Shell H) (has : H → Rule → Prop) (isIgmp : Bool) (status : ℤ)
    (h : H) (r : Bool × World H) : Prop where
  removed : status = 0 → Honest r.1 r.2.steps
  found : status = 0 → r.1 = true → JumpFound sh has isIgmp h
  added : status = 1 → r.1 = true → ∀ rule ∈ needed isIgmp, has r.2.host rule

/-- The result of `snoop_update_global_rules` can be trusted exactly when the
request is no removal; or a step on the bridge fails for which `False` is
returned; or the rule that leads to the chain is found, the commands on the chain
all exit with 0, and the rules of the bridge can be listed. -/
theorem snoop_update_global_rules_iff {H : Type} {sh : Shell H} {has : H → Rule → Prop}
    (spec : Truthful sh has) (isIgmp : Bool) (status : ℤ) (h : H) :
    Trusted sh has isIgmp status h (snoopUpdateGlobalRules sh isIgmp status ⟨h, []⟩) ↔
      (status = 0 →
        (JumpFound sh has isIgmp h ∧ ChainGoes sh isIgmp h ∧
          BridgeListed sh (hostUnchained sh isIgmp h)) ∨
        ¬ BridgeGoes sh isIgmp (hostUnchained sh isIgmp h)) := by
  have htrue := @snoopRemoveRuleChain_iff _ sh isIgmp h
  have hhonest := @snoopRemoveRuleChain_honest_iff _ sh isIgmp h
  have hadd : status = 1 → (snoopUpdateGlobalRules sh isIgmp status ⟨h, []⟩).1 = true →
      ∀ rule ∈ needed isIgmp,
        has (snoopUpdateGlobalRules sh isIgmp status ⟨h, []⟩).2.host rule := by
    rintro rfl
    exact (snoopAddRuleChain_adds spec isIgmp ⟨h, []⟩).there
  constructor
  · rintro htrust rfl
    rcases hhonest.mp (htrust.removed rfl) with hgoes | hstays
    · by_cases hbridge : BridgeGoes sh isIgmp (hostUnchained sh isIgmp h)
      · exact Or.inl ⟨htrust.found rfl (htrue.mpr hbridge), hgoes⟩
      · exact Or.inr hbridge
    · exact Or.inr hstays
  · refine fun hcond => ⟨?_, ?_, hadd⟩
    · rintro rfl
      exact hhonest.mpr ((hcond rfl).imp_left And.right)
    · rintro rfl hreturned
      rcases hcond rfl with hgoes | hstays
      · exact hgoes.1
      · exact absurd (htrue.mp hreturned) hstays

/-! ## A shell with rules -/

/-- A shell that keeps the rules in a list.  The commands of `bad` exit with 1
and do nothing. -/
def listShell (bad : List Cmd) : Shell (List Rule) where
  run c rules :=
    if c ∈ bad then ((1, []), rules)
    else
      match c with
      | .newChain _ _ | .dropChain _ _ => ((0, []), rules)
      | .check tool rule => ((if .ipt tool rule ∈ rules then 0 else 1, []), rules)
      | .append tool rule => ((0, []), rules ++ [.ipt tool rule])
      | .delete tool rule => ((if .ipt tool rule ∈ rules then 0 else 1, []),
          rules.erase (.ipt tool rule))
      | .flush tool chain => ((0, []), rules.filter fun
          | .ipt tool' rule => !(decide (tool' = tool) && chain.isPrefixOf rule)
          | .ebt _ => true)
      | .ebtList => ((0, rules.filterMap fun
          | .ipt _ _ => none
          | .ebt rule => some rule), rules)
      | .ebtInsert rule => ((0, []), .ebt rule :: rules)
      | .ebtDelete rule => ((0, []), rules.erase (.ebt rule))
  update _ _ rules := (true, rules)

theorem listShell_truthful (bad : List Cmd) :
    Truthful (listShell bad) fun rules rule => rule ∈ rules where
  check tool rule rules hok := by
    by_contra hnot
    by_cases hbad : Cmd.check tool rule ∈ bad <;> simp [listShell, hbad, hnot] at hok
  append tool rule rules hok := by
    by_cases hbad : Cmd.append tool rule ∈ bad <;> simp [listShell, hbad] at hok ⊢
  insert rule rules hok := by
    by_cases hbad : Cmd.ebtInsert rule ∈ bad <;> simp [listShell, hbad] at hok ⊢
  listed rules line hline _ := by
    by_cases hbad : Cmd.ebtList ∈ bad
    · simp [listShell, hbad] at hline
    · simp only [listShell, if_neg hbad, List.mem_filterMap] at hline
      obtain ⟨_ | rule, hrule, hsome⟩ := hline
      · cases hsome
      · cases hsome
        exact hrule
  silent rule rules line hline := by
    by_cases hbad : Cmd.ebtInsert rule ∈ bad <;> simp [listShell, hbad] at hline
  keeps c rules rule hkeeps hrule := by
    by_cases hbad : c ∈ bad
    · simpa [listShell, hbad] using hrule
    · cases c <;> simp_all [listShell, Cmd.removes]
  keepsUpdate _ _ _ _ hrule := hrule

/-- A removal whose commands all succeed. -/
theorem snoop_update_global_rules_iff_small :
    let r := snoopUpdateGlobalRules (listShell []) true 0 ⟨needed true, []⟩
    Trusted (listShell []) (fun rules rule => rule ∈ rules) true 0 (needed true) r ∧
      r.1 = true ∧ r.2.host = [] := by
  refine ⟨(snoop_update_global_rules_iff (listShell_truthful []) true 0 _).mpr fun _ => ?_, ?_⟩
  · refine Or.inl ⟨fun _ => ?_, ?_⟩
    · decide +kernel
    · decide +kernel
  · decide +kernel

/-- When the rule that leads to the chain cannot be deleted, the chain stays,
and the removal returns `True`. -/
theorem failed_delete_reported_true :
    let r := snoopUpdateGlobalRules (listShell [.delete .inet igmpPrerouteRule]) true 0
      ⟨needed true, []⟩
    r.1 = true ∧ ⟨.cmd (.delete .inet igmpPrerouteRule), false⟩ ∈ r.2.steps ∧
      .ipt .inet igmpPrerouteRule ∈ r.2.host ∧
      (∀ rule ∈ igmpAddRules, .ipt .inet rule ∈ r.2.host) ∧
      ¬ Trusted (listShell [.delete .inet igmpPrerouteRule]) (fun rules rule => rule ∈ rules)
        true 0 (needed true) r := by
  intro r
  have htrue : r.1 = true := by decide +kernel
  have hfailed : ⟨.cmd (.delete .inet igmpPrerouteRule), false⟩ ∈ r.2.steps := by decide +kernel
  refine ⟨htrue, hfailed, by decide +kernel, by decide +kernel, fun htrust => ?_⟩
  exact absurd (htrust.removed rfl htrue _ hfailed) (by decide)

end Snoop

end OpxNasLinux
