import OpxNasLinux.InetText
import OpxNasLinux.NormalAddress

/-!
# The iptables commands of incoming rules

`IptablesHandler.proc_rule` turns a rule into the arguments of an iptables
command: the matches and the target from the attributes of the rule, and the
table and the chain from its type and VRF.

* `FltArg` is one match or the target, and `fltArgs` all of a rule, in the
  order of the command.
* `command` is the command of an operation.
* `equal_filters_alike_iff` says when two rules that the caches take for equal
  have the same commands.
-/

namespace OpxNasLinux

/-- `str` and `%d` of an integer. -/
def intStr (n : ℤ) : Str := if n < 0 then '-' :: str n.natAbs else str n.natAbs

/-- `rej_rule_mark_value`. -/
def rejRuleMarkValue : ℕ := 255

/-- `vrf_chain_name`. -/
def vrfChainName : Str := "VRF".toList

/-! ## Matches and targets -/

/-- A match or the target of a command. -/
inductive FltArg where
  | src (ip : Bytes) (prefixLen : Option ℤ)
  | proto (name : Str)
  | dport (port : ℤ)
  | dports (low : ℤ) (high : Option ℤ)
  | dst (ip : Bytes) (prefixLen : Option ℤ)
  | inIntf (negated : Bool) (name : Str)
  | jump (target : Str)
  | toDestination (ip : Bytes)
  | setMark (mark : ℕ)

namespace FltArg

/-- `/%d` of a prefix length. -/
def prefixText : Option ℤ → Str
  | none => []
  | some n => '/' :: intStr n

/-- `str` of the upper end of a port range. -/
def portText : Option ℤ → Str
  | none => "None".toList
  | some n => intStr n

/-- `inet_ntop` takes the address of the argument. -/
def prints (af : Af) : FltArg → Bool
  | src ip _ | dst ip _ | toDestination ip => decide (ip.length = af.length)
  | _ => true

/-- The words of the argument. -/
def words (inet : InetText) (af : Af) : FltArg → List Str
  | src ip prefixLen => ["-s".toList, inet.ntop af ip ++ prefixText prefixLen]
  | proto name => ["-p".toList, name]
  | dport port => ["--dport".toList, intStr port]
  | dports low high => ["--match".toList, "multiport".toList, "--dports".toList,
      intStr low ++ ':' :: portText high]
  | dst ip prefixLen => ["-d".toList, inet.ntop af ip ++ prefixText prefixLen]
  | inIntf negated name => (if negated then ["!".toList] else []) ++ ["-i".toList, name]
  | jump target => ["-j".toList, target]
  | toDestination ip => ["--to-destination".toList, inet.ntop af ip]
  | setMark mark => ["--set-mark".toList, str mark]

end FltArg

namespace VrfIncomingSvcsRule

/-- The argument `-d`, for an ACL rule and for a rule of the default VRF. -/
def dstArgs (r : VrfIncomingSvcsRule) : List FltArg :=
  if r.ruleType = .acl ∨ r.vrfName = defaultVrf ∧ r.ruleType = .ip then
    (r.dstIp.map fun ip => .dst ip r.dstPrefixLen).toList
  else []

/-- The argument `-i`.  An IP rule does not look at `negative`. -/
def inIntfArgs (r : VrfIncomingSvcsRule) : List FltArg :=
  if r.ruleType = .ip then
    if r.vrfName = defaultVrf then
      match r.inIntf with
      | some name => [.inIntf false name]
      | none => [.inIntf true "vdst-nsid+".toList]
    else []
  else (r.inIntf.map (.inIntf (r.negative = some true))).toList

/-- `get_action_name(True).upper()`. -/
def targetName (r : VrfIncomingSvcsRule) : Str :=
  ((getActionName r.action).map fun names => names.2.map Char.toUpper).getD []

/-- The target with its arguments.  An address that is missing is one that
`inet_ntop` does not take. -/
def targetArgs (r : VrfIncomingSvcsRule) : List FltArg :=
  .jump r.targetName ::
    match r.action with
    | .dnat => [.toDestination (r.dstIp.getD [])]
    | .reject => [.setMark rejRuleMarkValue]
    | _ => []

/-- `flt_args` of an incoming rule. -/
def fltArgs (r : VrfIncomingSvcsRule) : List FltArg :=
  (r.srcIp.map fun ip => .src ip r.srcPrefixLen).toList ++
    (r.protocol.map fun p => .proto (getProtoName p)).toList ++
    (r.dstPort.map .dport).toList ++
    (if r.ruleType = .acl then (r.lowDstPort.map fun low => .dports low r.highDstPort).toList
      else []) ++
    r.dstArgs ++ r.inIntfArgs ++ r.targetArgs

/-- Every address of the command has the length of its family. -/
def Prints (r : VrfIncomingSvcsRule) : Prop := ∀ arg ∈ r.fltArgs, arg.prints r.af = true

instance (r : VrfIncomingSvcsRule) : Decidable r.Prints := by
  unfold Prints
  infer_instance

/-- The words of `flt_args`. -/
def fltWords (inet : InetText) (r : VrfIncomingSvcsRule) : List Str :=
  r.fltArgs.flatMap (FltArg.words inet r.af)

end VrfIncomingSvcsRule

/-! ## Commands -/

namespace IptablesHandler

def getChainName (vrfName : Str) : VrfSvcsRuleType → Str
  | .ip => if vrfName = defaultVrf then "INPUT".toList else vrfChainName
  | .outIp => "PREROUTING".toList
  | .snat => "POSTROUTING".toList
  | .acl => vrfChainName

/-- `get_ipt_cmd_prefix`. -/
def getIptCmdPrefix (ruleType : VrfSvcsRuleType) (af : Af) (vrfName : Str) : List Str :=
  let iptables := match af with | .inet => "iptables".toList | .inet6 => "ip6tables".toList
  if vrfName = defaultVrf then
    ("/sbin/".toList ++ iptables) ::
      match ruleType with
      | .ip => []
      | .snat => ["-t".toList, "nat".toList]
      | .acl | .outIp => ["-t".toList, "raw".toList]
  else
    ["/sbin/ip".toList, "netns".toList, "exec".toList, vrfName, iptables] ++
      match ruleType with
      | .ip | .outIp | .snat => ["-t".toList, "nat".toList]
      | .acl => ["-t".toList, "raw".toList]

/-- The operations of `proc_rule`. -/
inductive ProcOp where
  | insert
  | delete
  | replace
  | check
  | get
deriving DecidableEq, Repr

/-- What stands between the prefix of a command and the arguments of the rule,
and whether these follow. -/
def chainArgs (chain : Str) : ProcOp → Option ℕ → Option (List Str × Bool)
  | .insert, none => some (["-A".toList, chain], true)
  | .insert, some idx => some (["-I".toList, chain, str (idx + 1)], true)
  | .delete, none => some (["-D".toList, chain], true)
  | .delete, some idx => some (["-D".toList, chain, str (idx + 1)], false)
  | .replace, none => none
  | .replace, some idx => some (["-R".toList, chain, str (idx + 1)], true)
  | .check, _ => some (["-C".toList, chain], true)
  | .get, none => none
  | .get, some idx => some (["-xvL".toList, chain, str (idx + 1)], false)

/-- The command that `proc_rule` runs for an incoming rule, `none` when it
returns without one.  `opened` is `is_vrf_valid` of the VRF. -/
def command (inet : InetText) (opened : Bool) (op : ProcOp) (r : VrfIncomingSvcsRule)
    (idx : Option ℕ) : Outcome (Option (List Str)) :=
  if (op = .delete ∨ op = .get) ∧ r.vrfName ≠ defaultVrf ∧ opened = false then .returned none
  else if op = .replace ∧ idx = none then .returned none
  else if r.Prints then
    .returned ((chainArgs (getChainName r.vrfName r.ruleType) op idx).map fun (args, takesRule) =>
      getIptCmdPrefix r.ruleType r.af r.vrfName ++ args ++
        if takesRule then r.fltWords inet else [])
  else .raised

end IptablesHandler

namespace VrfIncomingSvcsRule

/-! ## Equal rules -/

/-- The arguments before the interface. -/
def frontArgs (r : VrfIncomingSvcsRule) : List FltArg :=
  (r.srcIp.map fun ip => .src ip r.srcPrefixLen).toList ++
    (r.protocol.map fun p => .proto (getProtoName p)).toList ++
    (r.dstPort.map .dport).toList ++
    (if r.ruleType = .acl then (r.lowDstPort.map fun low => .dports low r.highDstPort).toList
      else []) ++
    r.dstArgs

theorem fltArgs_eq (r : VrfIncomingSvcsRule) :
    r.fltArgs = r.frontArgs ++ r.inIntfArgs ++ r.targetArgs := rfl

/-- An interface has no address to print. -/
theorem inIntfArgs_prints (r : VrfIncomingSvcsRule) : ∀ arg ∈ r.inIntfArgs, arg.prints r.af := by
  intro arg harg
  rw [inIntfArgs] at harg
  split at harg
  · split at harg
    · split at harg
      · obtain rfl := List.mem_singleton.mp harg
        rfl
      · obtain rfl := List.mem_singleton.mp harg
        rfl
    · cases harg
  · obtain ⟨name, -, rfl⟩ := Option.map_eq_some_iff.mp (Option.mem_toList.mp harg)
    rfl

/-- Equal rules have the same arguments but for the interface. -/
theorem args_of_key {r₁ r₂ : VrfIncomingSvcsRule} (h : keyAttrs r₁ = keyAttrs r₂) :
    r₁.frontArgs = r₂.frontArgs ∧ r₁.targetArgs = r₂.targetArgs := by
  simp only [keyAttrs, Key.mk.injEq] at h
  obtain ⟨htype, hvrf, haf, hsrc, hspl, hproto, hport, hlow, hhigh, haction, -, hdst, hdpl⟩ := h
  refine ⟨?_, ?_⟩
  · rw [frontArgs, frontArgs, dstArgs, dstArgs, htype, hvrf, hsrc, hspl, hproto, hport, hlow,
      hhigh, hdst, hdpl]
  · rw [targetArgs, targetArgs, targetName, targetName, haction, hdst]

/-- Equal rules have the same interface but for its negation, which an ACL rule
reads. -/
theorem inIntfArgs_of_key {r₁ r₂ : VrfIncomingSvcsRule} (h : keyAttrs r₁ = keyAttrs r₂)
    (hneg : r₁.ruleType = .acl → r₁.inIntf.isSome → r₁.negative = r₂.negative) :
    r₁.inIntfArgs = r₂.inIntfArgs := by
  simp only [keyAttrs, Key.mk.injEq] at h
  obtain ⟨htype, hvrf, -, -, -, -, -, -, -, -, hname, -, -⟩ := h
  rw [inIntfArgs, inIntfArgs, ← htype, ← hvrf, ← hname]
  split
  · rfl
  · next hip =>
    have hacl : r₁.ruleType = .acl := by
      have hvalid := r₁.validType
      cases ht : r₁.ruleType with
      | ip => exact absurd ht hip
      | acl => rfl
      | outIp | snat =>
        rw [ht] at hvalid
        cases hvalid
    cases hi : r₁.inIntf with
    | none => rfl
    | some name => rw [hneg hacl (by rw [hi]; rfl)]

theorem prints_of_key {r₁ r₂ : VrfIncomingSvcsRule} (h : keyAttrs r₁ = keyAttrs r₂) :
    r₁.Prints ↔ r₂.Prints := by
  obtain ⟨hfront, htarget⟩ := args_of_key h
  have haf : r₁.af = r₂.af := congrArg Key.af h
  have hi₁ := r₁.inIntfArgs_prints
  have hi₂ := r₂.inIntfArgs_prints
  simp only [Prints, fltArgs_eq, List.forall_mem_append, hfront, htarget, haf]
  rw [haf] at hi₁
  exact and_congr_left fun _ => and_congr_right fun _ => iff_of_true hi₁ hi₂

/-- The negation is one word more. -/
theorem negative_of_words {inet : InetText} {r₁ r₂ : VrfIncomingSvcsRule} (hb₁ : Built r₁)
    (hb₂ : Built r₂) (h : keyAttrs r₁ = keyAttrs r₂) (hacl : r₁.ruleType = .acl)
    (hi : r₁.inIntf.isSome) (hwords : r₁.fltWords inet = r₂.fltWords inet) :
    r₁.negative = r₂.negative := by
  obtain ⟨hfront, htarget⟩ := args_of_key h
  have haf : r₁.af = r₂.af := congrArg Key.af h
  have hname : r₁.inIntf = r₂.inIntf := congrArg Key.inIntf h
  have htype : r₁.ruleType = r₂.ruleType := congrArg Key.ruleType h
  have hlen := congrArg List.length hwords
  obtain ⟨name, hn⟩ := Option.isSome_iff_exists.mp hi
  have hn₂ := hname.symm.trans hn
  have hacl₂ := htype.symm.trans hacl
  simp only [fltWords, fltArgs_eq, List.flatMap_append, List.length_append, hfront, htarget, haf,
    inIntfArgs, hacl, hacl₂, hn, hn₂, Option.map_some, Option.toList_some, List.flatMap_cons,
    List.flatMap_nil, FltArg.words, reduceCtorEq, if_false, List.append_nil, List.length_cons,
    List.length_nil] at hlen
  obtain h₁ | h₁ := hb₁.negative hi <;> obtain h₂ | h₂ := hb₂.negative (hname ▸ hi) <;>
    simp [h₁, h₂] at hlen ⊢

end VrfIncomingSvcsRule

open VrfIncomingSvcsRule IptablesHandler

/-- Two equal rules have the same command in every operation exactly when an
interface that both of them name, as ACL rules, is negated in both or in
neither. -/
theorem equal_filters_alike_iff (inet : InetText) {a₁ a₂ : Args} {r₁ r₂ : VrfIncomingSvcsRule}
    (h₁ : init a₁ = some r₁) (h₂ : init a₂ = some r₂) (hkey : keyAttrs r₁ = keyAttrs r₂) :
    (∀ opened op idx, command inet opened op r₁ idx = command inet opened op r₂ idx) ↔
      (r₁.ruleType = .acl → r₁.inIntf.isSome → r₁.Prints → r₁.negative = r₂.negative) := by
  have hvrf : r₁.vrfName = r₂.vrfName := congrArg Key.vrfName hkey
  have htype : r₁.ruleType = r₂.ruleType := congrArg Key.ruleType hkey
  have haf : r₁.af = r₂.af := congrArg Key.af hkey
  constructor
  · intro hsame hacl hi hprints
    have hcheck := hsame true .check none
    simp only [command, reduceCtorEq, or_self, false_and, if_false, if_pos hprints,
      if_pos ((prints_of_key hkey).mp hprints), chainArgs, Option.map_some, if_true, hvrf, htype,
      haf, Outcome.returned.injEq, Option.some_inj, List.append_cancel_left_eq] at hcheck
    exact negative_of_words (built_of_init h₁) (built_of_init h₂) hkey hacl hi hcheck
  · intro hneg opened op idx
    have hwords : r₁.Prints → r₁.fltWords inet = r₂.fltWords inet := by
      intro hprints
      have hintf := inIntfArgs_of_key hkey fun hacl hi => hneg hacl hi hprints
      obtain ⟨hfront, htarget⟩ := args_of_key hkey
      rw [fltWords, fltWords, fltArgs_eq, fltArgs_eq, hfront, htarget, hintf, haf]
    by_cases hprints : r₁.Prints
    · simp only [command, hvrf, htype, haf, hwords hprints, if_pos hprints,
        if_pos ((prints_of_key hkey).mp hprints)]
    · have hprints₂ : ¬ r₂.Prints := fun h => hprints ((prints_of_key hkey).mpr h)
      simp only [command, hvrf, if_neg hprints, if_neg hprints₂]

/-- An ACL rule for the web server, on one interface. -/
def webArgs (inIntf : Str) (seqNum : ℤ) : Args :=
  { ruleType := 2, vrfName := defaultVrf, action := 1, af := 2, protocol := some 1
    dstPort := some 80, seqNum, inIntf := some inIntf }

theorem equal_filters_alike_small :
    command .plain true .insert ((init (webArgs "eth1".toList 10)).get (by decide +kernel)) none =
      command .plain true .insert ((init (webArgs "eth1".toList 20)).get (by decide +kernel))
        none :=
  (equal_filters_alike_iff .plain (Option.some_get _).symm (Option.some_get _).symm
    (by decide +kernel)).mpr (by decide +kernel) true .insert none

/-- The rule for `!eth1` equals the one for `eth1`, and filters the packets of
all other interfaces. -/
theorem negated_interface_equal :
    ∃ r₁ r₂, init (webArgs "eth1".toList 10) = some r₁ ∧
      init (webArgs "!eth1".toList 10) = some r₂ ∧ keyAttrs r₁ = keyAttrs r₂ ∧
      command .plain true .insert r₁ none ≠ command .plain true .insert r₂ none :=
  ⟨(init (webArgs "eth1".toList 10)).get (by decide +kernel),
    (init (webArgs "!eth1".toList 10)).get (by decide +kernel), (Option.some_get _).symm,
    (Option.some_get _).symm, by decide +kernel, by decide +kernel⟩

end OpxNasLinux
