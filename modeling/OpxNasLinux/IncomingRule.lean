import Mathlib.Algebra.Group.Nat.Defs
import OpxNasLinux.SvcsRuleCache

/-!
# Incoming service rules

The class `VrfIncomingSvcsRule`.  An object of it carries the proofs of what
its constructor and `__setattr__` check, so a rule with an invalid type or
action does not exist.

`init` is the constructor, with the normalization of the addresses.
`checkAndSet` is one assignment of `update_rule`.  The instance at the end
makes the class a class of service rules, and the lists and caches of the
source are the generic ones over it.
-/

namespace OpxNasLinux

/-! ## Packed addresses -/

/-- The host bits of a packed address cleared: `netaddr.IPNetwork(..).cidr`. -/
def maskBytes : ℕ → Bytes → Bytes
  | _, [] => []
  | n, b :: rest => (b &&& UInt8.ofNat (256 - 2 ^ (8 - n))) :: maskBytes (n - 8) rest

/-- `socket.inet_ntop` and `netaddr.IPNetwork` take the address and the prefix
length. -/
def isNetwork (af : Af) (ip : Bytes) (prefixLen : ℤ) : Bool :=
  decide (ip.length = af.length ∧ 0 ≤ prefixLen ∧ prefixLen ≤ 8 * af.length)

/-- `normalize_ip_prefix`: the address and the prefix length it leaves, `none`
when it raises. -/
def normalizeIpPrefix (af : Af) (ip : Option Bytes) (prefixLen : Option ℤ) :
    Option (Option Bytes × Option ℤ) :=
  match ip, prefixLen with
  | some ip, some n =>
    if isNetwork af ip n then some (some (maskBytes n.toNat ip), some n) else none
  | none, _ => some (some (List.replicate af.length 0), some 0)
  | some ip, none =>
    if ip = List.replicate ip.length 0 then some (some ip, some 0) else some (some ip, none)

/-! ## The class -/

namespace VrfIncomingSvcsRule

/-- `get_rule_type_name`. -/
def getRuleTypeName : VrfSvcsRuleType → Option Str
  | .ip => some "IP".toList
  | .acl => some "ACL".toList
  | _ => none

/-- `get_action_name`, for the logs and for the target of an iptables rule. -/
def getActionName : VrfSvcsRuleAction → Option (Str × Str)
  | .allow => some ("allow".toList, "accept".toList)
  | .deny => some ("deny".toList, "drop".toList)
  | .dnat => some ("dnat".toList, "dnat".toList)
  | .reject => some ("reject".toList, "mark".toList)
  | .snat => none

/-- `get_proto_name`, which knows every protocol. -/
def getProtoName : VrfSvcsRuleProto → Str
  | .tcp => "tcp".toList
  | .udp => "udp".toList
  | .icmp => "icmp".toList
  | .icmpv6 => "icmpv6".toList
  | .all => "ip".toList

end VrfIncomingSvcsRule

/-- `VrfIncomingSvcsRule`.  `others` holds the attributes that only a keyword
of `update_rule` made. -/
structure VrfIncomingSvcsRule where
  ruleType : VrfSvcsRuleType
  vrfName : Str
  af : Af
  srcIp : Option Bytes
  srcPrefixLen : Option ℤ
  protocol : Option VrfSvcsRuleProto
  dstPort : Option ℤ
  lowDstPort : Option ℤ
  highDstPort : Option ℤ
  dstIp : Option Bytes
  dstPrefixLen : Option ℤ
  seqNum : ℤ
  action : VrfSvcsRuleAction
  grpPriority : VrfSvcsRuleGroupPrio
  packetCount : Option Str
  byteCount : Option Str
  ruleId : Option ℤ
  inIntf : Option Str
  negative : Option Bool
  others : Dict Str Str
  validType : (VrfIncomingSvcsRule.getRuleTypeName ruleType).isSome
  validAction : (VrfIncomingSvcsRule.getActionName action).isSome
deriving DecidableEq

namespace VrfIncomingSvcsRule

/-- `__setattr__` of `in_intf`: a leading `!` is kept in `negative`. -/
def setInIntf (r : VrfIncomingSvcsRule) (val : Str) : VrfIncomingSvcsRule :=
  match val with
  | '!' :: name => { r with inIntf := some name, negative := some true }
  | _ => { r with inIntf := some val, negative := some false }

/-- The arguments of the constructor. -/
structure Args where
  ruleType : ℤ
  vrfName : Str
  action : ℤ
  af : ℤ
  srcIp : Option Bytes := none
  srcPrefixLen : Option ℤ := none
  protocol : Option ℤ := none
  dstPort : Option ℤ := none
  dstIp : Option Bytes := none
  dstPrefixLen : Option ℤ := none
  lowDstPort : Option ℤ := none
  highDstPort : Option ℤ := none
  seqNum : ℤ := 0
  ruleId : Option ℤ := none
  highPrio : Bool := false
  inIntf : Option Str := none

/-- The action a rule is stored with.  An ACL rule rejects instead of
dropping. -/
def storedAction (ruleType : VrfSvcsRuleType) (action : VrfSvcsRuleAction) : VrfSvcsRuleAction :=
  if action = .deny ∧ ruleType = .acl then .reject else action

theorem storedAction_valid {ruleType : VrfSvcsRuleType} {action : VrfSvcsRuleAction}
    (h : (getActionName action).isSome) :
    (getActionName (storedAction ruleType action)).isSome := by
  rw [storedAction]
  split
  · rfl
  · exact h

/-- The protocol argument: `none` for a number that is no protocol. -/
def protoArg : Option ℤ → Option (Option VrfSvcsRuleProto)
  | none => some none
  | some val => (VrfSvcsRuleProto.ofValue val).map some

/-- `__init__`, `none` when it raises. -/
def init (a : Args) : Option VrfIncomingSvcsRule := do
  let ruleType ← VrfSvcsRuleType.ofValue a.ruleType
  let af ← Af.ofValue a.af
  let protocol ← protoArg a.protocol
  let action ← VrfSvcsRuleAction.ofValue a.action
  if ht : (getRuleTypeName ruleType).isSome then
    if ha : (getActionName action).isSome then
      if action = .dnat ∧ a.dstIp = none then none
      else
        let (srcIp, srcPrefixLen) ← normalizeIpPrefix af a.srcIp a.srcPrefixLen
        let (dstIp, dstPrefixLen) ← normalizeIpPrefix af a.dstIp a.dstPrefixLen
        let rule : VrfIncomingSvcsRule :=
          { ruleType, vrfName := a.vrfName, af, srcIp, srcPrefixLen, protocol
            dstPort := a.dstPort, lowDstPort := a.lowDstPort, highDstPort := a.highDstPort
            dstIp, dstPrefixLen, seqNum := a.seqNum, action := storedAction ruleType action
            grpPriority := .ofTruth a.highPrio, packetCount := none, byteCount := none
            ruleId := a.ruleId, inIntf := none, negative := none, others := ∅
            validType := ht, validAction := storedAction_valid ha }
        some (match a.inIntf with
          | none => rule
          | some val => rule.setInIntf val)
    else none
  else none

/-- The values of the `KEY_ATTRS`. -/
structure Key where
  ruleType : VrfSvcsRuleType
  vrfName : Str
  af : Af
  srcIp : Option Bytes
  srcPrefixLen : Option ℤ
  protocol : Option VrfSvcsRuleProto
  dstPort : Option ℤ
  lowDstPort : Option ℤ
  highDstPort : Option ℤ
  action : VrfSvcsRuleAction
  inIntf : Option Str
  dstIp : Option Bytes
  dstPrefixLen : Option ℤ
deriving DecidableEq

def keyAttrs (r : VrfIncomingSvcsRule) : Key :=
  { ruleType := r.ruleType, vrfName := r.vrfName, af := r.af, srcIp := r.srcIp
    srcPrefixLen := r.srcPrefixLen, protocol := r.protocol, dstPort := r.dstPort
    lowDstPort := r.lowDstPort, highDstPort := r.highDstPort, action := r.action
    inIntf := r.inIntf, dstIp := r.dstIp, dstPrefixLen := r.dstPrefixLen }

/-- The list the rule belongs to. -/
def loc (r : VrfIncomingSvcsRule) : Loc :=
  { table := if r.ruleType = .ip then .ipRules else .otherRules, af := r.af, vrfName := r.vrfName }

/-- `inet_ntop` raises for an address of the wrong length. -/
def badAddress (af : Af) (ip : Option Bytes) : Bool :=
  ip.any fun bs => decide (bs.length ≠ af.length)

/-- `__str__` raises: for an address that it prints with its prefix, and for a
port range without an upper end. -/
def strRaises (r : VrfIncomingSvcsRule) : Bool :=
  (r.srcPrefixLen.isSome && badAddress r.af r.srcIp) ||
    (r.dstPrefixLen.isSome && badAddress r.af r.dstIp) ||
    (r.lowDstPort.isSome && r.highDstPort.isNone)

/-- A keyword argument of `update_rule`, with the value as the caller gives
it.  Python takes no `rule_id` there. -/
inductive Attr where
  | ruleType (val : ℤ)
  | vrfName (val : Str)
  | af (val : ℤ)
  | srcIp (val : Bytes)
  | srcPrefixLen (val : ℤ)
  | protocol (val : ℤ)
  | dstPort (val : ℤ)
  | lowDstPort (val : ℤ)
  | highDstPort (val : ℤ)
  | dstIp (val : Bytes)
  | dstPrefixLen (val : ℤ)
  | seqNum (val : ℤ)
  | action (val : ℤ)
  | grpPriority (val : ℤ)
  | packetCount (val : Str)
  | byteCount (val : Str)
  | inIntf (val : Str)
  | negative (val : Bool)
  | other (name : Str) (val : Str)

/-- `check_and_set`. -/
def checkAndSet (r : VrfIncomingSvcsRule) : Attr → Option (VrfIncomingSvcsRule × Bool)
  | .ruleType val => do
    let t ← VrfSvcsRuleType.ofValue val
    if h : (getRuleTypeName t).isSome then
      assign r (decide (t = r.ruleType)) { r with ruleType := t, validType := h }
    else none
  | .vrfName val => assign r (decide (val = r.vrfName)) { r with vrfName := val }
  | .af val => do
    let af ← Af.ofValue val
    assign r (decide (af = r.af)) { r with af := af }
  | .srcIp val => assign r (decide (some val = r.srcIp)) { r with srcIp := some val }
  | .srcPrefixLen val =>
    assign r (decide (some val = r.srcPrefixLen)) { r with srcPrefixLen := some val }
  | .protocol val => do
    let p ← VrfSvcsRuleProto.ofValue val
    assign r (decide (some p = r.protocol)) { r with protocol := some p }
  | .dstPort val => assign r (decide (some val = r.dstPort)) { r with dstPort := some val }
  | .lowDstPort val =>
    assign r (decide (some val = r.lowDstPort)) { r with lowDstPort := some val }
  | .highDstPort val =>
    assign r (decide (some val = r.highDstPort)) { r with highDstPort := some val }
  | .dstIp val => assign r (decide (some val = r.dstIp)) { r with dstIp := some val }
  | .dstPrefixLen val =>
    assign r (decide (some val = r.dstPrefixLen)) { r with dstPrefixLen := some val }
  | .seqNum val => assign r (decide (val = r.seqNum)) { r with seqNum := val }
  | .action val => do
    let a ← VrfSvcsRuleAction.ofValue val
    if h : (getActionName a).isSome then
      assign r (decide (a = r.action)) { r with action := a, validAction := h }
    else none
  | .grpPriority val =>
    assign r (decide (val = r.grpPriority.value)) { r with grpPriority := .ofTruth (val ≠ 0) }
  | .packetCount val =>
    assign r (decide (some val = r.packetCount)) { r with packetCount := some val }
  | .byteCount val => assign r (decide (some val = r.byteCount)) { r with byteCount := some val }
  | .inIntf val => assign r (decide (some val = r.inIntf)) (r.setInIntf val)
  | .negative val => assign r (decide (some val = r.negative)) { r with negative := some val }
  | .other name val =>
    assign r (decide (some val = r.others.lookup name))
      { r with others := r.others.insert name val }

/-- `repl_attrs` of `update_rule`. -/
def isReplAttr : Attr → Bool
  | .srcIp _ | .srcPrefixLen _ | .dstIp _ | .dstPrefixLen _ | .protocol _ | .dstPort _
  | .lowDstPort _ | .highDstPort _ | .action _ | .inIntf _ => true
  | _ => false

instance : SvcsRule VrfIncomingSvcsRule where
  Key := Key
  decEqKey := inferInstance
  Attr := Attr
  keyAttrs := keyAttrs
  loc := loc
  seqKey r := toLex (r.grpPriority.value, r.seqNum)
  ruleId := ruleId
  setRuleId i r := { r with ruleId := some i }
  setStats st r := { r with packetCount := st.packetCount, byteCount := st.byteCount }
  setPrivate _ r := r
  strRaises := strRaises
  needsPrivate _ := false
  otherPrivate _ _ := false
  checkAndSet := checkAndSet
  isReplAttr := isReplAttr
  readsStats := true
  releasesRefusedId := false
  core r := { r with packetCount := none, byteCount := none }

/-! ## The laws of a class of service rules -/

@[simp] theorem setInIntf_ruleId (r : VrfIncomingSvcsRule) (val : Str) :
    (r.setInIntf val).ruleId = r.ruleId := by
  unfold setInIntf
  split <;> rfl

@[simp] theorem setInIntf_loc (r : VrfIncomingSvcsRule) (val : Str) :
    (r.setInIntf val).loc = r.loc := by
  unfold setInIntf
  split <;> rfl

@[simp] theorem setInIntf_seqNum (r : VrfIncomingSvcsRule) (val : Str) :
    (r.setInIntf val).seqNum = r.seqNum := by
  unfold setInIntf
  split <;> rfl

@[simp] theorem setInIntf_grpPriority (r : VrfIncomingSvcsRule) (val : Str) :
    (r.setInIntf val).grpPriority = r.grpPriority := by
  unfold setInIntf
  split <;> rfl

/-- What `check_and_set` makes of a rule: the rule itself, or one with the
attribute set. -/
theorem checkAndSet_some {r r' : VrfIncomingSvcsRule} {attr : Attr} {changed : Bool}
    (h : checkAndSet r attr = some (r', changed)) :
    changed = false ∧ r' = r ∨
      changed = true ∧ r'.ruleId = r.ruleId ∧
        (isReplAttr attr = true →
          r'.loc = r.loc ∧ r'.seqNum = r.seqNum ∧ r'.grpPriority = r.grpPriority) := by
  have key : ∀ same upd, assign r same upd = some (r', changed) → upd.ruleId = r.ruleId →
      (isReplAttr attr = true →
        upd.loc = r.loc ∧ upd.seqNum = r.seqNum ∧ upd.grpPriority = r.grpPriority) →
      changed = false ∧ r' = r ∨
        changed = true ∧ r'.ruleId = r.ruleId ∧
          (isReplAttr attr = true →
            r'.loc = r.loc ∧ r'.seqNum = r.seqNum ∧ r'.grpPriority = r.grpPriority) := by
    intro same upd ha hid hrepl
    rcases assign_some ha with ⟨hc, rfl⟩ | ⟨hc, rfl⟩
    · exact Or.inl ⟨hc, rfl⟩
    · exact Or.inr ⟨hc, hid, hrepl⟩
  cases attr with
  | ruleType val =>
    obtain ⟨t, -, h⟩ := Option.bind_eq_some_iff.mp h
    split at h
    · exact key _ _ h rfl (fun hf => nomatch hf)
    · cases h
  | af val =>
    obtain ⟨af, -, h⟩ := Option.bind_eq_some_iff.mp h
    exact key _ _ h rfl (fun hf => nomatch hf)
  | protocol val =>
    obtain ⟨p, -, h⟩ := Option.bind_eq_some_iff.mp h
    exact key _ _ h rfl (fun _ => ⟨rfl, rfl, rfl⟩)
  | action val =>
    obtain ⟨a, -, h⟩ := Option.bind_eq_some_iff.mp h
    split at h
    · exact key _ _ h rfl (fun _ => ⟨rfl, rfl, rfl⟩)
    · cases h
  | inIntf val => exact key _ _ h (by simp) (fun _ => by simp)
  | srcIp val | srcPrefixLen val | dstIp val | dstPrefixLen val | dstPort val | lowDstPort val
  | highDstPort val => exact key _ _ h rfl (fun _ => ⟨rfl, rfl, rfl⟩)
  | vrfName val | seqNum val | grpPriority val | packetCount val | byteCount val | negative val =>
    exact key _ _ h rfl (fun hf => nomatch hf)
  | other name val => exact key _ _ h rfl (fun hf => nomatch hf)

instance : LawfulSvcsRule VrfIncomingSvcsRule where
  ruleId_setRuleId _ _ := rfl
  keyAttrs_setRuleId _ _ := rfl
  loc_setRuleId _ _ := rfl
  needsPrivate_setRuleId _ _ := rfl
  ruleId_setStats _ _ := rfl
  keyAttrs_setStats _ _ := rfl
  loc_setStats _ _ := rfl
  seqKey_setStats _ _ := rfl
  core_setStats _ _ := rfl
  seqKey_core _ := rfl
  ruleId_setPrivate _ _ := rfl
  keyAttrs_setPrivate _ _ := rfl
  loc_setPrivate _ _ := rfl
  needsPrivate_setPrivate _ _ := rfl
  ruleId_checkAndSet h := by
    rcases checkAndSet_some h with ⟨-, rfl⟩ | ⟨-, hid, -⟩
    · rfl
    · exact hid
  eq_of_unchanged h := by
    rcases checkAndSet_some h with ⟨-, rfl⟩ | ⟨hc, -, -⟩
    · rfl
    · cases hc
  replAttr_keeps h hr := by
    rcases checkAndSet_some h with ⟨hc, -⟩ | ⟨-, -, hkeeps⟩
    · cases hc
    · obtain ⟨hloc, hseq, hprio⟩ := hkeeps hr
      exact ⟨hloc, congrArg₂ (fun p n => toLex (VrfSvcsRuleGroupPrio.value p, n)) hprio hseq⟩

end VrfIncomingSvcsRule

/-- `VrfIncomingSvcsRuleList`. -/
abbrev VrfIncomingSvcsRuleList := SvcsRuleList VrfIncomingSvcsRule

/-- `VrfIncomingSvcsRuleCache`. -/
abbrev VrfIncomingSvcsRuleCache (W : Type) := SvcsRuleCache VrfIncomingSvcsRule W

end OpxNasLinux
