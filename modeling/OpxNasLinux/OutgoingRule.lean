import OpxNasLinux.IncomingRule

/-!
# Outgoing service rules

The class `VrfOutgoingSvcsRule`, in the same shape as the incoming one.  Its
rules of type `outIp` carry a private address and port, which the cache
allocates and gives back.
-/

namespace OpxNasLinux

namespace VrfOutgoingSvcsRule

/-- `get_rule_type_name`. -/
def getRuleTypeName : VrfSvcsRuleType → Option Str
  | .outIp => some "IP".toList
  | .snat => some "SNAT".toList
  | _ => none

/-- `get_action_name`. -/
def getActionName : VrfSvcsRuleAction → Option Str
  | .dnat => some "dnat".toList
  | .snat => some "snat".toList
  | _ => none

/-- `get_proto_name`, which does not know the protocol `all`. -/
def getProtoName : VrfSvcsRuleProto → Option Str
  | .tcp => some "tcp".toList
  | .udp => some "udp".toList
  | .icmp => some "icmp".toList
  | .icmpv6 => some "icmpv6".toList
  | .all => none

end VrfOutgoingSvcsRule

/-- `VrfOutgoingSvcsRule`.  `dstPrefixLen` and `srcIp` are there to make the
class look like the incoming one; the constructor leaves them `none`. -/
structure VrfOutgoingSvcsRule where
  ruleType : VrfSvcsRuleType
  vrfName : Str
  af : Af
  dstIp : Option Bytes
  dstPrefixLen : Option ℤ
  protocol : Option VrfSvcsRuleProto
  dstPort : Option ℤ
  outSrcIp : Option Bytes
  action : VrfSvcsRuleAction
  seqNum : ℤ
  grpPriority : VrfSvcsRuleGroupPrio
  packetCount : Option Str
  byteCount : Option Str
  privateIp : Option Bytes
  privatePort : Option ℤ
  srcIp : Option Bytes
  ruleId : Option ℤ
  others : Dict Str Str
  validType : (VrfOutgoingSvcsRule.getRuleTypeName ruleType).isSome
  validAction : (VrfOutgoingSvcsRule.getActionName action).isSome
  validProto : protocol.all (fun p => (VrfOutgoingSvcsRule.getProtoName p).isSome)
deriving DecidableEq

namespace VrfOutgoingSvcsRule

/-- The arguments of the constructor. -/
structure Args where
  ruleType : ℤ
  vrfName : Str
  action : ℤ
  af : ℤ
  dstIp : Option Bytes := none
  protocol : Option ℤ := none
  dstPort : Option ℤ := none
  outSrcIp : Option Bytes := none
  privateIp : Option Bytes := none
  privatePort : Option ℤ := none
  seqNum : ℤ := 0
  ruleId : Option ℤ := none
  highPrio : Bool := false

/-- `__init__`, `none` when it raises. -/
def init (a : Args) : Option VrfOutgoingSvcsRule := do
  let ruleType ← VrfSvcsRuleType.ofValue a.ruleType
  let af ← Af.ofValue a.af
  let protocol ← VrfIncomingSvcsRule.protoArg a.protocol
  let action ← VrfSvcsRuleAction.ofValue a.action
  if ht : (getRuleTypeName ruleType).isSome then
    if hp : protocol.all (fun p => (getProtoName p).isSome) then
      if ha : (getActionName action).isSome then
        if ruleType = .snat ∧ (action ≠ .snat ∨ a.outSrcIp = none) then none
        else
          some { ruleType, vrfName := a.vrfName, af, dstIp := a.dstIp, dstPrefixLen := none
                 protocol, dstPort := a.dstPort, outSrcIp := a.outSrcIp, action
                 seqNum := a.seqNum, grpPriority := .ofTruth a.highPrio, packetCount := none
                 byteCount := none, privateIp := a.privateIp, privatePort := a.privatePort
                 srcIp := none, ruleId := a.ruleId, others := ∅
                 validType := ht, validAction := ha, validProto := hp }
      else none
    else none
  else none

/-- The values of the `KEY_ATTRS`. -/
structure Key where
  ruleType : VrfSvcsRuleType
  vrfName : Str
  af : Af
  dstIp : Option Bytes
  protocol : Option VrfSvcsRuleProto
  dstPort : Option ℤ
  outSrcIp : Option Bytes
deriving DecidableEq

def keyAttrs (r : VrfOutgoingSvcsRule) : Key :=
  { ruleType := r.ruleType, vrfName := r.vrfName, af := r.af, dstIp := r.dstIp
    protocol := r.protocol, dstPort := r.dstPort, outSrcIp := r.outSrcIp }

/-- The list the rule belongs to. -/
def loc (r : VrfOutgoingSvcsRule) : Loc :=
  { table := if r.ruleType = .outIp then .ipRules else .otherRules
    af := r.af, vrfName := r.vrfName }

/-- `__str__` raises, for an address of the wrong length that it prints. -/
def strRaises (r : VrfOutgoingSvcsRule) : Bool :=
  VrfIncomingSvcsRule.badAddress r.af r.dstIp ||
    (decide (r.action = .snat) && VrfIncomingSvcsRule.badAddress r.af r.outSrcIp) ||
    (decide (r.ruleType = .outIp) && VrfIncomingSvcsRule.badAddress r.af r.privateIp)

/-- `remove` does not take `stored` for `r` when `r` names another private
address or port. -/
def otherPrivate (r stored : VrfOutgoingSvcsRule) : Bool :=
  decide (r.ruleType = .outIp) &&
    ((r.privateIp.isSome && decide (r.privateIp ≠ stored.privateIp)) ||
      (r.privatePort.isSome && decide (r.privatePort ≠ stored.privatePort)))

/-- A keyword argument of `update_rule`. -/
inductive Attr where
  | ruleType (val : ℤ)
  | vrfName (val : Str)
  | af (val : ℤ)
  | dstIp (val : Bytes)
  | dstPrefixLen (val : ℤ)
  | protocol (val : ℤ)
  | dstPort (val : ℤ)
  | outSrcIp (val : Bytes)
  | action (val : ℤ)
  | seqNum (val : ℤ)
  | grpPriority (val : ℤ)
  | packetCount (val : Str)
  | byteCount (val : Str)
  | privateIp (val : Bytes)
  | privatePort (val : ℤ)
  | srcIp (val : Bytes)
  | other (name : Str) (val : Str)

/-- `check_and_set`. -/
def checkAndSet (r : VrfOutgoingSvcsRule) : Attr → Option (VrfOutgoingSvcsRule × Bool)
  | .ruleType val => do
    let t ← VrfSvcsRuleType.ofValue val
    if h : (getRuleTypeName t).isSome then
      assign r (decide (t = r.ruleType)) { r with ruleType := t, validType := h }
    else none
  | .vrfName val => assign r (decide (val = r.vrfName)) { r with vrfName := val }
  | .af val => do
    let af ← Af.ofValue val
    assign r (decide (af = r.af)) { r with af := af }
  | .dstIp val => assign r (decide (some val = r.dstIp)) { r with dstIp := some val }
  | .dstPrefixLen val =>
    assign r (decide (some val = r.dstPrefixLen)) { r with dstPrefixLen := some val }
  | .protocol val => do
    let p ← VrfSvcsRuleProto.ofValue val
    if h : (getProtoName p).isSome then
      assign r (decide (some p = r.protocol)) { r with protocol := some p, validProto := h }
    else none
  | .dstPort val => assign r (decide (some val = r.dstPort)) { r with dstPort := some val }
  | .outSrcIp val => assign r (decide (some val = r.outSrcIp)) { r with outSrcIp := some val }
  | .action val => do
    let a ← VrfSvcsRuleAction.ofValue val
    if h : (getActionName a).isSome then
      assign r (decide (a = r.action)) { r with action := a, validAction := h }
    else none
  | .seqNum val => assign r (decide (val = r.seqNum)) { r with seqNum := val }
  | .grpPriority val =>
    assign r (decide (val = r.grpPriority.value)) { r with grpPriority := .ofTruth (val ≠ 0) }
  | .packetCount val =>
    assign r (decide (some val = r.packetCount)) { r with packetCount := some val }
  | .byteCount val => assign r (decide (some val = r.byteCount)) { r with byteCount := some val }
  | .privateIp val => assign r (decide (some val = r.privateIp)) { r with privateIp := some val }
  | .privatePort val =>
    assign r (decide (some val = r.privatePort)) { r with privatePort := some val }
  | .srcIp val => assign r (decide (some val = r.srcIp)) { r with srcIp := some val }
  | .other name val =>
    assign r (decide (some val = r.others.lookup name))
      { r with others := r.others.insert name val }

/-- `repl_attrs` of `update_rule`. -/
def isReplAttr : Attr → Bool
  | .dstIp _ | .dstPort _ | .outSrcIp _ | .action _ => true
  | _ => false

instance : SvcsRule VrfOutgoingSvcsRule where
  Key := Key
  decEqKey := inferInstance
  Attr := Attr
  keyAttrs := keyAttrs
  loc := loc
  seqKey r := toLex (r.grpPriority.value, r.seqNum)
  ruleId := ruleId
  setRuleId i r := { r with ruleId := some i }
  setStats st r := { r with packetCount := st.packetCount, byteCount := st.byteCount }
  setPrivate p r := { r with privateIp := some p.ip, privatePort := some (p.port : ℤ) }
  strRaises := strRaises
  needsPrivate r := decide (r.ruleType = .outIp)
  otherPrivate := otherPrivate
  checkAndSet := checkAndSet
  isReplAttr := isReplAttr
  readsStats := false
  releasesRefusedId := true
  core r := { r with packetCount := none, byteCount := none }

/-! ## The laws of a class of service rules -/

/-- What `check_and_set` makes of a rule: the rule itself, or one with the
attribute set. -/
theorem checkAndSet_some {r r' : VrfOutgoingSvcsRule} {attr : Attr} {changed : Bool}
    (h : checkAndSet r attr = some (r', changed)) :
    changed = false ∧ r' = r ∨
      changed = true ∧ r'.ruleId = r.ruleId ∧
        (isReplAttr attr = true →
          r'.loc = r.loc ∧ r'.seqNum = r.seqNum ∧ r'.grpPriority = r.grpPriority) := by
  have key : ∀ same upd, assign r same upd = some (r', changed) → upd.ruleId = r.ruleId →
      (isReplAttr attr = true →
        upd.loc = r.loc ∧ upd.seqNum = r.seqNum ∧ upd.grpPriority = r.grpPriority) →
      changed = false ∧ r' = r ∨
        changed = true ∧ r'.ruleId = r.ruleId ∧
          (isReplAttr attr = true →
            r'.loc = r.loc ∧ r'.seqNum = r.seqNum ∧ r'.grpPriority = r.grpPriority) := by
    intro same upd ha hid hrepl
    rcases assign_some ha with ⟨hc, rfl⟩ | ⟨hc, rfl⟩
    · exact Or.inl ⟨hc, rfl⟩
    · exact Or.inr ⟨hc, hid, hrepl⟩
  cases attr with
  | ruleType val =>
    obtain ⟨t, -, h⟩ := Option.bind_eq_some_iff.mp h
    split at h
    · exact key _ _ h rfl (fun hf => nomatch hf)
    · cases h
  | af val =>
    obtain ⟨af, -, h⟩ := Option.bind_eq_some_iff.mp h
    exact key _ _ h rfl (fun hf => nomatch hf)
  | protocol val =>
    obtain ⟨p, -, h⟩ := Option.bind_eq_some_iff.mp h
    split at h
    · exact key _ _ h rfl (fun hf => nomatch hf)
    · cases h
  | action val =>
    obtain ⟨a, -, h⟩ := Option.bind_eq_some_iff.mp h
    split at h
    · exact key _ _ h rfl (fun _ => ⟨rfl, rfl, rfl⟩)
    · cases h
  | dstIp val | dstPort val | outSrcIp val => exact key _ _ h rfl (fun _ => ⟨rfl, rfl, rfl⟩)
  | vrfName val | dstPrefixLen val | seqNum val | grpPriority val | packetCount val
  | byteCount val | privateIp val | privatePort val | srcIp val =>
    exact key _ _ h rfl (fun hf => nomatch hf)
  | other name val => exact key _ _ h rfl (fun hf => nomatch hf)

instance : LawfulSvcsRule VrfOutgoingSvcsRule where
  ruleId_setRuleId _ _ := rfl
  keyAttrs_setRuleId _ _ := rfl
  loc_setRuleId _ _ := rfl
  needsPrivate_setRuleId _ _ := rfl
  ruleId_setStats _ _ := rfl
  keyAttrs_setStats _ _ := rfl
  loc_setStats _ _ := rfl
  seqKey_setStats _ _ := rfl
  core_setStats _ _ := rfl
  seqKey_core _ := rfl
  ruleId_setPrivate _ _ := rfl
  keyAttrs_setPrivate _ _ := rfl
  loc_setPrivate _ _ := rfl
  needsPrivate_setPrivate _ _ := rfl
  ruleId_checkAndSet h := by
    rcases checkAndSet_some h with ⟨-, rfl⟩ | ⟨-, hid, -⟩
    · rfl
    · exact hid
  eq_of_unchanged h := by
    rcases checkAndSet_some h with ⟨-, rfl⟩ | ⟨hc, -, -⟩
    · rfl
    · cases hc
  replAttr_keeps h hr := by
    rcases checkAndSet_some h with ⟨hc, -⟩ | ⟨-, -, hkeeps⟩
    · cases hc
    · obtain ⟨hloc, hseq, hprio⟩ := hkeeps hr
      exact ⟨hloc, congrArg₂ (fun p n => toLex (VrfSvcsRuleGroupPrio.value p, n)) hprio hseq⟩

end VrfOutgoingSvcsRule

/-- `VrfOutgoingSvcsRuleList`. -/
abbrev VrfOutgoingSvcsRuleList := SvcsRuleList VrfOutgoingSvcsRule

/-- `VrfOutgoingSvcsRuleCache`. -/
abbrev VrfOutgoingSvcsRuleCache (W : Type) := SvcsRuleCache VrfOutgoingSvcsRule W

end OpxNasLinux
