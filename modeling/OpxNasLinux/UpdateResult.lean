import OpxNasLinux.UpdateRefused

/-!
# What `update_rule` makes of a rule

The constructor normalizes the addresses of a rule and turns the action of an
ACL rule that drops into a reject.  `update_rule` sets the attributes of a copy
one by one, and the setter does neither.

* `Param` is a keyword that the constructor and `update_rule` both take, and
  `overridden` the arguments that the constructor would be called with.
* `updateRule_done` says what is stored after a success.
* `updated_as_built_iff` says when that is the rule which the constructor
  would have built.
-/

namespace OpxNasLinux

open SvcsRule Run

/-! ## The numbers of the enumerations -/

def Af.value : Af → ℤ
  | .inet => 2
  | .inet6 => 10

@[simp] theorem Af.ofValue_value (af : Af) : Af.ofValue af.value = some af := by
  cases af <;> rfl

def VrfSvcsRuleType.value : VrfSvcsRuleType → ℤ
  | .ip => 1
  | .acl => 2
  | .outIp => 3
  | .snat => 4

@[simp] theorem VrfSvcsRuleType.ofValue_value (t : VrfSvcsRuleType) :
    VrfSvcsRuleType.ofValue t.value = some t := by
  cases t <;> rfl

theorem VrfSvcsRuleType.eq_value {val : ℤ} {t : VrfSvcsRuleType}
    (h : VrfSvcsRuleType.ofValue val = some t) : val = t.value := by
  rw [VrfSvcsRuleType.ofValue] at h
  split_ifs at h with h1 h2 h3 h4 <;>
    · cases h
      assumption

def VrfSvcsRuleAction.value : VrfSvcsRuleAction → ℤ
  | .allow => 1
  | .deny => 2
  | .dnat => 3
  | .reject => 4
  | .snat => 5

@[simp] theorem VrfSvcsRuleAction.ofValue_value (a : VrfSvcsRuleAction) :
    VrfSvcsRuleAction.ofValue a.value = some a := by
  cases a <;> rfl

theorem VrfSvcsRuleAction.eq_value {val : ℤ} {a : VrfSvcsRuleAction}
    (h : VrfSvcsRuleAction.ofValue val = some a) : val = a.value := by
  rw [VrfSvcsRuleAction.ofValue] at h
  split_ifs at h with h1 h2 h3 h4 h5 <;>
    · cases h
      assumption

def VrfSvcsRuleProto.value : VrfSvcsRuleProto → ℤ
  | .tcp => 1
  | .udp => 2
  | .icmp => 3
  | .all => 4
  | .icmpv6 => 5

@[simp] theorem VrfSvcsRuleProto.ofValue_value (p : VrfSvcsRuleProto) :
    VrfSvcsRuleProto.ofValue p.value = some p := by
  cases p <;> rfl

namespace VrfIncomingSvcsRule

/-! ## The arguments of the constructor -/

/-- A keyword argument of `update_rule` that the constructor takes too. -/
inductive Param where
  | ruleType (val : ℤ)
  | vrfName (val : Str)
  | action (val : ℤ)
  | af (val : ℤ)
  | srcIp (val : Bytes)
  | srcPrefixLen (val : ℤ)
  | protocol (val : ℤ)
  | dstPort (val : ℤ)
  | dstIp (val : Bytes)
  | dstPrefixLen (val : ℤ)
  | lowDstPort (val : ℤ)
  | highDstPort (val : ℤ)
  | seqNum (val : ℤ)
  | highPrio (val : Bool)
  | inIntf (val : Str)

namespace Param

/-- The keyword. -/
def name : Param → Str
  | .ruleType _ => "rule_type".toList
  | .vrfName _ => "vrf_name".toList
  | .action _ => "action".toList
  | .af _ => "af".toList
  | .srcIp _ => "src_ip".toList
  | .srcPrefixLen _ => "src_prefix_len".toList
  | .protocol _ => "protocol".toList
  | .dstPort _ => "dst_port".toList
  | .dstIp _ => "dst_ip".toList
  | .dstPrefixLen _ => "dst_prefix_len".toList
  | .lowDstPort _ => "low_dst_port".toList
  | .highDstPort _ => "high_dst_port".toList
  | .seqNum _ => "seq_num".toList
  | .highPrio _ => "high_prio".toList
  | .inIntf _ => "in_intf".toList

/-- The assignment that `update_rule` makes.  A rule has no attribute
`high_prio`, so that keyword makes one. -/
def attr : Param → Attr
  | .ruleType val => .ruleType val
  | .vrfName val => .vrfName val
  | .action val => .action val
  | .af val => .af val
  | .srcIp val => .srcIp val
  | .srcPrefixLen val => .srcPrefixLen val
  | .protocol val => .protocol val
  | .dstPort val => .dstPort val
  | .dstIp val => .dstIp val
  | .dstPrefixLen val => .dstPrefixLen val
  | .lowDstPort val => .lowDstPort val
  | .highDstPort val => .highDstPort val
  | .seqNum val => .seqNum val
  | .highPrio val => .other "high_prio".toList (if val then "True".toList else "False".toList)
  | .inIntf val => .inIntf val

/-- The constructor argument that the keyword sets. -/
def setArg (a : Args) : Param → Args
  | .ruleType val => { a with ruleType := val }
  | .vrfName val => { a with vrfName := val }
  | .action val => { a with action := val }
  | .af val => { a with af := val }
  | .srcIp val => { a with srcIp := some val }
  | .srcPrefixLen val => { a with srcPrefixLen := some val }
  | .protocol val => { a with protocol := some val }
  | .dstPort val => { a with dstPort := some val }
  | .dstIp val => { a with dstIp := some val }
  | .dstPrefixLen val => { a with dstPrefixLen := some val }
  | .lowDstPort val => { a with lowDstPort := some val }
  | .highDstPort val => { a with highDstPort := some val }
  | .seqNum val => { a with seqNum := val }
  | .highPrio val => { a with highPrio := val }
  | .inIntf val => { a with inIntf := some val }

end Param

/-- The `in_intf` argument for the interface of a rule. -/
def intfArg (r : VrfIncomingSvcsRule) : Option Str :=
  r.inIntf.map fun name => if r.negative = some true then '!' :: name else name

/-- The constructor arguments for the attributes of a rule. -/
def args (r : VrfIncomingSvcsRule) : Args :=
  { ruleType := r.ruleType.value, vrfName := r.vrfName, action := r.action.value, af := r.af.value
    srcIp := r.srcIp, srcPrefixLen := r.srcPrefixLen
    protocol := r.protocol.map VrfSvcsRuleProto.value
    dstPort := r.dstPort, dstIp := r.dstIp, dstPrefixLen := r.dstPrefixLen
    lowDstPort := r.lowDstPort, highDstPort := r.highDstPort, seqNum := r.seqNum
    ruleId := r.ruleId, highPrio := decide (r.grpPriority = .high), inIntf := r.intfArg }

/-- The arguments for the attributes of a rule, overridden by the keywords. -/
def overridden (r : VrfIncomingSvcsRule) (params : List Param) : Args :=
  params.foldl Param.setArg r.args

/-- The interface and its negation that the setter makes of `in_intf`. -/
def intfPair : Option Str → Option Str × Option Bool
  | none => (none, none)
  | some ('!' :: name) => (some name, some true)
  | some val => (some val, some false)

theorem setInIntf_pair (r : VrfIncomingSvcsRule) (val : Str) :
    ((r.setInIntf val).inIntf, (r.setInIntf val).negative) = intfPair (some val) := by
  unfold setInIntf
  split
  · rfl
  · rename_i hne
    exact (intfPair.eq_3 val hne).symm

/-- The arguments are the attributes of the rule as they are set one by one,
up to the interface and the priority. -/
structure Raw (a : Args) (r : VrfIncomingSvcsRule) : Prop where
  ruleType : VrfSvcsRuleType.ofValue a.ruleType = some r.ruleType
  vrfName : a.vrfName = r.vrfName
  action : VrfSvcsRuleAction.ofValue a.action = some r.action
  af : Af.ofValue a.af = some r.af
  srcIp : a.srcIp = r.srcIp
  srcPrefixLen : a.srcPrefixLen = r.srcPrefixLen
  protocol : protoArg a.protocol = some r.protocol
  dstPort : a.dstPort = r.dstPort
  dstIp : a.dstIp = r.dstIp
  dstPrefixLen : a.dstPrefixLen = r.dstPrefixLen
  lowDstPort : a.lowDstPort = r.lowDstPort
  highDstPort : a.highDstPort = r.highDstPort
  seqNum : a.seqNum = r.seqNum

theorem raw_args (r : VrfIncomingSvcsRule) : Raw r.args r := by
  refine ⟨by simp [args], rfl, by simp [args], by simp [args], rfl, rfl, ?_, rfl, rfl, rfl, rfl,
    rfl, rfl⟩
  cases hp : r.protocol <;> simp [args, hp, protoArg]

/-! ## The loop over the keywords -/

/-- An assignment that leaves an equal value alone sets it all the same. -/
theorem assign_set {r upd r' : VrfIncomingSvcsRule} {same changed : Bool}
    (h : assign r same upd = some (r', changed)) (hsame : same = true → upd = r) : r' = upd := by
  rw [assign] at h
  split at h
  · rename_i hs
    exact (Prod.mk.inj (Option.some_inj.mp h)).1.symm.trans (hsame hs).symm
  · exact (Prod.mk.inj (Option.some_inj.mp h)).1.symm

/-- The value of the keyword `in_intf`. -/
def Param.intf : Param → Option Str
  | .inIntf val => some val
  | _ => none

/-- One assignment of the loop. -/
theorem Raw.step {a : Args} {r r' : VrfIncomingSvcsRule} {p : Param} {changed : Bool}
    (hraw : Raw a r) (h : checkAndSet r p.attr = some (r', changed)) :
    Raw (p.setArg a) r' ∧ r'.grpPriority = r.grpPriority ∧
      (p.intf = none → r'.inIntf = r.inIntf ∧ r'.negative = r.negative) := by
  cases p with
  | ruleType val =>
    obtain ⟨t, ht, h⟩ := Option.bind_eq_some_iff.mp h
    split at h
    · obtain rfl := assign_set h (fun hs => by simp only [of_decide_eq_true hs])
      exact ⟨{ hraw with ruleType := ht }, rfl, fun _ => ⟨rfl, rfl⟩⟩
    · cases h
  | action val =>
    obtain ⟨act, hact, h⟩ := Option.bind_eq_some_iff.mp h
    split at h
    · obtain rfl := assign_set h (fun hs => by simp only [of_decide_eq_true hs])
      exact ⟨{ hraw with action := hact }, rfl, fun _ => ⟨rfl, rfl⟩⟩
    · cases h
  | af val =>
    obtain ⟨af, haf, h⟩ := Option.bind_eq_some_iff.mp h
    obtain rfl := assign_set h (fun hs => by rw [of_decide_eq_true hs])
    exact ⟨{ hraw with af := haf }, rfl, fun _ => ⟨rfl, rfl⟩⟩
  | protocol val =>
    obtain ⟨proto, hproto, h⟩ := Option.bind_eq_some_iff.mp h
    obtain rfl := assign_set h (fun hs => by rw [of_decide_eq_true hs])
    exact ⟨{ hraw with protocol := congrArg (Option.map some) hproto }, rfl, fun _ => ⟨rfl, rfl⟩⟩
  | vrfName val =>
    obtain rfl := assign_set h (fun hs => by rw [of_decide_eq_true hs])
    exact ⟨{ hraw with vrfName := rfl }, rfl, fun _ => ⟨rfl, rfl⟩⟩
  | srcIp val =>
    obtain rfl := assign_set h (fun hs => by rw [of_decide_eq_true hs])
    exact ⟨{ hraw with srcIp := rfl }, rfl, fun _ => ⟨rfl, rfl⟩⟩
  | srcPrefixLen val =>
    obtain rfl := assign_set h (fun hs => by rw [of_decide_eq_true hs])
    exact ⟨{ hraw with srcPrefixLen := rfl }, rfl, fun _ => ⟨rfl, rfl⟩⟩
  | dstPort val =>
    obtain rfl := assign_set h (fun hs => by rw [of_decide_eq_true hs])
    exact ⟨{ hraw with dstPort := rfl }, rfl, fun _ => ⟨rfl, rfl⟩⟩
  | dstIp val =>
    obtain rfl := assign_set h (fun hs => by rw [of_decide_eq_true hs])
    exact ⟨{ hraw with dstIp := rfl }, rfl, fun _ => ⟨rfl, rfl⟩⟩
  | dstPrefixLen val =>
    obtain rfl := assign_set h (fun hs => by rw [of_decide_eq_true hs])
    exact ⟨{ hraw with dstPrefixLen := rfl }, rfl, fun _ => ⟨rfl, rfl⟩⟩
  | lowDstPort val =>
    obtain rfl := assign_set h (fun hs => by rw [of_decide_eq_true hs])
    exact ⟨{ hraw with lowDstPort := rfl }, rfl, fun _ => ⟨rfl, rfl⟩⟩
  | highDstPort val =>
    obtain rfl := assign_set h (fun hs => by rw [of_decide_eq_true hs])
    exact ⟨{ hraw with highDstPort := rfl }, rfl, fun _ => ⟨rfl, rfl⟩⟩
  | seqNum val =>
    obtain rfl := assign_set h (fun hs => by rw [of_decide_eq_true hs])
    exact ⟨{ hraw with seqNum := rfl }, rfl, fun _ => ⟨rfl, rfl⟩⟩
  | highPrio val =>
    rcases assign_some h with ⟨-, rfl⟩ | ⟨-, rfl⟩
    · exact ⟨{ hraw with }, rfl, fun _ => ⟨rfl, rfl⟩⟩
    · exact ⟨{ hraw with }, rfl, fun _ => ⟨rfl, rfl⟩⟩
  | inIntf val =>
    have hset : Raw a (r.setInIntf val) ∧ (r.setInIntf val).grpPriority = r.grpPriority := by
      unfold setInIntf
      split
      · exact ⟨{ hraw with }, rfl⟩
      · exact ⟨{ hraw with }, rfl⟩
    rcases assign_some h with ⟨-, rfl⟩ | ⟨-, rfl⟩
    · exact ⟨{ hraw with }, rfl, by rintro ⟨⟩⟩
    · exact ⟨{ hset.1 with }, hset.2, by rintro ⟨⟩⟩

theorem applyParams_cons {r upd : VrfIncomingSvcsRule} {attr : Attr} {rest changed : List Attr}
    (h : SvcsRuleCache.applyParams r (attr :: rest) = some (upd, changed)) :
    ∃ r' ch changed', checkAndSet r attr = some (r', ch) ∧
      SvcsRuleCache.applyParams r' rest = some (upd, changed') := by
  rw [SvcsRuleCache.applyParams] at h
  split at h
  · cases h
  · rename_i r' ch hset
    obtain ⟨⟨upd', changed'⟩, hrest, heq⟩ := Option.map_eq_some_iff.mp h
    obtain ⟨rfl, -⟩ := Prod.mk.inj heq
    exact ⟨r', ch, changed', hset, hrest⟩

/-- After the loop the attributes are those of the overridden arguments. -/
theorem Raw.loop {a : Args} {r upd : VrfIncomingSvcsRule} {params : List Param}
    {changed : List Attr} (hraw : Raw a r)
    (h : SvcsRuleCache.applyParams r (params.map Param.attr) = some (upd, changed)) :
    Raw (params.foldl Param.setArg a) upd ∧ upd.grpPriority = r.grpPriority := by
  induction params generalizing a r changed with
  | nil =>
    obtain ⟨rfl, -⟩ : r = upd ∧ [] = changed := by simpa [SvcsRuleCache.applyParams] using h
    exact ⟨hraw, rfl⟩
  | cons p rest ih =>
    obtain ⟨r', ch, changed', hset, hrest⟩ := applyParams_cons h
    obtain ⟨hraw', hprio, -⟩ := hraw.step hset
    obtain ⟨hdone, hprio'⟩ := ih hraw' hrest
    exact ⟨hdone, hprio'.trans hprio⟩

/-- The value given for `in_intf`. -/
def intfParam (params : List Param) : Option Str := params.findSome? Param.intf

/-- No other keyword is called `in_intf`. -/
theorem intfParam_of_notMem {params : List Param}
    (h : "in_intf".toList ∉ params.map Param.name) : intfParam params = none := by
  rw [intfParam, List.findSome?_eq_none_iff]
  intro p hp
  cases p with
  | inIntf val => exact absurd (List.mem_map.mpr ⟨_, hp, rfl⟩) h
  | _ => rfl

/-- The interface after the loop.  A name that equals the stored one is not
assigned, whatever its negation. -/
theorem loop_intf {r upd : VrfIncomingSvcsRule} {params : List Param} {changed : List Attr}
    (hn : (params.map Param.name).Nodup)
    (h : SvcsRuleCache.applyParams r (params.map Param.attr) = some (upd, changed)) :
    (upd.inIntf, upd.negative) =
      match intfParam params with
      | none => (r.inIntf, r.negative)
      | some val =>
        if some val = r.inIntf then (r.inIntf, r.negative) else intfPair (some val) := by
  induction params generalizing r changed with
  | nil =>
    obtain ⟨rfl, -⟩ : r = upd ∧ [] = changed := by simpa [SvcsRuleCache.applyParams] using h
    rfl
  | cons p rest ih =>
    obtain ⟨r', ch, changed', hset, hrest⟩ := applyParams_cons h
    rw [List.map_cons, List.nodup_cons] at hn
    have hupd := ih hn.2 hrest
    cases hp : p.intf with
    | none =>
      obtain ⟨-, -, hkeep⟩ := (raw_args r).step hset
      obtain ⟨hintf, hneg⟩ := hkeep hp
      rw [hupd, hintf, hneg, intfParam, intfParam, List.findSome?_cons, hp]
    | some val =>
      cases p with
      | inIntf val' =>
        obtain rfl : val' = val := Option.some_inj.mp hp
        rw [intfParam_of_notMem hn.1] at hupd
        rw [hupd, intfParam, List.findSome?_cons, hp]
        replace hset : assign r (decide (some val' = r.inIntf)) (r.setInIntf val') =
          some (r', ch) := hset
        rw [assign] at hset
        dsimp only
        split_ifs at hset ⊢ with h1 h2 h3
        · obtain ⟨rfl, -⟩ := Prod.mk.inj (Option.some_inj.mp hset)
          rfl
        · exact absurd (decide_eq_true h1) h2
        · exact absurd (of_decide_eq_true h3) h1
        · obtain ⟨rfl, -⟩ := Prod.mk.inj (Option.some_inj.mp hset)
          exact setInIntf_pair r val'
      | _ => cases hp

theorem foldl_inIntf {a : Args} {params : List Param} (hn : (params.map Param.name).Nodup) :
    (params.foldl Param.setArg a).inIntf = (intfParam params).or a.inIntf := by
  induction params generalizing a with
  | nil => rfl
  | cons p rest ih =>
    rw [List.map_cons, List.nodup_cons] at hn
    rw [List.foldl_cons, ih hn.2, intfParam, intfParam, List.findSome?_cons]
    cases p with
    | inIntf val =>
      have hrest : intfParam rest = none := intfParam_of_notMem hn.1
      rw [intfParam] at hrest
      rw [hrest]
      rfl
    | _ => rfl

/-! ## The rule that the constructor builds -/

/-- The rule that the constructor makes of valid arguments and normalized
addresses. -/
def build (a : Args) (r : VrfIncomingSvcsRule) (src dst : Option Bytes × Option ℤ) :
    VrfIncomingSvcsRule :=
  let rule : VrfIncomingSvcsRule :=
    { r with
      srcIp := src.1, srcPrefixLen := src.2, dstIp := dst.1, dstPrefixLen := dst.2
      action := storedAction r.ruleType r.action, validAction := storedAction_valid r.validAction
      grpPriority := .ofTruth a.highPrio, packetCount := none, byteCount := none
      ruleId := a.ruleId, inIntf := none, negative := none, others := ∅ }
  match a.inIntf with
  | none => rule
  | some val => rule.setInIntf val

theorem init_eq {a : Args} {r : VrfIncomingSvcsRule} (hraw : Raw a r) :
    init a = if r.action = .dnat ∧ r.dstIp = none then none
      else (normalizeIpPrefix r.af r.srcIp r.srcPrefixLen).bind fun src =>
        (normalizeIpPrefix r.af r.dstIp r.dstPrefixLen).map fun dst => build a r src dst := by
  rw [init]
  simp only [hraw.ruleType, hraw.af, hraw.protocol, hraw.action, hraw.srcIp, hraw.srcPrefixLen,
    hraw.dstIp, hraw.dstPrefixLen, hraw.vrfName, hraw.dstPort, hraw.lowDstPort, hraw.highDstPort,
    hraw.seqNum, Option.bind_eq_bind, Option.bind_some, dif_pos r.validType, dif_pos r.validAction]
  split_ifs
  · rfl
  · cases normalizeIpPrefix r.af r.srcIp r.srcPrefixLen with
    | none => rfl
    | some src =>
      cases normalizeIpPrefix r.af r.dstIp r.dstPrefixLen with
      | none => rfl
      | some dst => rfl

/-- The constructor normalizes the addresses and makes the interface of the
rule from its argument. -/
theorem init_cases {a : Args} {r : VrfIncomingSvcsRule} (h : init a = some r) :
    ∃ raw src dst, Raw a raw ∧ ¬ (raw.action = .dnat ∧ raw.dstIp = none) ∧
      normalizeIpPrefix raw.af raw.srcIp raw.srcPrefixLen = some src ∧
      normalizeIpPrefix raw.af raw.dstIp raw.dstPrefixLen = some dst ∧
      r = build a raw src dst := by
  have h0 := h
  rw [init] at h
  obtain ⟨ruleType, htype, h⟩ := Option.bind_eq_some_iff.mp h
  obtain ⟨af, haf, h⟩ := Option.bind_eq_some_iff.mp h
  obtain ⟨protocol, hproto, h⟩ := Option.bind_eq_some_iff.mp h
  obtain ⟨action, haction, h⟩ := Option.bind_eq_some_iff.mp h
  split at h
  · next ht =>
    split at h
    · next ha =>
      let raw : VrfIncomingSvcsRule :=
        { ruleType, vrfName := a.vrfName, af, srcIp := a.srcIp, srcPrefixLen := a.srcPrefixLen
          protocol, dstPort := a.dstPort, lowDstPort := a.lowDstPort
          highDstPort := a.highDstPort, dstIp := a.dstIp, dstPrefixLen := a.dstPrefixLen
          seqNum := a.seqNum, action, grpPriority := .high, packetCount := none
          byteCount := none, ruleId := none, inIntf := none, negative := none, others := ∅
          validType := ht, validAction := ha }
      have hraw : Raw a raw :=
        ⟨htype, rfl, haction, haf, rfl, rfl, hproto, rfl, rfl, rfl, rfl, rfl, rfl⟩
      rw [init_eq hraw] at h0
      split_ifs at h0 with hdnat
      obtain ⟨src, hsrc, h0⟩ := Option.bind_eq_some_iff.mp h0
      obtain ⟨dst, hdst, h0⟩ := Option.map_eq_some_iff.mp h0
      exact ⟨raw, src, dst, hraw, hdnat, hsrc, hdst, h0.symm⟩
    · cases h
  · cases h

/-- Two rules agree in the key attributes, in `negative`, in the sequence
number and in the group priority. -/
structure Agree (r b : VrfIncomingSvcsRule) : Prop where
  key : keyAttrs r = keyAttrs b
  negative : r.negative = b.negative
  seqNum : r.seqNum = b.seqNum
  grpPriority : r.grpPriority = b.grpPriority

/-- `normalize_ip_prefix` leaves the address and its prefix length alone. -/
def Normal (af : Af) (ip : Option Bytes) (prefixLen : Option ℤ) : Prop :=
  normalizeIpPrefix af ip prefixLen = some (ip, prefixLen)

theorem build_fields (a : Args) (r : VrfIncomingSvcsRule) (src dst : Option Bytes × Option ℤ) :
    let b := build a r src dst
    b.ruleType = r.ruleType ∧ b.vrfName = r.vrfName ∧ b.af = r.af ∧
      (b.srcIp, b.srcPrefixLen) = src ∧ b.protocol = r.protocol ∧ b.dstPort = r.dstPort ∧
      b.lowDstPort = r.lowDstPort ∧ b.highDstPort = r.highDstPort ∧
      (b.dstIp, b.dstPrefixLen) = dst ∧ b.seqNum = r.seqNum ∧
      b.action = storedAction r.ruleType r.action ∧ b.grpPriority = .ofTruth a.highPrio ∧
      (b.inIntf, b.negative) = intfPair a.inIntf := by
  dsimp only
  rw [build]
  cases a.inIntf with
  | none => exact ⟨rfl, rfl, rfl, rfl, rfl, rfl, rfl, rfl, rfl, rfl, rfl, rfl, rfl⟩
  | some val =>
    dsimp only
    rw [setInIntf_pair]
    unfold setInIntf
    split <;> exact ⟨rfl, rfl, rfl, rfl, rfl, rfl, rfl, rfl, rfl, rfl, rfl, rfl, rfl⟩

theorem storedAction_eq_self_iff {t : VrfSvcsRuleType} {act : VrfSvcsRuleAction} :
    storedAction t act = act ↔ ¬ (act = .deny ∧ t = .acl) := by
  rw [storedAction]
  split_ifs with h
  · exact iff_of_false (by rw [h.1]; exact by rintro ⟨⟩) (not_not_intro h)
  · exact iff_of_true rfl h

/-- A rule whose attributes were set one by one agrees with the rule that the
constructor builds of them, when the constructor has nothing to change. -/
theorem agree_init_iff {a : Args} {r : VrfIncomingSvcsRule} (hraw : Raw a r) :
    (∃ b, init a = some b ∧ Agree r b) ↔
      Normal r.af r.srcIp r.srcPrefixLen ∧ Normal r.af r.dstIp r.dstPrefixLen ∧
        ¬ (r.action = .deny ∧ r.ruleType = .acl) ∧ (r.inIntf, r.negative) = intfPair a.inIntf ∧
        r.grpPriority = .ofTruth a.highPrio := by
  rw [init_eq hraw]
  constructor
  · rintro ⟨b, hb, hkey, hneg, hseq, hprio⟩
    split_ifs at hb
    obtain ⟨src, hsrc, hb⟩ := Option.bind_eq_some_iff.mp hb
    obtain ⟨dst, hdst, rfl⟩ := Option.map_eq_some_iff.mp hb
    obtain ⟨-, -, -, hsrc', -, -, -, -, hdst', -, haction, hprio', hintf⟩ :=
      build_fields a r src dst
    simp only [keyAttrs, Key.mk.injEq] at hkey
    obtain ⟨-, -, -, hsip, hslen, -, -, -, -, hact, hint, hdip, hdlen⟩ := hkey
    refine ⟨?_, ?_, ?_, ?_, ?_⟩
    · rw [Normal, hsrc, ← hsrc', hsip, hslen]
    · rw [Normal, hdst, ← hdst', hdip, hdlen]
    · exact storedAction_eq_self_iff.mp (haction.symm.trans hact.symm)
    · rw [← hintf, hint, hneg]
    · exact hprio.trans hprio'
  · rintro ⟨hsrc, hdst, hact, hintf, hprio⟩
    have hdnat : ¬ (r.action = .dnat ∧ r.dstIp = none) := by
      rintro ⟨-, hnone⟩
      rw [Normal, hnone] at hdst
      cases hdst
    rw [if_neg hdnat, hsrc, hdst]
    refine ⟨build a r (r.srcIp, r.srcPrefixLen) (r.dstIp, r.dstPrefixLen), rfl, ?_⟩
    obtain ⟨htype, hvrf, haf, hsrc', hproto, hport, hlow, hhigh, hdst', hseq, haction, hprio',
      hintf'⟩ := build_fields a r (r.srcIp, r.srcPrefixLen) (r.dstIp, r.dstPrefixLen)
    rw [storedAction_eq_self_iff.mpr hact] at haction
    obtain ⟨hsip, hslen⟩ := Prod.mk.inj hsrc'
    obtain ⟨hdip, hdlen⟩ := Prod.mk.inj hdst'
    obtain ⟨hint, hneg⟩ := Prod.mk.inj (hintf'.trans hintf.symm)
    refine ⟨?_, hneg.symm, hseq.symm, hprio.trans hprio'.symm⟩
    simp only [keyAttrs, htype, hvrf, haf, hsip, hslen, hproto, hport, hlow, hhigh, haction, hint,
      hdip, hdlen]

/-- The constructor has nothing to change in the overridden attributes of a
rule, and the setter has let no keyword pass. -/
structure BuiltAlike (old : VrfIncomingSvcsRule) (params : List Param) : Prop where
  /-- The source address is masked to its prefix. -/
  src : ∀ af, Af.ofValue (old.overridden params).af = some af →
    Normal af (old.overridden params).srcIp (old.overridden params).srcPrefixLen
  /-- So is the destination address. -/
  dst : ∀ af, Af.ofValue (old.overridden params).af = some af →
    Normal af (old.overridden params).dstIp (old.overridden params).dstPrefixLen
  /-- The rule is no ACL rule that drops. -/
  action : ¬ ((old.overridden params).action = 2 ∧ (old.overridden params).ruleType = 2)
  /-- The name of a negated interface is not given without its `!`. -/
  intf : ∀ val ∈ intfParam params, old.inIntf = some val →
    (old.inIntf, old.negative) = intfPair (some val)
  /-- The stored interface is as the setter leaves it. -/
  storedIntf : intfParam params = none → (old.inIntf, old.negative) = intfPair old.intfArg
  /-- The priority is not changed. -/
  prio : (old.overridden params).highPrio = decide (old.grpPriority = .high)

theorem builtAlike_core (r : VrfIncomingSvcsRule) (params : List Param) :
    BuiltAlike (core r) params ↔ BuiltAlike r params :=
  ⟨fun h => ⟨h.src, h.dst, h.action, h.intf, h.storedIntf, h.prio⟩,
    fun h => ⟨h.src, h.dst, h.action, h.intf, h.storedIntf, h.prio⟩⟩

/-- After the loop the rule agrees with the one that the constructor would
build, exactly when the constructor has nothing to change. -/
theorem applyParams_agree_iff {old upd : VrfIncomingSvcsRule} {params : List Param}
    {changed : List Attr} (hn : (params.map Param.name).Nodup)
    (h : SvcsRuleCache.applyParams old (params.map Param.attr) = some (upd, changed)) :
    (∃ b, init (old.overridden params) = some b ∧ Agree upd b) ↔ BuiltAlike old params := by
  obtain ⟨hraw, hprio⟩ := (raw_args old).loop h
  have hintf := loop_intf hn h
  have harg : (old.overridden params).inIntf = (intfParam params).or old.intfArg :=
    foldl_inIntf hn
  replace hraw : Raw (old.overridden params) upd := hraw
  have haction : upd.action = .deny ∧ upd.ruleType = .acl ↔
      (old.overridden params).action = 2 ∧ (old.overridden params).ruleType = 2 := by
    rw [VrfSvcsRuleAction.eq_value hraw.action, VrfSvcsRuleType.eq_value hraw.ruleType]
    cases upd.action <;> cases upd.ruleType <;> decide
  have hpair : (upd.inIntf, upd.negative) = intfPair (old.overridden params).inIntf ↔
      (∀ val ∈ intfParam params, old.inIntf = some val →
        (old.inIntf, old.negative) = intfPair (some val)) ∧
      (intfParam params = none → (old.inIntf, old.negative) = intfPair old.intfArg) := by
    rw [hintf, harg]
    cases hp : intfParam params with
    | none => simp
    | some val =>
      dsimp only
      split_ifs with heq
      · simp [← heq]
      · refine iff_of_true rfl ⟨?_, fun hf => nomatch hf⟩
        rintro val' hval' hold
        cases hval'
        exact absurd hold.symm heq
  rw [agree_init_iff hraw, haction, hpair, hprio]
  constructor
  · rintro ⟨hsrc, hdst, hact, ⟨hi, hs⟩, hpr⟩
    refine ⟨?_, ?_, hact, hi, hs, ?_⟩
    · intro af haf
      cases haf.symm.trans hraw.af
      rw [hraw.srcIp, hraw.srcPrefixLen]
      exact hsrc
    · intro af haf
      cases haf.symm.trans hraw.af
      rw [hraw.dstIp, hraw.dstPrefixLen]
      exact hdst
    · rw [hpr]
      cases (old.overridden params).highPrio <;> rfl
  · rintro ⟨hsrc, hdst, hact, hi, hs, hpr⟩
    have hsrc' := hsrc _ hraw.af
    have hdst' := hdst _ hraw.af
    rw [hraw.srcIp, hraw.srcPrefixLen] at hsrc'
    rw [hraw.dstIp, hraw.dstPrefixLen] at hdst'
    refine ⟨hsrc', hdst', hact, ⟨hi, hs⟩, ?_⟩
    rw [hpr]
    cases old.grpPriority <;> rfl

end VrfIncomingSvcsRule

namespace SvcsRuleCache

open VrfIncomingSvcsRule (Param Agree BuiltAlike)

variable {W : Type}

/-! ## What is stored after a success -/

/-- A loop that changes nothing returns the rule. -/
theorem applyParams_unchanged {R : Type} [SvcsRule R] [LawfulSvcsRule R] {rule upd : R}
    {params : List (Attr R)} (h : applyParams rule params = some (upd, [])) : upd = rule := by
  induction params generalizing rule with
  | nil =>
    exact (Prod.mk.inj (Option.some_inj.mp h)).1.symm
  | cons attr rest ih =>
    rw [applyParams] at h
    split at h
    · cases h
    · rename_i rule' ch hset
      obtain ⟨⟨upd', changed'⟩, hrest, heq⟩ := Option.map_eq_some_iff.mp h
      obtain ⟨rfl, hch⟩ := Prod.mk.inj heq
      cases ch with
      | true => cases hch
      | false =>
        obtain rfl : changed' = [] := hch
        exact (ih hrest).trans (LawfulSvcsRule.eq_of_unchanged hset)

/-- A rule that has an id keeps everything when it is given the same one. -/
theorem setRuleId_self {r : VrfIncomingSvcsRule} {id : ℤ} (hid : r.ruleId = some id) :
    setRuleId id r = r := by
  cases r
  cases hid
  rfl

/-- After `update_rule` has succeeded, the rule with the id is the copy with
the attributes set. -/
theorem updateRule_done {h : Handlers VrfIncomingSvcsRule W} {ord : DictOrder} {id : ℤ}
    {params : List (Attr VrfIncomingSvcsRule)} {s s' : VrfIncomingSvcsRuleCache W} (hs : s.Sound)
    (hmax : s.idGenerator.maxId = none)
    (hout : updateRule h ord id params s = (.returned true, s')) :
    ∃ lc old upd changed, (∃ r ∈ s.stored lc, core r = core old) ∧ old.ruleId = some id ∧
      applyParams old params = some (upd, changed) ∧ ∃ lc', upd ∈ s'.stored lc' := by
  have hs' : s.acquire.Sound := hs.setIds _ _ (fun _ hi => hi) hs.gen
  obtain ⟨hsteps, -, hfound⟩ := findRuleById_spec (h := h) ord id hs'
  have hsame := findRuleById_sameRules h ord id s.acquire
  have hids := findRuleById_ids h ord id s.acquire
  have hsound := hs'.steps hsteps
  rw [updateRule] at hout
  generalize findRuleById h ord id s.acquire = found at *
  obtain ⟨out, t⟩ := found
  dsimp only at hids hsame hsound
  rcases out with (_ | ⟨old, idx⟩) | _
  · cases hout
  · obtain ⟨hold, hid⟩ := hfound old idx rfl
    have holdmem := List.mem_of_getElem? hold
    obtain ⟨r, hr, hcore⟩ := hsame.mem holdmem
    dsimp only at hout
    cases happly : applyParams old params with
    | none =>
      rw [happly] at hout
      cases hout
    | some p =>
      obtain ⟨upd, changed⟩ := p
      obtain ⟨hidupd, -⟩ := applyParams_spec happly
      refine ⟨_, old, upd, changed, ⟨r, hr, hcore⟩, hid, happly, ?_⟩
      rw [happly] at hout
      dsimp only at hout
      split_ifs at hout with hnone hstr hmatch
      · obtain ⟨-, rfl⟩ := Prod.mk.inj hout
        rw [List.isEmpty_iff.mp hnone] at happly
        rw [applyParams_unchanged happly]
        exact ⟨_, holdmem⟩
      · cases hout
      · cases hout
      · rw [updateChecked] at hout
        split_ifs at hout with hrepl
        · have hdone := replaceRule_done h ord id upd hsound
          generalize replaceRule h ord id upd t = replaced at *
          obtain ⟨out2, t2⟩ := replaced
          rcases out2 with b | _
          · obtain ⟨hb, rfl⟩ := Prod.mk.inj hout
            exact hdone hb
          · cases hout
        · rw [not_or, Bool.not_eq_true, Bool.not_eq_true] at hstr
          have hunmatched := unmatched_of_findRuleByMatch hsound hmatch
          rw [hid] at hunmatched
          rw [updateByDelete] at hout
          cases hdel : deleteRuleById h ord id t with
          | mk out2 u =>
            rw [hdel] at hout
            rcases out2 with (_ | del) | _
            · cases hout
            · obtain ⟨-, -, -, g, -, hatt⟩ := insertRule_deleted hsound (by rw [hids]; exact hmax)
                holdmem hid (hidupd.trans hid) hstr.2 hunmatched hdel
              rw [setRuleId_self (hidupd.trans hid)] at hatt
              dsimp only at hout
              generalize insertRule h upd u = inserted at *
              obtain ⟨out3, rule3, u3⟩ := inserted
              rcases out3 with (_ | _) | _
              · dsimp only at hout
                split at hout <;> cases hout
              · obtain ⟨-, rfl⟩ := Prod.mk.inj hout
                exact ⟨_, hatt.done rfl⟩
              · cases hout
            · cases hout
  · cases hout

/-- When `update_rule` has succeeded in a reachable state, the rule that is
stored under the id agrees with the one that the constructor would have built
of the old attributes and the keywords, exactly when the constructor has
nothing to change in them. -/
theorem updated_as_built_iff (h : Handlers VrfIncomingSvcsRule W) (w : W)
    (requests : List (Request VrfIncomingSvcsRule))
    (hclear : Along (step h) (ClearsThrough h) (init w) requests) (ord : DictOrder) (id : ℤ)
    (params : List Param) (hn : (params.map Param.name).Nodup) (old : VrfIncomingSvcsRule)
    (hold : old ∈ (run (step h) (init w) requests).stored old.loc) (hid : old.ruleId = some id)
    (hout : (updateRule h ord id (params.map Param.attr)
      (run (step h) (init w) requests)).1 = .returned true) :
    (∃ lc, ∃ r ∈ (updateRule h ord id (params.map Param.attr)
        (run (step h) (init w) requests)).2.stored lc, r.ruleId = some id ∧
        ∃ b, VrfIncomingSvcsRule.init (old.overridden params) = some b ∧ Agree r b) ↔
      BuiltAlike old params := by
  have hs := run_sound hclear
  have hmax := run_maxId hclear
  generalize run (step h) (init w) requests = s at *
  have hs' := hs.steps (updateRule_steps (h := h) ord id (params.map Param.attr) hs)
  obtain ⟨lc, old', upd, changed, ⟨r, hr, hcore⟩, hid', happly, lc', hupd⟩ :=
    updateRule_done hs hmax (Prod.ext hout rfl)
  -- the old version with its counters read has the same arguments
  have hrid : r.ruleId = some id := (congrArg VrfIncomingSvcsRule.ruleId hcore).trans hid'
  obtain rfl : old = r := hs.ruleId_inj hold hr (hid.trans hrid.symm)
  have hargs := congrArg (VrfIncomingSvcsRule.overridden · params) hcore
  change old.overridden params = old'.overridden params at hargs
  have halike : BuiltAlike old params ↔ BuiltAlike old' params := by
    rw [← VrfIncomingSvcsRule.builtAlike_core, hcore, VrfIncomingSvcsRule.builtAlike_core]
  have hidupd : upd.ruleId = some id := (applyParams_spec happly).1.trans hid'
  rw [hargs, halike, ← VrfIncomingSvcsRule.applyParams_agree_iff hn happly]
  constructor
  · rintro ⟨lc'', r, hr', hrid', hb⟩
    obtain rfl : r = upd := hs'.ruleId_inj hr' hupd (hrid'.trans hidupd.symm)
    exact hb
  · exact fun hb => ⟨lc', upd, hupd, hidupd, hb⟩

theorem updated_as_built_small :
    (∃ lc, ∃ r ∈ (updateRule (answering VrfIncomingSvcsRule true) listOrder 1
        ([Param.dstPort 22].map Param.attr)
        (run (step (answering VrfIncomingSvcsRule true)) (init ())
          [.insertRule (allowAll 10 "eth1".toList)])).2.stored lc, r.ruleId = some 1 ∧
        ∃ b, VrfIncomingSvcsRule.init
          ((setRuleId 1 (allowAll 10 "eth1".toList)).overridden [.dstPort 22]) = some b ∧
            Agree r b) ↔
      BuiltAlike (setRuleId 1 (allowAll 10 "eth1".toList)) [.dstPort 22] :=
  updated_as_built_iff (answering VrfIncomingSvcsRule true) ()
    [.insertRule (allowAll 10 "eth1".toList)] ⟨Or.inl trivial, trivial⟩ listOrder 1 [.dstPort 22]
    (by decide) _ (List.mem_singleton_self _) rfl (by decide +kernel)

/-- An ACL rule that accepts is updated to drop.  It is stored with the action
`deny`, and the constructor would have made it a reject. -/
theorem updated_not_as_built :
    let old := setRuleId 1 (allowAll 10 "eth1".toList)
    let out := updateRule (answering VrfIncomingSvcsRule true) listOrder 1
      ([Param.action 2].map Param.attr)
      (run (step (answering VrfIncomingSvcsRule true)) (init ())
        [.insertRule (allowAll 10 "eth1".toList)])
    out.1 = .returned true ∧ ∃ r ∈ out.2.stored old.loc, r.ruleId = some 1 ∧
      ∃ b, VrfIncomingSvcsRule.init (old.overridden [.action 2]) = some b ∧
        r.action ≠ b.action := by
  intro old out
  refine ⟨by decide +kernel, { old with action := .deny, validAction := rfl },
    List.mem_singleton_self _, rfl,
    { old with action := .reject, validAction := rfl }, rfl, by decide⟩

end SvcsRuleCache

end OpxNasLinux
