import OpxNasLinux.IncomingConfig

/-!
# A rule that a request creates

`create_done` takes a creation apart that was answered with an id: `Created`
holds of its request, of the rule that was built, and of the caches before and
after.

* `created_shown` says what a get reports about the rule.
* `created_removed` says what a deletion with the same attributes leaves.
-/

namespace OpxNasLinux

open SvcsRule SvcsRuleCache Run

namespace IncomingConfig

open VrfIncomingSvcsRule (Args toCpsObj reportedAction storedAction intfPair)
open BaseVrf (Operation blue editing)

/-! ## A creation -/

section

variable {h : Handlers VrfIncomingSvcsRule VrfTool} {ord : CallOrder} {o o' : CpsObj}
  {s s' : VrfIncomingSvcsRuleCache VrfTool}

/-- A creation that was answered with the id `i`: it built the rule `r` of the
arguments `a`, and iptables took the rule. -/
structure Created (h : Handlers VrfIncomingSvcsRule VrfTool) (o : CpsObj)
    (s s' : VrfIncomingSvcsRuleCache VrfTool) (p : InParams) (a : Args) (t : VrfTool)
    (r : VrfIncomingSvcsRule) (i : ℤ) (idx : ℕ) : Prop where
  params : (readParams .create o).normalize = some p
  ports : p.portsOk = true
  input : p.checkRuleInput .create = true
  args : p.args s.world = (some a, t)
  rule : VrfIncomingSvcsRule.init { a with seqNum := p.seqNum.getD 0, ruleId := p.ruleId } = some r
  prints : strRaises r = false
  taken : takeId (ruleId r) s.idGenerator = (some i, s'.idGenerator)
  inserted : Inserted (setRuleId i r) idx (s.setWorld t) s'
  programmed : h.procRule .insert (setRuleId i r) (some idx) t = (.returned true, s'.world)
  sound : s'.Sound

theorem create_done (hs : s.Sound)
    (hcreate : configIncomingIpSvcsInt h ord .create o s = (true, o', s')) :
    ∃ p a t r i idx, o' = { o with id := some i } ∧ Created h o s s' p a t r i idx := by
  rw [configIncomingIpSvcsInt] at hcreate
  rcases hp : (readParams .create o).normalize with _ | p
  · rw [hp] at hcreate
    cases hcreate
  rw [hp] at hcreate
  dsimp only at hcreate
  split_ifs at hcreate with hok
  · obtain ⟨hports, hinput⟩ := Bool.and_eq_true_iff.mp hok
    rw [configRule, createRule] at hcreate
    split_ifs at hcreate with hl4
    · rcases hargs : p.args s.world with ⟨_ | a, t⟩
      · rw [hargs] at hcreate
        cases hcreate
      rw [hargs] at hcreate
      dsimp only at hcreate
      rw [processVrfSvcsRuleAdd] at hcreate
      rcases hinit : VrfIncomingSvcsRule.init
        { a with seqNum := p.seqNum.getD 0, ruleId := p.ruleId } with _ | r
      · rw [hinit] at hcreate
        cases hcreate
      rw [hinit, processAdd] at hcreate
      have hst : (s.setWorld t).Sound := BaseVrf.sound_setWorld hs t
      have hsteps := insertRule_steps (h := h) hst r
      rcases hins : insertRule h r (s.setWorld t) with ⟨(_ | _) | _, r', u⟩ <;> rw [hins] at hcreate
      · cases hcreate
      · obtain ⟨hprints, i, g, idx, hid, rfl, rfl, hinserted, hproc⟩ := insertRule_done hst rfl hins
        rw [hins] at hsteps
        change (true, { o with id := some i }, u) = (true, o', s') at hcreate
        simp only [Prod.mk.injEq, true_and] at hcreate
        obtain ⟨rfl, rfl⟩ := hcreate
        exact ⟨p, a, t, r, i, idx, rfl, hp, hports, hinput, hargs, hinit, hprints, hid, hinserted,
          hproc, hst.steps hsteps⟩
      · cases hcreate
    · cases hcreate
  · cases hcreate

/-- The arguments of a request, forwarded or not. -/
theorem args_cases {p : InParams} {a : Args} {t t' : VrfTool} (h : p.args t = (some a, t')) :
    ∃ vrf af, p.vrfName = some vrf ∧ p.af = some af ∧
      (p.isVtyAclConfig = false ∧ vrf ≠ defaultVrf ∧
          a = p.ruleArgs vrf af 3 (VrfTool.getVethIp af vrf true t).1 ∧
          t' = (VrfTool.getVethIp af vrf true t).2 ∨
        ¬ (p.isVtyAclConfig = false ∧ vrf ≠ defaultVrf) ∧ t' = t ∧
          ∃ action, p.action = some action ∧ a = p.ruleArgs vrf af action p.dstIp) := by
  rw [InParams.args] at h
  rcases hvrf : p.vrfName with _ | vrf
  · rw [hvrf] at h
    cases h
  rcases haf : p.af with _ | af
  · rw [hvrf, haf] at h
    cases h
  rw [hvrf, haf] at h
  dsimp only at h
  refine ⟨vrf, af, rfl, rfl, ?_⟩
  split_ifs at h with hforward
  · obtain ⟨ha, rfl⟩ := Prod.mk.inj h
    exact Or.inl ⟨hforward.1, hforward.2, (Option.some_inj.mp ha).symm, rfl⟩
  · obtain ⟨ha, rfl⟩ := Prod.mk.inj h
    obtain ⟨action, haction, rfl⟩ := Option.map_eq_some_iff.mp ha
    exact Or.inr ⟨hforward, rfl, action, haction, rfl⟩

/-- The arguments of a request that built a rule are those of the next request,
as long as the map of the veths stays. -/
theorem args_again {p : InParams} {a : Args} {t t' : VrfTool} {r : VrfIncomingSvcsRule}
    {n : ℤ} {i : Option ℤ} (hargs : p.args t = (some a, t'))
    (hinit : VrfIncomingSvcsRule.init { a with seqNum := n, ruleId := i } = some r) {u : VrfTool}
    (hmap : u.vrfSubNetMap = t'.vrfSubNetMap) : p.args u = (some a, u) := by
  obtain ⟨vrf, af, hvrf, haf, ⟨hacl, hne, rfl, rfl⟩ | ⟨hforward, rfl, action, haction, rfl⟩⟩ :=
    args_cases hargs
  · -- a rule that is forwarded has an address to be forwarded to
    rcases hip : (VrfTool.getVethIp af vrf true t).1 with _ | ip
    · obtain ⟨raw, -, -, hraw, hdnat, -⟩ := VrfIncomingSvcsRule.init_cases hinit
      have haction : some VrfSvcsRuleAction.dnat = some raw.action := hraw.action
      exact absurd ⟨(Option.some_inj.mp haction).symm, hraw.dstIp.symm.trans hip⟩ hdnat
    · rw [InParams.args, hvrf, haf]
      dsimp only
      rw [if_pos ⟨hacl, hne⟩, VrfTool.getVethIp_again hip hmap]
  · rw [InParams.args, hvrf, haf]
    dsimp only
    rw [if_neg hforward, haction, Option.map_some]

/-- The answer to a deletion by the attributes. -/
theorem processVrfSvcsRuleDel_found {a : Args} {r : VrfIncomingSvcsRule}
    (hinit : VrfIncomingSvcsRule.init a = some r) {u : VrfIncomingSvcsRuleCache VrfTool} :
    (∀ del, SvcsRuleCache.deleteRule h r s = (.returned del, u) →
        processVrfSvcsRuleDel h a s = (del.isSome, u)) ∧
      (SvcsRuleCache.deleteRule h r s = (.raised, u) →
        processVrfSvcsRuleDel h a s = (false, u)) := by
  refine ⟨fun del hout => ?_, fun hout => ?_⟩ <;>
    · rw [processVrfSvcsRuleDel, hinit, processDel, hout]
      rfl

/-- The arguments have no id. -/
theorem args_ruleId {p : InParams} {a : Args} {t t' : VrfTool} (h : p.args t = (some a, t')) :
    a.ruleId = none := by
  obtain ⟨vrf, af, -, -, ⟨-, -, rfl, -⟩ | ⟨-, -, action, -, rfl⟩⟩ := args_cases h <;> rfl

end

/-! ## What is reported about a new rule -/

/-- The address that is reported for one of a request, which is masked, and all
zeros for none.  `given` is the family that the request names. -/
def ShownAddress (given : Option Af) (af : Af) (ip : Option Bytes) (pfxLen : Option ℤ)
    (shownIp : Option Bytes) (shownLen : Option ℤ) : Prop :=
  match ip with
  | none => shownIp = some (hexlify (List.replicate af.length 0)) ∧ shownLen = some 0
  | some ip => ∃ net n, normalizeIpWithPrefix given ip pfxLen = some (af, net, n) ∧
      shownIp = some (hexlify net) ∧ shownLen = some n

/-- The request is about an ACL rule. -/
def isAcl (o : CpsObj) : Bool := (readParams .create o).isVtyAclConfig

/-- What is reported about the rule of a request.  A rule that is forwarded is
reported as one that allows, and a service without its destination. -/
structure Shows (o : CpsObj) (i : ℤ) (known : Af) (shown : CpsObj) : Prop where
  niName : shown.niName = o.niName
  id : shown.id = some i
  af : shown.af = some known.value
  family : ∀ val, o.af = some val → val = known.value
  src : ShownAddress (o.af.bind Af.ofValue) known o.srcIp o.srcPrefixLen shown.srcIp
    shown.srcPrefixLen
  dst : if isAcl o then
      ShownAddress (some known) known o.dstIp o.dstPrefixLen shown.dstIp shown.dstPrefixLen
    else shown.dstIp = none ∧ shown.dstPrefixLen = none
  protocol : shown.protocol = o.protocol
  dstPort : shown.dstPort = o.dstPort
  lowerDstPort : shown.lowerDstPort = o.lowerDstPort
  upperDstPort : shown.upperDstPort = o.upperDstPort
  action : shown.action =
    if isAcl o = false ∧ o.niName ≠ some defaultVrf then some VrfSvcsRuleAction.allow.value
    else (o.action.bind VrfSvcsRuleAction.ofValue).map fun action => (reportedAction action).value
  seqNum : shown.seqNum = some (o.seqNum.getD 0)
  ifname : shown.ifname = o.ifname

/-- A get request for an id. -/
def byId (id : ℤ) : CpsObj :=
  ⟨none, none, none, none, none, none, none, none, none, none, none, none, none, some id, none,
    none⟩

theorem normalize_cases {p q : InParams} (h : p.normalize = some q) :
    ∃ af, normalizeParam p.af p.srcIp p.srcPrefixLen = some (af, q.srcIp, q.srcPrefixLen) ∧
      normalizeParam af p.dstIp p.dstPrefixLen = some (q.af, q.dstIp, q.dstPrefixLen) ∧
      q = { p with
        af := q.af, srcIp := q.srcIp, srcPrefixLen := q.srcPrefixLen, dstIp := q.dstIp
        dstPrefixLen := q.dstPrefixLen } := by
  rw [InParams.normalize] at h
  obtain ⟨⟨af, ip, len⟩, hsrc, h⟩ := Option.bind_eq_some_iff.mp h
  obtain ⟨⟨af', ip', len'⟩, hdst, h⟩ := Option.bind_eq_some_iff.mp h
  obtain rfl := Option.some_inj.mp h
  exact ⟨af, hsrc, hdst, rfl⟩

/-- The family of a request stays. -/
theorem normalizeParam_keeps {af af' : Option ℤ} {ip ip' : Option Bytes} {pfx pfx' : Option ℤ}
    (h : normalizeParam af ip pfx = some (af', ip', pfx')) {val : ℤ} (haf : af = some val) :
    af' = some val := by
  obtain ⟨-, rfl, -, -⟩ | ⟨bs, known, net, n, -, -, rfl, -, -, hval⟩ := normalizeParam_cases h
  · exact haf
  · rw [hval val haf]

/-- The constructor changes nothing about an address of a request. -/
theorem shown_of_param {af af' : Option ℤ} {ip ip' : Option Bytes} {pfx pfx' : Option ℤ}
    {known : Af} (h : normalizeParam af ip pfx = some (af', ip', pfx'))
    (haf : ∀ val, af' = some val → val = known.value) {src : Option Bytes × Option ℤ}
    (hsrc : normalizeIpPrefix known ip' pfx' = some src) :
    ShownAddress (af.bind Af.ofValue) known ip pfx (src.1.map hexlify) src.2 := by
  obtain ⟨rfl, rfl, rfl, rfl⟩ | ⟨bs, known', net, n, rfl, hnorm, rfl, rfl, rfl, -⟩ :=
    normalizeParam_cases h
  · rw [normalizeIpPrefix] at hsrc
    obtain rfl := Option.some_inj.mp hsrc
    exact ⟨rfl, rfl⟩
  · have hvalue := congrArg Af.ofValue (haf _ rfl)
    rw [Af.ofValue_value, Af.ofValue_value] at hvalue
    obtain rfl := Option.some_inj.mp hvalue
    rw [(normalize_kept hnorm).1] at hsrc
    obtain rfl := Option.some_inj.mp hsrc
    exact ⟨net, n, hnorm, rfl, rfl⟩

/-- An interface is reported as it was given. -/
theorem shown_intf (arg : Option Str) :
    ((intfPair arg).1.map fun name =>
      if (intfPair arg).2 = some true then '!' :: name else name) = arg := by
  unfold intfPair
  split
  · rfl
  · rfl
  · exact congrArg some (if_neg (by simp))

theorem protocol_value {val : Option ℤ} {proto : Option VrfSvcsRuleProto}
    (h : VrfIncomingSvcsRule.protoArg val = some proto) :
    proto.map VrfSvcsRuleProto.value = val := by
  cases val with
  | none =>
    obtain rfl := Option.some_inj.mp h
    rfl
  | some val =>
    obtain ⟨p, hp, rfl⟩ := Option.map_eq_some_iff.mp h
    rw [VrfSvcsRuleProto.ofValue] at hp
    split_ifs at hp with h1 h2 h3 h4 h5 <;>
      · obtain rfl := Option.some_inj.mp hp
        simp only [Option.map_some, VrfSvcsRuleProto.value]
        rw [Option.some_inj]
        exact Eq.symm (by assumption)

@[simp] theorem reportedAction_storedAction (t : VrfSvcsRuleType) (action : VrfSvcsRuleAction) :
    reportedAction (storedAction t action) = reportedAction action := by
  cases t <;> cases action <;> rfl

/-- The counters of a rule do not matter. -/
theorem Shows.of_core {o : CpsObj} {id : ℤ} {af : Af} {r r' : VrfIncomingSvcsRule}
    (h : Shows o id af r.toCpsObj) (hcore : core r' = core r) : Shows o id af r'.toCpsObj := by
  have hkeep : ∀ {α : Type} (f : VrfIncomingSvcsRule → α), (∀ r, f (core r) = f r) →
      f r' = f r := fun f hf => (hf r').symm.trans ((congrArg f hcore).trans (hf r))
  have hsame : { r'.toCpsObj with matchedPackets := none, matchedBytes := none } =
      { r.toCpsObj with matchedPackets := none, matchedBytes := none } :=
    hkeep (fun r => { toCpsObj r with matchedPackets := none, matchedBytes := none }) fun _ => rfl
  have hshows : Shows o id af { r.toCpsObj with matchedPackets := none, matchedBytes := none } :=
    ⟨h.niName, h.id, h.af, h.family, h.src, h.dst, h.protocol, h.dstPort, h.lowerDstPort,
      h.upperDstPort, h.action, h.seqNum, h.ifname⟩
  rw [← hsame] at hshows
  exact ⟨hshows.niName, hshows.id, hshows.af, hshows.family, hshows.src, hshows.dst,
    hshows.protocol, hshows.dstPort, hshows.lowerDstPort, hshows.upperDstPort, hshows.action,
    hshows.seqNum, hshows.ifname⟩

/-! ## The object of a rule that was created -/

section

variable {h : Handlers VrfIncomingSvcsRule VrfTool} {o : CpsObj}
  {s s' : VrfIncomingSvcsRuleCache VrfTool} {p : InParams} {a : Args} {t : VrfTool}
  {r : VrfIncomingSvcsRule} {i : ℤ} {idx : ℕ}

/-- The attributes that are not about the addresses are those of the
request. -/
theorem Created.read (hc : Created h o s s' p a t r i idx) :
    p.vrfName = o.niName ∧ p.protocol = o.protocol ∧ p.dstPort = o.dstPort ∧
      p.lowDstPort = o.lowerDstPort ∧ p.highDstPort = o.upperDstPort ∧ p.action = o.action ∧
      p.inIntf = o.ifname ∧ p.seqNum = some (o.seqNum.getD 0) := by
  obtain ⟨af, -, -, hp⟩ := normalize_cases hc.params
  refine ⟨?_, ?_, ?_, ?_, ?_, ?_, ?_, ?_⟩ <;>
    · rw [hp]
      rfl

/-- The normalization does not change what a request is about. -/
theorem Created.isAcl_eq (hc : Created h o s s' p a t r i idx) :
    p.isVtyAclConfig = isAcl o := by
  obtain ⟨-, -, hport, hlow, hhigh, -⟩ := hc.read
  obtain ⟨af, hsrc, -, -⟩ := normalize_cases hc.params
  have hip : p.srcIp.isSome = o.srcIp.isSome := by
    obtain ⟨hnone, -, hnone', -⟩ | ⟨bs, -, net, -, hsome, -, -, hsome', -⟩ :=
      normalizeParam_cases hsrc
    · rw [hnone', show o.srcIp = none from hnone]
    · rw [hsome', show o.srcIp = some bs from hsome]
      rfl
  rw [InParams.isVtyAclConfig, hip, hport, hlow, hhigh]
  rfl

/-- The arguments of the constructor. -/
theorem Created.ruleArgs (hc : Created h o s s' p a t r i idx) :
    ∃ vrf af action dst, p.vrfName = some vrf ∧ p.af = some af ∧
      a = p.ruleArgs vrf af action dst ∧
      (isAcl o = false ∧ vrf ≠ defaultVrf ∧ action = 3 ∨
        ¬ (isAcl o = false ∧ vrf ≠ defaultVrf) ∧ p.action = some action ∧ dst = p.dstIp) := by
  have hacl := hc.isAcl_eq
  obtain ⟨vrf, af, hvrf, haf, ⟨hip, hne, ha, -⟩ | ⟨hforward, -, action, haction, ha⟩⟩ :=
    args_cases hc.args
  · exact ⟨vrf, af, 3, _, hvrf, haf, ha, Or.inl ⟨hacl ▸ hip, hne, rfl⟩⟩
  · exact ⟨vrf, af, action, _, hvrf, haf, ha, Or.inr ⟨hacl ▸ hforward, haction, rfl⟩⟩

/-- An ACL rule comes with a source, which says its family. -/
theorem Created.acl_src (hc : Created h o s s' p a t r i idx) (hacl : isAcl o = true) :
    p.srcIp.isSome := by
  have hvty : p.isVtyAclConfig = true := hc.isAcl_eq.trans hacl
  refine has_of_create hc.input (?_ : ReqdAttr.srcIp ∈ p.reqdInput)
  rw [InParams.reqdInput, if_pos hvty]
  decide

/-- The rule is the one of the request, built for this VRF, this action and this
destination.  Its addresses are those of the request, normalized once more. -/
structure BuiltFor (o : CpsObj) (p : InParams) (r : VrfIncomingSvcsRule) (vrf : Str)
    (action : VrfSvcsRuleAction) (dst : Option Bytes) : Prop where
  niName : o.niName = some vrf
  vrfName : r.vrfName = vrf
  af : p.af = some r.af.value
  ruleType : r.ruleType = if isAcl o then .acl else .ip
  reported : reportedAction r.action = reportedAction action
  protocol : r.protocol.map VrfSvcsRuleProto.value = o.protocol
  dstPort : r.dstPort = o.dstPort
  lowDstPort : r.lowDstPort = o.lowerDstPort
  highDstPort : r.highDstPort = o.upperDstPort
  seqNum : r.seqNum = o.seqNum.getD 0
  intf : (r.inIntf, r.negative) = intfPair o.ifname
  srcIp : normalizeIpPrefix r.af p.srcIp p.srcPrefixLen = some (r.srcIp, r.srcPrefixLen)
  dstIp : normalizeIpPrefix r.af dst p.dstPrefixLen = some (r.dstIp, r.dstPrefixLen)
  forward : isAcl o = false ∧ vrf ≠ defaultVrf ∧ action = .dnat ∨
    ¬ (isAcl o = false ∧ vrf ≠ defaultVrf) ∧
      o.action.bind VrfSvcsRuleAction.ofValue = some action ∧ dst = p.dstIp

theorem Created.builtFor (hc : Created h o s s' p a t r i idx) :
    ∃ vrf action dst, BuiltFor o p r vrf action dst := by
  obtain ⟨hvrf', hproto', hport', hlow', hhigh', haction', hintf', hseq'⟩ := hc.read
  obtain ⟨vrf, af, val, dst, hvrf, haf, rfl, hforward⟩ := hc.ruleArgs
  obtain ⟨raw, src', dst', hraw, -, hsrc, hdst, hr⟩ := VrfIncomingSvcsRule.init_cases hc.rule
  have hfields := VrfIncomingSvcsRule.build_fields { p.ruleArgs vrf af val dst with
    seqNum := p.seqNum.getD 0, ruleId := p.ruleId } raw src' dst'
  rw [← hr] at hfields
  obtain ⟨htype, hrvrf, hraf, hrsrc, hrproto, hrport, hrlow, hrhigh, hrdst, hrseq, hraction, -,
    hrintf⟩ := hfields
  have hval : VrfSvcsRuleAction.ofValue val = some raw.action := hraw.action
  refine ⟨vrf, raw.action, dst, hvrf'.symm.trans hvrf, hrvrf.trans hraw.vrfName.symm, ?_, ?_,
    (congrArg reportedAction hraction).trans (reportedAction_storedAction _ _),
    ((congrArg (Option.map VrfSvcsRuleProto.value) hrproto).trans
      (protocol_value hraw.protocol)).trans hproto',
    (hrport.trans hraw.dstPort.symm).trans hport', (hrlow.trans hraw.lowDstPort.symm).trans hlow',
    (hrhigh.trans hraw.highDstPort.symm).trans hhigh', ?_, hrintf.trans (congrArg intfPair hintf'),
    ?_, ?_, ?_⟩
  · rw [haf, hraf, show af = raw.af.value from Af.eq_value hraw.af]
  · have hvalue : VrfSvcsRuleType.ofValue (if p.isVtyAclConfig then 2 else 1) =
        some raw.ruleType := hraw.ruleType
    rw [hc.isAcl_eq] at hvalue
    rw [htype]
    cases hcase : isAcl o <;> rw [hcase] at hvalue <;> exact (Option.some_inj.mp hvalue).symm
  · have hseq : r.seqNum = p.seqNum.getD 0 := hrseq.trans hraw.seqNum.symm
    rwa [hseq'] at hseq
  · rwa [show raw.srcIp = p.srcIp from hraw.srcIp.symm,
      show raw.srcPrefixLen = p.srcPrefixLen from hraw.srcPrefixLen.symm, ← hraf, ← hrsrc] at hsrc
  · rwa [show raw.dstIp = dst from hraw.dstIp.symm,
      show raw.dstPrefixLen = p.dstPrefixLen from hraw.dstPrefixLen.symm, ← hraf, ← hrdst] at hdst
  · obtain ⟨hip, hne, rfl⟩ | ⟨hnot, haction, hdst'⟩ := hforward
    · have hdnat : some VrfSvcsRuleAction.dnat = some raw.action := hval
      exact Or.inl ⟨hip, hne, (Option.some_inj.mp hdnat).symm⟩
    · refine Or.inr ⟨hnot, ?_, hdst'⟩
      rw [← haction', haction, Option.bind_some, hval]

/-- The action of a service that is forwarded is not the one of the request. -/
theorem BuiltFor.shown_action {vrf : Str} {action : VrfSvcsRuleAction} {dst : Option Bytes}
    (hb : BuiltFor o p r vrf action dst) :
    some (reportedAction r.action).value =
      if isAcl o = false ∧ o.niName ≠ some defaultVrf then some VrfSvcsRuleAction.allow.value
      else (o.action.bind VrfSvcsRuleAction.ofValue).map fun action =>
        (reportedAction action).value := by
  rw [hb.reported, hb.niName]
  obtain ⟨hip, hne, rfl⟩ | ⟨hnot, haction, -⟩ := hb.forward
  · rw [if_pos ⟨hip, fun heq => hne (Option.some_inj.mp heq)⟩]
    rfl
  · rw [if_neg fun hboth => hnot ⟨hboth.1, fun heq => hboth.2 (congrArg some heq)⟩, haction,
      Option.map_some]

/-- The destination of an ACL rule has the family that the source says. -/
theorem Created.shown_dst (hc : Created h o s s' p a t r i idx) {vrf : Str}
    {action : VrfSvcsRuleAction} {dst : Option Bytes} (hb : BuiltFor o p r vrf action dst)
    (hacl : isAcl o = true) :
    ShownAddress (some r.af) r.af o.dstIp o.dstPrefixLen (r.dstIp.map hexlify) r.dstPrefixLen := by
  obtain ⟨af', hnsrc, hndst, -⟩ := normalize_cases hc.params
  have hvalue : ∀ val, p.af = some val → val = r.af.value :=
    fun val hval => Option.some_inj.mp (hval.symm.trans hb.af)
  have hdst : dst = p.dstIp := by
    obtain ⟨hip, -⟩ | ⟨-, -, hdst⟩ := hb.forward
    · rw [hacl] at hip
      cases hip
    · exact hdst
  have hknown : af'.bind Af.ofValue = some r.af := by
    obtain ⟨-, -, hnone, -⟩ | ⟨-, known, -, -, -, -, haf', -⟩ := normalizeParam_cases hnsrc
    · have hsome := hc.acl_src hacl
      rw [hnone] at hsome
      cases hsome
    · rw [haf', hvalue _ (normalizeParam_keeps hndst haf'), Option.bind_some, Af.ofValue_value]
  have hshown := shown_of_param hndst hvalue (hdst ▸ hb.dstIp)
  rwa [hknown] at hshown

/-- The rule is reported as it was requested. -/
theorem Created.shows (hc : Created h o s s' p a t r i idx) :
    ∃ known, Shows o i known (toCpsObj (setRuleId i r)) := by
  obtain ⟨vrf, action, dst, hb⟩ := hc.builtFor
  obtain ⟨af', hnsrc, hndst, -⟩ := normalize_cases hc.params
  have hvalue : ∀ val, af' = some val → val = r.af.value := fun val hval =>
    Option.some_inj.mp ((normalizeParam_keeps hndst hval).symm.trans hb.af)
  refine ⟨r.af, (congrArg some hb.vrfName).trans hb.niName.symm, rfl, rfl,
    fun val hval => hvalue val (normalizeParam_keeps hnsrc hval),
    shown_of_param hnsrc hvalue hb.srcIp, ?_, hb.protocol, hb.dstPort, hb.lowDstPort,
    hb.highDstPort, hb.shown_action, congrArg some hb.seqNum, ?_⟩
  · have htype := hb.ruleType
    cases hacl : isAcl o <;> rw [hacl] at htype
    · exact ⟨if_pos htype, if_pos htype⟩
    · have hne : r.ruleType ≠ .ip := by
        rw [htype]
        decide
      have hip : (toCpsObj (setRuleId i r)).dstIp = r.dstIp.map hexlify := if_neg hne
      have hlen : (toCpsObj (setRuleId i r)).dstPrefixLen = r.dstPrefixLen := if_neg hne
      rw [if_pos rfl, hip, hlen]
      exact hc.shown_dst hb hacl
  · rw [← shown_intf o.ifname, ← hb.intf]
    rfl

end

/-! ## The deletion with the same attributes -/

section

variable {h : Handlers VrfIncomingSvcsRule VrfTool} {o : CpsObj}
  {s s' : VrfIncomingSvcsRuleCache VrfTool} {p : InParams} {a : Args} {t : VrfTool}
  {r : VrfIncomingSvcsRule} {i : ℤ} {idx : ℕ}

/-- The request is handed to the cache with the arguments of the creation. -/
theorem Created.delete_eq (hc : Created h o s s' p a t r i idx)
    (hmap : s'.world.vrfSubNetMap = t.vrfSubNetMap) (ord : CallOrder) :
    configIncomingIpSvcsInt h ord .delete { o with id := none } s' =
      ((processVrfSvcsRuleDel h a s').1, { o with id := none },
        (processVrfSvcsRuleDel h a s').2) := by
  have hread : readParams .delete { o with id := none } =
      { readParams .create o with seqNum := o.seqNum, ruleId := none } := rfl
  have hparams : (readParams .delete { o with id := none }).normalize =
      some { p with seqNum := o.seqNum, ruleId := none } := by
    rw [hread, normalize_renumbered, hc.params, Option.map_some]
  have hok : (({ p with seqNum := o.seqNum, ruleId := none } : InParams).portsOk &&
      ({ p with seqNum := o.seqNum, ruleId := none } : InParams).checkRuleInput .delete) = true :=
    Bool.and_eq_true_iff.mpr ⟨hc.ports, checkRuleInput_delete hc.input o.seqNum⟩
  have hargs : ({ p with seqNum := o.seqNum, ruleId := none } : InParams).args s'.world =
      (some a, s'.world) := @args_again p _ _ _ _ _ _ hc.args hc.rule _ hmap
  rw [configIncomingIpSvcsInt, hparams]
  dsimp only
  rw [if_pos hok, configRule, IncomingConfig.deleteRule]
  dsimp only
  rw [hargs]
  rfl

/-- The deletion finds the rule, and the answer is that of iptables. -/
theorem Created.del_eq (hc : Created h o s s' p a t r i idx)
    {out : Outcome (Option VrfIncomingSvcsRule)} {u : VrfIncomingSvcsRuleCache VrfTool}
    (hout : deleteFound h (setRuleId i r) idx (loc r) (some i)
      (s'.acquire.setList (loc r) ((s'.listAt (loc r)).removeAt idx (some i))) = (out, u)) :
    ((processVrfSvcsRuleDel h a s').1 = true ↔ ∃ del, out = .returned (some del)) ∧
      (processVrfSvcsRuleDel h a s').2 = u := by
  -- the rule that the deletion builds has the key attributes of the stored one
  have ha : a = { a with ruleId := none } := by rw [← args_ruleId hc.args]
  have hbuilt : VrfIncomingSvcsRule.init a =
      some { r with seqNum := a.seqNum, ruleId := none } :=
    (congrArg VrfIncomingSvcsRule.init ha).trans
      (VrfIncomingSvcsRule.init_renumbered hc.rule a.seqNum none)
  have hfound := @deleteRule_stored _ _ _ h s' hc.sound
    { r with seqNum := a.seqNum, ruleId := none } (setRuleId i r) idx hc.inserted.found rfl rfl
    hc.prints rfl
  rcases out with (_ | del) | _
  · rw [(processVrfSvcsRuleDel_found hbuilt).1 _ (hfound.trans hout)]
    exact ⟨iff_of_false Bool.false_ne_true (by simp), rfl⟩
  · rw [(processVrfSvcsRuleDel_found hbuilt).1 _ (hfound.trans hout)]
    exact ⟨iff_of_true rfl ⟨del, rfl⟩, rfl⟩
  · rw [(processVrfSvcsRuleDel_found hbuilt).2 (hfound.trans hout)]
    exact ⟨iff_of_false Bool.false_ne_true (by simp), rfl⟩

/-- Without the rule, the lists are those from before the creation. -/
theorem Created.stored_without (hc : Created h o s s' p a t r i idx) (lc : Loc) :
    (s'.acquire.setList (loc r) ((s'.listAt (loc r)).removeAt idx (some i))).stored lc =
      s.stored lc := by
  by_cases hlc : lc = loc r
  · have hhere : s'.listAt (loc r) = (s.listAt (loc r)).insertAt idx (setRuleId i r) :=
      hc.inserted.here
    rw [hlc, stored_setList_self, hhere, SvcsRuleList.removeAt_insertAt_rules]
    rfl
  · rw [stored_setList_ne _ _ hlc]
    exact congrArg SvcsRuleList.rules (hc.inserted.elsewhere lc hlc)

/-- Without its id, the ids are those from before the creation. -/
theorem Created.ids_without (hs : s.Sound) (hc : Created h o s s' p a t r i idx) :
    (dropId (some i) s'.idGenerator).resvedIds = s.idGenerator.resvedIds := by
  obtain ⟨-, hnew, hids⟩ := takeId_some hs.gen hc.taken
  ext j
  rw [mem_dropId, hids, Finset.mem_insert]
  constructor
  · rintro ⟨hne, rfl | hmem⟩
    · exact absurd rfl hne
    · exact hmem
  · intro hmem
    refine ⟨?_, Or.inr hmem⟩
    rintro ⟨⟩
    exact hnew hmem

end

/-- iptables leaves the map of the veths alone. -/
theorem Created.subNetMap {c : IptablesHandler.Commands} {o : CpsObj}
    {s s' : VrfIncomingSvcsRuleCache VrfTool} {p : InParams} {a : Args} {t : VrfTool}
    {r : VrfIncomingSvcsRule} {i : ℤ} {idx : ℕ}
    (hc : Created (IptablesHandler.handlers c) o s s' p a t r i idx) :
    s'.world.vrfSubNetMap = t.vrfSubNetMap := by
  have hproc := IptablesHandler.procRule_subNetMap c .insert (setRuleId i r) (some idx) t
  rwa [show IptablesHandler.procRule c .insert (setRuleId i r) (some idx) t =
    (.returned true, s'.world) from hc.programmed] at hproc

/-! ## A small request -/

/-- The order in which the keywords are given. -/
def listCallOrder : CallOrder := { listOrder with kwargs := id, kwargsPerm := fun _ => .refl _ }

/-- A request for SSH from a subnet.  The family is deduced. -/
def sshFrom : CpsObj :=
  { byId 0 with
    id := none, niName := some blue, srcIp := some (hexlify [10, 0, 0, 7])
    srcPrefixLen := some 24, protocol := some 1, dstPort := some 22, action := some 2 }

/-- The cache after the request. -/
def sshCreated : Bool × CpsObj × VrfIncomingSvcsRuleCache VrfTool :=
  configIncomingIpSvcsInt (IptablesHandler.handlers editing) listCallOrder .create sshFrom
    (BaseVrf.init .willing).cache

theorem sshCreated_eq : sshCreated = (true, { sshFrom with id := some 1 }, sshCreated.2.2) :=
  Prod.ext (by decide +kernel) (Prod.ext (by decide +kernel) rfl)

/-! ## What is reported, and what a deletion leaves -/

/-- In any reachable state, a rule that a request creates is reported as it was
requested, under the id of the answer, unless the reading of its counters
raises. -/
theorem created_shown (c : IptablesHandler.Commands) (env : Env)
    (requests : List BaseVrf.Request)
    (hclear : Along (BaseVrf.step (IptablesHandler.handlers c))
      (BaseVrf.ClearsThrough (IptablesHandler.handlers c)) (BaseVrf.init env) requests)
    (ord : CallOrder) (o o' : CpsObj) (s' : VrfIncomingSvcsRuleCache VrfTool) :
    let h := IptablesHandler.handlers c
    let s := (run (BaseVrf.step h) (BaseVrf.init env) requests).cache
    configIncomingIpSvcsInt h ord .create o s = (true, o', s') →
    ∃ i known, o' = { o with id := some i } ∧
      ∀ ord', let got := getIncomingIpSvcs h ord' (byId i) s'
        got.1 = true → ∃ shown, got.2.1.map toCpsObj = [shown] ∧ Shows o i known shown := by
  intro h s hcreate
  have hs : s.Sound := BaseVrf.run_sound hclear
  obtain ⟨p, a, t, r, i, idx, rfl, hc⟩ := create_done hs hcreate
  obtain ⟨known, hshows⟩ := hc.shows
  refine ⟨i, known, rfl, fun ord' => ?_⟩
  have hget : getIncomingIpSvcs h ord' (byId i) s' =
    processVrfSvcsRuleGet h ord' (some i) ((getArgs (byId i)).get rfl) s' := rfl
  have hmem := List.mem_of_getElem? hc.inserted.found
  dsimp only
  rw [hget, processVrfSvcsRuleGet]
  obtain ⟨-, r', idx', u, hfind, hcore⟩ | ⟨-, hraised⟩ :=
    findRuleById_stored h ord' hc.sound hmem rfl
  · rw [hfind]
    exact fun _ => ⟨toCpsObj r', rfl, hshows.of_core hcore⟩
  · rcases hfind : findRuleById h ord' i s' with ⟨out, u⟩
    rw [hfind] at hraised
    obtain rfl : out = .raised := hraised
    exact fun hf => absurd hf Bool.false_ne_true

/-- The rule of the request is reported. -/
theorem sshCreated_shown :
    let got := getIncomingIpSvcs (IptablesHandler.handlers editing) listOrder (byId 1)
      sshCreated.2.2
    ∃ known shown, got.2.1.map toCpsObj = [shown] ∧ Shows sshFrom 1 known shown := by
  obtain ⟨i, known, hid, hall⟩ := created_shown editing .willing [] trivial listCallOrder sshFrom
    { sshFrom with id := some 1 } sshCreated.2.2 sshCreated_eq
  obtain rfl : 1 = i := Option.some_inj.mp (congrArg CpsObj.id hid)
  exact ⟨known, hall listOrder (by decide +kernel)⟩

/-- A rule that a request created is the one that a deletion with the same
attributes asks iptables to delete, and when iptables does, the rules and the
ids are those from before the creation. -/
theorem created_removed (c : IptablesHandler.Commands) (env : Env)
    (requests : List BaseVrf.Request)
    (hclear : Along (BaseVrf.step (IptablesHandler.handlers c))
      (BaseVrf.ClearsThrough (IptablesHandler.handlers c)) (BaseVrf.init env) requests)
    (ord : CallOrder) (o o' : CpsObj) (s' : VrfIncomingSvcsRuleCache VrfTool) :
    let h := IptablesHandler.handlers c
    let s := (run (BaseVrf.step h) (BaseVrf.init env) requests).cache
    configIncomingIpSvcsInt h ord .create o s = (true, o', s') →
    ∃ (r : VrfIncomingSvcsRule) (idx : ℕ), (s'.stored (loc r))[idx]? = some r ∧
      r.ruleId = o'.id ∧
      ∀ ord', let deleted := configIncomingIpSvcsInt h ord' .delete { o with id := none } s'
        (deleted.1 = true ↔
          (h.procRule .delete r (some idx) s'.world).1 = .returned true) ∧
        (deleted.1 = true → (∀ lc, deleted.2.2.stored lc = s.stored lc) ∧
          deleted.2.2.idGenerator.resvedIds = s.idGenerator.resvedIds) := by
  intro h s hcreate
  have hs : s.Sound := BaseVrf.run_sound hclear
  obtain ⟨p, a, t, r, i, idx, rfl, hc⟩ := create_done hs hcreate
  refine ⟨setRuleId i r, idx, hc.inserted.found, rfl, fun ord' => ?_⟩
  rcases hout : deleteFound h (setRuleId i r) idx (loc r) (some i)
    (s'.acquire.setList (loc r) ((s'.listAt (loc r)).removeAt idx (some i))) with ⟨out, u⟩
  obtain ⟨hanswer, hafter⟩ := hc.del_eq hout
  have hiff : (∃ del, out = .returned (some del)) ↔
      (h.procRule .delete (setRuleId i r) (some idx) s'.world).1 = .returned true := by
    have hsome := deleteFound_some_iff h (setRuleId i r) idx (loc r) (some i)
      (s'.acquire.setList (loc r) ((s'.listAt (loc r)).removeAt idx (some i)))
    rwa [hout] at hsome
  dsimp only
  rw [hc.delete_eq hc.subNetMap ord', ← hiff]
  refine ⟨hanswer, fun hdone => ?_⟩
  obtain ⟨del, rfl⟩ := hanswer.mp hdone
  obtain ⟨-, hstored, hdrop⟩ := deleteFound_done hout
  have hids := hc.ids_without hs
  dsimp only
  rw [hafter, hdrop]
  exact ⟨fun lc => (hstored lc).trans (hc.stored_without lc), hids⟩

/-- The request removes what it has created. -/
theorem sshCreated_removed :
    let deleted := configIncomingIpSvcsInt (IptablesHandler.handlers editing) listCallOrder .delete
      sshFrom sshCreated.2.2
    deleted.1 = true ∧ ∀ lc, deleted.2.2.stored lc = [] := by
  intro deleted
  have hdeleted : deleted.1 = true := by decide +kernel
  obtain ⟨r, idx, -, -, hall⟩ := created_removed editing .willing [] trivial listCallOrder sshFrom
    { sshFrom with id := some 1 } sshCreated.2.2 sshCreated_eq
  exact ⟨hdeleted, ((hall listCallOrder).2 hdeleted).1⟩

end IncomingConfig

end OpxNasLinux
