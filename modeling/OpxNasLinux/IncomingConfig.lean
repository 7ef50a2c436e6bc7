import OpxNasLinux.BaseVrf
import OpxNasLinux.OutgoingHandlers
import OpxNasLinux.VethRegistry

/-!
# Incoming rules that a user configures

`config_incoming_ip_svcs_int` answers a request about an incoming rule: it
reads the attributes, takes the request for one about an ACL rule or for one
about an IP service, and calls a function of the cache.  An IP service of a VRF
is forwarded to the veth of the VRF.  The callback around it holds a mutex, and
makes `False` of an exception.

* `configIncomingIpSvcsInt` is the function, with its parts before it.
* `insertRule_done` and `deleteRule_stored` are about the two calls of the
  cache.
* `normalizeParam_cases` is about an address of a request.
-/

namespace OpxNasLinux

open SvcsRule SvcsRuleCache Run

namespace VrfTool

/-- `get_veth_ip`, with its default destination. -/
def getVethIp (af : ℤ) (vrf : Str) (isPeerIp : Bool) (t : VrfTool) : Option Bytes × VrfTool :=
  ((vethIpGet vrf defaultVrf isPeerIp t).1.bind fun hops =>
      (Af.ofValue af).map fun af =>
        match af with
        | .inet => inetPton .inet hops.1
        | .inet6 => inetPton .inet6 hops.2,
    (vethIpGet vrf defaultVrf isPeerIp t).2)

end VrfTool

namespace IncomingConfig

open VrfIncomingSvcsRule (Args Attr)
open BaseVrf (Operation)

/-! ## The attributes of a request -/

/-- The variables that a request is read into. -/
structure InParams where
  af : Option ℤ
  vrfName : Option Str
  protocol : Option ℤ
  dstPort : Option ℤ
  lowDstPort : Option ℤ
  highDstPort : Option ℤ
  action : Option ℤ
  srcIp : Option Bytes
  srcPrefixLen : Option ℤ
  dstIp : Option Bytes
  dstPrefixLen : Option ℤ
  inIntf : Option Str
  seqNum : Option ℤ
  ruleId : Option ℤ

/-- `get_svcs_attr_val` for every attribute.  A creation has a default sequence
number. -/
def readParams (op : Operation) (o : CpsObj) : InParams where
  af := o.af
  vrfName := o.niName
  protocol := o.protocol
  dstPort := o.dstPort
  lowDstPort := o.lowerDstPort
  highDstPort := o.upperDstPort
  action := o.action
  srcIp := o.srcIp
  srcPrefixLen := o.srcPrefixLen
  dstIp := o.dstIp
  dstPrefixLen := o.dstPrefixLen
  inIntf := o.ifname
  seqNum := if op = .create then some (o.seqNum.getD 0) else o.seqNum
  ruleId := o.id

/-- An address with its family and its prefix length, `none` when it cannot be
normalized. -/
def normalizeParam (af : Option ℤ) (ip : Option Bytes) (pfxLen : Option ℤ) :
    Option (Option ℤ × Option Bytes × Option ℤ) :=
  match ip with
  | none => some (af, none, pfxLen)
  | some ip =>
    (checkAf af).bind fun known =>
      (normalizeIpWithPrefix known ip pfxLen).map fun (af, ip, n) =>
        (some af.value, some ip, some n)

namespace InParams

/-- The addresses are normalized, and the family is deduced from them. -/
def normalize (p : InParams) : Option InParams := do
  let (af, srcIp, srcPrefixLen) ← normalizeParam p.af p.srcIp p.srcPrefixLen
  let (af, dstIp, dstPrefixLen) ← normalizeParam af p.dstIp p.dstPrefixLen
  some { p with af, srcIp, srcPrefixLen, dstIp, dstPrefixLen }

/-- A port range has both ends, and does not come with a port. -/
def portsOk (p : InParams) : Bool :=
  p.lowDstPort.isSome == p.highDstPort.isSome && !(p.lowDstPort.isSome && p.dstPort.isSome)

/-- `is_vty_acl_config`. -/
def isVtyAclConfig (p : InParams) : Bool :=
  p.dstPort.all (· == 0) || p.srcIp.isSome || (p.lowDstPort.isSome && p.highDstPort.isSome)

end InParams

/-- The attributes that a request can be missing. -/
inductive ReqdAttr where
  | niName
  | af
  | srcIp
  | srcPrefixLen
  | action
  | protocol
  | dstPort
  | seqNum
deriving DecidableEq

namespace InParams

/-- The attribute is in `in_param_list`, and not `None`. -/
def has (p : InParams) : ReqdAttr → Bool
  | .niName => p.vrfName.isSome
  | .af => p.af.isSome
  | .srcIp => p.srcIp.isSome
  | .srcPrefixLen => p.srcPrefixLen.isSome
  | .action => p.action.isSome
  | .protocol => p.protocol.isSome
  | .dstPort => p.dstPort.isSome
  | .seqNum => p.seqNum.isSome

/-- `check_attr_list`: the answer, and `missed_list`. -/
def checkAttrList (attrs : List ReqdAttr) (p : InParams) : Bool × List ReqdAttr :=
  ((attrs.filter fun attr => !p.has attr).isEmpty, attrs.filter fun attr => !p.has attr)

/-- `reqd_input`. -/
def reqdInput (p : InParams) : List ReqdAttr :=
  if p.isVtyAclConfig then [.niName, .af, .srcIp, .srcPrefixLen, .action]
  else if p.vrfName = some defaultVrf then [.af, .niName, .protocol, .dstPort, .action]
  else [.af, .niName, .protocol, .dstPort]

/-- `check_rule_input`. -/
def checkRuleInput (op : Operation) (p : InParams) : Bool :=
  match op with
  | .delete => p.ruleId.isSome || (checkAttrList p.reqdInput p).1
  | .set => p.ruleId.isSome
  | .create => (checkAttrList (p.reqdInput ++ [.seqNum]) p).1
  | .other => false

/-- The arguments of the constructor, without the sequence number and the
id. -/
def ruleArgs (p : InParams) (vrfName : Str) (af action : ℤ) (dstIp : Option Bytes) : Args where
  ruleType := if p.isVtyAclConfig then 2 else 1
  vrfName := vrfName
  action := action
  af := af
  srcIp := p.srcIp
  srcPrefixLen := p.srcPrefixLen
  protocol := p.protocol
  dstPort := p.dstPort
  dstIp := dstIp
  dstPrefixLen := p.dstPrefixLen
  lowDstPort := p.lowDstPort
  highDstPort := p.highDstPort
  inIntf := p.inIntf

/-- The same for a request.  An IP service outside the default VRF is
forwarded. -/
def args (p : InParams) (t : VrfTool) : Option Args × VrfTool :=
  match p.vrfName, p.af with
  | some vrfName, some af =>
    if p.isVtyAclConfig = false ∧ vrfName ≠ defaultVrf then
      (some (p.ruleArgs vrfName af 3 (VrfTool.getVethIp af vrfName true t).1),
        (VrfTool.getVethIp af vrfName true t).2)
    else (p.action.map fun action => p.ruleArgs vrfName af action p.dstIp, t)
  | _, _ => (none, t)

/-- A filter for a port has a protocol with ports.  The rule that is forwarded
is not checked. -/
def l4Ok (p : InParams) : Bool :=
  (!p.isVtyAclConfig && p.vrfName != some defaultVrf) ||
    (p.dstPort.isNone && p.lowDstPort.isNone) || p.protocol == some 1 || p.protocol == some 2

/-- The keywords of `process_vrf_svcs_rule_set` that are not `None`. -/
def kwargs (p : InParams) : List Attr :=
  (p.srcIp.map Attr.srcIp).toList ++ (p.srcPrefixLen.map Attr.srcPrefixLen).toList ++
    (p.protocol.map Attr.protocol).toList ++ (p.dstIp.map Attr.dstIp).toList ++
    (p.dstPrefixLen.map Attr.dstPrefixLen).toList ++ (p.dstPort.map Attr.dstPort).toList ++
    (p.action.map Attr.action).toList ++ (p.lowDstPort.map Attr.lowDstPort).toList ++
    (p.highDstPort.map Attr.highDstPort).toList ++ (p.seqNum.map Attr.seqNum).toList ++
    (p.inIntf.map Attr.inIntf).toList

end InParams

/-! ## The function -/

/-- The order in which a call goes through the dictionaries of the cache, and
through its keywords. -/
structure CallOrder extends DictOrder where
  kwargs : List Attr → List Attr
  kwargsPerm : ∀ attrs, (kwargs attrs).Perm attrs

section

variable (h : Handlers VrfIncomingSvcsRule VrfTool) (ord : CallOrder)

/-- The branch for a creation: the id of the rule. -/
def createRule (p : InParams) (s : VrfIncomingSvcsRuleCache VrfTool) :
    Option ℤ × VrfIncomingSvcsRuleCache VrfTool :=
  if p.l4Ok then
    match p.args s.world with
    | (none, t) => (none, s.setWorld t)
    | (some args, t) =>
      processVrfSvcsRuleAdd h { args with seqNum := p.seqNum.getD 0, ruleId := p.ruleId }
        (s.setWorld t)
  else (none, s)

/-- The branch for a deletion. -/
def deleteRule (p : InParams) (s : VrfIncomingSvcsRuleCache VrfTool) :
    Bool × VrfIncomingSvcsRuleCache VrfTool :=
  match p.ruleId with
  | some id => processVrfSvcsRuleDelById h ord.toDictOrder id s
  | none =>
    match p.args s.world with
    | (none, t) => (false, s.setWorld t)
    | (some args, t) => processVrfSvcsRuleDel h args (s.setWorld t)

/-- The branches of the function. -/
def configRule (op : Operation) (p : InParams) (o : CpsObj)
    (s : VrfIncomingSvcsRuleCache VrfTool) : Bool × CpsObj × VrfIncomingSvcsRuleCache VrfTool :=
  match op with
  | .create =>
    match createRule h p s with
    | (some id, s) => (true, { o with id := some id }, s)
    | (none, s) => (false, o, s)
  | .set =>
    match p.ruleId with
    | some id =>
      let (ok, s) := processVrfSvcsRuleSet h ord.toDictOrder id (ord.kwargs p.kwargs) s
      (ok, o, s)
    | none => (false, o, s)
  | .delete =>
    let (ok, s) := deleteRule h ord p s
    (ok, o, s)
  | .other => (false, o, s)

/-- `config_incoming_ip_svcs_int`: the answer, and the object of the request. -/
def configIncomingIpSvcsInt (op : Operation) (o : CpsObj)
    (s : VrfIncomingSvcsRuleCache VrfTool) : Bool × CpsObj × VrfIncomingSvcsRuleCache VrfTool :=
  match (readParams op o).normalize with
  | none => (false, o, s)
  | some p => if p.portsOk && p.checkRuleInput op then configRule h ord op p o s else (false, o, s)

end

end IncomingConfig

/-! ## An insertion, and the deletion of its rule -/

namespace SvcsRuleCache

variable {R W : Type}

theorem listAt_openList (s : SvcsRuleCache R W) (lc lc' : Loc) :
    (s.openList lc).listAt lc' = s.listAt lc' := by
  rw [openList]
  split_ifs with hmem
  · rfl
  · by_cases h : lc' = lc
    · rw [h, listAt_setList_self, listAt_of_notMem hmem]
    · rw [listAt_setList_ne _ _ h]

variable [SvcsRule R]

/-- The rule has been put into its list at this position, and nothing else has
changed but the ids and the world. -/
structure Inserted (rule : R) (idx : ℕ) (s s' : SvcsRuleCache R W) : Prop where
  found : (s'.stored (loc rule))[idx]? = some rule
  here : s'.listAt (loc rule) = (s.listAt (loc rule)).insertAt idx rule
  elsewhere : ∀ lc, lc ≠ loc rule → s'.listAt lc = s.listAt lc

/-- An insertion that answers `True`. -/
theorem insertRule_done [LawfulSvcsRule R] {h : Handlers R W} {s s' : SvcsRuleCache R W}
    (hs : s.Sound) {rule rule' : R} (hneed : needsPrivate rule = false)
    (hout : insertRule h rule s = (.returned true, rule', s')) :
    strRaises rule = false ∧ ∃ i g idx, takeId (ruleId rule) s.idGenerator = (some i, g) ∧
      rule' = setRuleId i rule ∧ s'.idGenerator = g ∧ Inserted rule' idx s s' ∧
      h.procRule .insert rule' (some idx) s.world = (.returned true, s'.world) := by
  rw [insertRule] at hout
  split_ifs at hout with hstr
  · cases hout
  rcases hid : takeId (ruleId rule) s.idGenerator with ⟨_ | i, g⟩
  · rw [hid] at hout
    cases hout
  rw [hid] at hout
  have hneed' : needsPrivate (setRuleId i rule) = false := by
    rwa [LawfulSvcsRule.needsPrivate_setRuleId]
  have hloc : loc (setRuleId i rule) = loc rule := LawfulSvcsRule.loc_setRuleId i rule
  have hal := hs.aligned (loc rule)
  dsimp only at hout
  rw [insertReserved, if_neg (by rw [hneed']; exact Bool.false_ne_true), insertProgram, hloc,
    listAt_setIds, listAt_openList,
    show s.acquire.listAt (loc rule) = s.listAt (loc rule) from rfl] at hout
  obtain heq | ⟨idx, hpoint, -, -, heq⟩ := hal.insert_cases (setRuleId i rule)
  · rw [heq] at hout
    cases hout
  rw [heq] at hout
  dsimp only at hout
  have hw : ((s.acquire.openList (loc rule)).setIds g).world = s.world :=
    world_openList s.acquire (loc rule)
  rw [hw] at hout
  rcases hproc : h.procRule .insert (setRuleId i rule) (some idx) s.world with ⟨(_ | _) | _, w⟩ <;>
    rw [hproc] at hout
  · cases hout
  · obtain ⟨-, hout⟩ := Prod.mk.inj hout
    obtain ⟨rfl, rfl⟩ := Prod.mk.inj hout
    have hhere : ∀ (t : SvcsRuleCache R W) (l : SvcsRuleList R),
        (((t.setList (loc rule) l).setWorld w).release).listAt (loc rule) = l :=
      fun t l => listAt_setList_self t (loc rule) l
    refine ⟨Bool.eq_false_iff.mpr hstr, i, g, idx, rfl, rfl, rfl, ⟨?_, ?_, ?_⟩, hproc⟩
    · rw [hloc, stored, hhere]
      exact SvcsRuleList.getElem?_insertAt hal hpoint
    · rw [hloc, hhere]
    · intro lc hlc
      rw [hloc] at hlc
      exact (listAt_setList_ne _ _ hlc).trans (listAt_openList s.acquire (loc rule) lc)
  · cases hout

/-- A deletion by the key attributes takes out the rule that has them. -/
theorem deleteRule_stored {h : Handlers R W} {s : SvcsRuleCache R W} (hs : s.Sound) {rule r : R}
    {idx : ℕ} (hr : (s.stored (loc rule))[idx]? = some r) (hkey : keyAttrs r = keyAttrs rule)
    (hid : ruleId rule = none) (hstr : strRaises rule = false)
    (hother : otherPrivate rule r = false) :
    deleteRule h rule s = deleteFound h r idx (loc rule) (ruleId r)
      (s.acquire.setList (loc rule) ((s.listAt (loc rule)).removeAt idx (ruleId r))) := by
  have hmem := List.mem_of_getElem? hr
  obtain ⟨l, hl⟩ := Dict.mem_iff.mp (mem_rules_of_mem_stored hmem)
  have hlist := listAt_of_lookup hl
  rw [stored, hlist] at hr
  obtain ⟨hlt, hget⟩ := List.getElem?_eq_some_iff.mp hr
  have hal := hs.aligned (loc rule)
  rw [hlist] at hal
  have hindex : l.index rule = some idx := by
    rw [SvcsRuleList.index, List.findIdx?_eq_some_iff_getElem]
    refine ⟨hlt, decide_eq_true (by rw [hget, hkey]), fun j hj => ?_⟩
    have hne := List.pairwise_iff_getElem.mp hal.nodup j idx (hj.trans hlt) hlt hj
    rw [hget, hkey] at hne
    exact fun heq => hne (of_decide_eq_true heq)
  have hremove : l.remove rule = (some (r, idx), l.removeAt idx (ruleId r)) := by
    rw [SvcsRuleList.remove, SvcsRuleList.removeIdx, if_neg (by simp [hid]), hindex]
    dsimp only
    rw [hr, Option.any_some, hother, if_neg Bool.false_ne_true]
    dsimp only
    rw [hr]
  rw [deleteRule, if_neg (by rw [hstr]; exact Bool.false_ne_true), hl, hlist]
  dsimp only
  rw [hremove]

/-- A rule that has been taken out is deleted when iptables deletes it. -/
theorem deleteFound_some_iff (h : Handlers R W) (del : R) (idx : ℕ) (lc : Loc) (id : Option ℤ)
    (s : SvcsRuleCache R W) :
    (∃ r, (deleteFound h del idx lc id s).1 = .returned (some r)) ↔
      (h.procRule .delete del (some idx) s.world).1 = .returned true := by
  rw [deleteFound]
  rcases h.procRule .delete del (some idx) s.world with ⟨(_ | _) | _, w⟩ <;> simp

end SvcsRuleCache

/-! ## The parts of a request -/

namespace VrfTool

/-- Next hops that a call has returned are returned again, as long as the map
of the veths stays. -/
theorem vethIpGet_again {src dst : Str} {isPeerIp : Bool} {t t' : VrfTool} {hops : Str × Str}
    (h : (vethIpGet src dst isPeerIp t).1 = some hops)
    (hmap : t'.vrfSubNetMap = (vethIpGet src dst isPeerIp t).2.vrfSubNetMap) :
    vethIpGet src dst isPeerIp t' = (some hops, t') := by
  have hne : ¬ (src = defaultVrf ∧ dst = defaultVrf) := by
    intro hboth
    rw [vethIpGet, if_pos hboth] at h
    cases h
  obtain ⟨hruns, hold⟩ | ⟨-, val, -, hruns, -, hnew⟩ := vethIpGet_cases src dst isPeerIp t
  · have hhops := hold hops h
    rw [← hruns.subNet, ← hmap] at hhops
    obtain ⟨val, -, -, hentry⟩ := vethHops_cases hhops
    have hmem := hentry.imp (fun h => Dict.mem_iff.mpr ⟨val, h⟩) fun h => Dict.mem_iff.mpr ⟨val, h⟩
    rw [vethIpGet_of_entry isPeerIp hne hmem, hhops]
  · have hentry : t'.vrfSubNetMap.lookup (vethKey src dst) = some val := by
      rw [hmap]
      exact (congrArg (AList.lookup (vethKey src dst)) hruns.subNet).trans (AList.lookup_insert _)
    rw [vethIpGet_of_entry isPeerIp hne (Or.inl (Dict.mem_iff.mpr ⟨val, hentry⟩)), vethHops, hentry,
      hnew hops h]

theorem getVethIp_again {af : ℤ} {vrf : Str} {isPeerIp : Bool} {t t' : VrfTool} {ip : Bytes}
    (h : (getVethIp af vrf isPeerIp t).1 = some ip)
    (hmap : t'.vrfSubNetMap = (getVethIp af vrf isPeerIp t).2.vrfSubNetMap) :
    getVethIp af vrf isPeerIp t' = (some ip, t') := by
  obtain ⟨hops, hhops, hip⟩ := Option.bind_eq_some_iff.mp h
  rw [getVethIp, vethIpGet_again hhops hmap, Option.bind_some, hip]

end VrfTool

/-- `proc_rule` leaves the map of the veths alone. -/
theorem IptablesHandler.procRule_subNetMap (c : IptablesHandler.Commands) (op : IptOp)
    (r : VrfIncomingSvcsRule) (idx : Option ℕ) (t : VrfTool) :
    (IptablesHandler.procRule c op r idx t).2.vrfSubNetMap = t.vrfSubNetMap := by
  have hopened : (IptablesHandler.vrfOpened (op = .delete) r.vrfName t).2.vrfSubNetMap =
      t.vrfSubNetMap := by
    rw [IptablesHandler.vrfOpened]
    split <;> rfl
  rw [IptablesHandler.procRule]
  rcases hopen : IptablesHandler.vrfOpened (op = .delete) r.vrfName t with ⟨_ | _, t1⟩ <;>
    rw [hopen] at hopened
  · exact hopened
  · dsimp only at hopened ⊢
    split_ifs <;> exact hopened

theorem Af.eq_value {val : ℤ} {af : Af} (h : Af.ofValue val = some af) : val = af.value := by
  rw [Af.ofValue] at h
  split_ifs at h with h1 h2 <;>
    · cases h
      assumption

namespace VrfIncomingSvcsRule

/-- The constructor only stores the sequence number and the id. -/
theorem init_renumbered {a : Args} {r : VrfIncomingSvcsRule} (h : init a = some r) (n : ℤ)
    (i : Option ℤ) :
    init { a with seqNum := n, ruleId := i } = some { r with seqNum := n, ruleId := i } := by
  obtain ⟨raw, src, dst, hraw, hdnat, hsrc, hdst, rfl⟩ := init_cases h
  have hraw' : Raw { a with seqNum := n, ruleId := i } { raw with seqNum := n } :=
    ⟨hraw.ruleType, hraw.vrfName, hraw.action, hraw.af, hraw.srcIp, hraw.srcPrefixLen,
      hraw.protocol, hraw.dstPort, hraw.dstIp, hraw.dstPrefixLen, hraw.lowDstPort,
      hraw.highDstPort, rfl⟩
  rw [init_eq hraw', if_neg hdnat, hsrc, Option.bind_some, hdst, Option.map_some, build, build]
  cases a.inIntf with
  | none => rfl
  | some val =>
    dsimp only
    unfold setInIntf
    split <;> rfl

end VrfIncomingSvcsRule

namespace IncomingConfig

open VrfIncomingSvcsRule (Args Attr)
open BaseVrf (Operation)

/-- The normalized address of a request is one that the constructor keeps. -/
theorem normalize_kept {given : Option Af} {ip net : Bytes} {pfxLen : Option ℤ} {af : Af} {n : ℤ}
    (h : normalizeIpWithPrefix given ip pfxLen = some (af, net, n)) :
    normalizeIpPrefix af (some net) (some n) = some (some net, some n) ∧
      ∀ known, given = some known → known = af := by
  rw [normalizeIpWithPrefix] at h
  rcases hfind : findFamily (chkAfList given) ip with _ | ⟨af', bs⟩
  · rw [hfind] at h
    cases h
  rw [hfind] at h
  dsimp only at h
  split_ifs at h with hnet
  simp only [Option.some.injEq, Prod.mk.injEq] at h
  obtain ⟨rfl, rfl, rfl⟩ := h
  have hmask : isNetwork af' (maskBytes (pfxLen.getD (8 * af'.length)).toNat bs)
      (pfxLen.getD (8 * af'.length)) = true := by
    rw [isNetwork_iff] at hnet ⊢
    rwa [length_maskBytes]
  refine ⟨?_, ?_⟩
  · simp only [normalizeIpPrefix, hmask, if_true, maskBytes_maskBytes]
  · rintro known rfl
    rw [chkAfList, findFamily] at hfind
    split_ifs at hfind
    · exact (Prod.mk.inj (Option.some_inj.mp hfind)).1
    · cases hfind

/-- What becomes of an address with its family. -/
theorem normalizeParam_cases {af af' : Option ℤ} {ip ip' : Option Bytes} {pfx pfx' : Option ℤ}
    (h : normalizeParam af ip pfx = some (af', ip', pfx')) :
    ip = none ∧ af' = af ∧ ip' = none ∧ pfx' = pfx ∨
      ∃ bs known net n, ip = some bs ∧
        normalizeIpWithPrefix (af.bind Af.ofValue) bs pfx = some (known, net, n) ∧
        af' = some known.value ∧ ip' = some net ∧ pfx' = some n ∧
        ∀ val, af = some val → val = known.value := by
  cases ip with
  | none =>
    simp only [normalizeParam, Option.some.injEq, Prod.mk.injEq] at h
    obtain ⟨rfl, rfl, rfl⟩ := h
    exact Or.inl ⟨rfl, rfl, rfl, rfl⟩
  | some bs =>
    obtain ⟨given, hgiven, h⟩ := Option.bind_eq_some_iff.mp h
    obtain ⟨⟨known, net, n⟩, hnorm, h⟩ := Option.map_eq_some_iff.mp h
    simp only [Prod.mk.injEq] at h
    obtain ⟨rfl, rfl, rfl⟩ := h
    have hbind : af.bind Af.ofValue = given := by
      cases af with
      | none => exact Option.some_inj.mp hgiven
      | some val =>
        obtain ⟨k, hk, rfl⟩ := Option.map_eq_some_iff.mp hgiven
        rw [Option.bind_some, hk]
    refine Or.inr ⟨bs, known, net, n, rfl, by rw [hbind, hnorm], rfl, rfl, rfl, ?_⟩
    rintro val rfl
    obtain ⟨k, hk, rfl⟩ := Option.map_eq_some_iff.mp hgiven
    rw [← (normalize_kept hnorm).2 k rfl]
    exact Af.eq_value hk

/-- The sequence number and the id of a request do not matter to its
addresses. -/
theorem normalize_renumbered (p : InParams) (n i : Option ℤ) :
    ({ p with seqNum := n, ruleId := i } : InParams).normalize =
      p.normalize.map fun q => { q with seqNum := n, ruleId := i } := by
  rw [InParams.normalize, InParams.normalize]
  dsimp only
  cases normalizeParam p.af p.srcIp p.srcPrefixLen with
  | none => rfl
  | some src =>
    obtain ⟨af, ip, len⟩ := src
    simp only [Option.bind_eq_bind, Option.bind_some]
    cases normalizeParam af p.dstIp p.dstPrefixLen <;> rfl

/-- A creation has the attributes that it needs. -/
theorem has_of_create {p : InParams} (h : p.checkRuleInput .create = true) {attr : ReqdAttr}
    (hattr : attr ∈ p.reqdInput) : p.has attr = true := by
  have hmissed := List.isEmpty_iff.mp h
  have hnot : attr ∉ (p.reqdInput ++ [ReqdAttr.seqNum]).filter fun attr => !p.has attr := by
    rw [hmissed]
    exact List.not_mem_nil
  have hhas : p.has attr = true ∧ (attr = ReqdAttr.seqNum → p.has attr = true) := by
    simpa [hattr] using hnot
  exact hhas.1

/-- The attributes that identify a rule for a creation do so for a deletion. -/
theorem checkRuleInput_delete {p : InParams} (h : p.checkRuleInput .create = true)
    (n : Option ℤ) :
    ({ p with seqNum := n, ruleId := none } : InParams).checkRuleInput .delete = true := by
  have hsame : ∀ attr ∈ p.reqdInput,
      ({ p with seqNum := n, ruleId := none } : InParams).has attr = p.has attr := by
    intro attr hattr
    cases attr with
    | seqNum =>
      rw [InParams.reqdInput] at hattr
      split_ifs at hattr <;> simp at hattr
    | _ => rfl
  have hempty : (p.reqdInput.filter fun attr =>
      !({ p with seqNum := n, ruleId := none } : InParams).has attr) = [] := by
    refine List.filter_eq_nil_iff.mpr fun attr hattr => ?_
    rw [hsame attr hattr, has_of_create h hattr]
    exact Bool.false_ne_true
  exact List.isEmpty_iff.mpr hempty

end IncomingConfig

end OpxNasLinux
