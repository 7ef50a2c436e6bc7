import OpxNasLinux.CacheOutcomes
import OpxNasLinux.NormalAddress

/-!
# Reading incoming rules

`get_incoming_ip_svcs_int` answers a get request.  The filter of the request is
an object with the attributes of `to_cps_obj`, whose values are translated back
before the rules are matched.

* `toCpsObj` is what a rule reports, and `CpsObj.Sub` a filter made of some of
  it.
* `getArgs` is the way of a filter into the arguments of `match`.
* `getAllRules` is the loop over the rule lists, which reads the counters of
  every rule that matches.
* `getLists_spec` says what the loop returns, and when it raises.
-/

namespace OpxNasLinux

open SvcsRule

/-! ## Hexadecimal strings -/

/-- The character of a digit. -/
def hexDigit (n : ℕ) : UInt8 := UInt8.ofNat (if n < 10 then 48 + n else 87 + n)

/-- `binascii.hexlify`. -/
def hexlify (bs : Bytes) : Bytes :=
  bs.flatMap fun b => [hexDigit (b.toNat / 16), hexDigit (b.toNat % 16)]

/-- The digit of a character. -/
def hexDigitVal (c : UInt8) : Option ℕ :=
  let n := c.toNat
  if 48 ≤ n ∧ n ≤ 57 then some (n - 48)
  else if 97 ≤ n ∧ n ≤ 102 then some (n - 87)
  else if 65 ≤ n ∧ n ≤ 70 then some (n - 55)
  else none

/-- `binascii.unhexlify`, `none` for a `TypeError`. -/
def unhexlify : Bytes → Option Bytes
  | [] => some []
  | [_] => none
  | hi :: lo :: rest => do
    let a ← hexDigitVal hi
    let b ← hexDigitVal lo
    let bs ← unhexlify rest
    some (UInt8.ofNat (16 * a + b) :: bs)

theorem hexDigitVal_hexDigit {n : ℕ} (h : n < 16) : hexDigitVal (hexDigit n) = some n := by
  revert n
  decide

/-- A string that was made of bytes gives them back. -/
@[simp] theorem unhexlify_hexlify (bs : Bytes) : unhexlify (hexlify bs) = some bs := by
  induction bs with
  | nil => rfl
  | cons b bs ih =>
    have hlt := b.toNat_lt
    have hb : 16 * (b.toNat / 16) + b.toNat % 16 = b.toNat := by omega
    have hcons : hexlify (b :: bs) =
        hexDigit (b.toNat / 16) :: hexDigit (b.toNat % 16) :: hexlify bs := rfl
    rw [hcons, unhexlify, hexDigitVal_hexDigit (by omega), hexDigitVal_hexDigit (by omega), ih]
    simp only [Option.bind_eq_bind, Option.bind_some, hb, UInt8.ofNat_toNat]

/-- The bytes of a string are half as many. -/
theorem unhexlify_length {s bs : Bytes} (h : unhexlify s = some bs) :
    s.length = 2 * bs.length := by
  induction s using unhexlify.induct generalizing bs with
  | case1 =>
    obtain rfl := Option.some_inj.mp h
    rfl
  | case2 => cases h
  | case3 hi lo rest ih =>
    rw [unhexlify] at h
    obtain ⟨a, -, h⟩ := Option.bind_eq_some_iff.mp h
    obtain ⟨b, -, h⟩ := Option.bind_eq_some_iff.mp h
    obtain ⟨bs', hbs, h⟩ := Option.bind_eq_some_iff.mp h
    obtain rfl := Option.some_inj.mp h
    have hlen := ih hbs
    simp only [List.length_cons]
    omega

/-! ## `to_cps_obj` -/

/-- An object of `vrf-firewall/ns-incoming-service`. -/
structure CpsObj where
  niName : Option Str
  af : Option ℤ
  srcIp : Option Bytes
  srcPrefixLen : Option ℤ
  dstIp : Option Bytes
  dstPrefixLen : Option ℤ
  protocol : Option ℤ
  dstPort : Option ℤ
  lowerDstPort : Option ℤ
  upperDstPort : Option ℤ
  action : Option ℤ
  seqNum : Option ℤ
  ifname : Option Str
  id : Option ℤ
  matchedPackets : Option Str
  matchedBytes : Option Str
deriving DecidableEq

namespace VrfIncomingSvcsRule

/-- The action that is reported. -/
def reportedAction : VrfSvcsRuleAction → VrfSvcsRuleAction
  | .dnat => .allow
  | .reject => .deny
  | action => action

def toCpsObj (r : VrfIncomingSvcsRule) : CpsObj where
  niName := some r.vrfName
  af := some r.af.value
  srcIp := r.srcIp.map hexlify
  srcPrefixLen := r.srcPrefixLen
  dstIp := if r.ruleType = .ip then none else r.dstIp.map hexlify
  dstPrefixLen := if r.ruleType = .ip then none else r.dstPrefixLen
  protocol := r.protocol.map VrfSvcsRuleProto.value
  dstPort := r.dstPort
  lowerDstPort := r.lowDstPort
  upperDstPort := r.highDstPort
  action := some (reportedAction r.action).value
  seqNum := some r.seqNum
  ifname := r.inIntf.map fun name => if r.negative = some true then '!' :: name else name
  id := r.ruleId
  matchedPackets := r.packetCount
  matchedBytes := r.byteCount

end VrfIncomingSvcsRule

/-- The attribute is one of the object, with its value. -/
def SubAttr {α : Type} (given reported : Option α) : Prop := given = none ∨ given = reported

/-- The attributes of `f` are attributes of `o`, with their values. -/
structure CpsObj.Sub (f o : CpsObj) : Prop where
  niName : SubAttr f.niName o.niName
  af : SubAttr f.af o.af
  srcIp : SubAttr f.srcIp o.srcIp
  srcPrefixLen : SubAttr f.srcPrefixLen o.srcPrefixLen
  dstIp : SubAttr f.dstIp o.dstIp
  dstPrefixLen : SubAttr f.dstPrefixLen o.dstPrefixLen
  protocol : SubAttr f.protocol o.protocol
  dstPort : SubAttr f.dstPort o.dstPort
  lowerDstPort : SubAttr f.lowerDstPort o.lowerDstPort
  upperDstPort : SubAttr f.upperDstPort o.upperDstPort
  action : SubAttr f.action o.action
  seqNum : SubAttr f.seqNum o.seqNum
  ifname : SubAttr f.ifname o.ifname
  id : SubAttr f.id o.id
  matchedPackets : SubAttr f.matchedPackets o.matchedPackets
  matchedBytes : SubAttr f.matchedBytes o.matchedBytes

/-! ## The arguments of a request -/

/-- The loop of `normalize_ip_with_prefix` over the families.  A string that
can be unhexlified is, in every round. -/
def findFamily : List Af → Bytes → Option (Af × Bytes)
  | [], _ => none
  | af :: afs, ip =>
    let ip := (unhexlify ip).getD ip
    if ip.length = af.length then some (af, ip) else findFamily afs ip

/-- `chk_af_list`: the families to try. -/
def chkAfList : Option Af → List Af
  | none => [.inet, .inet6]
  | some af => [af]

/-- `normalize_ip_with_prefix`. -/
def normalizeIpWithPrefix (af : Option Af) (ip : Bytes) (pfxLen : Option ℤ) :
    Option (Af × Bytes × ℤ) :=
  match findFamily (chkAfList af) ip with
  | none => none
  | some (af, ip) =>
    let n := pfxLen.getD (8 * af.length)
    if isNetwork af ip n then some (af, maskBytes n.toNat ip, n) else none

/-- The arguments that a request is matched with.  The counters of a filter are
not among them. -/
structure GetArgs where
  vrfName : Option Str
  af : Option Af
  srcIp : Option Bytes
  srcPrefixLen : Option ℤ
  dstIp : Option Bytes
  dstPrefixLen : Option ℤ
  protocol : Option ℤ
  dstPort : Option ℤ
  lowDstPort : Option ℤ
  highDstPort : Option ℤ
  action : Option ℤ
  seqNum : Option ℤ
  inIntf : Option Str

/-- The family of a request, `none` for an invalid number. -/
def checkAf : Option ℤ → Option (Option Af)
  | none => some none
  | some val => (Af.ofValue val).map some

/-- An address of a request, with the family and the prefix length. -/
def normalizeArg (af : Option Af) (ip : Option Bytes) (pfxLen : Option ℤ) :
    Option (Option Af × Option Bytes × Option ℤ) :=
  match ip with
  | none => some (af, none, pfxLen)
  | some ip =>
    (normalizeIpWithPrefix af ip pfxLen).map fun (af, ip, n) => (some af, some ip, some n)

/-- The arguments of a filter, `none` when the request is refused. -/
def getArgs (f : CpsObj) : Option GetArgs := do
  let af ← checkAf f.af
  let (af, srcIp, srcPrefixLen) ← normalizeArg af f.srcIp f.srcPrefixLen
  let (af, dstIp, dstPrefixLen) ← normalizeArg af f.dstIp f.dstPrefixLen
  some
    { vrfName := f.niName, af, srcIp, srcPrefixLen, dstIp, dstPrefixLen, protocol := f.protocol
      dstPort := f.dstPort, lowDstPort := f.lowerDstPort, highDstPort := f.upperDstPort
      action := f.action, seqNum := f.seqNum, inIntf := f.ifname }

/-- A parameter of `match` that is `None` or the value of the attribute. -/
def attrMatches {α : Type} [DecidableEq α] (val attr : Option α) : Bool :=
  decide (val = none ∨ val = attr)

/-- `match`, for the arguments of a request but the VRF name. -/
def GetArgs.matches (a : GetArgs) (r : VrfIncomingSvcsRule) : Bool :=
  attrMatches a.af (some r.af) && attrMatches a.srcIp r.srcIp &&
    attrMatches a.srcPrefixLen r.srcPrefixLen && attrMatches a.dstIp r.dstIp &&
    attrMatches a.dstPrefixLen r.dstPrefixLen &&
    attrMatches a.protocol (r.protocol.map VrfSvcsRuleProto.value) &&
    attrMatches a.dstPort r.dstPort && attrMatches a.lowDstPort r.lowDstPort &&
    attrMatches a.highDstPort r.highDstPort && attrMatches a.action (some r.action.value) &&
    attrMatches a.seqNum (some r.seqNum) && attrMatches a.inIntf r.inIntf

/-! ## `get_all_rules` -/

namespace SvcsRuleCache

variable {R W : Type} [SvcsRule R]

/-- The counters of a rule are read when its id has a position. -/
def readCounters (h : Handlers R W) (idMap : Dict (Option ℤ) ℕ) (rule : R) (w : W) :
    Outcome R × W :=
  match (ruleId rule).bind fun id => idMap.lookup (some id) with
  | none => (.returned rule, w)
  | some idx =>
    match h.getStats rule idx w with
    | (.raised, w) => (.raised, w)
    | (.returned none, w) => (.returned rule, w)
    | (.returned (some st), w) => (.returned (setStats st rule), w)

/-- The loop over one rule list: the rules that match, and the list with the
counters that were read. -/
def getFrom (h : Handlers R W) (accept : R → Bool) (idMap : Dict (Option ℤ) ℕ) :
    List R → W → Outcome (List R) × List R × W
  | [], w => (.returned [], [], w)
  | rule :: rest, w =>
    if accept rule then
      match readCounters h idMap rule w with
      | (.raised, w) => (.raised, rule :: rest, w)
      | (.returned rule, w) =>
        match getFrom h accept idMap rest w with
        | (.raised, rest, w) => (.raised, rule :: rest, w)
        | (.returned got, rest, w) => (.returned (rule :: got), rule :: rest, w)
    else
      match getFrom h accept idMap rest w with
      | (out, rest, w) => (out, rule :: rest, w)

/-- The loop over the rule lists. -/
def getLists (h : Handlers R W) (accept : R → Bool) :
    List Loc → SvcsRuleCache R W → Outcome (List R) × SvcsRuleCache R W
  | [], s => (.returned [], s)
  | lc :: locs, s =>
    match getFrom h accept (s.listAt lc).ruleIdMap (s.stored lc) s.world with
    | (.raised, rules, w) =>
      (.raised, (s.setWorld w).setList lc { s.listAt lc with rules })
    | (.returned got, rules, w) =>
      match getLists h accept locs ((s.setWorld w).setList lc { s.listAt lc with rules }) with
      | (.raised, s) => (.raised, s)
      | (.returned rest, s) => (.returned (got ++ rest), s)

/-- The lists that a request looks into. -/
def getLocs (ord : DictOrder) (ruleType : Option VrfSvcsRuleType) (vrfName : Option Str)
    (s : SvcsRuleCache R W) : List Loc :=
  (sweep ord s.rules).filter fun lc =>
    (match ruleType with
      | none => true
      | some .ip => decide (lc.table = .ipRules)
      | some .acl => decide (lc.table = .otherRules)
      | some _ => false) &&
    (match vrfName with
      | none => true
      | some vrf => decide (lc.vrfName = vrf))

/-- `get_all_rules`. -/
def getAllRules (h : Handlers R W) (ord : DictOrder) (ruleType : Option VrfSvcsRuleType)
    (vrfName : Option Str) (accept : R → Bool) (s : SvcsRuleCache R W) :
    Outcome (List R) × SvcsRuleCache R W :=
  match getLists h accept (getLocs ord ruleType vrfName s) s.acquire with
  | (.raised, s) => (.raised, s)
  | (.returned rules, s) => (.returned rules, s.release)

/-- `process_vrf_svcs_rule_get`: the result, and the rules whose objects it
puts into the response. -/
def processVrfSvcsRuleGet (h : Handlers VrfIncomingSvcsRule W) (ord : DictOrder)
    (id : Option ℤ) (a : GetArgs) (s : SvcsRuleCache VrfIncomingSvcsRule W) :
    Bool × List VrfIncomingSvcsRule × SvcsRuleCache VrfIncomingSvcsRule W :=
  match id with
  | some id =>
    match findRuleById h ord id s with
    | (.raised, s) => (false, [], s)
    | (.returned none, s) => (true, [], s)
    | (.returned (some (rule, _)), s) => (true, [rule], s)
  | none =>
    match getAllRules h ord none a.vrfName a.matches s with
    | (.raised, s) => (false, [], s)
    | (.returned rules, s) => (true, rules, s)

/-- `get_incoming_ip_svcs_int`. -/
def getIncomingIpSvcs (h : Handlers VrfIncomingSvcsRule W) (ord : DictOrder) (f : CpsObj)
    (s : SvcsRuleCache VrfIncomingSvcsRule W) :
    Bool × List VrfIncomingSvcsRule × SvcsRuleCache VrfIncomingSvcsRule W :=
  match getArgs f with
  | none => (false, [], s)
  | some a => processVrfSvcsRuleGet h ord f.id a s

/-! ## What the loops return -/

section

variable {R W : Type}

/-- None of the readings raises, one after the other. -/
def ReadsOk (h : Handlers R W) : List (R × ℕ) → W → Prop
  | [], _ => True
  | (rule, idx) :: rest, w =>
    (h.getStats rule idx w).1 ≠ .raised ∧ ReadsOk h rest (h.getStats rule idx w).2

/-- The world after the readings. -/
def afterReads (h : Handlers R W) (reads : List (R × ℕ)) (w : W) : W :=
  reads.foldl (fun w read => (h.getStats read.1 read.2 w).2) w

theorem readsOk_append (h : Handlers R W) (reads rest : List (R × ℕ)) (w : W) :
    ReadsOk h (reads ++ rest) w ↔ ReadsOk h reads w ∧ ReadsOk h rest (afterReads h reads w) := by
  induction reads generalizing w with
  | nil => exact ⟨fun hrest => ⟨trivial, hrest⟩, fun hrest => hrest.2⟩
  | cons read reads ih =>
    obtain ⟨rule, idx⟩ := read
    rw [List.cons_append, ReadsOk, ReadsOk, ih, and_assoc]
    rfl

theorem afterReads_append (h : Handlers R W) (reads rest : List (R × ℕ)) (w : W) :
    afterReads h (reads ++ rest) w = afterReads h rest (afterReads h reads w) :=
  List.foldl_append

variable [SvcsRule R]

/-- The reading of one rule. -/
def readAt (idMap : Dict (Option ℤ) ℕ) (rule : R) : Option (R × ℕ) :=
  ((ruleId rule).bind fun id => idMap.lookup (some id)).map fun idx => (rule, idx)

/-- The readings of a request in one list. -/
def readsOf (accept : R → Bool) (idMap : Dict (Option ℤ) ℕ) (rules : List R) : List (R × ℕ) :=
  (rules.filter accept).filterMap (readAt idMap)

variable [LawfulSvcsRule R]

theorem readCounters_spec (h : Handlers R W) (idMap : Dict (Option ℤ) ℕ) (rule : R) (w : W) :
    ReadsOk h (readAt idMap rule).toList w ∧
        (∃ rule', core rule' = core rule ∧ readCounters h idMap rule w =
          (.returned rule', afterReads h (readAt idMap rule).toList w)) ∨
      ¬ ReadsOk h (readAt idMap rule).toList w ∧ (readCounters h idMap rule w).1 = .raised := by
  rw [readCounters, readAt]
  cases (ruleId rule).bind fun id => idMap.lookup (some id) with
  | none => exact Or.inl ⟨trivial, rule, rfl, rfl⟩
  | some idx =>
    rw [Option.map_some, Option.toList_some, ReadsOk, ReadsOk, afterReads, List.foldl_cons,
      List.foldl_nil]
    dsimp only
    cases hget : h.getStats rule idx w with
    | mk out w' =>
      cases out with
      | raised => exact Or.inr ⟨fun hf => hf.1 rfl, rfl⟩
      | returned st =>
        refine Or.inl ⟨⟨nofun, trivial⟩, ?_⟩
        cases st with
        | none => exact ⟨rule, rfl, rfl⟩
        | some st => exact ⟨setStats st rule, LawfulSvcsRule.core_setStats st rule, rfl⟩

/-- The loop over one list returns the rules that are accepted, up to their
counters, unless a reading raises. -/
theorem getFrom_spec (h : Handlers R W) (accept : R → Bool) (idMap : Dict (Option ℤ) ℕ)
    (rules : List R) (w : W) :
    ReadsOk h (readsOf accept idMap rules) w ∧
        (∃ got rules', getFrom h accept idMap rules w =
          (.returned got, rules', afterReads h (readsOf accept idMap rules) w) ∧
          got.map core = (rules.filter accept).map core) ∨
      ¬ ReadsOk h (readsOf accept idMap rules) w ∧
        (getFrom h accept idMap rules w).1 = .raised := by
  induction rules generalizing w with
  | nil => exact Or.inl ⟨trivial, [], [], rfl, rfl⟩
  | cons rule rules ih =>
    rw [getFrom]
    by_cases hacc : accept rule = true
    · have hreads : readsOf accept idMap (rule :: rules) =
          (readAt idMap rule).toList ++ readsOf accept idMap rules := by
        rw [readsOf, List.filter_cons_of_pos hacc, List.filterMap_cons]
        cases readAt idMap rule with
        | none => rfl
        | some read => rfl
      rw [if_pos hacc, hreads, readsOk_append, afterReads_append, List.filter_cons_of_pos hacc]
      obtain ⟨hok, rule', hcore, hread⟩ | ⟨hbad, hread⟩ := readCounters_spec h idMap rule w
      · rw [hread]
        dsimp only
        obtain ⟨hok', got, rules', hgot, hcores⟩ | ⟨hbad, hgot⟩ :=
          ih (afterReads h (readAt idMap rule).toList w)
        · rw [hgot]
          refine Or.inl ⟨⟨hok, hok'⟩, rule' :: got, rule' :: rules', rfl, ?_⟩
          rw [List.map_cons, List.map_cons, hcore, hcores]
        · refine Or.inr ⟨fun hf => hbad hf.2, ?_⟩
          generalize getFrom h accept idMap rules (afterReads h (readAt idMap rule).toList w) = res
            at hgot
          obtain ⟨out, rest, w'⟩ := res
          obtain rfl : out = .raised := hgot
          rfl
      · refine Or.inr ⟨fun hf => hbad hf.1, ?_⟩
        generalize readCounters h idMap rule w = res at hread
        obtain ⟨out, w'⟩ := res
        obtain rfl : out = .raised := hread
        rfl
    · have hreads : readsOf accept idMap (rule :: rules) = readsOf accept idMap rules := by
        rw [readsOf, List.filter_cons_of_neg hacc]
        rfl
      rw [if_neg hacc, hreads, List.filter_cons_of_neg hacc]
      obtain ⟨hok, got, rules', hgot, hcores⟩ | ⟨hbad, hgot⟩ := ih w
      · rw [hgot]
        exact Or.inl ⟨hok, got, rule :: rules', rfl, hcores⟩
      · exact Or.inr ⟨hbad, hgot⟩

/-- The readings of a request in the lists at these places. -/
def readsIn (accept : R → Bool) (s : SvcsRuleCache R W) (locs : List Loc) : List (R × ℕ) :=
  locs.flatMap fun lc => readsOf accept (s.listAt lc).ruleIdMap (s.stored lc)

/-- The loop over the lists returns the rules of all of them that are accepted,
unless a reading raises. -/
theorem getLists_spec (h : Handlers R W) (accept : R → Bool) {locs : List Loc} (hn : locs.Nodup)
    (s : SvcsRuleCache R W) :
    ReadsOk h (readsIn accept s locs) s.world ∧
        (∃ got s', getLists h accept locs s = (.returned got, s') ∧
          got.map core = locs.flatMap fun lc => ((s.stored lc).filter accept).map core) ∨
      ¬ ReadsOk h (readsIn accept s locs) s.world ∧ (getLists h accept locs s).1 = .raised := by
  induction locs generalizing s with
  | nil => exact Or.inl ⟨trivial, [], s, rfl, rfl⟩
  | cons lc locs ih =>
    obtain ⟨hlc, hn⟩ := List.nodup_cons.mp hn
    rw [getLists, readsIn, List.flatMap_cons, readsOk_append]
    obtain ⟨hok, got, rules, hgot, hcores⟩ | ⟨hbad, hgot⟩ :=
      getFrom_spec h accept (s.listAt lc).ruleIdMap (s.stored lc) s.world
    · rw [hgot]
      dsimp only
      generalize hs' : (s.setWorld _).setList lc { s.listAt lc with rules } = s'
      have hworld : s'.world =
          afterReads h (readsOf accept (s.listAt lc).ruleIdMap (s.stored lc)) s.world := by
        rw [← hs']
        rfl
      have hsame : ∀ lc' ∈ locs, s'.listAt lc' = s.listAt lc' := by
        intro lc' hmem
        have hne : lc' ≠ lc := by
          rintro rfl
          exact hlc hmem
        rw [← hs', listAt_setList_ne _ _ hne, listAt_setWorld]
      have hreads : readsIn accept s' locs = readsIn accept s locs := by
        refine List.flatMap_congr fun lc' hmem => ?_
        rw [stored, stored, hsame lc' hmem]
      have hstored : (locs.flatMap fun lc => ((s'.stored lc).filter accept).map core) =
          locs.flatMap fun lc => ((s.stored lc).filter accept).map core := by
        refine List.flatMap_congr fun lc' hmem => ?_
        rw [stored, stored, hsame lc' hmem]
      have hrest := ih hn s'
      rw [hreads, hworld, hstored] at hrest
      obtain ⟨hok', got', s'', hgot', hcores'⟩ | ⟨hbad, hgot'⟩ := hrest
      · rw [hgot']
        refine Or.inl ⟨⟨hok, hok'⟩, got ++ got', s'', rfl, ?_⟩
        rw [List.map_append, hcores, hcores', List.flatMap_cons]
      · refine Or.inr ⟨fun hf => hbad hf.2, ?_⟩
        generalize getLists h accept locs s' = res at hgot'
        obtain ⟨out, s''⟩ := res
        obtain rfl : out = .raised := hgot'
        rfl
    · refine Or.inr ⟨fun hf => hbad hf.1, ?_⟩
      generalize getFrom h accept (s.listAt lc).ruleIdMap (s.stored lc) s.world = res at hgot
      obtain ⟨out, rules, w'⟩ := res
      obtain rfl : out = .raised := hgot
      rfl

end

end SvcsRuleCache

end OpxNasLinux
