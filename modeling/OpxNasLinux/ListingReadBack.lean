import OpxNasLinux.ListingColumns

/-!
# Rules that are read back from a listing

* What the parser makes of an address and of a line, and which rule the
  constructor builds of it.
* `readBy_iff`: the rule is read back exactly when every attribute is, which is
  `ReadsBack`.
* `listing_read_back_iff` adds the comparison of a whole list with its chain.
-/

namespace OpxNasLinux

open Search

namespace IptablesHandler

/-! ## Addresses -/

theorem pyInt_intStr {n : ℤ} (hn : 0 ≤ n) : pyInt (intStr n) = some n := by
  have htext : intStr n = str n.natAbs := if_neg (not_lt.mpr hn)
  have hdigit : ∀ c ∈ str n.natAbs, c.isDigit = true :=
    fun c hc => Nat.isDigit_of_mem_toDigits (by decide) (by decide) hc
  have hdigits : isDigits (str n.natAbs) = true := by
    rw [isDigits, Bool.and_eq_true, List.all_eq_true]
    refine ⟨?_, hdigit⟩
    rw [Bool.not_eq_true', List.isEmpty_eq_false_iff]
    exact Nat.toDigits_ne_nil
  rw [htext]
  unfold pyInt
  split
  · next t h => exact absurd (hdigit '-' (by rw [h]; exact List.mem_cons_self)) (by decide)
  · next t h => exact absurd (hdigit '+' (by rw [h]; exact List.mem_cons_self)) (by decide)
  · rw [if_pos hdigits, str, Nat.ofDigitChars_ten_toDigits]
    exact congrArg some (Int.natAbs_of_nonneg hn)

/-- What is read from the column of a normalized address. -/
theorem getIpPrefix_column (inet : InetText) {af : Af} {ip : Bytes} {n : Option ℤ}
    (hlen : ip.length = af.length) (hn : Normalized af ip n) :
    getIpPrefix inet af (FltArg.addressColumn inet af ip n) =
      some (if n = some 0 then (none, none) else (some ip, some (n.getD (8 * af.length)))) := by
  have hchars := inet.chars hlen
  have hslash : '/' ∉ inet.ntop af ip := fun h => absurd (hchars _ h) (by decide)
  have hword : inet.ntop af ip ≠ "anywhere".toList := by
    intro h
    rw [h] at hchars
    exact absurd (hchars 'y' (by decide)) (by decide)
  rw [FltArg.addressColumn]
  by_cases hzero : n = some 0
  · rw [if_pos hzero, if_pos hzero]
    rfl
  rw [if_neg hzero, if_neg hzero]
  have hwhole :
      getIpPrefix inet af (inet.ntop af ip) = some (some ip, some (8 * (af.length : ℤ))) := by
    rw [getIpPrefix, if_neg hword, List.splitOn_eq_singleton hslash]
    dsimp only
    rw [inet.pton_ntop hlen]
    rfl
  split_ifs with hfull
  · rw [hwhole, hfull]
    rfl
  · cases n with
    | none =>
      rw [FltArg.prefixText, List.append_nil, hwhole]
      rfl
    | some m =>
      have hm : 0 ≤ m := hn.range.1
      have hmask : '/' ∉ intStr m := (plain_intStr m).not_mem (by decide)
      have hne : inet.ntop af ip ++ FltArg.prefixText (some m) ≠ "anywhere".toList := by
        intro h
        have hmem : '/' ∈ "anywhere".toList := by
          rw [← h, FltArg.prefixText]
          simp
        exact absurd hmem (by decide)
      rw [getIpPrefix, if_neg hne, FltArg.prefixText,
        List.splitOn_append_cons_self_of_not_mem hslash, List.splitOn_eq_singleton hmask]
      dsimp only
      rw [inet.pton_ntop hlen, pyInt_intStr hm]
      rfl

/-- A normalized address is read back when it has a prefix length. -/
theorem read_address_iff (inet : InetText) {af : Af} {ip : Bytes} {n : Option ℤ}
    (hlen : ip.length = af.length) (hn : Normalized af ip n) :
    (∃ pair, getIpPrefix inet af (FltArg.addressColumn inet af ip n) = some pair ∧
      normalizeIpPrefix af pair.1 pair.2 = some (some ip, n)) ↔ n.isSome := by
  rw [getIpPrefix_column inet hlen hn]
  constructor
  · rintro ⟨pair, hpair, hnorm⟩
    obtain rfl := Option.some_inj.mp hpair
    cases n with
    | none =>
      have hnet : isNetwork af ip (8 * af.length) = true :=
        isNetwork_iff.mpr ⟨hlen, by omega, le_rfl⟩
      rw [if_neg (by simp), Option.getD_none, normalizeIpPrefix, if_pos hnet] at hnorm
      cases congrArg Prod.snd (Option.some_inj.mp hnorm)
    | some m => rfl
  · intro hsome
    obtain ⟨m, rfl⟩ := Option.isSome_iff_exists.mp hsome
    refine ⟨_, rfl, ?_⟩
    split_ifs with hzero
    · obtain rfl := Option.some_inj.mp hzero
      have hip := hn.eq_zero
      rw [hlen] at hip
      rw [hip]
      rfl
    · exact hn.normal hlen

/-! ## The rule that is read -/

/-- A line is read as a rule when every column is. -/
theorem iptTokensToRule_eq_some_iff {inet : InetText} {services : Str → Option ℕ}
    {ruleType : VrfSvcsRuleType} {af : Af} {vrfName : Str}
    {pkts bytes target proto inIf out source destination opt : Str} {rule : VrfIncomingSvcsRule} :
    iptTokensToRule inet services ruleType af vrfName
        [pkts, bytes, target, proto, inIf, out, source, destination, opt] =
      .returned (some rule) ↔
    ∃ act src dst dport dports, readTarget inet af target opt = some act ∧
      getIpPrefix inet af source = some src ∧
      (if ruleType = .acl then getIpPrefix inet af destination else some (act.2, none)) = some dst ∧
      readDport services opt = some dport ∧ readDports services opt = some dports ∧
      VrfIncomingSvcsRule.init
          { ruleType := ruleType.value, vrfName, action := act.1.value, af := af.value
            srcIp := src.1, srcPrefixLen := src.2
            protocol := (readProto proto).map VrfSvcsRuleProto.value, dstPort := dport
            dstIp := dst.1, dstPrefixLen := dst.2, inIntf := readInIntf ruleType vrfName inIf
            lowDstPort := dports.1, highDstPort := dports.2 } = some rule ∧
      rule.strRaises = false := by
  rw [iptTokensToRule]
  constructor
  · intro h
    split at h
    · cases h
    next action dnatIp htarget =>
    split at h
    · cases h
    next srcIp srcPrefixLen hsrc =>
    split at h
    · cases h
    next dstIp dstPrefixLen hdst =>
    split at h
    · cases h
    next dport hdport =>
    split at h
    · cases h
    next low high hdports =>
    split at h
    · cases h
    next built hinit =>
    split at h
    · cases h
    next hstr =>
    obtain rfl := Option.some_inj.mp (Outcome.returned.inj h)
    exact ⟨_, _, _, _, _, htarget, hsrc, hdst, hdport, hdports, hinit,
      Bool.eq_false_of_not_eq_true hstr⟩
  · rintro ⟨act, src, dst, dport, dports, htarget, hsrc, hdst, hdport, hdports, hinit, hstr⟩
    simp only [htarget, hsrc, hdst, hdport, hdports, hinit, hstr, Bool.false_eq_true, if_false]

end IptablesHandler

namespace VrfIncomingSvcsRule

open IptablesHandler

/-- What the parser gives to the constructor, for a rule of this type, action,
family and VRF. -/
def readArgs (r : VrfIncomingSvcsRule) (src dst : Option Bytes × Option ℤ)
    (protocol : Option VrfSvcsRuleProto) (dport : Option ℤ) (dports : Option ℤ × Option ℤ)
    (inIntf : Option Str) : Args :=
  { ruleType := r.ruleType.value, vrfName := r.vrfName, action := r.action.value
    af := r.af.value, srcIp := src.1, srcPrefixLen := src.2
    protocol := protocol.map VrfSvcsRuleProto.value, dstPort := dport, dstIp := dst.1
    dstPrefixLen := dst.2, inIntf, lowDstPort := dports.1, highDstPort := dports.2 }

/-- The attributes that these arguments set. -/
def readRaw (r : VrfIncomingSvcsRule) (src dst : Option Bytes × Option ℤ)
    (protocol : Option VrfSvcsRuleProto) (dport : Option ℤ) (dports : Option ℤ × Option ℤ) :
    VrfIncomingSvcsRule :=
  { r with
    srcIp := src.1, srcPrefixLen := src.2, protocol, dstPort := dport, dstIp := dst.1
    dstPrefixLen := dst.2, lowDstPort := dports.1, highDstPort := dports.2, seqNum := 0 }

section

variable {r : VrfIncomingSvcsRule} {src dst : Option Bytes × Option ℤ}
  {protocol : Option VrfSvcsRuleProto} {dport : Option ℤ} {dports : Option ℤ × Option ℤ}
  {inIntf : Option Str}

theorem raw_readArgs :
    Raw (r.readArgs src dst protocol dport dports inIntf)
      (r.readRaw src dst protocol dport dports) := by
  refine ⟨VrfSvcsRuleType.ofValue_value _, rfl, VrfSvcsRuleAction.ofValue_value _,
    Af.ofValue_value _, rfl, rfl, ?_, rfl, rfl, rfl, rfl, rfl, rfl⟩
  cases protocol with
  | none => rfl
  | some p => exact congrArg (Option.map some) (VrfSvcsRuleProto.ofValue_value p)

/-- The constructor builds an equal rule of them exactly when each of them is
the attribute of the rule. -/
theorem init_readArgs_iff (hb : Built r) :
    (∃ r', init (r.readArgs src dst protocol dport dports inIntf) = some r' ∧
      keyAttrs r' = keyAttrs r) ↔
      ¬ (r.action = .dnat ∧ dst.1 = none) ∧
        normalizeIpPrefix r.af src.1 src.2 = some (r.srcIp, r.srcPrefixLen) ∧
        normalizeIpPrefix r.af dst.1 dst.2 = some (r.dstIp, r.dstPrefixLen) ∧
        protocol = r.protocol ∧ dport = r.dstPort ∧ dports = (r.lowDstPort, r.highDstPort) ∧
        (intfPair inIntf).1 = r.inIntf := by
  have hkey : ∀ s d, keyAttrs (build (r.readArgs src dst protocol dport dports inIntf)
        (r.readRaw src dst protocol dport dports) s d) = keyAttrs r ↔
      s = (r.srcIp, r.srcPrefixLen) ∧ d = (r.dstIp, r.dstPrefixLen) ∧ protocol = r.protocol ∧
        dport = r.dstPort ∧ dports = (r.lowDstPort, r.highDstPort) ∧
        (intfPair inIntf).1 = r.inIntf := by
    intro s d
    have hfields := build_fields (r.readArgs src dst protocol dport dports inIntf)
      (r.readRaw src dst protocol dport dports) s d
    generalize build (r.readArgs src dst protocol dport dports inIntf)
      (r.readRaw src dst protocol dport dports) s d = b at hfields ⊢
    obtain ⟨htype, hvrf, haf, rfl, hproto, hport, hlow, hhigh, rfl, -, haction, -, hintf⟩ := hfields
    have haction' : b.action = r.action :=
      haction.trans (storedAction_eq_self_iff.mpr hb.action)
    have hname : b.inIntf = (intfPair inIntf).1 := congrArg Prod.fst hintf
    simp only [keyAttrs, Key.mk.injEq, Prod.ext_iff, htype, hvrf, haf, hproto, hport, hlow, hhigh,
      haction', hname, readRaw, true_and]
    constructor
    · rintro ⟨hsrc, hspl, hproto, hport, hlow, hhigh, hname, hdst, hdpl⟩
      exact ⟨⟨hsrc, hspl⟩, ⟨hdst, hdpl⟩, hproto, hport, ⟨hlow, hhigh⟩, hname⟩
    · rintro ⟨⟨hsrc, hspl⟩, ⟨hdst, hdpl⟩, hproto, hport, ⟨hlow, hhigh⟩, hname⟩
      exact ⟨hsrc, hspl, hproto, hport, hlow, hhigh, hname, hdst, hdpl⟩
  rw [init_eq raw_readArgs]
  constructor
  · rintro ⟨r', hr', hsame⟩
    split_ifs at hr' with hdnat
    obtain ⟨s, hs, hr'⟩ := Option.bind_eq_some_iff.mp hr'
    obtain ⟨d, hd, rfl⟩ := Option.map_eq_some_iff.mp hr'
    obtain ⟨rfl, rfl, hrest⟩ := (hkey s d).mp hsame
    exact ⟨hdnat, hs, hd, hrest⟩
  · rintro ⟨hdnat, hs, hd, hrest⟩
    refine ⟨_, ?_, (hkey _ _).mpr ⟨rfl, rfl, hrest⟩⟩
    refine (if_neg hdnat).trans ?_
    exact Option.bind_eq_some_iff.mpr ⟨_, hs, Option.map_eq_some_iff.mpr ⟨_, hd, rfl⟩⟩

end

/-! ## When a rule is read back -/

/-- The destination is read back. -/
def DstReadsBack (r : VrfIncomingSvcsRule) : Prop :=
  if r.ruleType = .acl then r.dstPrefixLen.isSome ∧ (r.action = .dnat → r.dstPrefixLen ≠ some 0)
  else if r.action = .dnat then r.dstPrefixLen = none ∨ r.dstPrefixLen = some 0
  else r.dstPrefixLen = some 0

instance (r : VrfIncomingSvcsRule) : Decidable r.DstReadsBack := by
  unfold DstReadsBack
  infer_instance

/-- The port range is read back. -/
def DportsReadBack (r : VrfIncomingSvcsRule) : Prop :=
  match r.lowDstPort with
  | none => r.highDstPort = none
  | some low => r.ruleType = .acl ∧ 0 ≤ low ∧ ∃ high, r.highDstPort = some high ∧ 0 ≤ high

/-- Every attribute of the rule is read back. -/
structure ReadsBack (r : VrfIncomingSvcsRule) : Prop where
  protocol : r.protocol ≠ some .all
  srcIp : ∀ ip, r.srcIp = some ip → ip.length = r.af.length
  srcPrefixLen : r.srcPrefixLen.isSome
  dstIp : ∀ ip, r.dstIp = some ip → ip.length = r.af.length
  dstPrefixLen : r.DstReadsBack
  inIntf : r.IntfReadsBack
  dstPort : ∀ port, r.dstPort = some port → 0 ≤ port
  dports : r.DportsReadBack

/-- `ipt_tokens_to_rule` makes an equal rule of the columns of the rule that
`proc_rule` programs. -/
def ReadBy (inet : InetText) (services : Str → Option ℕ) (pkts bytes : Str)
    (r : VrfIncomingSvcsRule) : Prop :=
  r.Prints ∧ ∃ r', iptTokensToRule inet services r.ruleType r.af r.vrfName
    (columns inet r.af pkts bytes r.fltArgs) = .returned (some r') ∧ keyAttrs r' = keyAttrs r

section

variable {inet : InetText} {services : Str → Option ℕ} {r : VrfIncomingSvcsRule}

theorem readDport_iff (hd : r.action = .dnat → (r.dstIp.getD []).length = r.af.length) :
    readDport services (join ' ' (r.options inet)) = some r.dstPort ↔
      ∀ port, r.dstPort = some port → 0 ≤ port := by
  rw [readDport, search_dpt hd]
  cases r.dstPort with
  | none => simp
  | some n =>
    rw [Option.map_some]
    dsimp only
    constructor
    · intro h port hport
      obtain rfl := Option.some_inj.mp hport
      obtain ⟨m, hm, heq⟩ := Option.map_eq_some_iff.mp h
      obtain rfl := Option.some_inj.mp heq
      exact (getL4PortNum_intStr_iff services m).mp hm
    · intro h
      rw [(getL4PortNum_intStr_iff services n).mpr (h n rfl), Option.map_some]

theorem readDports_iff (hd : r.action = .dnat → (r.dstIp.getD []).length = r.af.length) :
    readDports services (join ' ' (r.options inet)) = some (r.lowDstPort, r.highDstPort) ↔
      r.DportsReadBack := by
  rw [readDports, search_multiport hd, DportsReadBack]
  cases hlow : r.lowDstPort with
  | none =>
    rw [Option.map_none, ite_self]
    dsimp only
    rw [Option.some_inj, Prod.mk.injEq, eq_comm (a := none (α := ℤ)) (b := r.highDstPort)]
    simp
  | some low =>
    by_cases ht : r.ruleType = .acl
    · rw [if_pos ht, Option.map_some]
      dsimp only
      constructor
      · intro h
        split at h
        · next x y hx hy =>
          have hpair := Option.some_inj.mp h
          have hx' : some x = some low := congrArg Prod.fst hpair
          have hy' : some y = r.highDstPort := congrArg Prod.snd hpair
          obtain rfl := Option.some_inj.mp hx'
          rw [← hy'] at hy
          exact ⟨ht, (getL4PortNum_intStr_iff services _).mp hx, y, hy'.symm,
            (getL4PortNum_intStr_iff services _).mp hy⟩
        · cases h
      · rintro ⟨-, hl, high, hhigh, hh⟩
        have hx := (getL4PortNum_intStr_iff services low).mpr hl
        have hy := (getL4PortNum_intStr_iff services high).mpr hh
        rw [hhigh, FltArg.portText, hx, hy]
    · rw [if_neg ht]
      refine iff_of_false ?_ fun h => ht h.1
      intro h
      cases congrArg Prod.fst (Option.some_inj.mp h)

theorem prints_iff : r.Prints ↔ (∀ ip, r.srcIp = some ip → ip.length = r.af.length) ∧
    (r.ruleType = .acl ∨ r.vrfName = defaultVrf ∧ r.ruleType = .ip →
      ∀ ip, r.dstIp = some ip → ip.length = r.af.length) ∧
    (r.action = .dnat → (r.dstIp.getD []).length = r.af.length) := by
  have hsome : ∀ {α : Type} (o : Option α) (f : α → FltArg),
      (∀ arg ∈ (o.map f).toList, arg.prints r.af = true) ↔
        ∀ x, o = some x → (f x).prints r.af = true := by
    intro α o f
    cases o <;> simp
  have hmid : (∀ arg ∈ (if r.ruleType = .acl then
      (r.lowDstPort.map fun low => FltArg.dports low r.highDstPort).toList else []),
      arg.prints r.af = true) := by
    split_ifs
    · exact (hsome _ _).mpr fun _ _ => rfl
    · exact fun arg harg => by cases harg
  have hdst : (∀ arg ∈ r.dstArgs, arg.prints r.af = true) ↔
      (r.ruleType = .acl ∨ r.vrfName = defaultVrf ∧ r.ruleType = .ip →
        ∀ ip, r.dstIp = some ip → ip.length = r.af.length) := by
    rw [dstArgs]
    split_ifs with h
    · rw [hsome]
      simp [FltArg.prints, h]
    · exact iff_of_true (fun arg harg => by cases harg) fun hc => absurd hc h
  have htarget : (∀ arg ∈ r.targetArgs, arg.prints r.af = true) ↔
      (r.action = .dnat → (r.dstIp.getD []).length = r.af.length) := by
    rw [targetArgs]
    cases r.action <;> simp [FltArg.prints]
  rw [Prints, fltArgs]
  simp only [List.forall_mem_append, hsome, hdst, htarget]
  constructor
  · rintro ⟨⟨⟨⟨⟨⟨hsrc, -⟩, -⟩, -⟩, hd⟩, -⟩, ht⟩
    exact ⟨fun ip h => of_decide_eq_true (hsrc ip h), hd, ht⟩
  · rintro ⟨hsrc, hd, ht⟩
    exact ⟨⟨⟨⟨⟨⟨fun ip h => decide_eq_true (hsrc ip h), fun _ _ => rfl⟩, fun _ _ => rfl⟩, hmid⟩,
      hd⟩, inIntfArgs_prints r⟩, ht⟩

/-- The destination is that of the column for an ACL rule, and that of the
target for an IP rule. -/
theorem readDst_iff (hb : Built r) (hp : r.Prints) :
    (∃ pair, (if r.ruleType = .acl then
          getIpPrefix inet r.af
            ((r.fltArgs.findSome? (FltArg.destination inet r.af)).getD "anywhere".toList)
        else some (if r.action = .dnat then some (r.dstIp.getD []) else none, none)) = some pair ∧
      ¬ (r.action = .dnat ∧ pair.1 = none) ∧
      normalizeIpPrefix r.af pair.1 pair.2 = some (r.dstIp, r.dstPrefixLen)) ↔
    r.DstReadsBack ∧ ∀ ip, r.dstIp = some ip → ip.length = r.af.length := by
  obtain ⟨-, hlen, hdnat⟩ := prints_iff.mp hp
  obtain ⟨dst, hdst, hn⟩ := hb.dst
  rw [DstReadsBack]
  by_cases ht : r.ruleType = .acl
  · have hl := hlen (Or.inl ht) dst hdst
    have hcol := getIpPrefix_column inet hl hn
    have hiff := read_address_iff inet hl hn
    simp only [if_pos ht, destination_column inet ht, hdst, Option.map_some, Option.getD_some]
    constructor
    · rintro ⟨pair, hpair, hnone, hnorm⟩
      refine ⟨⟨hiff.mp ⟨pair, hpair, hnorm⟩, fun hd hzero => hnone ⟨hd, ?_⟩⟩, ?_⟩
      · rw [hcol, if_pos hzero] at hpair
        rw [← Option.some_inj.mp hpair]
      · rintro ip hip
        rwa [← Option.some_inj.mp hip]
    · rintro ⟨⟨hsome, hzero⟩, -⟩
      obtain ⟨pair, hpair, hnorm⟩ := hiff.mpr hsome
      refine ⟨pair, hpair, fun hd => ?_, hnorm⟩
      rw [hcol, if_neg (hzero hd.1)] at hpair
      rw [← Option.some_inj.mp hpair] at hd
      cases hd.2
  · simp only [if_neg ht]
    by_cases hd : r.action = .dnat
    · have hl : dst.length = r.af.length := by
        have hl := hdnat hd
        rwa [hdst] at hl
      have hlens : ∀ ip, some dst = some ip → ip.length = r.af.length := by
        intro ip hip
        rwa [← Option.some_inj.mp hip]
      have hnorm : normalizeIpPrefix r.af (some dst) none =
          some (some dst, if dst = List.replicate dst.length 0 then some 0 else none) := by
        rw [normalizeIpPrefix]
        split_ifs <;> rfl
      simp only [if_pos hd, hdst, Option.getD_some]
      constructor
      · rintro ⟨pair, hpair, -, hpre⟩
        obtain rfl := Option.some_inj.mp hpair
        rw [hnorm] at hpre
        have hn' : (if dst = List.replicate dst.length 0 then some 0 else none) =
            r.dstPrefixLen := congrArg Prod.snd (Option.some_inj.mp hpre)
        refine ⟨?_, hlens⟩
        rw [← hn']
        split_ifs
        · exact Or.inr rfl
        · exact Or.inl rfl
      · rintro ⟨hcases, -⟩
        refine ⟨_, rfl, (fun hf => nomatch hf.2), ?_⟩
        rw [hnorm]
        rcases hcases with hnone | hzero
        · rw [hnone] at hn ⊢
          rw [if_neg hn.ne_zero]
        · rw [hzero] at hn ⊢
          rw [if_pos hn.eq_zero]
    · simp only [if_neg hd, hdst]
      constructor
      · rintro ⟨pair, hpair, -, hpre⟩
        obtain rfl := Option.some_inj.mp hpair
        have hpair := Option.some_inj.mp hpre
        have hip : List.replicate r.af.length 0 = dst :=
          Option.some_inj.mp (congrArg Prod.fst hpair)
        refine ⟨(congrArg Prod.snd hpair).symm, fun ip hdip => ?_⟩
        rw [← Option.some_inj.mp hdip, ← hip, List.length_replicate]
      · rintro ⟨hzero, hlens⟩
        refine ⟨_, rfl, fun hf => hd hf.1, ?_⟩
        rw [hzero] at hn ⊢
        have hip := hn.eq_zero
        rw [hlens dst rfl] at hip
        rw [hip]
        rfl

/-- A rule prints in the log when its addresses have the length of the family
and its range has an end. -/
theorem strRaises_of_readsBack (h : r.ReadsBack) : r.strRaises = false := by
  have hbad : ∀ ip : Option Bytes, (∀ bs, ip = some bs → bs.length = r.af.length) →
      badAddress r.af ip = false := by
    intro ip hip
    cases ip with
    | none => rfl
    | some bs =>
      rw [badAddress, Option.any_some, decide_eq_false_iff_not]
      exact not_not_intro (hip bs rfl)
  have hrange : (r.lowDstPort.isSome && r.highDstPort.isNone) = false := by
    have hports := h.dports
    rw [DportsReadBack] at hports
    cases hlow : r.lowDstPort with
    | none => rfl
    | some low =>
      rw [hlow] at hports
      obtain ⟨-, -, high, hhigh, -⟩ := hports
      rw [hhigh]
      rfl
  rw [strRaises, hbad _ h.srcIp, hbad _ h.dstIp, hrange, Bool.and_false, Bool.and_false]
  rfl

theorem strRaises_of_key {r' : VrfIncomingSvcsRule} (h : keyAttrs r' = keyAttrs r) :
    r'.strRaises = r.strRaises := by
  simp only [keyAttrs, Key.mk.injEq] at h
  obtain ⟨-, -, haf, hsrc, hspl, -, -, hlow, hhigh, -, -, hdst, hdpl⟩ := h
  rw [strRaises, strRaises, haf, hsrc, hspl, hlow, hhigh, hdst, hdpl]

/-- The rule that `proc_rule` programs is read back as an equal one exactly
when every attribute is. -/
theorem readBy_iff (pkts bytes : Str) (hb : Built r) :
    ReadBy inet services pkts bytes r ↔ r.ReadsBack := by
  obtain ⟨src, hsrc, hnsrc⟩ := hb.src
  rw [ReadBy]
  have hparts (hp : r.Prints) :
      (∃ r', iptTokensToRule inet services r.ruleType r.af r.vrfName
        (columns inet r.af pkts bytes r.fltArgs) = .returned (some r') ∧
        keyAttrs r' = keyAttrs r) ↔ r.ReadsBack := by
    obtain ⟨hlen, -, hdnat⟩ := prints_iff.mp hp
    have hl := hlen src hsrc
    have hcol : columns inet r.af pkts bytes r.fltArgs =
        [pkts, bytes, r.targetName,
          (r.protocol.bind fun p => FltArg.protocol (.proto (getProtoName p))).getD "all".toList,
          (r.inIntfArg.map fun i => if i.1 then '!' :: i.2 else i.2).getD "any".toList,
          "any".toList, FltArg.addressColumn inet r.af src r.srcPrefixLen,
          (r.fltArgs.findSome? (FltArg.destination inet r.af)).getD "anywhere".toList,
          join ' ' (r.options inet)] := by
      rw [columns, target_column, protocol_column, interface_column, source_column, option_column,
        hsrc]
      rfl
    rw [hcol]
    simp only [iptTokensToRule_eq_some_iff, readTarget_options hdnat, Option.some_inj]
    constructor
    · rintro ⟨r', ⟨_, s, d, dport, dports, rfl, hs, hd, hdport, hdports, hinit, hstr⟩, hkey⟩
      obtain ⟨hnone, hnorms, hnormd, hproto, hport, hrange, hintf⟩ :=
        (init_readArgs_iff hb).mp ⟨r', hinit, hkey⟩
      obtain ⟨hdst, hdlen⟩ := (readDst_iff hb hp).mp ⟨d, hd, hnone, hnormd⟩
      rw [hsrc] at hnorms
      rw [hport] at hdport
      rw [hrange] at hdports
      exact
        { protocol := readProto_iff.mp hproto
          srcIp := hlen
          srcPrefixLen := (read_address_iff inet hl hnsrc).mp ⟨s, hs, hnorms⟩
          dstIp := hdlen
          dstPrefixLen := hdst
          inIntf := (readInIntf_iff hb).mp hintf
          dstPort := (readDport_iff hdnat).mp hdport
          dports := (readDports_iff hdnat).mp hdports }
    · intro h
      obtain ⟨s, hs, hnorms⟩ := (read_address_iff inet hl hnsrc).mpr h.srcPrefixLen
      obtain ⟨d, hd, hnone, hnormd⟩ := (readDst_iff hb hp).mpr ⟨h.dstPrefixLen, h.dstIp⟩
      rw [← hsrc] at hnorms
      obtain ⟨r', hinit, hkey⟩ := (init_readArgs_iff hb).mpr
        ⟨hnone, hnorms, hnormd, readProto_iff.mpr h.protocol, rfl, rfl,
          (readInIntf_iff hb).mpr h.inIntf⟩
      refine ⟨r', ⟨_, s, d, _, _, rfl, hs, hd, (readDport_iff hdnat).mpr h.dstPort,
        (readDports_iff hdnat).mpr h.dports, hinit, ?_⟩, hkey⟩
      rw [strRaises_of_key hkey]
      exact strRaises_of_readsBack h
  constructor
  · rintro ⟨hp, hread⟩
    exact (hparts hp).mp hread
  · intro h
    have hp : r.Prints := by
      refine prints_iff.mpr ⟨h.srcIp, fun _ => h.dstIp, fun _ => ?_⟩
      obtain ⟨dst, hdst, -⟩ := hb.dst
      rw [hdst]
      exact h.dstIp dst hdst
    exact ⟨hp, (hparts hp).mpr h⟩

end

end VrfIncomingSvcsRule

/-! ## A whole list -/

open VrfIncomingSvcsRule IptablesHandler

/-- The line is that of the rule as `proc_rule` programs it. -/
def Listed (inet : InetText) (r : VrfIncomingSvcsRule) (line : List Str) : Prop :=
  r.Prints ∧ ∃ pkts bytes, line = columns inet r.af pkts bytes r.fltArgs

section

variable {inet : InetText} {services : Str → Option ℕ} {ruleType : VrfSvcsRuleType} {af : Af}
  {vrfName : Str}

/-- A line gives at most one rule. -/
theorem getRuleFromIpt_length {lines : List (List Str)} {read : List VrfIncomingSvcsRule}
    (h : getRuleFromIpt inet services ruleType af vrfName lines = .returned read) :
    read.length ≤ lines.length := by
  induction lines generalizing read with
  | nil =>
    obtain rfl := Outcome.returned.inj h
    exact le_rfl
  | cons tokens lines ih =>
    rw [getRuleFromIpt] at h
    split at h
    · cases h
    next rule _ =>
    split at h
    · cases h
    next rules hrest =>
    obtain rfl := Outcome.returned.inj h
    have hlen := ih hrest
    cases rule with
    | none => exact hlen.trans (Nat.le_succ _)
    | some rule => exact Nat.succ_le_succ hlen

variable (services) in
/-- The rules that are read equal those of the list exactly when each of them
is read back. -/
theorem getRuleFromIpt_iff {rules : List VrfIncomingSvcsRule} {lines : List (List Str)}
    (hrules : ∀ r ∈ rules, Built r ∧ r.ruleType = ruleType ∧ r.af = af ∧ r.vrfName = vrfName)
    (hlisted : List.Forall₂ (Listed inet) rules lines) :
    (∃ read, getRuleFromIpt inet services ruleType af vrfName lines = .returned read ∧
      rules.map keyAttrs = read.map keyAttrs) ↔ ∀ r ∈ rules, r.ReadsBack := by
  induction hlisted with
  | nil => exact iff_of_true ⟨[], rfl, rfl⟩ fun r hr => nomatch hr
  | @cons r line rules lines hline hlisted ih =>
    obtain ⟨hb, rfl, rfl, rfl⟩ := hrules r List.mem_cons_self
    have hrest := ih fun r' hr' => hrules r' (List.mem_cons_of_mem r hr')
    obtain ⟨hp, pkts, bytes, rfl⟩ := hline
    have hone := @readBy_iff inet services r pkts bytes hb
    rw [List.forall_mem_cons, ← hone, ← hrest, getRuleFromIpt]
    constructor
    · rintro ⟨read, hread, hkeys⟩
      split at hread
      · cases hread
      next rule hrule =>
      split at hread
      · cases hread
      next rest hrest' =>
      obtain rfl := Outcome.returned.inj hread
      cases rule with
      | none =>
        -- a line that is left out leaves too few rules
        have hlen := congrArg List.length hkeys
        have hle := getRuleFromIpt_length hrest'
        rw [List.length_map, List.length_map, List.length_cons, hlisted.length_eq] at hlen
        exact absurd hle (by rw [Option.toList_none, List.nil_append] at hlen; omega)
      | some r' =>
        obtain ⟨hkey, hkeys⟩ := List.cons.inj hkeys
        exact ⟨⟨hp, r', hrule, hkey.symm⟩, rest, hrest', hkeys⟩
    · rintro ⟨⟨-, r', hrule, hkey⟩, rest, hrest', hkeys⟩
      rw [hrule, hrest']
      exact ⟨_, rfl, by rw [List.map_cons, hkeys, ← hkey]; rfl⟩

end

/-- The rule that `proc_rule` programs is read back from a listing as an equal
one exactly when each of its attributes is, and `check_ipt_rules` reports a
list in sync with its chain exactly when all of its rules are read back. -/
theorem listing_read_back_iff (inet : InetText) (services : Str → Option ℕ) (pkts bytes : Str)
    {a : Args} {r : VrfIncomingSvcsRule} (h : init a = some r) {ruleType : VrfSvcsRuleType}
    {af : Af} {vrfName : Str} {rules : List VrfIncomingSvcsRule} {lines : List (List Str)}
    (hrules : ∀ r ∈ rules, (∃ a, init a = some r) ∧ r.ruleType = ruleType ∧ r.af = af ∧
      r.vrfName = vrfName)
    (hlisted : List.Forall₂ (Listed inet) rules lines) :
    (ReadBy inet services pkts bytes r ↔ r.ReadsBack) ∧
      (checkIptRules inet services ruleType af vrfName rules lines = .returned true ↔
        ∀ r ∈ rules, r.ReadsBack) := by
  refine ⟨readBy_iff pkts bytes (built_of_init h), ?_⟩
  have hall := getRuleFromIpt_iff services (fun r hr => by
    obtain ⟨⟨a, ha⟩, hloc⟩ := hrules r hr
    exact ⟨built_of_init ha, hloc⟩) hlisted
  rw [← hall, checkIptRules]
  cases getRuleFromIpt inet services ruleType af vrfName lines with
  | raised => exact iff_of_false (fun hf => nomatch hf) fun ⟨read, hread, _⟩ => nomatch hread
  | returned read =>
    dsimp only
    rw [Outcome.returned.injEq, decide_eq_true_iff]
    exact ⟨fun hkeys => ⟨read, rfl, hkeys⟩, fun ⟨read', hread, hkeys⟩ => by
      rwa [Outcome.returned.inj hread]⟩

/-- The rule for the web server on `eth1`. -/
def webRule : VrfIncomingSvcsRule := (init (webArgs "eth1".toList 30)).get (by decide +kernel)

theorem webRule_readsBack : webRule.ReadsBack := by
  refine ⟨by decide +kernel, ?_, by decide +kernel, ?_, by decide +kernel, ?_, ?_, ?_⟩
  · rintro ip ⟨⟩
    rfl
  · rintro ip ⟨⟩
    rfl
  · exact Or.inr (by decide)
  · rintro port ⟨⟩
    decide
  · rfl

/-- The web rule is read back, and the chain that holds it is in sync. -/
theorem listing_read_back_small :
    ReadBy .plain (fun _ => none) "0".toList "0".toList webRule ∧
      checkIptRules .plain (fun _ => none) .acl .inet defaultVrf [webRule]
        [columns .plain .inet "7".toList "420".toList webRule.fltArgs] = .returned true := by
  have hinit : init (webArgs "eth1".toList 30) = some webRule := (Option.some_get _).symm
  have hprints : webRule.Prints := by decide +kernel
  have hlisted : List.Forall₂ (Listed .plain) [webRule]
      [columns .plain .inet "7".toList "420".toList webRule.fltArgs] :=
    .cons ⟨hprints, _, _, rfl⟩ .nil
  have hboth := listing_read_back_iff .plain (fun _ => none) "0".toList "0".toList hinit
    (fun r hr => by
      obtain rfl := List.mem_singleton.mp hr
      exact ⟨⟨_, hinit⟩, rfl, rfl, rfl⟩) hlisted
  exact ⟨hboth.1.mpr webRule_readsBack, hboth.2.mpr fun r hr => by
    obtain rfl := List.mem_singleton.mp hr
    exact webRule_readsBack⟩

/-- An ACL rule for any protocol. -/
def anyRule : VrfIncomingSvcsRule :=
  (init { ruleType := 2, vrfName := defaultVrf, action := 1, af := 2, protocol := some 4 }).get
    (by decide +kernel)

/-- The protocol of a rule that was read. -/
def readProtocol : Outcome (Option VrfIncomingSvcsRule) → Option VrfSvcsRuleProto
  | .returned (some r) => r.protocol
  | _ => none

/-- The rule for any protocol is read back as one without a protocol. -/
theorem any_protocol_not_read_back :
    init { ruleType := 2, vrfName := defaultVrf, action := 1, af := 2, protocol := some 4 } =
        some anyRule ∧ anyRule.Prints ∧
      ¬ ∃ r', iptTokensToRule .plain (fun _ => none) anyRule.ruleType anyRule.af anyRule.vrfName
        (columns .plain anyRule.af "0".toList "0".toList anyRule.fltArgs) =
          .returned (some r') ∧ keyAttrs r' = keyAttrs anyRule := by
  refine ⟨(Option.some_get _).symm, by decide +kernel, ?_⟩
  rintro ⟨r', hread, hkey⟩
  have hproto : readProtocol (iptTokensToRule .plain (fun _ => none) anyRule.ruleType anyRule.af
      anyRule.vrfName (columns .plain anyRule.af "0".toList "0".toList anyRule.fltArgs)) =
        none := by
    decide +kernel
  have hsome : r'.protocol = some .all := congrArg Key.protocol hkey
  rw [hread, readProtocol, hsome] at hproto
  cases hproto

end OpxNasLinux
