import OpxNasLinux.RuleGet

/-!
# Filters made of what a rule reports

* `AddressFound` and `Selected` say when the values of a filter come back to
  those of the rule that reported them, and `Accepted` when its addresses are
  translated at all.
* `get_returns_rule_iff` says when a get request with such a filter returns the
  rule.
-/

namespace OpxNasLinux

open SvcsRule Run

/-! ## Addresses of a filter -/

/-- The address of a rule is found by a filter that has it.  `hasAf` and
`hasPrefixLen` say whether the filter has the family and the prefix length
too. -/
def AddressFound (af : Af) (hasAf : Bool) (ip : Bytes) (prefixLen : Option ℤ)
    (hasPrefixLen : Bool) : Prop :=
  ip.length = af.length ∧ (hasAf = false → af = .inet6 → unhexlify ip = none) ∧
    ∃ n, prefixLen = some n ∧ (hasPrefixLen = false → n = 8 * af.length) ∧ 0 ≤ n ∧
      n ≤ 8 * af.length ∧ maskBytes n.toNat ip = ip

/-- The family that is found for the string of an address. -/
theorem findFamily_hexlify_iff {given : Option Af} {af : Af} (ip : Bytes)
    (hg : given = none ∨ given = some af) :
    findFamily (chkAfList given) (hexlify ip) = some (af, ip) ↔
      ip.length = af.length ∧ (given.isSome = false → af = .inet6 → unhexlify ip = none) := by
  obtain rfl | rfl := hg
  · simp only [chkAfList, findFamily, unhexlify_hexlify, Option.getD_some]
    cases af with
    | inet =>
      split_ifs with h4 h16
      · exact iff_of_true rfl ⟨h4, fun _ hf => nomatch hf⟩
      · exact iff_of_false (fun hf => nomatch hf) fun hf => h4 hf.1
      · exact iff_of_false (fun hf => nomatch hf) fun hf => h4 hf.1
    | inet6 =>
      split_ifs with h4 h16
      · refine iff_of_false (fun hf => nomatch hf) fun hf => ?_
        have h16 : ip.length = 16 := hf.1
        have h4' : ip.length = 4 := h4
        omega
      · rw [Option.some_inj, Prod.mk.injEq]
        cases hu : unhexlify ip with
        | none =>
          rw [hu] at h16
          exact iff_of_true ⟨rfl, rfl⟩ ⟨h16, fun _ _ => rfl⟩
        | some bs =>
          have hlen := unhexlify_length hu
          refine iff_of_false ?_ ?_
          · rintro ⟨-, hbs⟩
            obtain rfl : bs = ip := hbs
            rw [hu] at h16
            have h16' : bs.length = 16 := h16
            omega
          · rintro ⟨-, hnone⟩
            exact nomatch hnone rfl rfl
      · refine iff_of_false (fun hf => nomatch hf) ?_
        rintro ⟨hlen, hnone⟩
        rw [hnone rfl rfl] at h16
        exact h16 hlen
  · simp only [chkAfList, findFamily, unhexlify_hexlify, Option.getD_some, Option.isSome_some]
    split_ifs with h
    · exact iff_of_true rfl ⟨h, fun hf => nomatch hf⟩
    · exact iff_of_false (fun hf => nomatch hf) fun hf => h hf.1

/-- The families that are tried. -/
theorem findFamily_same {given : Option Af} {af : Af} {ip ip' : Bytes}
    (h : findFamily (chkAfList given) (hexlify ip) = some (af, ip'))
    (hlen : ip'.length = ip.length) : ip' = ip := by
  cases given with
  | some af' =>
    simp only [chkAfList, findFamily, unhexlify_hexlify, Option.getD_some] at h
    split_ifs at h
    exact (Prod.mk.inj (Option.some_inj.mp h)).2.symm
  | none =>
    simp only [chkAfList, findFamily, unhexlify_hexlify, Option.getD_some] at h
    split_ifs at h with h4 h16
    · exact (Prod.mk.inj (Option.some_inj.mp h)).2.symm
    · obtain ⟨-, rfl⟩ := Prod.mk.inj (Option.some_inj.mp h)
      cases hu : unhexlify ip with
      | none => rfl
      | some bs =>
        have htwice := unhexlify_length hu
        rw [hu, Option.getD_some] at hlen h16
        have h16' : bs.length = 16 := h16
        omega

/-- An address is normalized to that of the rule exactly when it is found. -/
theorem normalizeIpWithPrefix_iff {given : Option Af} {af : Af} (ip : Bytes)
    {pfx prefixLen : Option ℤ} (hg : given = none ∨ given = some af)
    (hp : pfx = none ∨ pfx = prefixLen) :
    (∃ n, normalizeIpWithPrefix given (hexlify ip) pfx = some (af, ip, n) ∧ prefixLen = some n) ↔
      AddressFound af given.isSome ip prefixLen pfx.isSome := by
  have hfam := findFamily_hexlify_iff ip hg
  rw [AddressFound, ← and_assoc, ← hfam, normalizeIpWithPrefix.eq_def]
  constructor
  · rintro ⟨n, hnorm, hn⟩
    split at hnorm
    · cases hnorm
    next af' ip' hfound =>
    dsimp only at hnorm
    split_ifs at hnorm with hnet
    obtain ⟨rfl, hip⟩ := Prod.mk.inj (Option.some_inj.mp hnorm)
    obtain ⟨hmask, rfl⟩ := Prod.mk.inj hip
    have hsame : ip' = ip := by
      refine findFamily_same hfound ?_
      rw [← hmask, length_maskBytes]
    rw [hsame] at hfound hmask hnet
    obtain ⟨-, hpos, hle⟩ := isNetwork_iff.mp hnet
    refine ⟨hfound, _, hn, fun hnone => ?_, hpos, hle, hmask⟩
    rw [Option.isSome_eq_false_iff, Option.isNone_iff_eq_none] at hnone
    rw [hnone, Option.getD_none]
  · rintro ⟨hfound, n, hn, hwhole, hpos, hle, hmask⟩
    have hlen := (hfam.mp hfound).1
    have hval : pfx.getD (8 * af.length) = n := by
      cases pfx with
      | none => exact (hwhole rfl).symm
      | some m =>
        obtain hf | hf := hp
        · cases hf
        · exact Option.some_inj.mp (hf.trans hn)
    refine ⟨n, ?_, hn⟩
    rw [hfound]
    dsimp only
    rw [hval, if_pos (isNetwork_iff.mpr ⟨hlen, hpos, hle⟩), hmask]

/-! ## Filters that are accepted -/

/-- The family that an address of a filter is taken for.  `given` is the family
that is known already. -/
def TakenFor (given : Option Af) (ip : Bytes) : Af → Prop
  | .inet => ip.length = 4 ∧ given ≠ some .inet6
  | .inet6 =>
    match given, unhexlify ip with
    | some .inet, _ => False
    | some .inet6, _ => ip.length = 16
    | none, none => ip.length = 16
    | none, some bs => ip.length ≠ 4 ∧ bs.length = 16

/-- An address of a filter, when there is one, has a family and a prefix length
in its range.  `known` is the family that is known afterwards. -/
def AddressTaken (given : Option Af) (ip : Option Bytes) (prefixLen : Option ℤ)
    (known : Option Af) : Prop :=
  match ip with
  | none => known = given
  | some ip => ∃ af, known = some af ∧ TakenFor given ip af ∧
      0 ≤ prefixLen.getD (8 * af.length) ∧ prefixLen.getD (8 * af.length) ≤ 8 * af.length

/-- The addresses in a filter of attributes of the rule are accepted. -/
def Accepted (f : CpsObj) (r : VrfIncomingSvcsRule) : Prop :=
  ∃ af af', AddressTaken (f.af.map fun _ => r.af) (f.srcIp.bind fun _ => r.srcIp)
      f.srcPrefixLen af ∧
    AddressTaken af (f.dstIp.bind fun _ => r.dstIp) f.dstPrefixLen af'

/-- The loop over the families finds the one that the address is taken for. -/
theorem findFamily_some_iff {given : Option Af} {ip : Bytes} {af : Af} :
    (∃ ip', findFamily (chkAfList given) (hexlify ip) = some (af, ip') ∧ ip'.length = af.length) ↔
      TakenFor given ip af := by
  cases given with
  | some g =>
    simp only [chkAfList, findFamily, unhexlify_hexlify, Option.getD_some]
    cases g <;> cases af <;> simp only [TakenFor, Af.length] <;> grind
  | none =>
    simp only [chkAfList, findFamily, unhexlify_hexlify, Option.getD_some]
    cases hu : unhexlify ip <;> cases af <;> simp only [TakenFor, Af.length, hu] <;> grind

/-- An argument is made of an address exactly when it is taken. -/
theorem normalizeArg_taken_iff {given known : Option Af} {ip : Option Bytes} {pfx : Option ℤ} :
    (∃ out, normalizeArg given (ip.map hexlify) pfx = some out ∧ out.1 = known) ↔
      AddressTaken given ip pfx known := by
  cases ip with
  | none =>
    constructor
    · rintro ⟨out, hout, rfl⟩
      obtain rfl := Option.some_inj.mp hout
      rfl
    · intro h
      exact ⟨_, rfl, h.symm⟩
  | some ip =>
    constructor
    · rintro ⟨out, hout, rfl⟩
      obtain ⟨⟨af, ip', n⟩, hnorm, rfl⟩ := Option.map_eq_some_iff.mp hout
      rw [normalizeIpWithPrefix.eq_def] at hnorm
      split at hnorm
      · cases hnorm
      next af' ip'' hfound =>
      dsimp only at hnorm
      split_ifs at hnorm with hnet
      obtain ⟨rfl, -⟩ := Prod.mk.inj (Option.some_inj.mp hnorm)
      obtain ⟨hlen, hrange⟩ := isNetwork_iff.mp hnet
      exact ⟨af', rfl, findFamily_some_iff.mp ⟨ip'', hfound, hlen⟩, hrange⟩
    · rintro ⟨af, rfl, htaken, hrange⟩
      obtain ⟨ip', hfound, hlen⟩ := findFamily_some_iff.mpr htaken
      refine ⟨(some af, some (maskBytes (pfx.getD (8 * af.length)).toNat ip'),
        some (pfx.getD (8 * af.length))), ?_, rfl⟩
      rw [Option.map_some, normalizeArg, normalizeIpWithPrefix.eq_def, hfound]
      dsimp only
      rw [if_pos (isNetwork_iff.mpr ⟨hlen, hrange⟩)]
      rfl

/-! ## Filters that select a rule -/

theorem attrMatches_iff {α : Type} [DecidableEq α] {val attr : Option α} :
    attrMatches val attr = true ↔ val = none ∨ val = attr := by
  rw [attrMatches, decide_eq_true_iff]

/-- What the family is normalized to when there is one already. -/
theorem normalizeArg_af {af : Af} {ip : Option Bytes} {pfx : Option ℤ}
    {out : Option Af × Option Bytes × Option ℤ} (h : normalizeArg (some af) ip pfx = some out) :
    out.1 = some af := by
  cases ip with
  | none =>
    obtain rfl := Option.some_inj.mp h
    rfl
  | some ip =>
    obtain ⟨⟨af', ip', n⟩, hnorm, rfl⟩ := Option.map_eq_some_iff.mp h
    rw [normalizeIpWithPrefix.eq_def] at hnorm
    split at hnorm
    · cases hnorm
    next af'' ip'' hfound =>
    simp only [chkAfList, findFamily] at hfound
    dsimp only at hnorm
    split_ifs at hnorm hfound
    obtain ⟨rfl, -⟩ := Prod.mk.inj (Option.some_inj.mp hfound)
    obtain ⟨rfl, -⟩ := Prod.mk.inj (Option.some_inj.mp hnorm)
    rfl

/-- An address argument of a rule's own values matches the rule exactly when
the address is found. -/
theorem normalizeArg_iff {given : Option Af} {af : Af} {fip rip : Option Bytes}
    {pfx prefixLen : Option ℤ} (hg : given = none ∨ given = some af)
    (hip : SubAttr fip (rip.map hexlify)) (hp : SubAttr pfx prefixLen) :
    (∃ out, normalizeArg given fip pfx = some out ∧ (out.1 = none ∨ out.1 = some af) ∧
      attrMatches out.2.1 rip = true ∧ attrMatches out.2.2 prefixLen = true) ↔
      ∀ ip, fip.isSome → rip = some ip →
        AddressFound af given.isSome ip prefixLen pfx.isSome := by
  cases fip with
  | none =>
    refine iff_of_true ⟨_, rfl, hg, attrMatches_iff.mpr (Or.inl rfl), attrMatches_iff.mpr hp⟩ ?_
    exact fun ip hf => nomatch hf
  | some s =>
    obtain hf | hs := hip
    · cases hf
    obtain ⟨ip, rfl, hhex⟩ := Option.map_eq_some_iff.mp hs.symm
    subst hhex
    have hiff := normalizeIpWithPrefix_iff ip hg hp
    constructor
    · rintro ⟨out, hout, haf, hmip, hmpl⟩ ip' - hip'
      obtain rfl := Option.some_inj.mp hip'
      obtain ⟨⟨af', ip', n⟩, hnorm, rfl⟩ := Option.map_eq_some_iff.mp hout
      obtain rfl : af' = af := by simpa using haf
      obtain rfl : ip' = ip := by simpa [attrMatches_iff] using hmip
      have hn : some n = prefixLen := by simpa [attrMatches_iff] using hmpl
      exact hiff.mp ⟨n, hnorm, hn.symm⟩
    · intro h
      obtain ⟨n, hnorm, hn⟩ := hiff.mpr (h ip rfl rfl)
      refine ⟨(some af, some ip, some n), ?_, Or.inr rfl, attrMatches_iff.mpr (Or.inr rfl),
        attrMatches_iff.mpr (Or.inr hn.symm)⟩
      rw [normalizeArg, hnorm]
      rfl

/-- A filter of attributes of the rule, without an id, selects it. -/
structure Selected (f : CpsObj) (r : VrfIncomingSvcsRule) : Prop where
  action : f.action.isSome → r.action = .allow ∨ r.action = .deny
  ifname : f.ifname.isSome → r.negative ≠ some true
  src : ∀ ip, f.srcIp.isSome → r.srcIp = some ip →
    AddressFound r.af f.af.isSome ip r.srcPrefixLen f.srcPrefixLen.isSome
  dst : ∀ ip, f.dstIp.isSome → r.dstIp = some ip →
    AddressFound r.af (f.af.isSome || f.srcIp.isSome) ip r.dstPrefixLen f.dstPrefixLen.isSome

section

open VrfIncomingSvcsRule

/-- The destination of a filter is that of the rule, when an IP rule hides its
own too. -/
theorem sub_dst {f : CpsObj} {r : VrfIncomingSvcsRule} (hf : f.Sub r.toCpsObj) :
    SubAttr f.dstIp (r.dstIp.map hexlify) ∧ SubAttr f.dstPrefixLen r.dstPrefixLen := by
  have hip := hf.dstIp
  have hpl := hf.dstPrefixLen
  rw [toCpsObj] at hip hpl
  dsimp only at hip hpl
  split_ifs at hip hpl
  · exact ⟨Or.inl (hip.elim id id), Or.inl (hpl.elim id id)⟩
  · exact ⟨hip, hpl⟩

/-- The family of a filter is that of the rule. -/
theorem sub_af {f : CpsObj} {r : VrfIncomingSvcsRule} (hf : f.Sub r.toCpsObj) :
    checkAf f.af = some (f.af.map fun _ => r.af) := by
  obtain hnone | hval := hf.af
  · rw [hnone]
    rfl
  · rw [hval]
    exact congrArg (Option.map some) (Af.ofValue_value r.af)

/-- The string of an address of a filter is made of the rule's. -/
theorem SubAttr.eq_map {given : Option Bytes} {ip : Option Bytes}
    (h : SubAttr given (ip.map hexlify)) : given = (given.bind fun _ => ip).map hexlify := by
  cases given with
  | none => rfl
  | some s =>
    obtain hf | hs := h
    · cases hf
    · exact hs

/-- The request is translated back into arguments exactly when its addresses
are accepted. -/
theorem getArgs_isSome_iff {f : CpsObj} {r : VrfIncomingSvcsRule} (hf : f.Sub r.toCpsObj) :
    (∃ a, getArgs f = some a) ↔ Accepted f r := by
  have hsrcIp := SubAttr.eq_map hf.srcIp
  have hdstIp := SubAttr.eq_map (sub_dst hf).1
  rw [Accepted]
  constructor
  · rintro ⟨a, ha⟩
    rw [getArgs, sub_af hf, Option.bind_eq_bind, Option.bind_some] at ha
    obtain ⟨⟨af', sip, spl⟩, hsrc, ha⟩ := Option.bind_eq_some_iff.mp ha
    obtain ⟨⟨af'', dip, dpl⟩, hdst, -⟩ := Option.bind_eq_some_iff.mp ha
    rw [hsrcIp] at hsrc
    rw [hdstIp] at hdst
    exact ⟨af', af'', normalizeArg_taken_iff.mp ⟨_, hsrc, rfl⟩,
      normalizeArg_taken_iff.mp ⟨_, hdst, rfl⟩⟩
  · rintro ⟨af', af'', hsrc, hdst⟩
    obtain ⟨⟨_, sip, spl⟩, hsrcArg, rfl⟩ := normalizeArg_taken_iff.mpr hsrc
    obtain ⟨⟨_, dip, dpl⟩, hdstArg, rfl⟩ := normalizeArg_taken_iff.mpr hdst
    rw [← hsrcIp] at hsrcArg
    rw [← hdstIp] at hdstArg
    simp only [getArgs, sub_af hf, Option.bind_eq_bind, Option.bind_some, hsrcArg, hdstArg]
    exact ⟨_, rfl⟩

theorem attrMatches_action_iff {f : CpsObj} {r : VrfIncomingSvcsRule} (hf : f.Sub r.toCpsObj) :
    attrMatches f.action (some r.action.value) = true ↔
      (f.action.isSome → r.action = .allow ∨ r.action = .deny) := by
  have hvalid := r.validAction
  obtain hnone | hsome := hf.action
  · rw [hnone]
    exact iff_of_true (attrMatches_iff.mpr (Or.inl rfl)) fun h => nomatch h
  · rw [hsome, attrMatches_iff, toCpsObj]
    cases hact : r.action with
    | allow => exact iff_of_true (Or.inr rfl) fun _ => Or.inl rfl
    | deny => exact iff_of_true (Or.inr rfl) fun _ => Or.inr rfl
    | dnat => simp [reportedAction, VrfSvcsRuleAction.value]
    | reject => simp [reportedAction, VrfSvcsRuleAction.value]
    | snat =>
      rw [hact] at hvalid
      cases hvalid

theorem attrMatches_ifname_iff {f : CpsObj} {r : VrfIncomingSvcsRule} (hf : f.Sub r.toCpsObj) :
    attrMatches f.ifname r.inIntf = true ↔ (f.ifname.isSome → r.negative ≠ some true) := by
  obtain hnone | hsome := hf.ifname
  · rw [hnone]
    exact iff_of_true (attrMatches_iff.mpr (Or.inl rfl)) fun h => nomatch h
  · rw [hsome, attrMatches_iff, toCpsObj]
    cases hname : r.inIntf with
    | none => exact iff_of_true (Or.inl rfl) fun h => nomatch h
    | some name =>
      by_cases hneg : r.negative = some true
      · simp [hneg]
      · simp [hneg]

/-- There is a family afterwards when there was one or an address has been
normalized. -/
theorem normalizeArg_isSome {given : Option Af} {ip : Option Bytes} {pfx : Option ℤ}
    {out : Option Af × Option Bytes × Option ℤ} (h : normalizeArg given ip pfx = some out) :
    out.1.isSome = (given.isSome || ip.isSome) := by
  cases ip with
  | none =>
    obtain rfl := Option.some_inj.mp h
    exact (Bool.or_false _).symm
  | some ip =>
    obtain ⟨⟨af, ip', n⟩, -, rfl⟩ := Option.map_eq_some_iff.mp h
    exact (Bool.or_true _).symm

/-- The request is translated back into arguments that match the rule exactly
when the filter selects it. -/
theorem getArgs_matches_iff {f : CpsObj} {r : VrfIncomingSvcsRule} (hf : f.Sub r.toCpsObj) :
    (∃ a, getArgs f = some a ∧ a.matches r = true) ↔ Selected f r := by
  obtain ⟨hdip, hdpl⟩ := sub_dst hf
  obtain ⟨af, hchk, hg, hsome⟩ : ∃ af, checkAf f.af = some af ∧ (af = none ∨ af = some r.af) ∧
      af.isSome = f.af.isSome := by
    refine ⟨_, sub_af hf, ?_, Option.isSome_map⟩
    cases f.af with
    | none => exact Or.inl rfl
    | some val => exact Or.inr rfl
  have hrest : attrMatches f.protocol (r.protocol.map VrfSvcsRuleProto.value) = true ∧
      attrMatches f.dstPort r.dstPort = true ∧ attrMatches f.lowerDstPort r.lowDstPort = true ∧
      attrMatches f.upperDstPort r.highDstPort = true ∧
      attrMatches f.seqNum (some r.seqNum) = true :=
    ⟨attrMatches_iff.mpr hf.protocol, attrMatches_iff.mpr hf.dstPort,
      attrMatches_iff.mpr hf.lowerDstPort, attrMatches_iff.mpr hf.upperDstPort,
      attrMatches_iff.mpr hf.seqNum⟩
  obtain ⟨hproto, hport, hlow, hhigh, hseq⟩ := hrest
  constructor
  · rintro ⟨a, ha, hm⟩
    rw [getArgs, hchk, Option.bind_eq_bind, Option.bind_some] at ha
    obtain ⟨⟨af', sip, spl⟩, hsrc, ha⟩ := Option.bind_eq_some_iff.mp ha
    obtain ⟨⟨af'', dip, dpl⟩, hdst, ha⟩ := Option.bind_eq_some_iff.mp ha
    obtain rfl := Option.some_inj.mp ha
    simp only [GetArgs.matches, Bool.and_eq_true] at hm
    obtain ⟨⟨⟨⟨⟨⟨⟨⟨⟨⟨⟨hmaf, hmsip⟩, hmspl⟩, hmdip⟩, hmdpl⟩, -⟩, -⟩, -⟩, -⟩, hact⟩, -⟩, hname⟩ := hm
    have haf'' := attrMatches_iff.mp hmaf
    have haf' : af' = none ∨ af' = some r.af := by
      cases af' with
      | none => exact Or.inl rfl
      | some x =>
        have hx : af'' = some x := normalizeArg_af hdst
        rwa [hx] at haf''
    have hfound := (normalizeArg_iff hg hf.srcIp hf.srcPrefixLen).mp ⟨_, hsrc, haf', hmsip, hmspl⟩
    have hfound' := (normalizeArg_iff haf' hdip hdpl).mp ⟨_, hdst, haf'', hmdip, hmdpl⟩
    rw [hsome] at hfound
    have hsome' : af'.isSome = (f.af.isSome || f.srcIp.isSome) := by
      rw [← hsome]
      exact normalizeArg_isSome hsrc
    rw [hsome'] at hfound'
    exact ⟨(attrMatches_action_iff hf).mp hact, (attrMatches_ifname_iff hf).mp hname, hfound,
      hfound'⟩
  · intro h
    have hfound := h.src
    rw [← hsome] at hfound
    obtain ⟨⟨af', sip, spl⟩, hsrc, haf', hmsip, hmspl⟩ :=
      (normalizeArg_iff hg hf.srcIp hf.srcPrefixLen).mpr hfound
    have hsome' : af'.isSome = (f.af.isSome || f.srcIp.isSome) := by
      rw [← hsome]
      exact normalizeArg_isSome hsrc
    have hfound' := h.dst
    rw [← hsome'] at hfound'
    obtain ⟨⟨af'', dip, dpl⟩, hdst, haf'', hmdip, hmdpl⟩ :=
      (normalizeArg_iff haf' hdip hdpl).mpr hfound'
    have hargs : getArgs f = some
        { vrfName := f.niName, af := af'', srcIp := sip, srcPrefixLen := spl, dstIp := dip
          dstPrefixLen := dpl, protocol := f.protocol, dstPort := f.dstPort
          lowDstPort := f.lowerDstPort, highDstPort := f.upperDstPort, action := f.action
          seqNum := f.seqNum, inIntf := f.ifname } := by
      simp only [getArgs, hchk, Option.bind_eq_bind, Option.bind_some, hsrc, hdst]
    refine ⟨_, hargs, ?_⟩
    simp only [GetArgs.matches, Bool.and_eq_true]
    exact ⟨⟨⟨⟨⟨⟨⟨⟨⟨⟨⟨attrMatches_iff.mpr haf'', hmsip⟩, hmspl⟩, hmdip⟩, hmdpl⟩, hproto⟩, hport⟩,
      hlow⟩, hhigh⟩, (attrMatches_action_iff hf).mpr h.action⟩, hseq⟩,
      (attrMatches_ifname_iff hf).mpr h.ifname⟩

end

namespace SvcsRuleCache

/-! ## The lists that are looked into -/

variable {R W : Type}

theorem mem_vrfNames {rules : Dict Loc (SvcsRuleList R)} {table : Table} {af : Af} {vrf : Str} :
    vrf ∈ vrfNames rules table af ↔ (⟨table, af, vrf⟩ : Loc) ∈ rules := by
  rw [vrfNames, List.mem_map]
  constructor
  · rintro ⟨⟨table', af', vrf'⟩, hmem, rfl⟩
    obtain ⟨hkey, hloc⟩ := List.mem_filter.mp hmem
    obtain ⟨rfl, rfl⟩ := of_decide_eq_true hloc
    exact AList.mem_keys.mp hkey
  · intro hmem
    exact ⟨_, List.mem_filter.mpr ⟨AList.mem_keys.mpr hmem, decide_eq_true ⟨rfl, rfl⟩⟩, rfl⟩

/-- A call goes through the lists that are there. -/
theorem mem_sweep {ord : DictOrder} {rules : Dict Loc (SvcsRuleList R)} {lc : Loc} :
    lc ∈ sweep ord rules ↔ lc ∈ rules := by
  obtain ⟨table, af, vrf⟩ := lc
  have hmem : vrf ∈ ord.order table af (vrfNames rules table af) ↔
      (⟨table, af, vrf⟩ : Loc) ∈ rules := by
    rw [(ord.perm table af _).mem_iff, mem_vrfNames]
  rw [← hmem, sweep]
  cases table <;> cases af <;> simp

/-- A call goes through every list once. -/
theorem sweep_nodup (ord : DictOrder) (rules : Dict Loc (SvcsRuleList R)) :
    (sweep ord rules).Nodup := by
  have hnames : ∀ table af, (vrfNames rules table af).Nodup := by
    intro table af
    refine List.Nodup.map_on ?_ (rules.keys_nodup.filter _)
    rintro ⟨t1, a1, v1⟩ h1 ⟨t2, a2, v2⟩ h2 hv
    obtain ⟨rfl, rfl⟩ := of_decide_eq_true (List.mem_filter.mp h1).2
    obtain ⟨rfl, rfl⟩ := of_decide_eq_true (List.mem_filter.mp h2).2
    obtain rfl : v1 = v2 := hv
    rfl
  have hplace : ∀ table af (lc : Loc),
      lc ∈ (ord.order table af (vrfNames rules table af)).map (fun vrf => ⟨table, af, vrf⟩) →
        lc.table = table ∧ lc.af = af := by
    intro table af lc hlc
    obtain ⟨vrf, -, rfl⟩ := List.mem_map.mp hlc
    exact ⟨rfl, rfl⟩
  rw [sweep, List.nodup_flatMap]
  refine ⟨fun af _ => ?_, ?_⟩
  · rw [List.nodup_flatMap]
    refine ⟨fun table _ => ?_, ?_⟩
    · refine List.Nodup.map ?_ ((ord.perm table af _).nodup_iff.mpr (hnames table af))
      intro v1 v2 hv
      exact (Loc.mk.inj hv).2.2
    · refine List.pairwise_pair.mpr fun lc h1 h2 => ?_
      have htable := (hplace _ _ lc h1).1.symm.trans (hplace _ _ lc h2).1
      cases htable
  · refine List.pairwise_pair.mpr fun lc h1 h2 => ?_
    obtain ⟨_, -, h1⟩ := List.mem_flatMap.mp h1
    obtain ⟨_, -, h2⟩ := List.mem_flatMap.mp h2
    have haf := (hplace _ _ lc h1).2.symm.trans (hplace _ _ lc h2).2
    cases haf

/-! ## What a request returns -/

variable {h : Handlers VrfIncomingSvcsRule W}

/-- The reading that `find_rule_by_id` makes. -/
def readById (ord : DictOrder) (id : ℤ) (s : SvcsRuleCache VrfIncomingSvcsRule W) :
    Option (VrfIncomingSvcsRule × ℕ) :=
  (locate ord id s).bind fun at' => ((s.stored at'.1)[at'.2]?).map fun rule => (rule, at'.2)

/-- The readings of counters that a request makes. -/
def requestReads (ord : DictOrder) (f : CpsObj) (a : GetArgs)
    (s : SvcsRuleCache VrfIncomingSvcsRule W) : List (VrfIncomingSvcsRule × ℕ) :=
  match f.id with
  | none => readsIn a.matches s (getLocs ord none a.vrfName s)
  | some id => (readById ord id s).toList

/-- No reading of counters that the request makes raises. -/
def CountersRead (h : Handlers VrfIncomingSvcsRule W) (ord : DictOrder) (f : CpsObj)
    (s : SvcsRuleCache VrfIncomingSvcsRule W) : Prop :=
  ∀ a, getArgs f = some a → ReadsOk h (requestReads ord f a s) s.world

/-- A stored rule is located by its id. -/
theorem readById_stored (ord : DictOrder) {id : ℤ} {s : SvcsRuleCache VrfIncomingSvcsRule W}
    (hs : s.Sound) {lc : Loc} {r : VrfIncomingSvcsRule} (hr : r ∈ s.stored lc)
    (hid : ruleId r = some id) :
    ∃ lc' idx, locate ord id s = some (lc', idx) ∧ (s.stored lc')[idx]? = some r ∧
      readById ord id s = some (r, idx) := by
  obtain ⟨i, hi⟩ := List.mem_iff_getElem?.mp hr
  have hlookup : (s.listAt lc).ruleIdMap.lookup (some id) = some i := by
    rw [(hs.aligned lc).idMap]
    change ((s.stored lc)[i]?).map ruleId = _
    rw [hi, Option.map_some, hid]
  have hmem : lc ∈ s.rules := by
    by_contra hnot
    rw [listAt_of_notMem hnot] at hlookup
    cases hlookup
  have hsome : (locate ord id s).isSome := by
    rw [locate, List.findSome?_isSome_iff]
    exact ⟨lc, mem_sweep.mpr hmem, by rw [hlookup]; rfl⟩
  obtain ⟨⟨lc', idx⟩, hloc⟩ := Option.isSome_iff_exists.mp hsome
  obtain ⟨r', hr', hid'⟩ := locate_some hs hloc
  obtain rfl := hs.ruleId_inj (List.mem_of_getElem? hr') hr (hid'.trans hid.symm)
  refine ⟨lc', idx, hloc, hr', ?_⟩
  rw [readById, hloc, Option.bind_some, hr']
  rfl

/-- A stored rule is found by its id, unless the reading of its counters
raises. -/
theorem findRuleById_stored (h : Handlers VrfIncomingSvcsRule W) (ord : DictOrder) {id : ℤ}
    {s : SvcsRuleCache VrfIncomingSvcsRule W} (hs : s.Sound) {lc : Loc} {r : VrfIncomingSvcsRule}
    (hr : r ∈ s.stored lc) (hid : ruleId r = some id) :
    ReadsOk h (readById ord id s).toList s.world ∧
        (∃ r' idx s', findRuleById h ord id s = (.returned (some (r', idx)), s') ∧
          core r' = core r) ∨
      ¬ ReadsOk h (readById ord id s).toList s.world ∧ (findRuleById h ord id s).1 = .raised := by
  obtain ⟨lc', idx, hloc, hidx, hread⟩ := readById_stored ord hs hr hid
  have hstats : readsStats VrfIncomingSvcsRule = true := rfl
  rw [findRuleById, hloc, hread, Option.toList_some, ReadsOk, ReadsOk]
  dsimp only
  rw [hidx]
  dsimp only
  rw [if_pos hstats]
  cases hget : h.getStats r idx s.world with
  | mk out w =>
    cases out with
    | raised => exact Or.inr ⟨fun hf => hf.1 rfl, rfl⟩
    | returned st =>
      refine Or.inl ⟨⟨by rintro ⟨⟩, trivial⟩, ?_⟩
      cases st with
      | none => exact ⟨r, idx, _, rfl, rfl⟩
      | some st => exact ⟨setStats st r, idx, _, rfl, rfl⟩

/-- `get_all_rules` returns the rules that are accepted, unless a reading
raises. -/
theorem getAllRules_spec (h : Handlers VrfIncomingSvcsRule W) (ord : DictOrder)
    (vrfName : Option Str) (accept : VrfIncomingSvcsRule → Bool)
    (s : SvcsRuleCache VrfIncomingSvcsRule W) :
    ReadsOk h (readsIn accept s (getLocs ord none vrfName s)) s.world ∧
        (∃ got s', getAllRules h ord none vrfName accept s = (.returned got, s') ∧
          got.map core = (getLocs ord none vrfName s).flatMap fun lc =>
            ((s.stored lc).filter accept).map core) ∨
      ¬ ReadsOk h (readsIn accept s (getLocs ord none vrfName s)) s.world ∧
        (getAllRules h ord none vrfName accept s).1 = .raised := by
  have hn : (getLocs ord none vrfName s).Nodup := (sweep_nodup ord s.rules).filter _
  rw [getAllRules]
  obtain ⟨hok, got, s', hgot, hcores⟩ | ⟨hbad, hgot⟩ := getLists_spec h accept hn s.acquire
  · rw [hgot]
    exact Or.inl ⟨hok, got, s'.release, rfl, hcores⟩
  · refine Or.inr ⟨hbad, ?_⟩
    generalize getLists h accept (getLocs ord none vrfName s) s.acquire = res at hgot
    obtain ⟨out, s'⟩ := res
    obtain rfl : out = .raised := hgot
    rfl

/-- The VRF name of a filter is passed on. -/
theorem getArgs_vrfName {f : CpsObj} {a : GetArgs} (h : getArgs f = some a) :
    a.vrfName = f.niName := by
  obtain ⟨af, -, h⟩ := Option.bind_eq_some_iff.mp h
  obtain ⟨⟨af', sip, spl⟩, -, h⟩ := Option.bind_eq_some_iff.mp h
  obtain ⟨⟨af'', dip, dpl⟩, -, h⟩ := Option.bind_eq_some_iff.mp h
  obtain rfl := Option.some_inj.mp h
  rfl

/-- A filter of attributes of a rule that is to return it. -/
def Returns (f : CpsObj) (r : VrfIncomingSvcsRule) : Prop :=
  match f.id with
  | none => Selected f r
  | some _ => Accepted f r

/-- A get request by id returns the stored rule when its counters are read. -/
theorem getById_returns_iff (h : Handlers VrfIncomingSvcsRule W) (ord : DictOrder) {id : ℤ}
    (a : GetArgs) {s : SvcsRuleCache VrfIncomingSvcsRule W} (hs : s.Sound) {lc : Loc}
    {r : VrfIncomingSvcsRule} (hr : r ∈ s.stored lc) (hid : ruleId r = some id) :
    (∃ r' ∈ (processVrfSvcsRuleGet h ord (some id) a s).2.1, core r' = core r) ↔
      ReadsOk h (readById ord id s).toList s.world := by
  rw [processVrfSvcsRuleGet]
  obtain ⟨hok, r', idx, s', hfind, hcore⟩ | ⟨hbad, hfind⟩ := findRuleById_stored h ord hs hr hid
  · rw [hfind]
    exact iff_of_true ⟨r', List.mem_singleton_self _, hcore⟩ hok
  · refine iff_of_false ?_ hbad
    generalize findRuleById h ord id s = res at hfind
    obtain ⟨out, s'⟩ := res
    obtain rfl : out = .raised := hfind
    rintro ⟨r', hr', -⟩
    cases hr'

/-- A get request without an id returns the stored rule of a VRF it asks for
when the rule matches and all counters on the way are read. -/
theorem getAll_returns_iff (h : Handlers VrfIncomingSvcsRule W) (ord : DictOrder) {a : GetArgs}
    {s : SvcsRuleCache VrfIncomingSvcsRule W} {lc : Loc} {r : VrfIncomingSvcsRule}
    (hr : r ∈ s.stored lc) (hvrf : a.vrfName = none ∨ a.vrfName = some lc.vrfName) :
    (∃ r' ∈ (processVrfSvcsRuleGet h ord none a s).2.1, core r' = core r) ↔
      a.matches r = true ∧
        ReadsOk h (readsIn a.matches s (getLocs ord none a.vrfName s)) s.world := by
  have hmatches : ∀ r', core r' = core r → a.matches r' = a.matches r := by
    intro r' hcore
    exact show a.matches (core r') = a.matches (core r) from congrArg a.matches hcore
  rw [processVrfSvcsRuleGet]
  obtain ⟨hok, got, s', hgot, hcores⟩ | ⟨hbad, hgot⟩ :=
    getAllRules_spec h ord a.vrfName a.matches s
  · rw [hgot]
    dsimp only
    rw [and_iff_left hok, ← List.mem_map, hcores, List.mem_flatMap]
    constructor
    · rintro ⟨lc', -, hmem⟩
      obtain ⟨r', hr', hcore⟩ := List.mem_map.mp hmem
      rw [← hmatches r' hcore]
      exact (List.mem_filter.mp hr').2
    · intro hm
      have hlc : lc ∈ s.rules := mem_rules_of_mem_stored hr
      refine ⟨lc, List.mem_filter.mpr ⟨mem_sweep.mpr hlc, ?_⟩,
        List.mem_map_of_mem (List.mem_filter.mpr ⟨hr, hm⟩)⟩
      obtain hnone | hname := hvrf
      · rw [hnone]
        rfl
      · rw [hname]
        exact decide_eq_true rfl
  · refine iff_of_false ?_ fun hf => hbad hf.2
    generalize getAllRules h ord none a.vrfName a.matches s = res at hgot
    obtain ⟨out, s'⟩ := res
    obtain rfl : out = .raised := hgot
    rintro ⟨r', hr', -⟩
    cases hr'

/-- A get request whose filter is made of attributes that a stored rule reports
returns the rule exactly when the values of the filter come back to those of
the rule and no counters are missed.  With an id in the filter nothing else is
compared. -/
theorem get_returns_rule_iff (w : W) (requests : List (Request VrfIncomingSvcsRule))
    (hclear : Along (step h) (ClearsThrough h) (init w) requests) (ord : DictOrder) {lc : Loc}
    {r : VrfIncomingSvcsRule} (hr : r ∈ (run (step h) (init w) requests).stored lc) {f : CpsObj}
    (hf : f.Sub r.toCpsObj) :
    (∃ r' ∈ (getIncomingIpSvcs h ord f (run (step h) (init w) requests)).2.1,
        core r' = core r) ↔
      Returns f r ∧ CountersRead h ord f (run (step h) (init w) requests) := by
  have hs := run_sound hclear
  generalize run (step h) (init w) requests = s at hr hs ⊢
  rw [getIncomingIpSvcs.eq_def, Returns, CountersRead]
  cases hargs : getArgs f with
  | none =>
    refine iff_of_false (fun hf => by simp at hf) ?_
    rintro ⟨hret, -⟩
    split at hret
    · obtain ⟨a, ha, -⟩ := (getArgs_matches_iff hf).mpr hret
      cases hargs.symm.trans ha
    · obtain ⟨a, ha⟩ := (getArgs_isSome_iff hf).mpr hret
      cases hargs.symm.trans ha
  | some a =>
    have hone : ∀ P : GetArgs → Prop, (∀ a', some a = some a' → P a') ↔ P a := by
      intro P
      exact ⟨fun hall => hall a rfl, fun hp a' ha' => Option.some_inj.mp ha' ▸ hp⟩
    rw [hone, requestReads.eq_def]
    dsimp only
    cases hid : f.id with
    | some id =>
      have hrid : ruleId r = some id := by
        obtain hnone | hval := hf.id
        · cases hid.symm.trans hnone
        · exact hval.symm.trans hid
      have hacc : Accepted f r := (getArgs_isSome_iff hf).mp ⟨a, hargs⟩
      exact (getById_returns_iff h ord a hs hr hrid).trans (and_iff_right hacc).symm
    | none =>
      have hsel : a.matches r = true ↔ Selected f r := by
        rw [← getArgs_matches_iff hf]
        constructor
        · intro hm
          exact ⟨a, hargs, hm⟩
        · rintro ⟨a', ha', hm⟩
          obtain rfl := Option.some_inj.mp (hargs.symm.trans ha')
          exact hm
      have hvrf : a.vrfName = none ∨ a.vrfName = some lc.vrfName := by
        rw [← hs.placed lc r hr, getArgs_vrfName hargs]
        exact hf.niName
      dsimp only
      rw [← hsel]
      exact getAll_returns_iff h ord hr hvrf

/-- The filter with an action and an interface only. -/
def byAction (action : Option ℤ) (ifname : Option Str) : CpsObj :=
  ⟨none, none, none, none, none, none, none, none, none, none, action, none, ifname, none, none,
    none⟩

theorem byAction_sub {action : Option ℤ} {ifname : Option Str} {o : CpsObj}
    (ha : SubAttr action o.action) (hi : SubAttr ifname o.ifname) :
    (byAction action ifname).Sub o where
  niName := Or.inl rfl
  af := Or.inl rfl
  srcIp := Or.inl rfl
  srcPrefixLen := Or.inl rfl
  dstIp := Or.inl rfl
  dstPrefixLen := Or.inl rfl
  protocol := Or.inl rfl
  dstPort := Or.inl rfl
  lowerDstPort := Or.inl rfl
  upperDstPort := Or.inl rfl
  action := ha
  seqNum := Or.inl rfl
  ifname := hi
  id := Or.inl rfl
  matchedPackets := Or.inl rfl
  matchedBytes := Or.inl rfl

theorem allowAll_stored :
    setRuleId 1 (allowAll 10 "eth1".toList) ∈
      (run (step (answering VrfIncomingSvcsRule true)) (init ())
        [.insertRule (allowAll 10 "eth1".toList)]).stored (allowAll 10 "eth1".toList).loc :=
  List.mem_singleton_self _

theorem get_returns_rule_small :
    (∃ r' ∈ (getIncomingIpSvcs (answering VrfIncomingSvcsRule true) listOrder
        (byAction (some 1) (some "eth1".toList))
        (run (step (answering VrfIncomingSvcsRule true)) (init ())
          [.insertRule (allowAll 10 "eth1".toList)])).2.1,
        core r' = core (setRuleId 1 (allowAll 10 "eth1".toList))) ↔
      Returns (byAction (some 1) (some "eth1".toList))
          (setRuleId 1 (allowAll 10 "eth1".toList)) ∧
        CountersRead (answering VrfIncomingSvcsRule true) listOrder
          (byAction (some 1) (some "eth1".toList))
          (run (step (answering VrfIncomingSvcsRule true)) (init ())
            [.insertRule (allowAll 10 "eth1".toList)]) :=
  get_returns_rule_iff () [.insertRule (allowAll 10 "eth1".toList)] ⟨Or.inl trivial, trivial⟩
    listOrder allowAll_stored (byAction_sub (Or.inr rfl) (Or.inr rfl))

/-- A rule of the VRF `blue` that drops everything. -/
def denyAll : VrfIncomingSvcsRule :=
  (VrfIncomingSvcsRule.init
    { ruleType := 2, vrfName := "blue".toList, action := 2, af := 2, seqNum := 10 }).get rfl

/-- An ACL rule that was made to drop is stored as a reject and reported as a
deny.  Asked for by the action that it reports, it is not returned. -/
theorem rejected_not_returned :
    let s := run (step (answering VrfIncomingSvcsRule true)) (init ()) [.insertRule denyAll]
    let f := byAction denyAll.toCpsObj.action none
    setRuleId 1 denyAll ∈ s.stored denyAll.loc ∧ f.Sub (setRuleId 1 denyAll).toCpsObj ∧
      f.action = some VrfSvcsRuleAction.deny.value ∧
      (getIncomingIpSvcs (answering VrfIncomingSvcsRule true) listOrder f s).2.1 = [] := by
  intro s f
  exact ⟨List.mem_singleton_self _, byAction_sub (Or.inr rfl) (Or.inl rfl), rfl, rfl⟩

end SvcsRuleCache

end OpxNasLinux
