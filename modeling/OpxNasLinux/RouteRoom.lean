import OpxNasLinux.RouteReadBack
import OpxNasLinux.RouteDelete

/-!
# The room in a route message

The buffer of a route message has 8192 bytes.  Neither function looks at what
`nlmsg_add_attr` returns, nor at the pointers of `nlmsg_nested_start` and of
`nlmsg_reserve` in the loop over the next hops.

* `AttrFails` is an attribute that is not added, and `RouteLost` and
  `NexthopLost` are the runs in which there is one.
* `addNexthops_guarded_iff` is the branch that packs the next hops: it is
  careful exactly when the next hops fit, or one that is reached is refused.
* `update_guarded_iff` puts it together for both functions.
-/

namespace OpxNasLinux.Route

open NlMsg Netlink ByteStore

/-! ## Attributes that are lost -/

/-- `nlmsg_add_attr` returns `-1`. -/
def AttrFails (type : ℕ) (data : Bytes) (m : RouteMsg) : Prop :=
  (nlmsgAddAttr bufLen (BitVec.ofNat 32 type) data m.mem).1 = -1#32

/-- The destination is lost. -/
def StartLost (type flags : BitVec 16) (rm : RtMsg) (routePrefix : AttrBin) (left : Memory) :
    Prop :=
  ∃ mem, startMsg bufLen 12#32 (store 0 (List.replicate 16 0) left) = some mem ∧
    AttrFails rtaDst (routePrefix.read (addrLen rm.family)) ⟨type, flags, rm, mem⟩

/-- The gateway of a next hop is lost. -/
def GatewayLost (nh : NextHop) (m : RouteMsg) : Prop :=
  ∃ gw, nh.addr = some gw ∧ AttrFails rtaGateway (gw.read (addrLen m.rm.family)) m

/-- The interface of a single next hop is lost. -/
def OifLost (linkRoute : NextHop → RouteMsg → RouteMsg) (nh : NextHop)
    (oif : Option (BitVec 32)) (m : RouteMsg) : Prop :=
  ∃ ifindex, oif = some ifindex ∧
    AttrFails rtaOif (intBytes ifindex) (if nh.addr.isNone then linkRoute nh m else m)

/-- The weight of a single next hop is lost. -/
def WeightLost (nh : NextHop) (m : RouteMsg) : Prop :=
  ∃ weight, nh.weight = some weight ∧ AttrFails rtaPriority (intBytes weight) m

/-- An attribute is lost in the branch for one next hop. -/
def SingleLost (sys : Sys) (lookup : Str → Option (BitVec 32))
    (linkRoute : NextHop → RouteMsg → RouteMsg) (nh : NextHop) (m : RouteMsg) : Prop :=
  ∃ oif, outIf lookup nh = some oif ∧
    (GatewayLost nh m ∨ OifLost linkRoute nh oif (addGateway sys nh m) ∨
      WeightLost nh (addOif linkRoute nh oif (addGateway sys nh m)))

/-- The gateway is lost in a turn of the loop. -/
def PackLost (nh : NextHop) (m : RouteMsg) : Prop :=
  ∃ rtnh mem, nlmsgReserve bufLen 8#32 m.mem = (some rtnh, mem) ∧
    GatewayLost nh { m with mem := store rtnh (List.replicate 8 0) mem }

/-- An attribute is lost in the loop over the next hops. -/
def PacksLost (sys : Sys) (lookup : Str → Option (BitVec 32)) : List NextHop → RouteMsg → Prop
  | [], _ => False
  | nh :: nhs, m =>
    PackLost nh m ∨ ∃ m', packNexthop sys lookup nh m = .ok m' ∧ PacksLost sys lookup nhs m'

/-- An attribute is lost in the branch for several next hops. -/
def MultipathLost (sys : Sys) (lookup : Str → Option (BitVec 32)) (nhs : List NextHop)
    (m : RouteMsg) : Prop :=
  ∃ attr mem, nlmsgNestedStart bufLen m.mem = (some attr, mem) ∧
    PacksLost sys lookup nhs
      { m with mem := store16 (attr + 2) (BitVec.ofNat 16 rtaMultipath) (store16 attr 0#16 mem) }

/-- An attribute of the next hops is lost. -/
def NexthopsLost (sys : Sys) (lookup : Str → Option (BitVec 32))
    (linkRoute : NextHop → RouteMsg → RouteMsg) (nhc : ℕ) (nhList : ℕ → NextHop)
    (m : RouteMsg) : Prop :=
  if nhc = 1 then SingleLost sys lookup linkRoute (nhList 0) m
  else if nhc > 1 then MultipathLost sys lookup ((List.range nhc).map nhList) m
  else False

/-- An attribute is lost in a message. -/
def RequestLost (sys : Sys) (lookup : Str → Option (BitVec 32))
    (linkRoute : NextHop → RouteMsg → RouteMsg) (type flags : BitVec 16) (rm : RtMsg)
    (routePrefix : AttrBin) (left : Memory) (nhc : ℕ) (nhList : ℕ → NextHop) : Prop :=
  StartLost type flags rm routePrefix left ∨
    ∃ m, startRoute type flags rm routePrefix left = .ok m ∧
      NexthopsLost sys lookup linkRoute nhc nhList m

/-- An attribute is lost in `nas_os_update_route`. -/
def RouteLost (sys : Sys) (left : Memory) (mType : MsgType) (obj : RouteObj) : Prop :=
  match obj.routePrefix, obj.af, obj.prefixLen with
  | some routePrefix, some af, some prefixLen =>
    match specialRoute (routeHeader (rtmType mType) af prefixLen) obj.specialNextHop with
    | none => False
    | some rm =>
      RequestLost sys (routeIfIndex sys obj.vrfName) (routeLink mType) (rtmType mType)
        (nasOsGetNlFlags mType) rm routePrefix left (obj.nhCount.getD 0).toNat obj.nhList
  | _, _, _ => False

/-- An attribute is lost in `nas_os_update_route_nexthop`. -/
def NexthopLost (sys : Sys) (left : Memory) (obj : NhOperation) : Prop :=
  match obj.routePrefix, obj.af, obj.prefixLen, obj.nhCount, obj.operation with
  | some routePrefix, some af, some prefixLen, some nhCount, some op =>
    let mType := if op = .delete then MsgType.del else .set
    let type := rtmType mType
    let flags := nasOsGetNlFlags mType
    let flags := if op = .append then (flags &&& ~~~nlmFReplace) ||| nlmFAppend else flags
    RequestLost sys (nexthopIfIndex sys) nexthopLink type flags
      { routeHeader type af prefixLen with type := rtnUnicast } routePrefix left nhCount.toNat
      obj.nhList
  | _, _, _, _, _ => False

/-- Nothing is written through a null pointer, and a message that is sent has
all its attributes. -/
def Guarded (out : Except Stop RouteMsg) (lost : Prop) : Prop :=
  out ≠ .error .nullPointer ∧ ∀ m, out = .ok m → ¬ lost

/-- There is room for the next hops, or one that is reached is refused. -/
def RoomFor (lookup : Str → Option (BitVec 32)) (family : BitVec 8) (nhs : List NextHop) : Prop :=
  nhs.length < 2 ∨ 36 + addrLen family + nhs.length * (12 + addrLen family) ≤ bufLen.toNat ∨
    ∃ nh ∈ fitting (addrLen family) (36 + addrLen family) nhs, Refused lookup nh

/-- `RoomFor` for a route that comes so far. -/
def RouteObj.Fits (sys : Sys) (obj : RouteObj) : Prop :=
  ∀ af, obj.routePrefix.isSome → obj.af = some af → obj.prefixLen.isSome →
    leaked sys obj.vrfName obj.nhVrfName = false → obj.specialNextHop = none →
      RoomFor (routeIfIndex sys obj.vrfName) (af.setWidth 8)
        ((List.range (obj.nhCount.getD 0).toNat).map obj.nhList)

/-- `RoomFor` for a next hop operation that comes so far. -/
def NhOperation.Fits (sys : Sys) (obj : NhOperation) : Prop :=
  ∀ af nhCount, obj.routePrefix.isSome → obj.af = some af → obj.prefixLen.isSome →
    obj.nhCount = some nhCount → obj.operation.isSome →
      leaked sys obj.vrfName obj.nhVrfName = false →
        RoomFor (nexthopIfIndex sys) (af.setWidth 8)
          ((List.range nhCount.toNat).map obj.nhList)

/-! ## One attribute -/

/-- An attribute is lost exactly when there is no room for it. -/
theorem attrFails_iff {type : ℕ} {data : Bytes} {m : RouteMsg} {t : ℕ} (h : Tail bufLen m.mem t)
    (h4 : 4 ≤ t) (htype : type < 2 ^ 14) (hlen : data.length < 2 ^ 31) :
    AttrFails type data m ↔ bufLen.toNat < t + padded (4 + data.length) := by
  have hroom := nlmsgReserve_none_iff (rtaLength (BitVec.ofNat 32 data.length)) bufLen_le h
    (by rw [rtaLength_ofNat hlen]; omega)
  rw [rtaLength_ofNat hlen] at hroom
  rw [← hroom, AttrFails]
  constructor
  · intro hfail
    by_contra hnone
    obtain ⟨hret, htail, -⟩ := nlmsgAddAttr_some bufLen_le h h4 htype hlen hnone
    have hfits := htail.fits
    -- what is returned is the length of the message
    rw [← htail.len, ← hret, hfail] at hfits
    exact absurd hfits (by decide)
  · intro hnone
    rw [nlmsgAddAttr_none hnone]

/-- The tail moves by what the attribute takes at most. -/
theorem addAttr_tail_le (type : ℕ) {data : Bytes} {m : RouteMsg} {t : ℕ}
    (h : Tail bufLen m.mem t) (h4 : 4 ≤ t) (htype : type < 2 ^ 14) (hlen : data.length < 2 ^ 31) :
    ∃ t', t ≤ t' ∧ t' ≤ t + padded (4 + data.length) ∧
      Tail bufLen (addAttr type data m).mem t' := by
  obtain ⟨htail, -, -⟩ := addAttr_tail type h h4 htype hlen
  split_ifs at htail
  · exact ⟨_, Nat.le_add_right _ _, by rw [Attrs.size, Attrs.size]; omega, htail⟩
  · exact ⟨_, Nat.le_add_right _ _, Nat.le_add_right _ _, htail⟩

theorem length_read_lt (gw : AttrBin) (family : BitVec 8) :
    (gw.read (addrLen family)).length < 2 ^ 31 := by
  have haddr := (padded_addrLen family).2
  rw [AttrBin.length_read]
  omega

/-- The destination is never lost. -/
theorem not_startLost (type flags : BitVec 16) (rm : RtMsg) (routePrefix : AttrBin)
    (left : Memory) : ¬ StartLost type flags rm routePrefix left := by
  rintro ⟨mem, hstart, hfail⟩
  have htail := startMsg_tail bufLen_le (by decide) (load32_cleared left) hstart
  have hpad : 16 + padded (12#32).toNat = 28 := rfl
  have hbuf : bufLen.toNat = 8192 := rfl
  have haddr := padded_addrLen rm.family
  rw [hpad] at htail
  rw [attrFails_iff htail (by decide) (by decide) (length_read_lt _ _), AttrBin.length_read]
    at hfail
  omega

/-! ## One next hop -/

/-- The message before the next hops is a short one, and stays so. -/
theorem not_singleLost {sys : Sys} {lookup : Str → Option (BitVec 32)}
    {linkRoute : NextHop → RouteMsg → RouteMsg} (hlink : ∀ nh m, (linkRoute nh m).mem = m.mem)
    (nh : NextHop) {m : RouteMsg} {t : ℕ} (h : Tail bufLen m.mem t) (h4 : 4 ≤ t)
    (hroom : t + 36 ≤ bufLen.toNat) : ¬ SingleLost sys lookup linkRoute nh m := by
  have haddr := padded_addrLen m.rm.family
  have hint : ∀ v : BitVec 32, padded (4 + (intBytes v).length) = 8 := by
    intro v
    rw [length_intBytes]
    decide
  have hshort : ∀ v : BitVec 32, (intBytes v).length < 2 ^ 31 := by
    intro v
    rw [length_intBytes]
    decide
  -- the tail after the gateway, and after the interface
  obtain ⟨t₁, hle₁, hge₁, htail₁⟩ : ∃ t₁, t ≤ t₁ ∧ t₁ ≤ t + 20 ∧
      Tail bufLen (addGateway sys nh m).mem t₁ := by
    unfold addGateway
    cases nh.addr with
    | none => exact ⟨t, le_rfl, Nat.le_add_right _ _, h⟩
    | some gw =>
      obtain ⟨t₁, hle, hge, htail⟩ := addAttr_tail_le rtaGateway h h4 (by decide)
        (length_read_lt gw m.rm.family)
      rw [AttrBin.length_read] at hge
      refine ⟨t₁, hle, by omega, ?_⟩
      dsimp only
      split_ifs <;> exact htail
  have hlinked : Tail bufLen (if nh.addr.isNone then linkRoute nh (addGateway sys nh m)
      else addGateway sys nh m).mem t₁ := by
    split_ifs
    · rwa [hlink]
    · exact htail₁
  rintro ⟨oif, -, ⟨gw, -, hfail⟩ | ⟨ifindex, -, hfail⟩ | ⟨weight, -, hfail⟩⟩
  · rw [attrFails_iff h h4 (by decide) (length_read_lt _ _), AttrBin.length_read] at hfail
    omega
  · rw [attrFails_iff hlinked (by omega) (by decide) (hshort _), hint] at hfail
    omega
  · obtain ⟨t₂, hle₂, hge₂, htail₂⟩ : ∃ t₂, t₁ ≤ t₂ ∧ t₂ ≤ t₁ + 8 ∧
        Tail bufLen (addOif linkRoute nh oif (addGateway sys nh m)).mem t₂ := by
      cases oif with
      | none => exact ⟨t₁, le_rfl, Nat.le_add_right _ _, htail₁⟩
      | some ifindex =>
        have htail := addAttr_tail_le rtaOif hlinked (by omega) (by decide) (hshort ifindex)
        rwa [hint] at htail
    rw [attrFails_iff htail₂ (by omega) (by decide) (hshort _), hint] at hfail
    omega

/-! ## Several next hops -/

/-- The gateway is lost in a turn exactly when there is room for the struct
only. -/
theorem packLost_iff {nh : NextHop} {m : RouteMsg} {t : ℕ} (h : Tail bufLen m.mem t) (h4 : 4 ≤ t)
    (hroom : t + 8 ≤ bufLen.toNat) (haddr : nh.addr ≠ none) :
    PackLost nh m ↔ bufLen.toNat < t + (12 + addrLen m.rm.family) := by
  obtain ⟨gw, hgw⟩ := Option.ne_none_iff_exists'.mp haddr
  have hpad := padded_addrLen m.rm.family
  have hpad8 : padded (8#32).toNat = 8 := rfl
  have hnone := nlmsgReserve_none_iff 8#32 bufLen_le h (by decide)
  rw [hpad8] at hnone
  cases hres : nlmsgReserve bufLen 8#32 m.mem with
  | mk out mem =>
    cases out with
    | none =>
      rw [hres] at hnone
      exact absurd (hnone.mp rfl) (not_lt.mpr hroom)
    | some rtnh =>
      obtain ⟨rfl, htail, -⟩ := nlmsgReserve_some bufLen_le h (by decide) hres
      rw [hpad8] at htail
      have htail' : Tail bufLen (store (t : ℤ) (List.replicate 8 0) mem) (t + 8) :=
        htail.agree ((zeros_stored t mem).2.2.2 0 4 (Or.inl (by omega)))
      have hfails : AttrFails rtaGateway _
          { m with mem := store (t : ℤ) (List.replicate 8 0) mem } ↔ _ :=
        attrFails_iff htail' (by omega) (by decide) (length_read_lt gw m.rm.family)
      rw [AttrBin.length_read, hpad.1] at hfails
      have hsum : t + (12 + addrLen m.rm.family) = t + 8 + (4 + addrLen m.rm.family) := by omega
      rw [hsum, ← hfails]
      constructor
      · rintro ⟨p, mem', hres', gw', hgw', hfail⟩
        obtain ⟨hp, rfl⟩ := Prod.mk.inj (hres.symm.trans hres')
        obtain rfl := Option.some_inj.mp hp
        obtain rfl := Option.some_inj.mp (hgw.symm.trans hgw')
        exact hfail
      · exact fun hfail => ⟨t, mem, hres, gw, hgw, hfail⟩

/-- A gateway is lost in the loop exactly when the next hops do not fit. -/
theorem packsLost_iff {sys : Sys} {lookup : Str → Option (BitVec 32)} {nhs : List NextHop}
    {m : RouteMsg} {n t : ℕ} (hn : n = addrLen m.rm.family) (h : Tail bufLen m.mem t) (h4 : 4 ≤ t)
    (hnone : ∀ nh ∈ nhs, ¬ Refused lookup nh) (hfit : fitting n t nhs = nhs) :
    PacksLost sys lookup nhs m ↔ bufLen.toNat < t + nhs.length * (12 + n) := by
  induction nhs generalizing m t with
  | nil =>
    have hfits := h.fits
    rw [PacksLost, List.length_nil, Nat.zero_mul, add_zero]
    exact iff_of_false id (not_lt.mpr hfits)
  | cons nh nhs ih =>
    obtain ⟨hnh, hnhs⟩ := List.forall_mem_cons.mp hnone
    rw [fitting] at hfit
    by_cases hroom : t + 8 ≤ bufLen.toNat
    · rw [if_pos hroom, List.cons_inj_right] at hfit
      obtain ⟨r, hr, hsize⟩ := hopRec_some sys n t hnh
      obtain ⟨mem', hpack, htail, -, -⟩ := packNexthop_ok h h4 hroom (hn ▸ hr)
      rw [hsize] at htail
      have hrest := ih (m := { setScope rtScopeUniverse m with mem := mem' }) hn htail (by omega)
        hnhs hfit
      have hhead := packLost_iff h h4 hroom fun haddr => hnh (Or.inl haddr)
      rw [← hn] at hhead
      have hstep : (∃ m', packNexthop sys lookup nh m = .ok m' ∧ PacksLost sys lookup nhs m') ↔
          bufLen.toNat < afterHop n t + nhs.length * (12 + n) := by
        rw [← hrest, hpack]
        constructor
        · rintro ⟨m', hok, hlost⟩
          obtain rfl := Except.ok.inj hok
          exact hlost
        · exact fun hlost => ⟨_, rfl, hlost⟩
      have hpad : padded (4 + n) = 4 + n := by rw [hn, (padded_addrLen _).1]
      rw [PacksLost, hhead, hstep, List.length_cons, Nat.succ_mul, afterHop, hpad]
      -- the tail is that of the next hop unless its gateway is lost
      split_ifs <;> omega
    · rw [if_neg hroom] at hfit
      cases hfit

/-- The attribute around the next hops is opened. -/
theorem multipathLost_iff (sys : Sys) {lookup : Str → Option (BitVec 32)} {nhs : List NextHop}
    {m : RouteMsg} (h : Tail bufLen m.mem (32 + addrLen m.rm.family))
    (hnone : ∀ nh ∈ nhs, ¬ Refused lookup nh)
    (hfit : fitting (addrLen m.rm.family) (36 + addrLen m.rm.family) nhs = nhs) :
    MultipathLost sys lookup nhs m ↔
      bufLen.toNat < 36 + addrLen m.rm.family + nhs.length * (12 + addrLen m.rm.family) := by
  have hpad := padded_addrLen m.rm.family
  have hbuf : bufLen.toNat = 8192 := rfl
  have hpad4 : padded (4#32).toNat = 4 := rfl
  have hnone4 := nlmsgReserve_none_iff 4#32 bufLen_le h (by decide)
  rw [hpad4] at hnone4
  cases hres : nlmsgReserve bufLen 4#32 m.mem with
  | mk out mem =>
    cases out with
    | none =>
      rw [hres] at hnone4
      have hfull := hnone4.mp rfl
      omega
    | some attr =>
      obtain ⟨rfl, htail, -⟩ := nlmsgReserve_some bufLen_le h (by decide) hres
      rw [hpad4] at htail
      generalize hopened : store16 (((32 + addrLen m.rm.family : ℕ) : ℤ) + 2)
        (BitVec.ofNat 16 rtaMultipath) (store16 ((32 + addrLen m.rm.family : ℕ) : ℤ) 0#16 mem) =
        mem₂
      have htail₂ : Tail bufLen mem₂ (36 + addrLen m.rm.family) := by
        have hagree : Agree 0 4 mem mem₂ := by
          rw [← hopened]
          exact (store16_agree _ _ (by omega)).trans (store16_agree _ _ (by omega))
        have hsum : 36 + addrLen m.rm.family = 32 + addrLen m.rm.family + 4 := by omega
        rw [hsum]
        exact htail.agree hagree
      rw [← packsLost_iff (m := { m with mem := mem₂ }) rfl htail₂ (by omega) hnone hfit]
      constructor
      · rintro ⟨attr, mem', hres', hlost⟩
        obtain ⟨hp, rfl⟩ := Prod.mk.inj (hres.symm.trans hres')
        obtain rfl := Option.some_inj.mp hp
        rwa [hopened] at hlost
      · intro hlost
        rw [← hopened] at hlost
        exact ⟨_, mem, hres, hlost⟩

/-- In the branch for several next hops nothing goes wrong exactly when there is
room for them, or one that is reached is refused. -/
theorem multipath_guarded_iff (sys : Sys) (lookup : Str → Option (BitVec 32))
    {nhs : List NextHop} {m : RouteMsg} (h : Tail bufLen m.mem (32 + addrLen m.rm.family))
    (htwo : 2 ≤ nhs.length) :
    Guarded (multipath sys lookup nhs m) (MultipathLost sys lookup nhs m) ↔
      RoomFor lookup m.rm.family nhs := by
  have hpad := padded_addrLen m.rm.family
  have hbuf : bufLen.toNat = 8192 := rfl
  have hstart : 32 + addrLen m.rm.family + 4 = 36 + addrLen m.rm.family := by omega
  have hspec := multipath_spec sys lookup nhs rfl h (by omega) (by omega)
  rw [hstart] at hspec
  have hfitting : 36 + addrLen m.rm.family + nhs.length * (12 + addrLen m.rm.family) ≤
      bufLen.toNat → fitting (addrLen m.rm.family) (36 + addrLen m.rm.family) nhs = nhs :=
    fitting_eq hpad.1
  obtain ⟨hrefused, herr⟩ | ⟨hnone, hfull, herr⟩ | ⟨hnone, hfit, mem', hok, -⟩ := hspec
  · rw [herr]
    exact iff_of_true ⟨nofun, nofun⟩ (Or.inr (Or.inr hrefused))
  · rw [herr]
    refine iff_of_false (fun hguarded => hguarded.1 rfl) ?_
    rintro (hlt | hroom | ⟨nh, hnh, hrefused⟩)
    · omega
    · exact hfull (hfitting hroom)
    · exact hnone nh hnh hrefused
  · have hlost := multipathLost_iff sys h hnone hfit
    have hguarded : Guarded (multipath sys lookup nhs m) (MultipathLost sys lookup nhs m) ↔
        ¬ MultipathLost sys lookup nhs m := by
      rw [hok]
      constructor
      · exact fun hguarded => hguarded.2 _ rfl
      · exact fun hkept => ⟨nofun, fun _ _ => hkept⟩
    rw [hguarded, hlost, not_lt]
    constructor
    · exact fun hroom => Or.inr (Or.inl hroom)
    · rintro (hlt | hroom | ⟨nh, hnh, hrefused⟩)
      · omega
      · exact hroom
      · exact absurd hrefused (hnone nh (hfit ▸ hnh))

/-! ## The two functions -/

theorem guarded_stop {stop : Stop} (hstop : stop ≠ .nullPointer) (lost : Prop) :
    Guarded (.error stop) lost :=
  ⟨fun h => hstop (Except.error.inj h), nofun⟩

/-- The branches for the next hops. -/
theorem addNexthops_guarded_iff (sys : Sys) (lookup : Str → Option (BitVec 32))
    {linkRoute : NextHop → RouteMsg → RouteMsg} (hlink : ∀ nh m, (linkRoute nh m).mem = m.mem)
    (nhc : ℕ) (nhList : ℕ → NextHop) {m : RouteMsg}
    (h : Tail bufLen m.mem (32 + addrLen m.rm.family)) :
    Guarded (addNexthops sys lookup linkRoute nhc nhList m)
        (NexthopsLost sys lookup linkRoute nhc nhList m) ↔
      RoomFor lookup m.rm.family ((List.range nhc).map nhList) := by
  have haddr := (padded_addrLen m.rm.family).2
  have hbuf : bufLen.toNat = 8192 := rfl
  have hlen : ((List.range nhc).map nhList).length = nhc := by
    rw [List.length_map, List.length_range]
  rw [addNexthops, NexthopsLost]
  split_ifs with hone htwo
  · refine iff_of_true ⟨?_, fun _ _ => not_singleLost hlink _ h (by omega) (by omega)⟩
      (Or.inl (by omega))
    rw [singleNexthop]
    cases outIf lookup (nhList 0) <;> simp
  · exact multipath_guarded_iff sys lookup h (by omega)
  · exact iff_of_true ⟨by simp, fun _ _ => id⟩ (Or.inl (by omega))

/-- A message, from its header on. -/
theorem request_guarded_iff (sys : Sys) (lookup : Str → Option (BitVec 32))
    {linkRoute : NextHop → RouteMsg → RouteMsg} (hlink : ∀ nh m, (linkRoute nh m).mem = m.mem)
    (type flags : BitVec 16) (rm : RtMsg) (routePrefix : AttrBin) (left : Memory) (nhc : ℕ)
    (nhList : ℕ → NextHop) :
    Guarded (startRoute type flags rm routePrefix left >>=
          addNexthops sys lookup linkRoute nhc nhList)
        (RequestLost sys lookup linkRoute type flags rm routePrefix left nhc nhList) ↔
      RoomFor lookup rm.family ((List.range nhc).map nhList) := by
  obtain ⟨m, hstart, -, -, rfl, htail, -⟩ := startRoute_ok type flags rm routePrefix left
  have hlost : RequestLost sys lookup linkRoute type flags m.rm routePrefix left nhc nhList ↔
      NexthopsLost sys lookup linkRoute nhc nhList m := by
    constructor
    · rintro (hstartLost | ⟨m', hstart', hlost⟩)
      · exact absurd hstartLost (not_startLost _ _ _ _ _)
      · obtain rfl := Except.ok.inj (hstart.symm.trans hstart')
        exact hlost
    · exact fun hlost => Or.inr ⟨m, hstart, hlost⟩
  rw [hlost, hstart]
  exact addNexthops_guarded_iff sys lookup hlink nhc nhList htail

theorem routeLink_mem (mType : MsgType) (nh : NextHop) (m : RouteMsg) :
    (routeLink mType nh m).mem = m.mem := by
  unfold routeLink
  dsimp only
  split_ifs <;> rfl

theorem nexthopLink_mem (nh : NextHop) (m : RouteMsg) : (nexthopLink nh m).mem = m.mem := by
  unfold nexthopLink
  split_ifs <;> rfl

/-- A special next hop leaves the family alone. -/
theorem specialRoute_family {rm rm' : RtMsg} {special : Option SpecialNextHop}
    (h : specialRoute rm special = some rm') : rm'.family = rm.family := by
  match special with
  | none | some .blackhole | some .unreachable | some .prohibit | some .receive =>
    obtain rfl := Option.some_inj.mp h
    rfl
  | some .other => cases h

theorem roomFor_of_le_one (lookup : Str → Option (BitVec 32)) (family : BitVec 8) {nhc : ℕ}
    (nhList : ℕ → NextHop) (h : nhc ≤ 1) :
    RoomFor lookup family ((List.range nhc).map nhList) := by
  left
  rw [List.length_map, List.length_range]
  omega

theorem nasOsUpdateRoute_guarded_iff (sys : Sys) (left : Memory) (mType : MsgType)
    (obj : RouteObj) :
    Guarded (nasOsUpdateRoute sys left mType obj) (RouteLost sys left mType obj) ↔
      obj.Fits sys := by
  have hrejected : ∀ lost, Guarded (.error .rejected) lost := guarded_stop (by decide)
  have hpublished : ∀ lost, Guarded (.error .published) lost := guarded_stop (by decide)
  unfold nasOsUpdateRoute RouteLost RouteObj.Fits
  cases obj.routePrefix with
  | none => exact iff_of_true (hrejected _) fun _ h => nomatch h
  | some routePrefix =>
    cases obj.af with
    | none => exact iff_of_true (hrejected _) fun _ _ h => nomatch h
    | some af =>
      cases obj.prefixLen with
      | none => exact iff_of_true (hrejected _) fun _ _ _ h => nomatch h
      | some prefixLen =>
        dsimp only
        split_ifs with hcount hleaked htwo
        · refine iff_of_true (hrejected _) fun af' _ _ _ _ _ => roomFor_of_le_one _ _ _ ?_
          rw [hcount.2.1]
          decide
        · refine iff_of_true (hpublished _) fun af' _ _ _ hnot _ => ?_
          rw [hleaked] at hnot
          cases hnot
        · refine iff_of_true (hrejected _) fun af' _ _ _ _ hnone => ?_
          rw [hnone] at htwo
          exact absurd htwo.1 Bool.false_ne_true
        · cases hspecial : specialRoute (routeHeader (rtmType mType) af prefixLen)
              obj.specialNextHop with
          | none =>
            refine iff_of_true (hrejected _) fun af' _ _ _ _ hnone => ?_
            rw [hnone] at hspecial
            cases hspecial
          | some rm =>
            have hfamily : rm.family = af.setWidth 8 := specialRoute_family hspecial
            dsimp only
            rw [request_guarded_iff sys _ (routeLink_mem mType), hfamily]
            constructor
            · intro hroom af' _ haf _ _ _
              obtain rfl := Option.some_inj.mp haf
              exact hroom
            · intro hroom
              by_cases hsome : obj.specialNextHop.isSome
              · exact roomFor_of_le_one _ _ _ (not_lt.mp fun hlt => htwo ⟨hsome, hlt⟩)
              · exact hroom af rfl rfl rfl (Bool.eq_false_iff.mpr hleaked)
                  (Option.not_isSome_iff_eq_none.mp hsome)

theorem nasOsUpdateRouteNexthop_guarded_iff (sys : Sys) (left : Memory) (obj : NhOperation) :
    Guarded (nasOsUpdateRouteNexthop sys left obj) (NexthopLost sys left obj) ↔
      obj.Fits sys := by
  have hrejected : ∀ lost, Guarded (.error .rejected) lost := guarded_stop (by decide)
  have hpublished : ∀ lost, Guarded (.error .published) lost := guarded_stop (by decide)
  unfold nasOsUpdateRouteNexthop NexthopLost NhOperation.Fits
  split
  · rename_i routePrefix af prefixLen nhCount op hdst haf hlen hcount hop
    rw [hdst, haf, hlen, hcount, hop]
    dsimp only
    by_cases hleaked : leaked sys obj.vrfName obj.nhVrfName = true
    · rw [if_pos hleaked]
      exact iff_of_true (hpublished _) fun _ _ _ _ _ _ _ hnot =>
        absurd hleaked (Bool.eq_false_iff.mp hnot)
    · rw [if_neg hleaked, request_guarded_iff sys _ nexthopLink_mem]
      constructor
      · intro hroom af' nhCount' _ haf' _ hcount' _ _
        obtain rfl := Option.some_inj.mp haf'
        obtain rfl := Option.some_inj.mp hcount'
        exact hroom
      · exact fun hroom => hroom af nhCount rfl rfl rfl rfl rfl (Bool.eq_false_iff.mpr hleaked)
  · rename_i hmissing
    refine iff_of_true (hrejected _) fun af nhCount hdst haf hlen hcount hop _ => ?_
    obtain ⟨routePrefix, hdst⟩ := Option.isSome_iff_exists.mp hdst
    obtain ⟨prefixLen, hlen⟩ := Option.isSome_iff_exists.mp hlen
    obtain ⟨op, hop⟩ := Option.isSome_iff_exists.mp hop
    exact absurd hop (hmissing _ _ _ _ _ hdst haf hlen hcount)

/-- Nothing is written through a null pointer, and no message is sent that has
lost an attribute, exactly when the next hops fit or are refused. -/
theorem update_guarded_iff (sys : Sys) (left : Memory) :
    (∀ mType obj, Guarded (nasOsUpdateRoute sys left mType obj) (RouteLost sys left mType obj) ↔
      obj.Fits sys) ∧
    ∀ obj, Guarded (nasOsUpdateRouteNexthop sys left obj) (NexthopLost sys left obj) ↔
      obj.Fits sys :=
  ⟨nasOsUpdateRoute_guarded_iff sys left, nasOsUpdateRouteNexthop_guarded_iff sys left⟩

/-- A route over as many gateways. -/
def gateways (count : ℕ) : RouteData where
  vrfName := none
  routePrefix := fun _ => 10
  af := 2
  prefixLen := 8
  nhVrfName := none
  nhs := List.replicate count ⟨some fun _ => 1, none, none, none, none⟩

theorem gateways_not_refused (lookup : Str → Option (BitVec 32)) (count : ℕ) :
    ∀ nh ∈ (gateways count).nhs, ¬ Refused lookup nh := by
  intro nh hnh
  rw [List.eq_of_mem_replicate hnh]
  rintro (hnone | hnone) <;> cases hnone

theorem fitting_front (n t : ℕ) (nhs : List NextHop) : fitting n t nhs <+: nhs := by
  induction nhs generalizing t with
  | nil => exact List.prefix_rfl
  | cons nh nhs ih =>
    rw [fitting]
    split_ifs
    · exact List.prefix_cons_inj nh |>.mpr (ih _)
    · exact List.nil_prefix

section Gateways

variable (count : ℕ) (htwo : 2 ≤ count) (hlt : count < 2 ^ 32)

theorem gateways_map :
    (List.range count).map (gateways count).nhList = (gateways count).nhs := by
  have hmap := (gateways count).map_nhList
  rwa [gateways, List.length_replicate] at hmap

include htwo in
/-- The run for a number of gateways. -/
theorem gateways_run (lookup : Str → Option (BitVec 32))
    (linkRoute : NextHop → RouteMsg → RouteMsg) (type flags : BitVec 16) :
    let out := startRoute type flags ((gateways count).header type) (gateways count).routePrefix
        (fun _ => 0) >>=
      addNexthops noInterfaces lookup linkRoute count (gateways count).nhList
    if (fitting 4 40 (gateways count).nhs).length = count then ∃ m, out = .ok m
    else out = .error .nullPointer := by
  intro out
  have hlen : (gateways count).nhs.length = count := List.length_replicate
  obtain ⟨m, hstart, -, -, hrm, htail, -⟩ := startRoute_ok type flags
    ((gateways count).header type) (gateways count).routePrefix fun _ => 0
  have hfour : 4 = addrLen m.rm.family := by rw [hrm]; rfl
  have htail' : Tail bufLen m.mem 36 := htail
  have hout : out = multipath noInterfaces lookup (gateways count).nhs m := by
    change startRoute _ _ _ _ _ >>= _ = _
    rw [hstart]
    change addNexthops _ _ _ _ _ _ = _
    rw [addNexthops, if_neg (by omega), if_pos (by omega), gateways_map]
  have hfront := fitting_front 4 40 (gateways count).nhs
  obtain ⟨⟨nh, hnh, hrefused⟩, -⟩ | ⟨-, hfull, herr⟩ | ⟨-, hfit, mem', hok, -⟩ :=
    multipath_spec noInterfaces lookup (gateways count).nhs hfour htail' (by decide) (by decide)
  · exact absurd hrefused (gateways_not_refused lookup count nh (hfront.subset hnh))
  · rw [if_neg fun heq => hfull (hfront.eq_of_length (heq.trans hlen.symm)), hout, herr]
  · rw [if_pos (by rw [hfit, hlen]), hout, hok]
    exact ⟨_, rfl⟩

include hlt

theorem gateways_obj (mType : MsgType) :
    nasOsUpdateRoute noInterfaces (fun _ => 0) mType (gateways count).obj =
      startRoute (rtmType mType) (nasOsGetNlFlags mType) ((gateways count).header (rtmType mType))
          (gateways count).routePrefix (fun _ => 0) >>=
        addNexthops noInterfaces (routeIfIndex noInterfaces none) (routeLink mType) count
          (gateways count).nhList := by
  have hlen : (gateways count).nhs.length = count := List.length_replicate
  have heq := RouteData.obj_eq noInterfaces (fun _ => 0) mType (d := gateways count) rfl
    (hlen.symm ▸ hlt)
  rwa [hlen] at heq

theorem gateways_operation :
    nasOsUpdateRouteNexthop noInterfaces (fun _ => 0) (gateways count).operation =
      startRoute rtmDelroute (nasOsGetNlFlags .del) ((gateways count).header rtmDelroute)
          (gateways count).routePrefix (fun _ => 0) >>=
        addNexthops noInterfaces (nexthopIfIndex noInterfaces) nexthopLink count
          (gateways count).nhList := by
  have hlen : (gateways count).nhs.length = count := List.length_replicate
  have heq := RouteData.operation_eq noInterfaces (fun _ => 0) (d := gateways count) rfl
    (hlen.symm ▸ hlt)
  rwa [hlen] at heq

/-- Gateways that do not fit. -/
theorem gateways_no_room (lookup : Str → Option (BitVec 32))
    (hfull : bufLen.toNat < 40 + count * 16) :
    ¬ RoomFor lookup 2
      ((List.range (BitVec.ofNat 32 count).toNat).map (gateways count).nhList) := by
  have hlen : (gateways count).nhs.length = count := List.length_replicate
  have hfour : addrLen 2 = 4 := rfl
  have hbuf : bufLen.toNat = 8192 := rfl
  rw [BitVec.toNat_ofNat, Nat.mod_eq_of_lt hlt, gateways_map, RoomFor, hlen, hfour]
  rintro (hone | hroom | ⟨nh, hnh, hrefused⟩)
  · omega
  · omega
  · exact gateways_not_refused lookup count nh ((fitting_front _ _ _).subset hnh) hrefused

theorem gateways_obj_not_fits (hfull : bufLen.toNat < 40 + count * 16) :
    ¬ (gateways count).obj.Fits noInterfaces := by
  intro hfits
  have hlen : (gateways count).nhs.length = count := List.length_replicate
  have hroom := hfits 2 rfl rfl rfl rfl rfl
  rw [RouteData.obj, hlen] at hroom
  exact gateways_no_room count hlt _ hfull hroom

theorem gateways_operation_not_fits (hfull : bufLen.toNat < 40 + count * 16) :
    ¬ (gateways count).operation.Fits noInterfaces := by
  intro hfits
  have hlen : (gateways count).nhs.length = count := List.length_replicate
  have hroom := hfits 2 _ rfl rfl rfl rfl rfl rfl
  rw [hlen] at hroom
  exact gateways_no_room count hlt _ hfull hroom

end Gateways

/-- Of a message that is sent an attribute is lost, when the code is not
guarded. -/
theorem lost_of_not_guarded {out : Except Stop RouteMsg} {lost : Prop} {m : RouteMsg}
    (hok : out = .ok m) (h : ¬ Guarded out lost) : lost := by
  by_contra hkept
  refine h ⟨?_, fun _ _ => hkept⟩
  rw [hok]
  exact nofun

/-- With 511 gateways both functions write through a null pointer, and with 510
they send a message that has lost one. -/
theorem gateways_not_guarded :
    nasOsUpdateRoute noInterfaces (fun _ => 0) .del (gateways 511).obj = .error .nullPointer ∧
      nasOsUpdateRouteNexthop noInterfaces (fun _ => 0) (gateways 511).operation =
        .error .nullPointer ∧
      (∃ m, nasOsUpdateRoute noInterfaces (fun _ => 0) .del (gateways 510).obj = .ok m ∧
        RouteLost noInterfaces (fun _ => 0) .del (gateways 510).obj) ∧
      ∃ m, nasOsUpdateRouteNexthop noInterfaces (fun _ => 0) (gateways 510).operation = .ok m ∧
        NexthopLost noInterfaces (fun _ => 0) (gateways 510).operation := by
  have hfull : (fitting 4 40 (gateways 511).nhs).length ≠ 511 := by decide +kernel
  have hfit : (fitting 4 40 (gateways 510).nhs).length = 510 := by decide +kernel
  have hrun511 := @gateways_run 511 (by decide)
  have hrun510 := @gateways_run 510 (by decide)
  simp only [if_neg hfull] at hrun511
  simp only [if_pos hfit] at hrun510
  refine ⟨?_, ?_, ?_, ?_⟩
  · rw [gateways_obj 511 (by decide)]
    exact hrun511 _ _ _ _
  · rw [gateways_operation 511 (by decide)]
    exact hrun511 _ _ _ _
  · obtain ⟨m, hok⟩ := hrun510 (routeIfIndex noInterfaces none) (routeLink .del) rtmDelroute
      (nasOsGetNlFlags .del)
    have hroute := (gateways_obj 510 (by decide) .del).trans hok
    refine ⟨m, hroute, lost_of_not_guarded hroute ?_⟩
    rw [nasOsUpdateRoute_guarded_iff]
    exact gateways_obj_not_fits 510 (by decide) (by decide)
  · obtain ⟨m, hok⟩ := hrun510 (nexthopIfIndex noInterfaces) nexthopLink rtmDelroute
      (nasOsGetNlFlags .del)
    have hnexthop := (gateways_operation 510 (by decide)).trans hok
    refine ⟨m, hnexthop, lost_of_not_guarded hnexthop ?_⟩
    rw [nasOsUpdateRouteNexthop_guarded_iff]
    exact gateways_operation_not_fits 510 (by decide) (by decide)

end OpxNasLinux.Route
