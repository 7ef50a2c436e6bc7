import OpxNasLinux.RouteHops

/-!
# Deleting a route and deleting its next hops

`nas_os_update_route_nexthop` is a copy of `nas_os_update_route` for the next
hops of a route.  For a delete operation the kernel is sent what it is sent
for the delete of a route with these next hops, unless the copy lacks what the
function has: it asks the system for the index of a management interface, and
makes a route without gateway one of link scope when its interface has a name.

* `SameMsg` says that two messages are the same.
* `HopsWritten.agree_iff` and `flat_agree_iff` are when two buffers are: the
  attributes leave no gaps, and can be read off.
* `delete_alike_iff` compares the two functions.
-/

namespace OpxNasLinux.Route

open NlMsg Netlink ByteStore

/-! ## The two messages -/

/-- The messages have the same headers, and the same attributes after them. -/
structure SameMsg (m m' : RouteMsg) : Prop where
  type : m'.nlmsgType = m.nlmsgType
  flags : m'.nlmsgFlags = m.nlmsgFlags
  rm : m'.rm = m.rm
  len : load32 m'.mem 0 = load32 m.mem 0
  attrs : Agree 28 (load32 m.mem 0).toNat m.mem m'.mem

/-- Two functions send the same message, or end in the same way without one. -/
def Alike : Except Stop RouteMsg → Except Stop RouteMsg → Prop
  | .ok m, .ok m' => SameMsg m m'
  | .error e, .error e' => e = e'
  | _, _ => False

/-- The input of a delete operation. -/
def RouteData.operation (d : RouteData) : NhOperation where
  vrfName := d.vrfName
  routePrefix := some d.routePrefix
  af := some d.af
  nhCount := some (BitVec.ofNat 32 d.nhs.length)
  prefixLen := some d.prefixLen
  operation := some .delete
  nhVrfName := d.nhVrfName
  nhList := d.nhList

/-- The message that `nas_os_update_route_nexthop` goes on with. -/
theorem RouteData.operation_eq (sys : Sys) (left : Memory) {d : RouteData}
    (hleaked : leaked sys d.vrfName d.nhVrfName = false) (hlen : d.nhs.length < 2 ^ 32) :
    nasOsUpdateRouteNexthop sys left d.operation =
      startRoute rtmDelroute (nasOsGetNlFlags .del) (d.header rtmDelroute) d.routePrefix left >>=
        addNexthops sys (nexthopIfIndex sys) nexthopLink d.nhs.length d.nhList := by
  have hcount : (BitVec.ofNat 32 d.nhs.length).toNat = d.nhs.length := by
    rw [BitVec.toNat_ofNat, Nat.mod_eq_of_lt hlen]
  rw [nasOsUpdateRouteNexthop, operation]
  dsimp only
  rw [hleaked, hcount]
  rfl

/-! ## The interface of a next hop -/

/-- The system has the index of the interface, where it is asked for it. -/
def SameIndex (sys : Sys) (vrfName : Option Str) (nh : NextHop) : Prop :=
  nh.ifindex = none → ∀ name, nh.ifname = some name →
    ∀ info, sys.interfaceInfo name = some info → info.mgmt = true →
      sys.osIfIndex (vrfName.getD sys.defaultVrfName) name = some info.ifIndex

/-- A next hop is given an interface by its index, or its name, or not at all. -/
theorem outIf_cases (nh : NextHop) :
    (∃ name, nh.ifindex = none ∧ nh.ifname = some name ∧
      ∀ lookup, outIf lookup nh = (lookup name).map some) ∨
    (nh.ifindex ≠ none ∨ nh.ifname = none) ∧ ∀ lookup, outIf lookup nh = some nh.ifindex := by
  unfold outIf
  cases nh.ifindex with
  | some ifindex => exact Or.inr ⟨Or.inl nofun, fun _ => rfl⟩
  | none =>
    cases nh.ifname with
    | none => exact Or.inr ⟨Or.inr rfl, fun _ => rfl⟩
    | some name => exact Or.inl ⟨name, rfl, rfl, fun _ => rfl⟩

/-- Both functions find the same interface exactly when the system knows the
index that they have. -/
theorem outIf_eq_iff (sys : Sys) (vrfName : Option Str) (nh : NextHop) :
    outIf (routeIfIndex sys vrfName) nh = outIf (nexthopIfIndex sys) nh ↔
      SameIndex sys vrfName nh := by
  obtain ⟨name, hidx, hname, hout⟩ | ⟨hnot, hout⟩ := outIf_cases nh
  · rw [hout, hout, (Option.map_injective (Option.some_injective _)).eq_iff, routeIfIndex,
      nexthopIfIndex, SameIndex, hname]
    cases hinfo : sys.interfaceInfo name with
    | none =>
      refine iff_of_true rfl fun _ name' hname' info hsome => ?_
      rw [← Option.some_inj.mp hname', hinfo] at hsome
      cases hsome
    | some info =>
      dsimp only
      constructor
      · intro h _ name' hname' info' hsome hmgmt
        obtain rfl := Option.some_inj.mp hname'
        obtain rfl := Option.some_inj.mp (hinfo.symm.trans hsome)
        rw [if_pos hmgmt] at h
        exact h
      · intro h
        split_ifs with hmgmt
        · exact h hidx name rfl info hinfo hmgmt
        · rfl
  · rw [hout, hout]
    refine iff_of_true rfl fun hidx name hname => ?_
    rcases hnot with hsome | hnone
    · exact absurd hidx hsome
    · rw [hnone] at hname
      cases hname

/-- An interface that `nas_os_update_route` finds is known to its copy. -/
theorem outIf_nexthop_ne_none {sys : Sys} {vrfName : Option Str} {nh : NextHop}
    (h : outIf (routeIfIndex sys vrfName) nh ≠ none) : outIf (nexthopIfIndex sys) nh ≠ none := by
  obtain ⟨name, -, -, hout⟩ | ⟨-, hout⟩ := outIf_cases nh
  · rw [hout, routeIfIndex] at h
    rw [hout, nexthopIfIndex]
    cases hinfo : sys.interfaceInfo name with
    | none =>
      rw [hinfo] at h
      exact absurd rfl h
    | some info => exact nofun
  · rw [hout]
    exact nofun

theorem Refused.route {sys : Sys} {vrfName : Option Str} {nh : NextHop}
    (h : Refused (nexthopIfIndex sys) nh) : Refused (routeIfIndex sys vrfName) nh :=
  h.imp_right fun hnone => by_contra fun hsome => outIf_nexthop_ne_none hsome hnone

/-- The interfaces that two lookups find are both numbers, or both none. -/
theorem outIf_isSome_eq {lookup lookup' : Str → Option (BitVec 32)} {nh : NextHop}
    {oif oif' : Option (BitVec 32)} (h : outIf lookup nh = some oif)
    (h' : outIf lookup' nh = some oif') : oif.isSome = oif'.isSome := by
  obtain ⟨name, -, -, hout⟩ | ⟨-, hout⟩ := outIf_cases nh
  · rw [hout] at h h'
    obtain ⟨i, -, rfl⟩ := Option.map_eq_some_iff.mp h
    obtain ⟨i', -, rfl⟩ := Option.map_eq_some_iff.mp h'
    rfl
  · rw [hout] at h h'
    rw [← Option.some_inj.mp h, ← Option.some_inj.mp h']

/-! ## Attributes that can be read off -/

/-- Attributes without any inside. -/
def flat : List (ℕ × Bytes) → Attrs
  | [] => .nil
  | a :: l => .attr a.1 a.2 (flat l)

/-- A buffer holds one list of attributes of a size. -/
theorem flat_unique {mem : Memory} {l l' : List (ℕ × Bytes)} {p : ℤ}
    (h : (flat l).Written mem p) (h' : (flat l').Written mem p)
    (hsize : (flat l).size = (flat l').size) : l = l' := by
  induction l generalizing l' p with
  | nil =>
    cases l' with
    | nil => rfl
    | cons a' l' =>
      have hpad := le_padded (4 + a'.2.length)
      rw [flat, flat, Attrs.size, Attrs.size] at hsize
      omega
  | cons a l ih =>
    cases l' with
    | nil =>
      have hpad := le_padded (4 + a.2.length)
      rw [flat, flat, Attrs.size, Attrs.size] at hsize
      omega
    | cons a' l' =>
      obtain ⟨hlen, hty, hdata, hrest⟩ := h
      obtain ⟨hlen', hty', hdata', hrest'⟩ := h'
      have heq : a.2.length = a'.2.length := by omega
      rw [flat, flat, Attrs.size, Attrs.size, heq] at hsize
      rw [heq] at hrest
      rw [ih hrest hrest' (by omega)]
      exact congrArg (· :: l') (Prod.ext (hty.symm.trans hty') (hdata.unique hdata' heq))

/-- Attributes without padding leave no gaps. -/
theorem flat_agree {mem mem' : Memory} {l : List (ℕ × Bytes)} {p : ℤ}
    (h : (flat l).Written mem p) (h' : (flat l).Written mem' p)
    (hdvd : ∀ a ∈ l, 4 ∣ a.2.length) : Agree p (p + (flat l).size) mem mem' := by
  induction l generalizing p with
  | nil =>
    intro a hlo hhi
    exact absurd hhi (not_lt.mpr (hlo.trans' (add_zero p).le))
  | cons a l ih =>
    obtain ⟨hlen, hty, hdata, hrest⟩ := h
    obtain ⟨hlen', hty', hdata', hrest'⟩ := h'
    have hpad : padded (4 + a.2.length) = 4 + a.2.length :=
      padded_of_four_dvd (Nat.dvd_add (Nat.dvd_refl 4) (hdvd a List.mem_cons_self))
    rw [hpad] at hrest hrest'
    have hagree := ih hrest hrest' fun b hb => hdvd b (List.mem_cons_of_mem _ hb)
    have hlen₂ := agree_of_load16 (BitVec.eq_of_toNat_eq (hlen'.trans hlen.symm))
    have hty₂ := agree_of_load16 (BitVec.eq_of_toNat_eq (hty'.trans hty.symm))
    rw [flat, Attrs.size, hpad]
    push_cast at hagree ⊢
    have hhead : Agree p (p + 4) mem mem' := hlen₂.append (hty₂.mono le_rfl (by omega))
    have hbody := hdata.agree_of hdata'
    exact (hhead.append hbody).append (hagree.mono (by omega) (by omega))

/-- Two buffers with attributes of one size are the same there exactly when the
attributes are. -/
theorem flat_agree_iff {mem mem' : Memory} {l l' : List (ℕ × Bytes)} {p : ℤ}
    (h : (flat l).Written mem p) (h' : (flat l').Written mem' p)
    (hsize : (flat l).size = (flat l').size) (hdvd : ∀ a ∈ l, 4 ∣ a.2.length) :
    Agree p (p + (flat l).size) mem mem' ↔ l = l' := by
  constructor
  · intro hagree
    exact flat_unique (h.agree hagree) h' hsize
  · rintro rfl
    exact flat_agree h h' hdvd

/-! ## Next hops that can be read off -/

theorem HopRec.attrs_eq_flat (r : HopRec) :
    r.attrs = flat (r.gateway.map fun gw => (rtaGateway, gw)).toList := by
  rw [HopRec.attrs]
  cases r.gateway <;> rfl

/-- A buffer holds one next hop. -/
theorem HopRec.Written.unique {mem : Memory} {r r' : HopRec} {p : ℤ} (h : r.Written mem p)
    (h' : r'.Written mem p) : r = r' := by
  have hsize : r.size = r'.size := h.len.symm.trans h'.len
  rw [HopRec.size, HopRec.size, Nat.add_left_cancel_iff] at hsize
  have hattrs := h.attrs
  have hattrs' := h'.attrs
  rw [HopRec.attrs_eq_flat] at hattrs hattrs' hsize
  rw [HopRec.attrs_eq_flat] at hsize
  have hgateway := congrArg List.head? (flat_unique hattrs hattrs' hsize)
  rw [Option.head?_toList, Option.head?_toList] at hgateway
  have hinj : Function.Injective fun gw : Bytes => (rtaGateway, gw) :=
    fun _ _ heq => (Prod.mk.inj heq).2
  have hgw := Option.map_injective hinj hgateway
  have hflags := h.flags.symm.trans h'.flags
  have hhops := h.hops.symm.trans h'.hops
  have hifindex := h.ifindex.symm.trans h'.ifindex
  exact HopRec.ext hgw hflags hhops hifindex

/-- A next hop leaves no gaps. -/
theorem HopRec.Written.agree_of {mem mem' : Memory} {r : HopRec} {p : ℤ} (h : r.Written mem p)
    (h' : r.Written mem' p) (hdvd : ∀ gw ∈ r.gateway, 4 ∣ gw.length) :
    Agree p (p + r.size) mem mem' := by
  have hattrs := h.attrs
  have hattrs' := h'.attrs
  rw [HopRec.attrs_eq_flat] at hattrs hattrs'
  have hdata := flat_agree hattrs hattrs' fun a ha => by
    obtain ⟨gw, hgw, rfl⟩ := Option.mem_map.mp (Option.mem_toList.mp ha)
    exact hdvd gw hgw
  rw [← HopRec.attrs_eq_flat] at hdata
  have hlen := agree_of_load16 (BitVec.eq_of_toNat_eq (h'.len.trans h.len.symm))
  have hifindex := agree_of_load32 (h'.ifindex.trans h.ifindex.symm)
  have hbytes : Agree (p + 2) (p + 4) mem mem' := by
    intro a hlo hhi
    obtain rfl | rfl : a = p + 2 ∨ a = p + 3 := by omega
    · exact h'.flags.trans h.flags.symm
    · exact h'.hops.trans h.hops.symm
  rw [HopRec.size]
  push_cast
  exact ((hlen.append hbytes).append (hifindex.mono le_rfl (by omega))).append
    (hdata.mono le_rfl (by omega))

/-- A buffer holds one list of next hops of a size. -/
theorem HopsWritten.unique {mem : Memory} {recs recs' : List HopRec} {p : ℤ}
    (h : HopsWritten mem recs p) (h' : HopsWritten mem recs' p)
    (hsize : hopsSize recs = hopsSize recs') : recs = recs' := by
  have hpos : ∀ (r : HopRec) (recs : List HopRec), hopsSize (r :: recs) ≠ hopsSize [] := by
    intro r recs
    have hnil : hopsSize [] = 0 := rfl
    rw [hopsSize_cons, HopRec.size, hnil]
    omega
  induction recs generalizing recs' p with
  | nil =>
    cases recs' with
    | nil => rfl
    | cons r' recs' => exact absurd hsize.symm (hpos r' recs')
  | cons r recs ih =>
    cases recs' with
    | nil => exact absurd hsize (hpos r recs)
    | cons r' recs' =>
      obtain rfl := h.1.unique h'.1
      rw [hopsSize_cons, hopsSize_cons, Nat.add_left_cancel_iff] at hsize
      rw [ih h.2 h'.2 hsize]

theorem HopsWritten.agree_of {mem mem' : Memory} {recs : List HopRec} {p : ℤ}
    (h : HopsWritten mem recs p) (h' : HopsWritten mem' recs p)
    (hdvd : ∀ r ∈ recs, ∀ gw ∈ r.gateway, 4 ∣ gw.length) :
    Agree p (p + hopsSize recs) mem mem' := by
  induction recs generalizing p with
  | nil =>
    intro a hlo hhi
    exact absurd hhi (not_lt.mpr (hlo.trans' (add_zero p).le))
  | cons r recs ih =>
    have hhead := h.1.agree_of h'.1 (hdvd r List.mem_cons_self)
    have hrest := ih h.2 h'.2 fun r' hr' => hdvd r' (List.mem_cons_of_mem _ hr')
    rw [hopsSize_cons]
    push_cast
    exact hhead.append (hrest.mono le_rfl (by omega))

/-- Two buffers with next hops of one size are the same there exactly when the
next hops are. -/
theorem MultipathWritten.agree_iff {mem mem' : Memory} {recs recs' : List HopRec} {p : ℤ}
    (h : MultipathWritten mem recs p) (h' : MultipathWritten mem' recs' p)
    (hsize : hopsSize recs = hopsSize recs')
    (hdvd : ∀ r ∈ recs, ∀ gw ∈ r.gateway, 4 ∣ gw.length) :
    Agree p (p + 4 + hopsSize recs) mem mem' ↔ recs = recs' := by
  constructor
  · intro hagree
    exact (h.hops.agree (hagree.mono (by omega) le_rfl)).unique h'.hops hsize
  · rintro rfl
    have hlen := agree_of_load16 (BitVec.eq_of_toNat_eq (h'.len.trans h.len.symm))
    have htype := agree_of_load16 (BitVec.eq_of_toNat_eq (h'.type.trans h.type.symm))
    exact (hlen.append (htype.mono le_rfl (by omega))).append (h.hops.agree_of h'.hops hdvd)

/-! ## One next hop -/

/-- Attributes one after the other. -/
def addAttrs (l : List (ℕ × Bytes)) (m : RouteMsg) : RouteMsg :=
  l.foldl (fun m a => addAttr a.1 a.2 m) m

/-- Attributes that there is room for, at the tail. -/
theorem addAttrs_written {l : List (ℕ × Bytes)} {m : RouteMsg} {t : ℕ}
    (h : Tail bufLen m.mem t) (h4 : 4 ≤ t)
    (hv : ∀ a ∈ l, a.1 < 2 ^ 14 ∧ a.2.length < 2 ^ 31)
    (hroom : t + (flat l).size ≤ bufLen.toNat) :
    Tail bufLen (addAttrs l m).mem (t + (flat l).size) ∧
      (flat l).Written (addAttrs l m).mem t ∧ Agree 4 t m.mem (addAttrs l m).mem := by
  induction l generalizing m t with
  | nil => exact ⟨h, trivial, Agree.refl _ _ _⟩
  | cons a l ih =>
    obtain ⟨htype, hlen⟩ := hv a List.mem_cons_self
    rw [flat, Attrs.size] at hroom ⊢
    obtain ⟨htail, hwritten, hframe⟩ := addAttr_tail a.1 h h4 htype hlen
    rw [if_pos (by omega)] at htail hwritten
    rw [Attrs.size, Attrs.size, add_zero] at htail
    obtain ⟨htail', hrest, hframe'⟩ := ih htail (by omega)
      (fun b hb => hv b (List.mem_cons_of_mem _ hb)) (by omega)
    rw [addAttrs, List.foldl_cons, ← addAttrs, ← add_assoc]
    obtain ⟨hnla, hty, hdata, -⟩ := hwritten
    have hpad := le_padded (4 + a.2.length)
    push_cast at hframe'
    refine ⟨htail', ⟨?_, ?_, hdata.agree (hframe'.mono (by omega) (by omega)), ?_⟩,
      hframe.trans (hframe'.mono le_rfl (by omega))⟩
    · rw [load16_agree (hframe'.mono (by omega) (by omega)), hnla]
    · rw [load16_agree (hframe'.mono (by omega) (by omega)), hty]
    · exact_mod_cast hrest

/-- The attributes of a single next hop. -/
def singleAttrs (n : ℕ) (nh : NextHop) (oif : Option (BitVec 32)) : List (ℕ × Bytes) :=
  (nh.addr.map fun gw => (rtaGateway, gw.read n)).toList ++
    ((oif.map fun ifindex => (rtaOif, intBytes ifindex)).toList ++
      (nh.weight.map fun weight => (rtaPriority, intBytes weight)).toList)

/-- The header of a message with a single next hop.  Without gateway it gets
the scope when there is an interface. -/
def singleHeader (sys : Sys) (scope : BitVec 8) (nh : NextHop) (oif : Option (BitVec 32))
    (rm : RtMsg) : RtMsg :=
  match nh.addr with
  | some _ =>
    { rm with
      scope := rtScopeUniverse
      flags := if nh.flags = some sys.nhFlagsOnlink then rm.flags ||| rtnhFOnlink else rm.flags }
  | none => if oif.isSome then { rm with scope } else rm

/-- The branch for one next hop. -/
theorem singleNexthop_ok {sys : Sys} {lookup : Str → Option (BitVec 32)}
    {linkRoute : NextHop → RouteMsg → RouteMsg} {nh : NextHop} {m : RouteMsg} {scope : BitVec 8}
    {oif : Option (BitVec 32)} (hlink : linkRoute nh m = setScope scope m)
    (hoif : outIf lookup nh = some oif) :
    singleNexthop sys lookup linkRoute nh m =
      .ok
        { m with
          rm := singleHeader sys scope nh oif m.rm
          mem := (addAttrs (singleAttrs (addrLen m.rm.family) nh oif) m).mem } := by
  rw [singleNexthop, hoif]
  unfold singleHeader singleAttrs addGateway addOif addWeight
  cases nh.addr with
  | some gw =>
    simp only [Option.isNone_some, Bool.false_eq_true, if_false]
    split_ifs <;> cases oif <;> cases nh.weight <;> rfl
  | none =>
    simp only [Option.isNone_none, if_true, hlink]
    cases oif <;> cases nh.weight <;> rfl

/-- A message for the delete of a route, with its destination only. -/
structure Started (d : RouteData) (m : RouteMsg) : Prop where
  type : m.nlmsgType = rtmDelroute
  flags : m.nlmsgFlags = nasOsGetNlFlags .del
  rm : m.rm = d.header rtmDelroute
  tail : Tail bufLen m.mem (32 + d.addrLen)
  dst : (flat [(rtaDst, d.routePrefix.read d.addrLen)]).Written m.mem 28

theorem RouteData.started (d : RouteData) (left : Memory) :
    ∃ m, startRoute rtmDelroute (nasOsGetNlFlags .del) (d.header rtmDelroute) d.routePrefix left =
      .ok m ∧ Started d m := by
  obtain ⟨m, hstart, htype, hflags, hrm, htail, hdst⟩ := startRoute_ok rtmDelroute
    (nasOsGetNlFlags .del) (d.header rtmDelroute) d.routePrefix left
  exact ⟨m, hstart, htype, hflags, hrm, htail, hdst⟩

theorem RouteData.addrLen_cases (d : RouteData) : d.addrLen = 4 ∨ d.addrLen = 16 := by
  unfold addrLen Route.addrLen
  split_ifs
  · exact Or.inl rfl
  · exact Or.inr rfl

@[simp] theorem length_intBytes (v : BitVec 32) : (intBytes v).length = 4 := rfl

theorem intBytes_injective : Function.Injective intBytes := by
  intro v v' h
  have hbyte : ∀ i : ℕ, (⟨v.extractLsb' i 8⟩ : UInt8) = ⟨v'.extractLsb' i 8⟩ →
      v.toNat / 2 ^ i % 2 ^ 8 = v'.toNat / 2 ^ i % 2 ^ 8 := by
    intro i hi
    have hnat := congrArg (fun b : UInt8 => b.toBitVec.toNat) hi
    dsimp only at hnat
    rwa [BitVec.extractLsb'_toNat, BitVec.extractLsb'_toNat, Nat.shiftRight_eq_div_pow,
      Nat.shiftRight_eq_div_pow] at hnat
  simp only [intBytes, List.cons.injEq] at h
  obtain ⟨h0, h1, h2, h3, -⟩ := h
  have e0 := hbyte 0 h0
  have e1 := hbyte 8 h1
  have e2 := hbyte 16 h2
  have e3 := hbyte 24 h3
  apply BitVec.eq_of_toNat_eq
  omega

theorem singleAttrs_inj {n : ℕ} {nh : NextHop} {oif oif' : Option (BitVec 32)} :
    singleAttrs n nh oif = singleAttrs n nh oif' ↔ oif = oif' := by
  constructor
  · intro h
    have hoif := congrArg List.head? (List.append_cancel_right (List.append_cancel_left h))
    rw [Option.head?_toList, Option.head?_toList] at hoif
    exact Option.map_injective (fun _ _ heq => intBytes_injective (Prod.mk.inj heq).2) hoif
  · exact congrArg _

/-- The size of the attributes does not depend on the number of the interface. -/
theorem singleAttrs_size (n : ℕ) (nh : NextHop) {oif oif' : Option (BitVec 32)}
    (h : oif.isSome = oif'.isSome) :
    (flat (singleAttrs n nh oif)).size = (flat (singleAttrs n nh oif')).size := by
  unfold singleAttrs
  cases oif with
  | none =>
    obtain rfl := Option.not_isSome_iff_eq_none.mp (Bool.eq_false_iff.mp h.symm)
    rfl
  | some i =>
    obtain ⟨i', rfl⟩ := Option.isSome_iff_exists.mp h.symm
    cases nh.addr <;> rfl

theorem singleAttrs_data {n : ℕ} (hn : n = 4 ∨ n = 16) {nh : NextHop}
    {oif : Option (BitVec 32)} {a : ℕ × Bytes} (h : a ∈ singleAttrs n nh oif) :
    a.1 < 2 ^ 14 ∧ (a.2.length = 4 ∨ a.2.length = 16) := by
  rw [singleAttrs, List.mem_append, List.mem_append, Option.mem_toList, Option.mem_toList,
    Option.mem_toList, Option.map_eq_some_iff, Option.map_eq_some_iff, Option.map_eq_some_iff] at h
  have htypes : rtaGateway < 2 ^ 14 ∧ rtaOif < 2 ^ 14 ∧ rtaPriority < 2 ^ 14 := by decide
  obtain ⟨gw, -, rfl⟩ | ⟨i, -, rfl⟩ | ⟨w, -, rfl⟩ := h
  · exact ⟨htypes.1, by rwa [AttrBin.length_read]⟩
  · exact ⟨htypes.2.1, Or.inl rfl⟩
  · exact ⟨htypes.2.2, Or.inl rfl⟩

theorem singleAttrs_size_le {n : ℕ} (hn : n = 4 ∨ n = 16) (nh : NextHop)
    (oif : Option (BitVec 32)) : (flat (singleAttrs n nh oif)).size ≤ 36 := by
  have hpad : padded (4 + n) ≤ 20 := by
    rcases hn with rfl | rfl <;> decide
  have hint : ∀ v : BitVec 32, padded (4 + (intBytes v).length) = 8 := by
    intro v
    rw [length_intBytes]
    decide
  unfold singleAttrs
  cases nh.addr <;> cases oif <;> cases nh.weight <;>
    simp only [Option.map_none, Option.map_some, Option.toList_none, Option.toList_some,
      List.nil_append, List.cons_append, flat, Attrs.size, hint, AttrBin.length_read] <;> omega

/-- The attributes of a message with a single next hop. -/
theorem Started.single {d : RouteData} {m : RouteMsg} (h : Started d m) (nh : NextHop)
    (oif : Option (BitVec 32)) :
    let l := (rtaDst, d.routePrefix.read d.addrLen) :: singleAttrs d.addrLen nh oif
    let mem := (addAttrs (singleAttrs d.addrLen nh oif) m).mem
    (load32 mem 0).toNat = 28 + (flat l).size ∧ (flat l).Written mem 28 ∧
      ∀ a ∈ l, 4 ∣ a.2.length := by
  intro l mem
  have hn := d.addrLen_cases
  have hpad : padded (4 + d.addrLen) = 4 + d.addrLen := (padded_addrLen _).1
  have hbuf : bufLen.toNat = 8192 := rfl
  have hle := singleAttrs_size_le hn nh oif
  obtain ⟨htail, hwritten, hframe⟩ := addAttrs_written (l := singleAttrs d.addrLen nh oif) h.tail
    (by omega) (fun a ha => by have := singleAttrs_data hn ha; omega) (by omega)
  have hsize : (flat l).size = 4 + d.addrLen + (flat (singleAttrs d.addrLen nh oif)).size := by
    rw [flat, Attrs.size, AttrBin.length_read, hpad]
  refine ⟨by rw [htail.len, hsize]; omega, ?_, ?_⟩
  · obtain ⟨hlen, hty, hdata, -⟩ := h.dst.agree (hframe.mono (by decide) (by
      rw [flat, Attrs.size, AttrBin.length_read, hpad, flat, Attrs.size]
      push_cast
      omega))
    refine ⟨hlen, hty, hdata, ?_⟩
    rw [AttrBin.length_read, hpad]
    convert hwritten using 1
    push_cast
    omega
  · intro a ha
    rcases List.mem_cons.mp ha with rfl | ha
    · rw [AttrBin.length_read]
      omega
    · have hdata := singleAttrs_data hn ha
      omega

/-- The headers of a route without gateway differ in the scope, when there is
an interface. -/
theorem singleHeader_eq_iff (sys : Sys) {scope scope' : BitVec 8} (nh : NextHop)
    (oif : Option (BitVec 32)) (rm : RtMsg) :
    singleHeader sys scope' nh oif rm = singleHeader sys scope nh oif rm ↔
      nh.addr ≠ none ∨ oif = none ∨ scope' = scope := by
  unfold singleHeader
  cases nh.addr with
  | some gw => exact iff_of_true rfl (Or.inl nofun)
  | none =>
    cases oif with
    | none => exact iff_of_true rfl (Or.inr (Or.inl rfl))
    | some i =>
      simp only [Option.isSome_some, if_true, RtMsg.mk.injEq, true_and, and_true, ne_eq,
        not_true_eq_false, reduceCtorEq, false_or]

/-- Two messages with a single next hop are the same when the interface is, and
the scope where it counts. -/
theorem Started.sameMsg_single_iff {d : RouteData} {m m' : RouteMsg} (h : Started d m)
    (h' : Started d m') (sys : Sys) (scope scope' : BitVec 8) (nh : NextHop)
    {oif oif' : Option (BitVec 32)} (hsome : oif.isSome = oif'.isSome) :
    SameMsg
        { m with
          rm := singleHeader sys scope nh oif m.rm
          mem := (addAttrs (singleAttrs (Route.addrLen m.rm.family) nh oif) m).mem }
        { m' with
          rm := singleHeader sys scope' nh oif' m'.rm
          mem := (addAttrs (singleAttrs (Route.addrLen m'.rm.family) nh oif') m').mem } ↔
      oif = oif' ∧ (nh.addr ≠ none ∨ oif = none ∨ scope' = scope) := by
  obtain ⟨hlen, hwritten, hdvd⟩ := h.single nh oif
  obtain ⟨hlen', hwritten', -⟩ := h'.single nh oif'
  have hsize := singleAttrs_size d.addrLen nh hsome
  have hfam : Route.addrLen m.rm.family = d.addrLen := by rw [h.rm]; rfl
  have hfam' : Route.addrLen m'.rm.family = d.addrLen := by rw [h'.rm]; rfl
  have hiff := flat_agree_iff hwritten hwritten'
    (by rw [flat, flat, Attrs.size, Attrs.size, hsize]) hdvd
  rw [List.cons_inj_right, singleAttrs_inj] at hiff
  have hend : ((28 + (flat ((rtaDst, d.routePrefix.read d.addrLen) ::
      singleAttrs d.addrLen nh oif)).size : ℕ) : ℤ) = 28 + (flat ((rtaDst,
        d.routePrefix.read d.addrLen) :: singleAttrs d.addrLen nh oif)).size := by
    push_cast
    rfl
  rw [hfam, hfam', h.rm, h'.rm]
  constructor
  · rintro ⟨-, -, hrm, -, hattrs⟩
    dsimp only at hrm hattrs
    rw [hlen, hend] at hattrs
    obtain rfl := hiff.mp hattrs
    exact ⟨rfl, (singleHeader_eq_iff sys nh oif _).mp hrm⟩
  · rintro ⟨rfl, hscope⟩
    refine ⟨h'.type.trans h.type.symm, h'.flags.trans h.flags.symm,
      (singleHeader_eq_iff sys nh oif _).mpr hscope, ?_, ?_⟩
    · exact BitVec.eq_of_toNat_eq (hlen'.trans hlen.symm)
    · rw [hlen, hend]
      exact hiff.mpr rfl

/-! ## Several next hops -/

/-- What next hops become has the size of the room that they need. -/
theorem hopRecs_size {sys : Sys} {lookup lookup' : Str → Option (BitVec 32)} {n t : ℕ}
    {nhs : List NextHop} (h : ∀ nh ∈ nhs, ¬ Refused lookup nh)
    (h' : ∀ nh ∈ nhs, ¬ Refused lookup' nh) :
    hopsSize (hopRecs sys lookup n t nhs) = hopsSize (hopRecs sys lookup' n t nhs) := by
  induction nhs generalizing t with
  | nil => rfl
  | cons nh nhs ih =>
    obtain ⟨hnh, hnhs⟩ := List.forall_mem_cons.mp h
    obtain ⟨hnh', hnhs'⟩ := List.forall_mem_cons.mp h'
    obtain ⟨r, hr, hsize⟩ := hopRec_some sys n t hnh
    obtain ⟨r', hr', hsize'⟩ := hopRec_some sys n t hnh'
    rw [hopRecs, hopRecs, hr, hr', Option.toList_some, Option.toList_some, List.singleton_append,
      List.singleton_append, hopsSize_cons, hopsSize_cons, ih hnhs hnhs']
    omega

/-- What a next hop becomes tells the interface that was found. -/
theorem hopRec_inj (sys : Sys) {lookup lookup' : Str → Option (BitVec 32)} {n t : ℕ}
    {nh : NextHop} (h : ¬ Refused lookup nh) (h' : ¬ Refused lookup' nh) :
    hopRec sys lookup n t nh = hopRec sys lookup' n t nh ↔
      outIf lookup nh = outIf lookup' nh := by
  rw [Refused, not_or] at h h'
  obtain ⟨gw, hgw⟩ := Option.ne_none_iff_exists'.mp h.1
  obtain ⟨oif, hoif⟩ := Option.ne_none_iff_exists'.mp h.2
  obtain ⟨oif', hoif'⟩ := Option.ne_none_iff_exists'.mp h'.2
  have hsome := outIf_isSome_eq hoif hoif'
  rw [hopRec, hopRec, hgw, hoif, hoif']
  dsimp only
  rw [Option.some_inj, Option.some_inj, HopRec.mk.injEq]
  constructor
  · rintro ⟨-, -, -, hifindex⟩
    cases oif with
    | none => exact (Option.not_isSome_iff_eq_none.mp (Bool.eq_false_iff.mp hsome.symm)).symm
    | some i =>
      obtain ⟨i', rfl⟩ := Option.isSome_iff_exists.mp hsome.symm
      exact congrArg some hifindex
  · rintro rfl
    exact ⟨rfl, rfl, rfl, rfl⟩

theorem hopRecs_inj {sys : Sys} {lookup lookup' : Str → Option (BitVec 32)} {n t : ℕ}
    {nhs : List NextHop} (h : ∀ nh ∈ nhs, ¬ Refused lookup nh)
    (h' : ∀ nh ∈ nhs, ¬ Refused lookup' nh) :
    hopRecs sys lookup n t nhs = hopRecs sys lookup' n t nhs ↔
      ∀ nh ∈ nhs, outIf lookup nh = outIf lookup' nh := by
  induction nhs generalizing t with
  | nil => exact iff_of_true rfl nofun
  | cons nh nhs ih =>
    obtain ⟨hnh, hnhs⟩ := List.forall_mem_cons.mp h
    obtain ⟨hnh', hnhs'⟩ := List.forall_mem_cons.mp h'
    obtain ⟨r, hr, -⟩ := hopRec_some sys n t hnh
    obtain ⟨r', hr', -⟩ := hopRec_some sys n t hnh'
    have hhead := hopRec_inj sys (n := n) (t := t) hnh hnh'
    rw [hr, hr', Option.some_inj] at hhead
    rw [hopRecs, hopRecs, hr, hr', Option.toList_some, Option.toList_some, List.singleton_append,
      List.singleton_append, List.cons.injEq, hhead, ih hnhs hnhs', List.forall_mem_cons]

/-- The gateways have no padding. -/
theorem hopRecs_packed {sys : Sys} {lookup : Str → Option (BitVec 32)} {n t : ℕ} (hn : 4 ∣ n)
    {nhs : List NextHop} :
    ∀ r ∈ hopRecs sys lookup n t nhs, ∀ gw ∈ r.gateway, 4 ∣ gw.length := by
  induction nhs generalizing t with
  | nil => nofun
  | cons nh nhs ih =>
    intro r hr gw hgw
    rw [hopRecs, List.mem_append, Option.mem_toList] at hr
    rcases hr with hr | hr
    · rw [hopRec] at hr
      split at hr
      case h_2 => cases hr
      obtain rfl := Option.some_inj.mp hr
      dsimp only at hgw
      split_ifs at hgw
      · obtain rfl := Option.some_inj.mp hgw
        rwa [AttrBin.length_read]
      · cases hgw
    · exact ih r hr gw hgw

/-- Two messages with several next hops are the same when the next hops are. -/
theorem Started.sameMsg_multipath_iff {d : RouteData} {m m' : RouteMsg} (h : Started d m)
    (h' : Started d m') (nhs : List NextHop) {mem mem' : Memory} {recs recs' : List HopRec}
    (htail : Tail bufLen mem (36 + d.addrLen + hopsSize recs))
    (htail' : Tail bufLen mem' (36 + d.addrLen + hopsSize recs'))
    (hwritten : MultipathWritten mem recs ((32 + d.addrLen : ℕ) : ℤ))
    (hwritten' : MultipathWritten mem' recs' ((32 + d.addrLen : ℕ) : ℤ))
    (hframe : Agree 4 ((32 + d.addrLen : ℕ) : ℤ) m.mem mem)
    (hframe' : Agree 4 ((32 + d.addrLen : ℕ) : ℤ) m'.mem mem')
    (hsize : hopsSize recs = hopsSize recs')
    (hdvd : ∀ r ∈ recs, ∀ gw ∈ r.gateway, 4 ∣ gw.length) :
    SameMsg { afterLoop nhs m with mem } { afterLoop nhs m' with mem := mem' } ↔
      recs = recs' := by
  have hpad : padded (4 + d.addrLen) = 4 + d.addrLen := (padded_addrLen _).1
  have hdst : Agree 28 ((32 + d.addrLen : ℕ) : ℤ) m.mem m'.mem := by
    have hn := d.addrLen_cases
    refine (flat_agree h.dst h'.dst ?_).mono le_rfl ?_
    · intro a ha
      rw [List.mem_singleton.mp ha, AttrBin.length_read]
      omega
    · rw [flat, Attrs.size, AttrBin.length_read, hpad, flat, Attrs.size]
      push_cast
      omega
  have hhead : Agree 28 ((32 + d.addrLen : ℕ) : ℤ) mem mem' := by
    intro a hlo hhi
    rw [hframe' a (by omega) hhi, hframe a (by omega) hhi, hdst a hlo hhi]
  have hiff := hwritten.agree_iff hwritten' hsize hdvd
  have hrm : (afterLoop nhs m').rm = (afterLoop nhs m).rm := by
    unfold afterLoop
    split_ifs
    · rw [h.rm, h'.rm]
    · rw [setScope, setScope, h.rm, h'.rm]
  have htype : (afterLoop nhs m').nlmsgType = (afterLoop nhs m).nlmsgType := by
    unfold afterLoop
    split_ifs <;> exact h'.type.trans h.type.symm
  have hflags : (afterLoop nhs m').nlmsgFlags = (afterLoop nhs m).nlmsgFlags := by
    unfold afterLoop
    split_ifs <;> exact h'.flags.trans h.flags.symm
  constructor
  · rintro ⟨-, -, -, -, hattrs⟩
    dsimp only at hattrs
    rw [htail.len] at hattrs
    push_cast at hattrs hiff
    exact hiff.mp (hattrs.mono (by omega) (by omega))
  · intro heq
    refine ⟨htype, hflags, hrm, ?_, ?_⟩
    · exact BitVec.eq_of_toNat_eq (htail'.len.trans (hsize ▸ htail.len.symm))
    · rw [htail.len]
      push_cast at hhead hiff ⊢
      exact hhead.append ((hiff.mpr heq).mono le_rfl (by omega))

/-! ## The two functions -/

/-- The scope that a route without gateway gets from the copy. -/
def copyScope (nh : NextHop) : BitVec 8 :=
  if nh.ifindex.isSome then rtScopeLink else rtScopeNowhere

theorem Started.copyScope {d : RouteData} {m : RouteMsg} (h : Started d m) (nh : NextHop) :
    nexthopLink nh m = setScope (Route.copyScope nh) m := by
  rw [nexthopLink, Route.copyScope]
  split_ifs
  · rfl
  · have hscope : m.rm.scope = rtScopeNowhere := by rw [h.rm]; rfl
    rw [← hscope]
    rfl

/-- The copy sets the scope unless the interface has a name only. -/
theorem copyScope_iff {lookup : Str → Option (BitVec 32)} {nh : NextHop}
    {oif : Option (BitVec 32)} (h : outIf lookup nh = some oif) :
    (oif = none ∨ copyScope nh = rtScopeLink) ↔ nh.ifindex ≠ none ∨ nh.ifname = none := by
  rw [copyScope]
  obtain ⟨name, hidx, hname, hout⟩ | ⟨hnot, hout⟩ := outIf_cases nh
  · rw [hout] at h
    obtain ⟨i, -, rfl⟩ := Option.map_eq_some_iff.mp h
    rw [hidx, hname]
    refine iff_of_false ?_ ?_
    · rintro (hnone | hscope)
      · cases hnone
      · exact absurd hscope (by decide)
    · rintro (hidx' | hname')
      · exact hidx' rfl
      · cases hname'
  · rw [hout] at h
    obtain rfl := Option.some_inj.mp h
    refine iff_of_true ?_ hnot
    cases nh.ifindex with
    | none => exact Or.inl rfl
    | some i => exact Or.inr rfl

/-- The branch for one next hop in both functions. -/
theorem Started.single_alike_iff {d : RouteData} {m m' : RouteMsg} (h : Started d m)
    (h' : Started d m') (sys : Sys) (nh : NextHop) :
    Alike (singleNexthop sys (routeIfIndex sys d.vrfName) (routeLink .del) nh m)
        (singleNexthop sys (nexthopIfIndex sys) nexthopLink nh m') ↔
      outIf (nexthopIfIndex sys) nh = none ∨
        SameIndex sys d.vrfName nh ∧ (nh.addr ≠ none ∨ nh.ifindex ≠ none ∨ nh.ifname = none) := by
  rw [← outIf_eq_iff]
  cases hoif : outIf (routeIfIndex sys d.vrfName) nh with
  | none =>
    rw [singleNexthop, hoif, singleNexthop]
    cases hoif' : outIf (nexthopIfIndex sys) nh with
    | none => exact iff_of_true rfl (Or.inl rfl)
    | some oif' => exact iff_of_false id nofun
  | some oif =>
    obtain ⟨oif', hoif'⟩ := Option.ne_none_iff_exists'.mp
      (outIf_nexthop_ne_none (hoif ▸ Option.some_ne_none oif))
    have hlink : routeLink .del nh m = setScope rtScopeLink m := by
      rw [routeLink, h.rm]
      rfl
    have hlink' := h'.copyScope nh
    rw [singleNexthop_ok hlink hoif, singleNexthop_ok hlink' hoif', hoif']
    refine (h.sameMsg_single_iff h' sys _ _ nh (outIf_isSome_eq hoif hoif')).trans ?_
    rw [copyScope_iff hoif, Option.some_inj]
    exact ⟨Or.inr, fun hor => hor.resolve_left (Option.some_ne_none oif')⟩

/-- The branch for several next hops in both functions. -/
theorem Started.multipath_alike_iff {d : RouteData} {m m' : RouteMsg} (h : Started d m)
    (h' : Started d m') (sys : Sys) (nhs : List NextHop) :
    Alike (multipath sys (routeIfIndex sys d.vrfName) nhs m)
        (multipath sys (nexthopIfIndex sys) nhs m') ↔
      (∃ nh ∈ fitting d.addrLen (36 + d.addrLen) nhs, Refused (nexthopIfIndex sys) nh) ∨
      fitting d.addrLen (36 + d.addrLen) nhs = nhs ∧ (∀ nh ∈ nhs, SameIndex sys d.vrfName nh) ∨
      fitting d.addrLen (36 + d.addrLen) nhs ≠ nhs ∧
        ∀ nh ∈ fitting d.addrLen (36 + d.addrLen) nhs,
          ¬ Refused (routeIfIndex sys d.vrfName) nh := by
  have hn : d.addrLen = Route.addrLen m.rm.family := by rw [h.rm]; rfl
  have hn' : d.addrLen = Route.addrLen m'.rm.family := by rw [h'.rm]; rfl
  have hcases := d.addrLen_cases
  have hbuf : bufLen.toNat = 8192 := rfl
  have hstart : 32 + d.addrLen + 4 = 36 + d.addrLen := by omega
  have hspec := multipath_spec sys (routeIfIndex sys d.vrfName) nhs hn h.tail (by omega) (by omega)
  have hspec' := multipath_spec sys (nexthopIfIndex sys) nhs hn' h'.tail (by omega) (by omega)
  rw [hstart] at hspec hspec'
  -- what the copy refuses the function refuses too, and both run out of room alike
  obtain ⟨href', herr'⟩ | ⟨hnone', hfull, herr'⟩ |
    ⟨hnone', hfit, mem', hok', htail', hwritten', hframe'⟩ := hspec'
  · obtain ⟨nh, hnh, href⟩ := href'
    obtain ⟨-, herr⟩ | ⟨hnone, -⟩ | ⟨hnone, hfit, -⟩ := hspec
    · rw [herr, herr']
      exact iff_of_true rfl (Or.inl ⟨nh, hnh, href⟩)
    · exact absurd href.route (hnone nh hnh)
    · exact absurd href.route (hnone nh (hfit ▸ hnh))
  · have hcopy : ¬ ∃ nh ∈ fitting d.addrLen (36 + d.addrLen) nhs,
        Refused (nexthopIfIndex sys) nh := by
      rintro ⟨nh, hnh, href⟩
      exact hnone' nh hnh href
    obtain ⟨⟨nh, hnh, href⟩, herr⟩ | ⟨hnone, -, herr⟩ | ⟨-, hfit, -⟩ := hspec
    · rw [herr, herr']
      refine iff_of_false nofun ?_
      rintro (hrefused | ⟨hfit, -⟩ | ⟨-, hnone⟩)
      · exact hcopy hrefused
      · exact hfull hfit
      · exact hnone nh hnh href
    · rw [herr, herr']
      exact iff_of_true rfl (Or.inr (Or.inr ⟨hfull, hnone⟩))
    · exact absurd hfit hfull
  · rw [hfit]
    have hcopy : ¬ ∃ nh ∈ nhs, Refused (nexthopIfIndex sys) nh := by
      rintro ⟨nh, hnh, href⟩
      exact hnone' nh hnh href
    rw [hfit] at hspec
    have hsame : (∀ nh ∈ nhs, SameIndex sys d.vrfName nh) ↔
        ∀ nh ∈ nhs, outIf (routeIfIndex sys d.vrfName) nh = outIf (nexthopIfIndex sys) nh :=
      forall₂_congr fun nh _ => (outIf_eq_iff sys d.vrfName nh).symm
    rw [hsame]
    obtain ⟨⟨nh, hnh, href⟩, herr⟩ | ⟨-, hfull, -⟩ |
      ⟨hnone, -, mem, hok, htail, hwritten, hframe⟩ := hspec
    · rw [herr, hok']
      refine iff_of_false id ?_
      rintro (hrefused | ⟨-, hall⟩ | ⟨hfull, -⟩)
      · exact hcopy hrefused
      · -- the copy finds the interface of this next hop, and it is the same
        rw [Refused, hall nh hnh] at href
        exact hnone' nh hnh href
      · exact hfull rfl
    · exact absurd rfl hfull
    · rw [hok, hok']
      have hdvd : 4 ∣ d.addrLen := by omega
      refine (h.sameMsg_multipath_iff h' nhs htail htail' hwritten hwritten' hframe hframe'
        (hopRecs_size hnone hnone') (hopRecs_packed hdvd)).trans ?_
      rw [hopRecs_inj hnone hnone']
      refine ⟨fun hall => Or.inr (Or.inl ⟨rfl, hall⟩), ?_⟩
      rintro (hrefused | ⟨-, hall⟩ | ⟨hfull, -⟩)
      · exact absurd hrefused hcopy
      · exact hall
      · exact absurd rfl hfull

/-- When the two functions do the same.  With one next hop, its interface is
unknown to both, or has the same index in the system and does not decide the
scope by its name.  With several, those that there is room for count. -/
def InStep (sys : Sys) (d : RouteData) : Prop :=
  match d.nhs with
  | [] => True
  | [nh] =>
    outIf (nexthopIfIndex sys) nh = none ∨
      SameIndex sys d.vrfName nh ∧ (nh.addr ≠ none ∨ nh.ifindex ≠ none ∨ nh.ifname = none)
  | nhs =>
    (∃ nh ∈ fitting d.addrLen (36 + d.addrLen) nhs, Refused (nexthopIfIndex sys) nh) ∨
    fitting d.addrLen (36 + d.addrLen) nhs = nhs ∧ (∀ nh ∈ nhs, SameIndex sys d.vrfName nh) ∨
    fitting d.addrLen (36 + d.addrLen) nhs ≠ nhs ∧
      ∀ nh ∈ fitting d.addrLen (36 + d.addrLen) nhs, ¬ Refused (routeIfIndex sys d.vrfName) nh

/-- A delete operation on next hops is the delete of the route with them
exactly when the two functions are in step.  The buffers are what earlier
messages left. -/
theorem delete_alike_iff (sys : Sys) (left left' : Memory) (d : RouteData)
    (hleaked : leaked sys d.vrfName d.nhVrfName = false) (hnhs : d.nhs ≠ [])
    (hlen : d.nhs.length < 2 ^ 32) :
    Alike (nasOsUpdateRoute sys left .del d.obj) (nasOsUpdateRouteNexthop sys left' d.operation) ↔
      InStep sys d := by
  obtain ⟨m, hstart, hm⟩ := d.started left
  obtain ⟨m', hstart', hm'⟩ := d.started left'
  have htype : rtmType .del = rtmDelroute := rfl
  have hmap := d.map_nhList
  rw [RouteData.obj_eq sys left .del hleaked hlen, RouteData.operation_eq sys left' hleaked hlen,
    htype, hstart, hstart']
  change Alike (addNexthops sys _ _ _ _ m) (addNexthops sys _ _ _ _ m') ↔ _
  rw [InStep, addNexthops, addNexthops, hmap]
  cases hlist : d.nhs with
  | nil => exact absurd hlist hnhs
  | cons nh rest =>
    cases rest with
    | nil =>
      have hone : d.nhList 0 = nh := by rw [RouteData.nhList, hlist]; rfl
      rw [List.length_singleton, if_pos rfl, if_pos rfl, hone]
      exact hm.single_alike_iff hm' sys nh
    | cons nh₂ rest =>
      have hmany : (nh :: nh₂ :: rest).length > 1 := by
        rw [List.length_cons, List.length_cons]
        omega
      have hone := hmany.ne'
      rw [if_neg hone, if_neg hone, if_pos hmany, if_pos hmany]
      exact hm.multipath_alike_iff hm' sys (nh :: nh₂ :: rest)

/-- A system with a port and a management interface, whose index in the system
is another one. -/
def portAndMgmt : Sys where
  interfaceInfo name :=
    if name = "e1".toList then some ⟨false, 7⟩
    else if name = "m0".toList then some ⟨true, 9⟩ else none
  osIfIndex _ name := if name = "m0".toList then some 2 else none
  defaultVrfName := []
  vrfNameSz := 32
  nhFlagsOnlink := 1

/-- A route with these next hops. -/
def routeOver (nhs : List NextHop) : RouteData where
  vrfName := none
  routePrefix := fun _ => 10
  af := 2
  prefixLen := 8
  nhVrfName := none
  nhs := nhs

theorem delete_alike_small :
    Alike
      (nasOsUpdateRoute portAndMgmt (fun _ => 0) .del
        (routeOver [⟨some fun _ => 1, none, none, some "e1".toList, none⟩]).obj)
      (nasOsUpdateRouteNexthop portAndMgmt (fun _ => 1)
        (routeOver [⟨some fun _ => 1, none, none, some "e1".toList, none⟩]).operation) := by
  refine (delete_alike_iff portAndMgmt (fun _ => 0) (fun _ => 1) _ rfl
    (List.cons_ne_nil _ _) (by decide)).mpr ?_
  refine Or.inr ⟨fun _ name hname info hinfo hmgmt => ?_, Or.inl nofun⟩
  obtain rfl := Option.some_inj.mp hname
  obtain rfl := Option.some_inj.mp hinfo
  cases hmgmt

/-- The header and the attributes of a message. -/
def sent (m : RouteMsg) : RtMsg × Bytes :=
  (m.rm, (List.range ((load32 m.mem 0).toNat - 28)).map fun i : ℕ => m.mem (28 + i))

theorem Alike.sent {o o' : Except Stop RouteMsg} (h : Alike o o') :
    o'.toOption.map Route.sent = o.toOption.map Route.sent := by
  cases o with
  | error e =>
    cases o' with
    | error e' => rfl
    | ok m' => exact h.elim
  | ok m =>
    cases o' with
    | error e' => exact h.elim
    | ok m' =>
      have hsame : SameMsg m m' := h
      refine congrArg some (Prod.ext hsame.rm ?_)
      rw [Route.sent, Route.sent, hsame.len]
      refine List.map_congr_left fun i hi => ?_
      have hlt := List.mem_range.mp hi
      exact hsame.attrs _ (by omega) (by omega)

/-- The scope is lost when the interface of a route without gateway has a name,
and a management interface gets the index that the system does not know. -/
theorem delete_not_alike :
    ¬ Alike
        (nasOsUpdateRoute portAndMgmt (fun _ => 0) .del
          (routeOver [⟨none, none, none, some "e1".toList, none⟩]).obj)
        (nasOsUpdateRouteNexthop portAndMgmt (fun _ => 0)
          (routeOver [⟨none, none, none, some "e1".toList, none⟩]).operation) ∧
      ¬ Alike
        (nasOsUpdateRoute portAndMgmt (fun _ => 0) .del
          (routeOver [⟨some fun _ => 1, none, none, some "m0".toList, none⟩]).obj)
        (nasOsUpdateRouteNexthop portAndMgmt (fun _ => 0)
          (routeOver [⟨some fun _ => 1, none, none, some "m0".toList, none⟩]).operation) := by
  constructor
  · intro h
    exact absurd h.sent (by decide +kernel)
  · intro h
    exact absurd h.sent (by decide +kernel)

end OpxNasLinux.Route
