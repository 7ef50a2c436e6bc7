import OpxNasLinux.RouteHops

/-!
# Reading the next hops of a multipath route

When the kernel reports a route, `nl_to_route_info` walks over the
`struct rtnexthop`s in its `RTA_MULTIPATH` attribute.

* `Hops` is the loop.
* `HopsWritten.walk` is what it reads of next hops in the buffer.
* `multipath_read_back` is the loop at a message that was built.
-/

namespace OpxNasLinux.Route

open NlMsg ByteStore

/-! ## The code that reads -/

/-- `RTNH_OK`. -/
def rtnhOk (mem : Memory) (c : Cursor) : Bool :=
  decide (8 ≤ (load16 mem c.pos).toNat) &&
    decide (((load16 mem c.pos).toNat : ℤ) ≤ c.rem.toInt)

/-- `rtnh_next`. -/
def rtnhNext (mem : Memory) (c : Cursor) : Cursor :=
  let totlen := align ((load16 mem c.pos).setWidth 32)
  ⟨c.pos + totlen.toInt, c.rem - totlen⟩

/-- The loop variables of `nhrt_parse`. -/
def rtnhAttrs (mem : Memory) (p : ℤ) : Cursor := ⟨p + 8, (load16 mem p).setWidth 32 - 8#32⟩

/-- What `nl_to_route_info` adds to the object for a next hop. -/
structure HopInfo where
  ifindex : BitVec 32
  weight : BitVec 32
  flags : Option (BitVec 32)
  nhAddr : Option Bytes
deriving DecidableEq

/-- The body of the loop. -/
def hopInfo (mem : Memory) (p : ℤ) (gateway : Option ℤ) : HopInfo where
  ifindex := load32 mem (p + 4)
  weight := (mem (p + 3)).toBitVec.setWidth 32
  flags := if (mem (p + 2)).toBitVec = rtnhFOnlink.setWidth 8 then some rtnhFOnlink else none
  nhAddr := gateway.map fun q =>
    (List.range (nlaDataLen mem q).toNat).map fun i : ℕ => mem (nlaData q + i)

/-- The loop over the next hops.  `maxType` is the size of the table. -/
inductive Hops (maxType : ℕ) (mem : Memory) : Cursor → List HopInfo → Prop where
  | stop {c : Cursor} : rtnhOk mem c = false → Hops maxType mem c []
  | turn {c : Cursor} {ps : List ℤ} {hops : List HopInfo} :
      rtnhOk mem c = true → Visits mem (rtnhAttrs mem c.pos) ps →
        Hops maxType mem (rtnhNext mem c) hops →
        Hops maxType mem c (hopInfo mem c.pos (nlaParse mem maxType ps rtaGateway) :: hops)

/-! ## The loop that reads them -/

/-- What is read of a next hop. -/
def HopRec.info (r : HopRec) : HopInfo where
  ifindex := r.ifindex
  weight := r.hops.toBitVec.setWidth 32
  flags := if r.flags.toBitVec = rtnhFOnlink.setWidth 8 then some rtnhFOnlink else none
  nhAddr := r.gateway

theorem HopRec.attrs_valid {r : HopRec} (hsize : r.size < 2 ^ 31) : r.attrs.Valid := by
  rw [HopRec.size] at hsize
  unfold HopRec.attrs at hsize ⊢
  cases hgw : r.gateway with
  | none => trivial
  | some gw =>
    rw [hgw] at hsize
    have hpad := le_padded (4 + gw.length)
    dsimp only at hsize
    rw [Attrs.size] at hsize
    exact ⟨by decide, by omega, trivial⟩

/-- The body of the loop at a next hop in the buffer. -/
theorem HopRec.Written.read {mem : Memory} {r : HopRec} {p : ℤ} (h : r.Written mem p)
    (hsize : r.size < 2 ^ 31) {maxType : ℕ} (hmax : rtaGateway < maxType) :
    ∃ ps, Visits mem (rtnhAttrs mem p) ps ∧
      hopInfo mem p (nlaParse mem maxType ps rtaGateway) = r.info := by
  have hle : r.size = 8 + r.attrs.size := rfl
  obtain ⟨ps, hwalk, hvis⟩ := h.attrs.walk (HopRec.attrs_valid hsize) (by omega)
  have hcursor : rtnhAttrs mem p = ⟨p + 8, BitVec.ofNat 32 r.attrs.size⟩ := by
    rw [rtnhAttrs, Cursor.mk.injEq]
    refine ⟨rfl, ?_⟩
    apply BitVec.eq_of_toNat_eq
    rw [BitVec.toNat_sub, BitVec.toNat_setWidth, h.len, BitVec.toNat_ofNat, BitVec.toNat_ofNat]
    omega
  refine ⟨ps, hcursor ▸ hwalk, ?_⟩
  have hgw : (nlaParse mem maxType ps rtaGateway).map (fun q =>
      (List.range (nlaDataLen mem q).toNat).map fun i : ℕ => mem (nlaData q + i)) = r.gateway := by
    rw [hvis.parse hmax]
    unfold HopRec.attrs at hvis hle ⊢
    cases hgw : r.gateway with
    | none =>
      rw [hgw] at hvis
      obtain rfl : ps = [] := hvis
      rfl
    | some gw =>
      rw [hgw] at hvis hle
      obtain ⟨q, ps', rfl, -, hlen, hdata, hnil⟩ := hvis
      obtain rfl : ps' = [] := hnil
      have hpad := le_padded (4 + gw.length)
      have hnat : (nlaDataLen mem q).toNat = gw.length := by
        dsimp only at hle
        rw [Attrs.size] at hle
        rw [BitVec.toInt_eq_toNat_cond] at hlen
        split at hlen <;> omega
      have hlast : (Attrs.attr rtaGateway gw .nil).last rtaGateway [q] = some q := by
        rw [Attrs.last, Attrs.types]
        rfl
      rw [hlast, Option.map_some, hnat, Option.some_inj]
      refine List.ext_getElem (by rw [List.length_map, List.length_range]) fun i hi hi' => ?_
      rw [List.getElem_map, List.getElem_range]
      exact hdata i hi'
  rw [hopInfo, HopRec.info, h.ifindex, h.hops, h.flags, hgw]

/-- A turn of the loop goes from a next hop to the one after it. -/
theorem HopRec.Written.next {mem : Memory} {r : HopRec} {p : ℤ} (h : r.Written mem p) {n : ℕ}
    (hn : n < 2 ^ 31) (hle : r.size ≤ n) :
    rtnhOk mem ⟨p, BitVec.ofNat 32 n⟩ = true ∧
      rtnhNext mem ⟨p, BitVec.ofNat 32 n⟩ = ⟨p + r.size, BitVec.ofNat 32 (n - r.size)⟩ := by
  have hlen := h.len
  have hlt := (load16 mem p).isLt
  have hmin : 8 ≤ r.size := Nat.le_add_right 8 _
  have hwide : ((load16 mem p).setWidth 32).toNat = r.size := by
    rw [BitVec.toNat_setWidth, hlen]
    omega
  have hpad : padded r.size = r.size := padded_of_four_dvd r.four_dvd_size
  constructor
  · rw [rtnhOk, Bool.and_eq_true, decide_eq_true_iff, decide_eq_true_iff, hlen, toInt_ofNat hn]
    omega
  · have hnat : (align ((load16 mem p).setWidth 32)).toNat = r.size := by
      rw [align_toNat (by omega), hwide, hpad]
    have hint : (align ((load16 mem p).setWidth 32)).toInt = (r.size : ℤ) := by
      rw [align_toInt (by omega), hwide, hpad]
    rw [rtnhNext, hint, Cursor.mk.injEq]
    refine ⟨rfl, ?_⟩
    apply BitVec.eq_of_toNat_eq
    rw [BitVec.toNat_sub, hnat, BitVec.toNat_ofNat, BitVec.toNat_ofNat]
    omega

/-- The loop reads the next hops in the buffer, in order. -/
theorem HopsWritten.walk {mem : Memory} {recs : List HopRec} {p : ℤ} (h : HopsWritten mem recs p)
    (hsize : hopsSize recs < 2 ^ 31) {maxType : ℕ} (hmax : rtaGateway < maxType) :
    Hops maxType mem ⟨p, BitVec.ofNat 32 (hopsSize recs)⟩ (recs.map HopRec.info) := by
  induction recs generalizing p with
  | nil =>
    refine .stop ?_
    rw [rtnhOk, Bool.and_eq_false_iff]
    by_cases hlen : 8 ≤ (load16 mem p).toNat
    · refine Or.inr (decide_eq_false ?_)
      show ¬ ((load16 mem p).toNat : ℤ) ≤ 0
      omega
    · exact Or.inl (decide_eq_false hlen)
  | cons r recs ih =>
    obtain ⟨hr, hrest⟩ := h
    rw [hopsSize_cons] at hsize ⊢
    obtain ⟨hok, hnext⟩ := hr.next hsize (Nat.le_add_right _ _)
    obtain ⟨ps, hwalk, hinfo⟩ := hr.read (by omega) hmax
    rw [Nat.add_sub_cancel_left] at hnext
    have hturn := Hops.turn hok hwalk (hnext ▸ ih hrest (by omega))
    rw [List.map_cons, ← hinfo]
    exact hturn

/-! ## The round trip -/

/-- What is to be read of a next hop with a gateway and without a name. -/
def NextHop.info (sys : Sys) (n : ℕ) (nh : NextHop) : HopInfo where
  ifindex := nh.ifindex.getD 0
  weight := nh.weight.getD 0
  flags := if nh.flags = some sys.nhFlagsOnlink then some rtnhFOnlink else none
  nhAddr := nh.addr.map fun gw => gw.read n

/-- A next hop with a gateway and perhaps an interface index, and a weight of a
byte. -/
structure NextHop.Plain (nh : NextHop) : Prop where
  addr : nh.addr ≠ none
  ifname : nh.ifname = none
  weight : ∀ w, nh.weight = some w → w.toNat ≤ 255

theorem NextHop.Plain.not_refused {nh : NextHop} (h : nh.Plain)
    (lookup : Str → Option (BitVec 32)) : ¬ Refused lookup nh := by
  rw [Refused, not_or]
  refine ⟨h.addr, ?_⟩
  rw [outIf, h.ifname]
  cases nh.ifindex with
  | none => exact Option.some_ne_none none
  | some i => exact Option.some_ne_none (some i)

/-- A next hop is read back as it was. -/
theorem NextHop.Plain.hopRec (sys : Sys) (lookup : Str → Option (BitVec 32)) {n t : ℕ}
    {nh : NextHop} (h : nh.Plain) (hroom : t + 8 + padded (4 + n) ≤ bufLen.toNat) :
    ∃ r, Route.hopRec sys lookup n t nh = some r ∧ r.info = nh.info sys n := by
  obtain ⟨gw, hgw⟩ := Option.ne_none_iff_exists'.mp h.addr
  have hoif : outIf lookup nh = some nh.ifindex := by
    rw [outIf, h.ifname]
    cases nh.ifindex <;> rfl
  have hweight : ((nh.weight.map fun w => (⟨w.setWidth 8⟩ : UInt8)).getD 0).toBitVec.setWidth 32 =
      nh.weight.getD 0 := by
    cases hw : nh.weight with
    | none => rfl
    | some w =>
      have hle := h.weight w hw
      apply BitVec.eq_of_toNat_eq
      rw [Option.map_some, Option.getD_some, Option.getD_some, BitVec.toNat_setWidth,
        BitVec.toNat_setWidth]
      omega
  rw [Route.hopRec, hgw, hoif]
  refine ⟨_, rfl, ?_⟩
  rw [HopRec.info, NextHop.info, hweight, if_pos hroom, hgw]
  by_cases hflags : nh.flags = some sys.nhFlagsOnlink
  · rw [if_pos hflags, if_pos hflags]
    rfl
  · rw [if_neg hflags, if_neg hflags]
    rfl

/-- The next hops of a list are read back as they were. -/
theorem hopRecs_info (sys : Sys) (lookup : Str → Option (BitVec 32)) {n t : ℕ}
    {nhs : List NextHop} (h : ∀ nh ∈ nhs, nh.Plain) (hpad : padded (4 + n) = 4 + n)
    (hroom : t + nhs.length * (12 + n) ≤ bufLen.toNat) :
    (hopRecs sys lookup n t nhs).map HopRec.info = nhs.map (NextHop.info sys n) := by
  induction nhs generalizing t with
  | nil => rfl
  | cons nh nhs ih =>
    rw [List.length_cons, Nat.succ_mul] at hroom
    have hfit : t + 8 + padded (4 + n) ≤ bufLen.toNat := by omega
    obtain ⟨r, hr, hinfo⟩ := (h nh List.mem_cons_self).hopRec sys lookup hfit
    have hafter : afterHop n t = t + (12 + n) := by
      rw [afterHop, hpad, if_pos (by omega)]
      omega
    have hrest := ih (fun nh' hnh' => h nh' (List.mem_cons_of_mem _ hnh')) (t := t + (12 + n))
      (by omega)
    rw [hopRecs, hr, hafter, List.map_append, hrest, Option.toList_some, List.map_singleton, hinfo,
      List.map_cons]
    rfl

/-- The attributes of a message whose next hops were added. -/
theorem MultipathWritten.walk {mem : Memory} {routePrefix : Bytes} {recs : List HopRec} {n : ℕ}
    (hn : routePrefix.length = n) (hpad : padded (4 + n) = 4 + n)
    (htail : Tail bufLen mem (32 + n + 4 + hopsSize recs))
    (hdst : (Attrs.attr rtaDst routePrefix .nil).Written mem 28)
    (h : MultipathWritten mem recs ((32 + n : ℕ) : ℤ)) :
    Visits mem (attrCursor mem 12#32) [28, ((32 + n : ℕ) : ℤ)] ∧
      ∀ rtaMax, rtaMultipath < rtaMax →
        nlaParse mem rtaMax [28, ((32 + n : ℕ) : ℤ)] rtaMultipath = some ((32 + n : ℕ) : ℤ) := by
  obtain ⟨hlen, htype, -⟩ := hdst
  have hfits := htail.fits
  have hbuf := bufLen_le
  have hdvd := four_dvd_hopsSize recs
  have hcursor : attrCursor mem 12#32 = ⟨28, BitVec.ofNat 32 (8 + n + hopsSize recs)⟩ := by
    rw [attrCursor, Cursor.mk.injEq]
    refine ⟨rfl, ?_⟩
    have halign : (align 12#32).toNat = 12 := rfl
    apply BitVec.eq_of_toNat_eq
    rw [BitVec.toNat_sub, BitVec.toNat_sub, htail.len, halign, BitVec.toNat_ofNat,
      BitVec.toNat_ofNat]
    omega
  rw [hn] at hlen
  have hpad' : padded (4 + hopsSize recs) = 4 + hopsSize recs :=
    padded_of_four_dvd (Nat.dvd_add (Nat.dvd_refl 4) hdvd)
  have hrem : 8 + n + hopsSize recs - (4 + n) = 4 + hopsSize recs := by omega
  have hpos : (28 : ℤ) + (4 + n : ℕ) = (32 + n : ℕ) := by push_cast; omega
  obtain ⟨hok₁, hnext₁⟩ := nlaOk_of_fits (n := 8 + n + hopsSize recs) (by omega) hlen (by omega)
    (by rw [hpad]; omega)
  rw [hpad, hrem, hpos] at hnext₁
  obtain ⟨hok₂, hnext₂⟩ := nlaOk_of_fits (n := 4 + hopsSize recs) (by omega) h.len (by omega)
    hpad'.le
  rw [hpad', Nat.sub_self] at hnext₂
  constructor
  · rw [hcursor]
    refine .turn hok₁ (hnext₁ ▸ .turn hok₂ (hnext₂ ▸ .stop rfl))
  · intro rtaMax hmax
    have hty₁ : nlaType mem 28 = rtaDst := nlaType_eq (by decide) htype
    have hty₂ : nlaType mem ((32 + n : ℕ) : ℤ) = rtaMultipath := nlaType_eq (by decide) h.type
    rw [nlaParse_eq mem hmax, List.filter_cons_of_neg (by rw [hty₁]; decide),
      List.filter_cons_of_pos (by rw [hty₂]; decide)]
    rfl

/-- A multipath route is read back: the next hops of the message are those of
the object, in order.  `rtaMax` and `iflaMax` are the sizes of the tables. -/
theorem multipath_read_back (sys : Sys) (left : Memory) (mType : MsgType) (d : RouteData)
    (rtaMax iflaMax : ℕ) (hrta : rtaMultipath < rtaMax) (hifla : rtaGateway < iflaMax)
    (hleaked : leaked sys d.vrfName d.nhVrfName = false) (hnhs : 2 ≤ d.nhs.length)
    (hplain : ∀ nh ∈ d.nhs, nh.Plain)
    (hfits : 36 + d.addrLen + d.nhs.length * (12 + d.addrLen) ≤ bufLen.toNat) :
    ∃ m, nasOsUpdateRoute sys left mType d.obj = .ok m ∧
      ∃ ps attr, Visits m.mem (attrCursor m.mem 12#32) ps ∧
        nlaParse m.mem rtaMax ps rtaMultipath = some attr ∧
        Hops iflaMax m.mem (embedded m.mem attr) (d.nhs.map (NextHop.info sys d.addrLen)) := by
  have hbuf : bufLen.toNat = 8192 := rfl
  have hlt : d.nhs.length < 2 ^ 32 := by
    have := Nat.le_mul_of_pos_right d.nhs.length (show 0 < 12 + d.addrLen by omega)
    omega
  obtain ⟨hpad, hle⟩ : padded (4 + d.addrLen) = 4 + d.addrLen ∧ d.addrLen ≤ 16 :=
    padded_addrLen _
  obtain ⟨m, hstart, -, -, hrm, htail, hdst⟩ := startRoute_ok (rtmType mType)
    (nasOsGetNlFlags mType) (d.header (rtmType mType)) d.routePrefix left
  have hn : d.addrLen = Route.addrLen m.rm.family := by rw [hrm]; rfl
  have htail' : Tail bufLen m.mem (32 + d.addrLen) := htail
  have hroom : 32 + d.addrLen + 4 + d.nhs.length * (12 + d.addrLen) ≤ bufLen.toNat := by omega
  have hfitting := fitting_eq hpad hroom
  have hnone : ∀ nh ∈ d.nhs, ¬ Refused (routeIfIndex sys d.vrfName) nh :=
    fun nh hnh => (hplain nh hnh).not_refused _
  obtain ⟨⟨nh, hnh, href⟩, -⟩ | ⟨-, hfull, -⟩ | ⟨-, -, mem', hok, htail₂, hwritten, hframe⟩ :=
    multipath_spec sys (routeIfIndex sys d.vrfName) d.nhs hn htail' (by omega) (by omega)
  · exact absurd href (hnone nh (hfitting ▸ hnh))
  · exact absurd hfitting hfull
  · have hrecs := hopRecs_info sys (routeIfIndex sys d.vrfName) hplain hpad hroom
    have hread : (d.routePrefix.read d.addrLen).length = d.addrLen := AttrBin.length_read _ _
    have hdst' : (Attrs.attr rtaDst (d.routePrefix.read d.addrLen) .nil).Written mem' 28 := by
      refine Attrs.Written.agree hdst (hframe.mono (by decide) ?_)
      rw [Attrs.size, AttrBin.length_read, Attrs.size]
      rw [hpad]
      omega
    obtain ⟨hwalk, hparse⟩ := hwritten.walk hread hpad htail₂ hdst'
    refine ⟨{ afterLoop d.nhs m with mem := mem' }, ?_, _, _, hwalk, hparse rtaMax hrta, ?_⟩
    · rw [RouteData.obj_eq sys left mType hleaked hlt, hstart]
      change addNexthops sys _ _ _ _ m = _
      rw [addNexthops, if_neg (by omega), if_pos (by omega), d.map_nhList, hok]
    · have hhops := hwritten.hops.walk (by have := htail₂.fits; omega) hifla
      rw [hrecs] at hhops
      rw [embedded, nlaData, nlaDataLen_eq hwritten.len]
      exact hhops

/-- A route over two gateways, one of them on the link. -/
def twoHops : RouteData where
  vrfName := none
  routePrefix := fun _ => 10
  af := 2
  prefixLen := 8
  nhVrfName := none
  nhs :=
    [⟨some fun _ => 1, some 1, some 7, none, some 3⟩, ⟨some fun _ => 2, none, none, none, none⟩]

/-- A system without interfaces. -/
def noInterfaces : Sys where
  interfaceInfo := fun _ => none
  osIfIndex := fun _ _ => none
  defaultVrfName := []
  vrfNameSz := 32
  nhFlagsOnlink := 1

theorem multipath_read_back_small :
    ∃ m, nasOsUpdateRoute noInterfaces (fun _ => 0) .add twoHops.obj = .ok m ∧
      ∃ ps attr, Visits m.mem (attrCursor m.mem 12#32) ps ∧
        nlaParse m.mem 31 ps rtaMultipath = some attr ∧
        Hops 64 m.mem (embedded m.mem attr)
          [⟨7, 3, some rtnhFOnlink, some [1, 1, 1, 1]⟩, ⟨0, 0, none, some [2, 2, 2, 2]⟩] := by
  have hplain : ∀ nh ∈ twoHops.nhs, nh.Plain := by
    intro nh hnh
    rcases List.mem_pair.mp hnh with rfl | rfl
    · exact ⟨nofun, rfl, fun w hw => Option.some_inj.mp hw ▸ by decide⟩
    · exact ⟨nofun, rfl, nofun⟩
  have h := multipath_read_back noInterfaces (fun _ => 0) .add twoHops 31 64 (by decide)
    (by decide) rfl (by decide) hplain (by decide)
  exact h

end OpxNasLinux.Route
