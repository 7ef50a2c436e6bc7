import OpxNasLinux.RouteReadBack

/-!
# Route messages of the kernel

`nl_to_route_info` turns a route message into an object.  It leaves early for
the routes that are not for the hardware, with what is in the object by then.

* `visits` and `hopCursors` are the walks over attributes and next hops, as
  functions.
* `Info` is the object, and the tables of attributes that were filled.
* `nlToRouteInfo` is the function, in the steps of the source.
* `PassesChecks` are the checks before the loop over the next hops, and
  `nlToRouteInfo_left` and `nlToRouteInfo_reached` what the function does
  without and with them.
-/

namespace OpxNasLinux.RouteInfo

open NlMsg Netlink Route
open VrfIds (strncmpEq)

/-! ## The walks -/

/-- The attributes of a walk, in so many turns at most. -/
def visitsIn (mem : Memory) : ℕ → Cursor → List ℤ
  | 0, _ => []
  | turns + 1, c => if nlaOk mem c then c.pos :: visitsIn mem turns (nlaNext mem c) else []

/-- The attributes of a walk.  A turn lowers the count. -/
def visits (mem : Memory) (c : Cursor) : List ℤ := visitsIn mem c.rem.toInt.toNat c

/-- The next hops of a walk, in so many turns at most. -/
def hopsIn (mem : Memory) : ℕ → Cursor → List ℤ
  | 0, _ => []
  | turns + 1, c => if rtnhOk mem c then c.pos :: hopsIn mem turns (rtnhNext mem c) else []

/-- The next hops of a walk.  A turn lowers the count. -/
def hops (mem : Memory) (c : Cursor) : List ℤ := hopsIn mem c.rem.toInt.toNat c

/-! ## The object -/

inductive Oper where
  | create
  | set
  | delete
deriving DecidableEq

/-- The attributes that are added to the object. -/
inductive Attr where
  | vrfName (name : Str)
  | nhVrfName (name : Str)
  | vrfId (id : BitVec 32)
  | entryVrfId (id : BitVec 32)
  | af (family : UInt8)
  | protocol (protocol : UInt8)
  | routePrefix (addr : Bytes)
  | prefixLen (len : UInt8)
  | specialNextHop (type : UInt8)
  | nhAddr (hop : ℕ) (addr : Bytes)
  | nhIfindex (hop : ℕ) (ifindex : BitVec 32)
  | nhWeight (hop : ℕ) (weight : BitVec 32)
  | nhFlags (hop : ℕ) (flags : BitVec 32)
  /-- `BASE_ROUTE_OBJ_ENTRY_NH_LIST_IFINDEX` and the flags, outside of a list. -/
  | listIfindex (ifindex : BitVec 32)
  | listFlags (flags : BitVec 32)
  | nhCount (count : ℕ)
deriving DecidableEq

/-- A table of attributes: the length of the array, and the entries that
`nla_parse` writes. -/
structure Table where
  length : ℕ
  written : List ℕ
deriving DecidableEq

/-- Every entry is one of the array. -/
def Table.InBounds (t : Table) : Prop := ∀ i ∈ t.written, i < t.length

instance (t : Table) : Decidable t.InBounds :=
  inferInstanceAs (Decidable (∀ i ∈ t.written, i < t.length))

/-- The object, and the tables that were filled. -/
structure Info where
  attrs : List Attr
  /-- The key is set, with this operation. -/
  key : Option Oper
  tables : List Table
deriving DecidableEq

/-- A new object. -/
def Info.empty : Info := ⟨[], none, []⟩

/-! ## What the function is given -/

/-- The sizes of the tables. -/
structure Sizes where
  /-- `__RTA_MAX`. -/
  rtaMax : ℕ
  /-- `__IFLA_MAX`. -/
  iflaMax : ℕ
  multipath_lt : rtaMultipath < rtaMax
  rtaMax_lt : rtaMax < iflaMax

/-- What the function asks for, outside of the message. -/
structure Env where
  /-- `nas_os_get_vrf_name`. -/
  vrfName : BitVec 32 → Option Str
  /-- The name in `dn_hal_get_interface_info`. -/
  halName : BitVec 32 → Option Str
  /-- `cps_api_interface_if_index_to_name`. -/
  osName : BitVec 32 → Option Str
  /-- `STD_IP_IS_ADDR_LINK_LOCAL`. -/
  isLinkLocal : Bytes → Bool
  /-- `NAS_DEFAULT_VRF_ID`. -/
  defaultVrfId : BitVec 32
  /-- `BASE_ROUTE_NH_FLAGS_ONLINK`. -/
  nhFlagsOnlink : BitVec 32
  /-- The object has room for the attribute. -/
  room : Attr → Bool

def rtTableUnspec : UInt8 := 0
def rtprotUnspec : UInt8 := 0
def rtprotKernel : UInt8 := 2
def rtmFCloned : BitVec 32 := 0x200

/-! ## The message -/

section Fields

/- The fields of `struct nlmsghdr`, and of `struct rtmsg` at 16. -/

variable (mem : Memory)

def nlmsgType : BitVec 16 := load16 mem 4
def nlmsgFlags : BitVec 16 := load16 mem 6
def rtmFamily : UInt8 := mem 16
def rtmDstLen : UInt8 := mem 17
def rtmTable : UInt8 := mem 20
def rtmProtocol : UInt8 := mem 21
def rtmType : UInt8 := mem 23
def rtmFlags : BitVec 32 := load32 mem 24

end Fields

/-- The bytes at a position. -/
def bytesAt (mem : Memory) (p : ℤ) (n : ℕ) : Bytes := (List.range n).map fun i : ℕ => mem (p + i)

/-- The data of an attribute. -/
def attrData (mem : Memory) (p : ℤ) : Bytes := bytesAt mem (nlaData p) (nlaDataLen mem p).toNat

/-- The attributes of the message, by type. -/
def topAttrs (z : Sizes) (mem : Memory) : ℕ → Option ℤ :=
  nlaParse mem z.iflaMax (visits mem (attrCursor mem 12#32))

/-- The entries that `nla_parse` writes: it clears the table first. -/
def nlaParseWritten (mem : Memory) (maxType : ℕ) (ps : List ℤ) : List ℕ :=
  List.range maxType ++ (ps.map (nlaType mem)).filter fun type => type = 0 ∨ type < maxType

/-! ## The checks -/

/-- The operation of the object. -/
def routeOp (mem : Memory) : Option Oper :=
  if nlmsgType mem = rtmNewroute then
    if nlmsgFlags mem &&& nlmFReplace ≠ 0 then some .set else some .create
  else if nlmsgType mem = rtmDelroute then some .delete
  else none

/-- `nas_rt_is_internal_ip`, of the address in an attribute. -/
def nasRtIsInternalIp (mem : Memory) (p : ℤ) : Bool :=
  if rtmFamily mem = afInet then mem (nlaData p) == 0x7f
  else if rtmFamily mem = afInet6 then mem (nlaData p) == 0xfd && mem (nlaData p + 1) == 0xa5
  else false

/-- `nas_rt_is_reserved_intf_idx`, with the check for a sub interface. -/
def nasRtIsReservedIntfIdx (env : Env) (ifIdx : BitVec 32) : Bool :=
  match (env.halName ifIdx).or (env.osName ifIdx) with
  | none => false
  | some name => name.contains '.' || name == ['l', 'o']

/-- The destination is not for the hardware. -/
def dstSkipped (env : Env) (mem : Memory) (p : ℤ) : Bool :=
  if rtmFamily mem = afInet6 then env.isLinkLocal (bytesAt mem (nlaData p) 16)
  else nasRtIsInternalIp mem p

/-- The types of routes that are handled. -/
def handledType (mem : Memory) : Bool :=
  rtmType mem ∈ [rtnUnicast, rtnLocal, rtnBlackhole, rtnUnreachable, rtnProhibit]

/-- The route of an own address. -/
def selfIp (z : Sizes) (mem : Memory) : Bool :=
  rtmType mem == rtnLocal && (topAttrs z mem rtaGateway).isNone &&
    (topAttrs z mem rtaMultipath).isNone &&
    (rtmFamily mem == afInet && rtmDstLen mem == 32 && rtmProtocol mem == rtprotKernel ||
      rtmFamily mem == afInet6 && rtmDstLen mem == 128 && rtmProtocol mem == rtprotUnspec)

/-- An entry of the cache. -/
def cloned (mem : Memory) : Bool := rtmFlags mem &&& rtmFCloned != 0 && rtmFamily mem == afInet6

/-- The interface of the route is looked at. -/
def oifRead (mem : Memory) : Bool :=
  rtmType mem ∉ [rtnBlackhole, rtnUnreachable, rtnProhibit]

/-- The interface is not for the hardware. -/
def oifSkipped (env : Env) (vrfId : BitVec 32) (mem : Memory) (p : ℤ) : Bool :=
  vrfId == env.defaultVrfId && nasRtIsReservedIntfIdx env (load32 mem (nlaData p))

/-! ## The function -/

/-- `cps_api_object_attr_add`, and `cps_api_object_e_add` where its result is
not looked at. -/
def Info.add (env : Env) (a : Attr) (s : Info) : Info :=
  if env.room a then { s with attrs := s.attrs ++ [a] } else s

/-- `cps_api_object_e_add` in the loop over the next hops. -/
def Info.eAdd (env : Env) (a : Attr) (s : Info) : Except Info Info :=
  if env.room a then .ok { s with attrs := s.attrs ++ [a] } else .error s

/-- A table of this length is filled. -/
def Info.parse (length maxType : ℕ) (mem : Memory) (ps : List ℤ) (s : Info) : Info :=
  { s with tables := s.tables ++ [⟨length, nlaParseWritten mem maxType ps⟩] }

/-- The checks of the headers, and the attributes that come from them. -/
def startInfo (z : Sizes) (env : Env) (vrfId : BitVec 32) (mem : Memory) (s : Info) :
    Except Info Info :=
  if (load32 mem 0).toNat < 28 then .error s
  else if rtmFamily mem ≠ afInet ∧ rtmFamily mem ≠ afInet6 then .error s
  else if rtmTable mem = rtTableUnspec then .error s
  else if routeOp mem = none then .error s
  else
    match env.vrfName vrfId with
    | none => .error s
    | some vrfName =>
      let s := (s.add env (.vrfName vrfName)).add env (.nhVrfName vrfName)
      let s := (s.add env (.vrfId vrfId)).add env (.entryVrfId vrfId)
      let s := (s.add env (.af (rtmFamily mem))).add env (.protocol (rtmProtocol mem))
      .ok (s.parse z.iflaMax z.iflaMax mem (visits mem (attrCursor mem 12#32)))

/-- The destination. -/
def readDst (z : Sizes) (env : Env) (mem : Memory) (s : Info) : Except Info Info :=
  match topAttrs z mem rtaDst with
  | none => .ok s
  | some p =>
    if dstSkipped env mem p then .error s
    else .ok (s.add env (.routePrefix (attrData mem p)))

/-- The checks of the route, its prefix length and its type. -/
def readType (z : Sizes) (env : Env) (mem : Memory) (s : Info) : Except Info Info :=
  if handledType mem = false then .error s
  else if selfIp z mem then .error s
  else if cloned mem then .error s
  else
    let s := s.add env (.prefixLen (rtmDstLen mem))
    if rtmType mem = rtnUnicast then .ok s
    else .ok (s.add env (.specialNextHop (rtmType mem)))

/-- The gateway. -/
def readGateway (z : Sizes) (env : Env) (mem : Memory) (s : Info) : Except Info Info :=
  match topAttrs z mem rtaGateway with
  | none => .ok s
  | some p =>
    if nasRtIsInternalIp mem p then .error s
    else .ok (s.add env (.nhAddr 0 (attrData mem p)))

/-- The interface, and the flags. -/
def readOif (z : Sizes) (env : Env) (vrfId : BitVec 32) (mem : Memory) (s : Info) :
    Except Info Info :=
  let flags : Info → Info := fun s =>
    if rtmFlags mem = rtnhFOnlink then s.add env (.listFlags env.nhFlagsOnlink) else s
  match topAttrs z mem rtaOif with
  | none => .ok (flags s)
  | some p =>
    if oifRead mem then
      if oifSkipped env vrfId mem p then .error s
      else
        let x := load32 mem (nlaData p)
        .ok (flags ((s.add env (.nhIfindex 0 x)).add env (.listIfindex x)))
    else .ok (flags s)

/-- The function up to the loop over the next hops. -/
def beforeHops (z : Sizes) (env : Env) (vrfId : BitVec 32) (mem : Memory) : Except Info Info :=
  startInfo z env vrfId mem .empty >>= readDst z env mem >>= readType z env mem >>=
    readGateway z env mem >>= readOif z env vrfId mem

/-- The fields of a next hop. -/
def hopFields (env : Env) (mem : Memory) (p : ℤ) (hop : ℕ) (s : Info) : Except Info Info :=
  s.eAdd env (.nhIfindex hop (load32 mem (p + 4))) >>=
    Info.eAdd env (.nhWeight hop ((mem (p + 3)).toBitVec.setWidth 32)) >>= fun s =>
    if (mem (p + 2)).toBitVec.setWidth 32 = rtnhFOnlink then s.eAdd env (.nhFlags hop rtnhFOnlink)
    else .ok s

/-- One turn of the loop over the next hops. -/
def readHop (z : Sizes) (env : Env) (mem : Memory) (s : Info) (hop : ℤ × ℕ) : Except Info Info :=
  hopFields env mem hop.1 hop.2 s >>= fun s =>
    let ps := visits mem (rtnhAttrs mem hop.1)
    let s := s.parse z.rtaMax z.iflaMax mem ps
    match nlaParse mem z.iflaMax ps rtaGateway with
    | none => .ok s
    | some q => s.eAdd env (.nhAddr hop.2 (attrData mem q))

/-- The loop over the next hops. -/
def readHops (z : Sizes) (env : Env) (mem : Memory) (ps : List ℤ) (s : Info) : Except Info Info :=
  ps.zipIdx.foldlM (readHop z env mem) s

/-- The next hops, the number of them, and the key. -/
def afterChecks (z : Sizes) (env : Env) (mem : Memory) (s : Info) : Except Info Info :=
  let finish : ℕ → Info → Info := fun hopCount s =>
    { s.add env (.nhCount hopCount) with key := routeOp mem }
  match topAttrs z mem rtaMultipath with
  | some p =>
    (readHops z env mem (hops mem (embedded mem p)) s).map
      (finish (hops mem (embedded mem p)).length)
  | none =>
    .ok (finish
      (if (topAttrs z mem rtaOif).isSome ∨ (topAttrs z mem rtaGateway).isSome then 1 else 0) s)

/-- `nl_to_route_info`.  An error is `return false`, with the object as it is. -/
def nlToRouteInfo (z : Sizes) (env : Env) (vrfId : BitVec 32) (mem : Memory) : Except Info Info :=
  beforeHops z env vrfId mem >>= afterChecks z env mem

/-! ## The walks end -/

/-- A turn of a walk that goes on lowers the count. -/
theorem rem_sub_align {rem : BitVec 32} {len : BitVec 16} {least : ℕ} (hmin : least ≤ len.toNat)
    (hin : (len.toNat : ℤ) ≤ rem.toInt) :
    (rem - align (len.setWidth 32)).toInt + least ≤ rem.toInt := by
  have hlt := len.isLt
  have hwide : (len.setWidth 32).toNat = len.toNat := by
    rw [BitVec.toNat_setWidth]
    omega
  have hpad : (align (len.setWidth 32)).toInt = (padded len.toNat : ℤ) := by
    rw [align_toInt (by omega), hwide]
  have hle := le_padded len.toNat
  have hclose := padded_lt len.toNat
  have htop : rem.toInt < 2 ^ 31 := BitVec.toInt_lt
  rw [BitVec.toInt_sub, hpad, Int.bmod_eq_of_le]
  · omega
  · omega
  · omega

/-- The attributes are those that `nla_for_each_attr` hands out. -/
theorem visits_spec (mem : Memory) (c : Cursor) : Visits mem c (visits mem c) := by
  have hturns : ∀ turns c, c.rem.toInt.toNat ≤ turns → Visits mem c (visitsIn mem turns c) := by
    intro turns
    induction turns with
    | zero =>
      intro c hc
      refine .stop (Bool.eq_false_iff.mpr fun hok => ?_)
      have hmin := (nlaOk_iff.mp hok).1
      unfold nlaHdrLen at hmin
      omega
    | succ turns ih =>
      intro c hc
      rw [visitsIn]
      split_ifs with hok
      · obtain ⟨-, hmin, hin⟩ := nlaOk_iff.mp hok
        have hless := rem_sub_align hmin hin
        refine .turn hok (ih _ ?_)
        change (nlaNext mem c).rem.toInt + _ ≤ _ at hless
        unfold nlaHdrLen at hless
        omega
      · exact .stop (Bool.eq_false_iff.mpr hok)
  exact hturns _ c le_rfl

/-- What the test of the walk over the next hops says. -/
theorem rtnhOk_iff {mem : Memory} {c : Cursor} :
    rtnhOk mem c = true ↔
      8 ≤ (load16 mem c.pos).toNat ∧ ((load16 mem c.pos).toNat : ℤ) ≤ c.rem.toInt := by
  rw [rtnhOk, Bool.and_eq_true, decide_eq_true_iff, decide_eq_true_iff]

/-- The next hops that a walk comes to. -/
inductive HopVisits (mem : Memory) : Cursor → List ℤ → Prop where
  | stop {c : Cursor} : rtnhOk mem c = false → HopVisits mem c []
  | turn {c : Cursor} {ps : List ℤ} :
      rtnhOk mem c = true → HopVisits mem (rtnhNext mem c) ps → HopVisits mem c (c.pos :: ps)

/-- The hops that are listed are those that the walk visits. -/
theorem hops_spec (mem : Memory) (c : Cursor) : HopVisits mem c (hops mem c) := by
  have hturns : ∀ turns c, c.rem.toInt.toNat ≤ turns → HopVisits mem c (hopsIn mem turns c) := by
    intro turns
    induction turns with
    | zero =>
      intro c hc
      refine .stop (Bool.eq_false_iff.mpr fun hok => ?_)
      obtain ⟨hmin, hin⟩ := rtnhOk_iff.mp hok
      omega
    | succ turns ih =>
      intro c hc
      rw [hopsIn]
      split_ifs with hok
      · obtain ⟨hmin, hin⟩ := rtnhOk_iff.mp hok
        have hless := rem_sub_align hmin hin
        refine .turn hok (ih _ ?_)
        change (rtnhNext mem c).rem.toInt + _ ≤ _ at hless
        omega
      · exact .stop (Bool.eq_false_iff.mpr hok)
  exact hturns _ c le_rfl

/-! ## The checks before the loop -/

/-- The message passes every check before the loop over the next hops. -/
structure PassesChecks (z : Sizes) (env : Env) (vrfId : BitVec 32) (mem : Memory) : Prop where
  len : 28 ≤ (load32 mem 0).toNat
  family : rtmFamily mem = afInet ∨ rtmFamily mem = afInet6
  table : rtmTable mem ≠ rtTableUnspec
  op : routeOp mem ≠ none
  vrf : env.vrfName vrfId ≠ none
  dst : ∀ p, topAttrs z mem rtaDst = some p → dstSkipped env mem p = false
  type : handledType mem = true
  self : selfIp z mem = false
  notCloned : cloned mem = false
  gateway : ∀ p, topAttrs z mem rtaGateway = some p → nasRtIsInternalIp mem p = false
  oif : ∀ p, topAttrs z mem rtaOif = some p → oifRead mem = true →
    oifSkipped env vrfId mem p = false

/-- The table for the attributes of the message. -/
def topTable (z : Sizes) (mem : Memory) : Table :=
  ⟨z.iflaMax, nlaParseWritten mem z.iflaMax (visits mem (attrCursor mem 12#32))⟩

/-- The object and the tables, also when the function leaves early. -/
def infoOf : Except Info Info → Info
  | .ok s => s
  | .error s => s

@[simp] theorem tables_add (env : Env) (a : Attr) (s : Info) : (s.add env a).tables = s.tables := by
  rw [Info.add]
  split_ifs <;> rfl

/-- A step that goes on under a condition, and fills no table. -/
def Checks (f : Info → Except Info Info) (c : Prop) : Prop :=
  ∀ s, (c ∧ ∃ s', f s = .ok s' ∧ s'.tables = s.tables) ∨
    ¬ c ∧ ∃ s', f s = .error s' ∧ s'.tables = s.tables

/-- Two steps, one after the other. -/
theorem Checks.bind {f g : Info → Except Info Info} {c d : Prop} (hf : Checks f c)
    (hg : Checks g d) : Checks (fun s => f s >>= g) (c ∧ d) := by
  intro s
  obtain ⟨hc, s', hs', htables⟩ | ⟨hc, s', hs', htables⟩ := hf s
  · obtain ⟨hd, s'', hs'', htables'⟩ | ⟨hd, s'', hs'', htables'⟩ := hg s'
    · exact Or.inl ⟨⟨hc, hd⟩, s'', (congrArg (· >>= g) hs').trans hs'', htables'.trans htables⟩
    · exact Or.inr ⟨fun h => hd h.2, s'', (congrArg (· >>= g) hs').trans hs'',
        htables'.trans htables⟩
  · exact Or.inr ⟨fun h => hc h.1, s', congrArg (· >>= g) hs', htables⟩

theorem readDst_checks (z : Sizes) (env : Env) (mem : Memory) :
    Checks (readDst z env mem)
      (∀ p, topAttrs z mem rtaDst = some p → dstSkipped env mem p = false) := by
  intro s
  unfold readDst
  cases topAttrs z mem rtaDst with
  | none => exact Or.inl ⟨nofun, s, rfl, rfl⟩
  | some p =>
    dsimp only
    split_ifs with hskip
    · refine Or.inr ⟨fun h => ?_, s, rfl, rfl⟩
      rw [h p rfl] at hskip
      cases hskip
    · refine Or.inl ⟨fun q hq => ?_, _, rfl, tables_add ..⟩
      rw [← Option.some_inj.mp hq]
      exact Bool.eq_false_iff.mpr hskip

theorem readType_checks (z : Sizes) (env : Env) (mem : Memory) :
    Checks (readType z env mem)
      (handledType mem = true ∧ selfIp z mem = false ∧ cloned mem = false) := by
  intro s
  unfold readType
  split_ifs with htype hself hcloned huni
  · exact Or.inr ⟨fun h => Bool.false_ne_true (htype.symm.trans h.1), s, rfl, rfl⟩
  · exact Or.inr ⟨fun h => Bool.false_ne_true (h.2.1.symm.trans hself), s, rfl, rfl⟩
  · exact Or.inr ⟨fun h => Bool.false_ne_true (h.2.2.symm.trans hcloned), s, rfl, rfl⟩
  · exact Or.inl ⟨⟨Bool.not_eq_false _ ▸ htype, Bool.eq_false_iff.mpr hself,
      Bool.eq_false_iff.mpr hcloned⟩, _, rfl, tables_add ..⟩
  · exact Or.inl ⟨⟨Bool.not_eq_false _ ▸ htype, Bool.eq_false_iff.mpr hself,
      Bool.eq_false_iff.mpr hcloned⟩, _, rfl, by rw [tables_add, tables_add]⟩

theorem readGateway_checks (z : Sizes) (env : Env) (mem : Memory) :
    Checks (readGateway z env mem)
      (∀ p, topAttrs z mem rtaGateway = some p → nasRtIsInternalIp mem p = false) := by
  intro s
  unfold readGateway
  cases topAttrs z mem rtaGateway with
  | none => exact Or.inl ⟨nofun, s, rfl, rfl⟩
  | some p =>
    dsimp only
    split_ifs with hskip
    · refine Or.inr ⟨fun h => ?_, s, rfl, rfl⟩
      rw [h p rfl] at hskip
      cases hskip
    · refine Or.inl ⟨fun q hq => ?_, _, rfl, tables_add ..⟩
      rw [← Option.some_inj.mp hq]
      exact Bool.eq_false_iff.mpr hskip

theorem readOif_checks (z : Sizes) (env : Env) (vrfId : BitVec 32) (mem : Memory) :
    Checks (readOif z env vrfId mem)
      (∀ p, topAttrs z mem rtaOif = some p → oifRead mem = true →
        oifSkipped env vrfId mem p = false) := by
  intro s
  unfold readOif
  have hflags : ∀ s : Info,
      (if rtmFlags mem = rtnhFOnlink then s.add env (.listFlags env.nhFlagsOnlink)
        else s).tables = s.tables := by
    intro s
    split_ifs
    · exact tables_add ..
    · rfl
  cases topAttrs z mem rtaOif with
  | none => exact Or.inl ⟨nofun, _, rfl, hflags s⟩
  | some p =>
    dsimp only
    by_cases hread : oifRead mem = true
    · rw [if_pos hread]
      by_cases hskip : oifSkipped env vrfId mem p = true
      · rw [if_pos hskip]
        exact Or.inr ⟨fun h => Bool.false_ne_true ((h p rfl hread).symm.trans hskip), s, rfl, rfl⟩
      · rw [if_neg hskip]
        refine Or.inl ⟨fun q hq _ => ?_, _, rfl, ?_⟩
        · rw [← Option.some_inj.mp hq]
          exact Bool.eq_false_iff.mpr hskip
        · rw [hflags, tables_add, tables_add]
    · rw [if_neg hread]
      exact Or.inl ⟨fun _ _ h => absurd h hread, _, rfl, hflags s⟩

/-- The checks of the headers. -/
theorem startInfo_spec (z : Sizes) (env : Env) (vrfId : BitVec 32) (mem : Memory) :
    ((28 ≤ (load32 mem 0).toNat ∧ (rtmFamily mem = afInet ∨ rtmFamily mem = afInet6) ∧
        rtmTable mem ≠ rtTableUnspec ∧ routeOp mem ≠ none ∧ env.vrfName vrfId ≠ none) ∧
      ∃ s, startInfo z env vrfId mem .empty = .ok s ∧ s.tables = [topTable z mem]) ∨
    ¬ (28 ≤ (load32 mem 0).toNat ∧ (rtmFamily mem = afInet ∨ rtmFamily mem = afInet6) ∧
        rtmTable mem ≠ rtTableUnspec ∧ routeOp mem ≠ none ∧ env.vrfName vrfId ≠ none) ∧
      startInfo z env vrfId mem .empty = .error .empty := by
  unfold startInfo
  by_cases hlen : (load32 mem 0).toNat < 28
  · rw [if_pos hlen]
    exact Or.inr ⟨fun h => absurd h.1 (not_le.mpr hlen), rfl⟩
  rw [if_neg hlen]
  by_cases hfamily : rtmFamily mem ≠ afInet ∧ rtmFamily mem ≠ afInet6
  · rw [if_pos hfamily]
    exact Or.inr ⟨fun h => h.2.1.elim hfamily.1 hfamily.2, rfl⟩
  rw [if_neg hfamily]
  by_cases htable : rtmTable mem = rtTableUnspec
  · rw [if_pos htable]
    exact Or.inr ⟨fun h => h.2.2.1 htable, rfl⟩
  rw [if_neg htable]
  by_cases hop : routeOp mem = none
  · rw [if_pos hop]
    exact Or.inr ⟨fun h => h.2.2.2.1 hop, rfl⟩
  rw [if_neg hop]
  cases hvrf : env.vrfName vrfId with
  | none => exact Or.inr ⟨fun h => h.2.2.2.2 rfl, rfl⟩
  | some vrfName =>
    have hfam := not_and_or.mp hfamily
    rw [not_not, not_not] at hfam
    refine Or.inl ⟨⟨not_lt.mp hlen, hfam, htable, hop, nofun⟩, _, rfl, ?_⟩
    rw [Info.parse]
    simp only [tables_add]
    rfl

/-- The function up to the loop: it goes on exactly when the message passes the
checks, and the table of the message is the only one. -/
theorem beforeHops_spec (z : Sizes) (env : Env) (vrfId : BitVec 32) (mem : Memory) :
    (PassesChecks z env vrfId mem ∧
        ∃ s, beforeHops z env vrfId mem = .ok s ∧ s.tables = [topTable z mem]) ∨
      ¬ PassesChecks z env vrfId mem ∧
        ∃ s, beforeHops z env vrfId mem = .error s ∧ ∀ t ∈ s.tables, t = topTable z mem := by
  obtain ⟨⟨hlen, hfamily, htable, hop, hvrf⟩, s, hs, htables⟩ | ⟨hnot, hs⟩ :=
    startInfo_spec z env vrfId mem
  · have hrest := (((readDst_checks z env mem).bind (readType_checks z env mem)).bind
      (readGateway_checks z env mem)).bind (readOif_checks z env vrfId mem) s
    have hbefore : beforeHops z env vrfId mem =
        (readDst z env mem s >>= readType z env mem >>= readGateway z env mem >>=
          readOif z env vrfId mem) := by
      rw [beforeHops, hs]
      rfl
    rw [hbefore]
    obtain ⟨⟨⟨⟨hdst, htype, hself, hcloned⟩, hgateway⟩, hoif⟩, s', hs', htables'⟩ |
      ⟨hnot, s', hs', htables'⟩ := hrest
    · exact Or.inl ⟨⟨hlen, hfamily, htable, hop, hvrf, hdst, htype, hself, hcloned, hgateway,
        hoif⟩, s', hs', htables'.trans htables⟩
    · refine Or.inr ⟨fun h => hnot ⟨⟨⟨h.dst, h.type, h.self, h.notCloned⟩, h.gateway⟩, h.oif⟩,
        s', hs', fun t ht => ?_⟩
      rw [htables', htables] at ht
      exact List.mem_singleton.mp ht
  · refine Or.inr ⟨fun h => hnot ⟨h.len, h.family, h.table, h.op, h.vrf⟩, .empty, ?_, nofun⟩
    rw [beforeHops, hs]
    rfl

end OpxNasLinux.RouteInfo
