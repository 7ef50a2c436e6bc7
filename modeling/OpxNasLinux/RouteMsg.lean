import OpxNasLinux.Netlink
import OpxNasLinux.NlReadBack
import OpxNasLinux.VrfIds

/-!
# Route messages

`nas_os_update_route` and `nas_os_update_route_nexthop` translate an object
into a route message for the kernel.  The second is a copy of the first for
single next hops of a route, and the two are to be kept in step.

* `RouteMsg` is a message under construction: the fields of its two headers,
  and the buffer with its length and its attributes.
* `packNexthop` is one turn of the loop over the next hops of a multipath
  route, `singleNexthop` the other way for just one.
* `nasOsUpdateRoute` and `nasOsUpdateRouteNexthop` are the two functions, up to
  the request that is sent.  What they have in common is written once, with
  the lookup of an interface and the change of scope as arguments.
-/

namespace OpxNasLinux.Route

open NlMsg Netlink ByteStore
open VrfIds (strncmpEq)

/-! ## Objects -/

/-- What lies where `cps_api_object_attr_data_bin` points to. -/
abbrev AttrBin := ℕ → UInt8

/-- The first bytes of an attribute. -/
def AttrBin.read (data : AttrBin) (n : ℕ) : Bytes := (List.range n).map data

@[simp] theorem AttrBin.length_read (data : AttrBin) (n : ℕ) : (data.read n).length = n := by
  rw [AttrBin.read, List.length_map, List.length_range]

/-- An entry of the next hop list of an object. -/
structure NextHop where
  addr : Option AttrBin
  flags : Option (BitVec 32)
  ifindex : Option (BitVec 32)
  ifname : Option Str
  weight : Option (BitVec 32)

/-- `BASE_ROUTE_SPECIAL_NEXT_HOP`. -/
inductive SpecialNextHop where
  | blackhole
  | unreachable
  | prohibit
  | receive
  | other
deriving DecidableEq

/-- The attributes of a route object. -/
structure RouteObj where
  vrfName : Option Str
  routePrefix : Option AttrBin
  af : Option (BitVec 32)
  nhCount : Option (BitVec 32)
  prefixLen : Option (BitVec 32)
  specialNextHop : Option SpecialNextHop
  nhVrfName : Option Str
  nhList : ℕ → NextHop

/-- `BASE_ROUTE_RT_OPERATION_TYPE`. -/
inductive Operation where
  | append
  | delete
  | other
deriving DecidableEq

/-- The attributes of the input of a next hop operation. -/
structure NhOperation where
  vrfName : Option Str
  routePrefix : Option AttrBin
  af : Option (BitVec 32)
  nhCount : Option (BitVec 32)
  prefixLen : Option (BitVec 32)
  operation : Option Operation
  nhVrfName : Option Str
  nhList : ℕ → NextHop

/-- The operations of `nas_rt_msg_type` on routes. -/
inductive MsgType where
  | add
  | del
  | set
deriving DecidableEq

/-- What `dn_hal_get_interface_info` knows of an interface. -/
structure IntfInfo where
  /-- The type is `nas_int_type_MGMT`. -/
  mgmt : Bool
  ifIndex : BitVec 32

/-- The interfaces, and what other headers define. -/
structure Sys where
  /-- `dn_hal_get_interface_info`, by name. -/
  interfaceInfo : Str → Option IntfInfo
  /-- `nas_os_util_int_if_index_get`, by VRF and name. -/
  osIfIndex : Str → Str → Option (BitVec 32)
  defaultVrfName : Str
  vrfNameSz : ℕ
  /-- `BASE_ROUTE_NH_FLAGS_ONLINK`. -/
  nhFlagsOnlink : BitVec 32

/-! ## Messages -/

/-- `struct rtmsg`. -/
structure RtMsg where
  family : BitVec 8
  dstLen : BitVec 8
  table : BitVec 8
  protocol : BitVec 8
  scope : BitVec 8
  type : BitVec 8
  flags : BitVec 32
deriving DecidableEq

/-- A message under construction. -/
structure RouteMsg where
  nlmsgType : BitVec 16
  nlmsgFlags : BitVec 16
  rm : RtMsg
  /-- The buffer.  Of the headers it has the length of the message only. -/
  mem : Memory

def rtTableMain : BitVec 8 := 254
def rtprotUnspec : BitVec 8 := 0
def rtprotStatic : BitVec 8 := 4
def rtScopeUniverse : BitVec 8 := 0
def rtScopeLink : BitVec 8 := 253
def rtScopeHost : BitVec 8 := 254
def rtScopeNowhere : BitVec 8 := 255
def rtnhFOnlink : BitVec 32 := 4
def rtaDst : ℕ := 1
def rtaOif : ℕ := 4
def rtaGateway : ℕ := 5
def rtaPriority : ℕ := 6
def rtaMultipath : ℕ := 9

/-- `NL_RT_MSG_BUFFER_LEN`. -/
def bufLen : BitVec 32 := 8192

/-- The bytes of an `int`. -/
def intBytes (v : BitVec 32) : Bytes :=
  [⟨v.extractLsb' 0 8⟩, ⟨v.extractLsb' 8 8⟩, ⟨v.extractLsb' 16 8⟩, ⟨v.extractLsb' 24 8⟩]

/-- `nas_os_get_nl_flags`, with an acknowledgement. -/
def nasOsGetNlFlags : MsgType → BitVec 16
  | .add => nlmFRequest ||| nlmFAck ||| nlmFCreate ||| nlmFExcl
  | .del => nlmFRequest ||| nlmFAck
  | .set => nlmFRequest ||| nlmFAck ||| nlmFCreate ||| nlmFReplace

/-- `nlmsg_add_attr`.  What it returns is not looked at. -/
def addAttr (type : ℕ) (data : Bytes) (m : RouteMsg) : RouteMsg :=
  { m with mem := (nlmsgAddAttr bufLen (BitVec.ofNat 32 type) data m.mem).2 }

def setScope (scope : BitVec 8) (m : RouteMsg) : RouteMsg := { m with rm.scope := scope }

/-- The length of the addresses of a family. -/
def addrLen (family : BitVec 8) : ℕ := if family = afInet then 4 else 16

/-- Why there is no message. -/
inductive Stop where
  /-- The request is refused. -/
  | rejected
  /-- The route is published and not sent. -/
  | published
  /-- There was no room, and the code goes on with a null pointer. -/
  | nullPointer
deriving DecidableEq

/-! ## One next hop -/

/-- The interface of a next hop: its index, or that of its name.  `none` when
the name is not known. -/
def outIf (lookup : Str → Option (BitVec 32)) (nh : NextHop) : Option (Option (BitVec 32)) :=
  match nh.ifindex, nh.ifname with
  | some ifindex, _ => some (some ifindex)
  | none, some name => (lookup name).map some
  | none, none => some none

/-- The gateway of a single next hop. -/
def addGateway (sys : Sys) (nh : NextHop) (m : RouteMsg) : RouteMsg :=
  match nh.addr with
  | none => m
  | some gw =>
    let m := setScope rtScopeUniverse (addAttr rtaGateway (gw.read (addrLen m.rm.family)) m)
    if nh.flags = some sys.nhFlagsOnlink then { m with rm.flags := m.rm.flags ||| rtnhFOnlink }
    else m

/-- The interface of a single next hop.  `linkRoute` is what becomes of a
message for a route without gateway. -/
def addOif (linkRoute : NextHop → RouteMsg → RouteMsg) (nh : NextHop)
    (oif : Option (BitVec 32)) (m : RouteMsg) : RouteMsg :=
  match oif with
  | none => m
  | some ifindex =>
    addAttr rtaOif (intBytes ifindex) (if nh.addr.isNone then linkRoute nh m else m)

def addWeight (nh : NextHop) (m : RouteMsg) : RouteMsg :=
  match nh.weight with
  | none => m
  | some weight => addAttr rtaPriority (intBytes weight) m

/-- The branch for one next hop. -/
def singleNexthop (sys : Sys) (lookup : Str → Option (BitVec 32))
    (linkRoute : NextHop → RouteMsg → RouteMsg) (nh : NextHop) (m : RouteMsg) :
    Except Stop RouteMsg :=
  match outIf lookup nh with
  | none => .error .rejected
  | some oif => .ok (addWeight nh (addOif linkRoute nh oif (addGateway sys nh m)))

/-! ## Several next hops -/

/-- One turn of the loop: a `struct rtnexthop` with its gateway.  The fields
are those of `rtnh_len`, `rtnh_flags`, `rtnh_hops` and `rtnh_ifindex`. -/
def packNexthop (sys : Sys) (lookup : Str → Option (BitVec 32)) (nh : NextHop) (m : RouteMsg) :
    Except Stop RouteMsg :=
  match nlmsgReserve bufLen 8#32 m.mem with
  | (none, _) => .error .nullPointer
  | (some rtnh, mem) =>
    let m := { m with mem := store rtnh (List.replicate 8 0) mem }
    match nh.addr with
    | none => .error .rejected
    | some gw =>
      let m := setScope rtScopeUniverse (addAttr rtaGateway (gw.read (addrLen m.rm.family)) m)
      let mem := if nh.flags = some sys.nhFlagsOnlink then
          store (rtnh + 2) [m.mem (rtnh + 2) ||| ⟨rtnhFOnlink.setWidth 8⟩] m.mem
        else m.mem
      match outIf lookup nh with
      | none => .error .rejected
      | some oif =>
        let mem := match oif with
          | none => mem
          | some ifindex => store32 (rtnh + 4) ifindex mem
        let mem := match nh.weight with
          | none => mem
          | some weight => store (rtnh + 3) [⟨weight.setWidth 8⟩] mem
        .ok { m with mem := store16 rtnh (BitVec.ofInt 16 (nlmsgTail mem - rtnh)) mem }

/-- The loop over the next hops. -/
def packNexthops (sys : Sys) (lookup : Str → Option (BitVec 32)) (nhs : List NextHop)
    (m : RouteMsg) : Except Stop RouteMsg :=
  nhs.foldlM (fun m nh => packNexthop sys lookup nh m) m

/-- The branch for several next hops. -/
def multipath (sys : Sys) (lookup : Str → Option (BitVec 32)) (nhs : List NextHop)
    (m : RouteMsg) : Except Stop RouteMsg :=
  match nlmsgNestedStart bufLen m.mem with
  | (none, _) => .error .nullPointer
  | (some attr, mem) =>
    let mem := store16 (attr + 2) (BitVec.ofNat 16 rtaMultipath) (store16 attr 0#16 mem)
    (packNexthops sys lookup nhs { m with mem }).map fun m =>
      { m with mem := nlmsgNestedEnd attr m.mem }

/-! ## The two functions -/

/-- The next hops are in another VRF. -/
def leaked (sys : Sys) (vrfName nhVrfName : Option Str) : Bool :=
  match nhVrfName with
  | none => false
  | some nhVrf => !strncmpEq (vrfName.getD sys.defaultVrfName) nhVrf sys.vrfNameSz

/-- The headers and the destination.  The first sixteen bytes of the buffer are
`memset`, the others are what the last message left. -/
def startRoute (type flags : BitVec 16) (rm : RtMsg) (routePrefix : AttrBin) (left : Memory) :
    Except Stop RouteMsg :=
  match startMsg bufLen 12#32 (store 0 (List.replicate 16 0) left) with
  | none => .error .nullPointer
  | some mem =>
    .ok (addAttr rtaDst (routePrefix.read (addrLen rm.family)) ⟨type, flags, rm, mem⟩)

/-- The next hops of a message. -/
def addNexthops (sys : Sys) (lookup : Str → Option (BitVec 32))
    (linkRoute : NextHop → RouteMsg → RouteMsg) (nhc : ℕ) (nhList : ℕ → NextHop)
    (m : RouteMsg) : Except Stop RouteMsg :=
  if nhc = 1 then singleNexthop sys lookup linkRoute (nhList 0) m
  else if nhc > 1 then multipath sys lookup ((List.range nhc).map nhList) m
  else .ok m

/-- The type, scope and protocol of a route with a special next hop. -/
def specialRoute (rm : RtMsg) : Option SpecialNextHop → Option RtMsg
  | none => some { rm with type := rtnUnicast }
  | some .blackhole =>
    some { rm with type := rtnBlackhole, scope := rtScopeNowhere, protocol := rtprotStatic }
  | some .unreachable => some { rm with type := rtnUnreachable }
  | some .prohibit => some { rm with type := rtnProhibit }
  | some .receive => some { rm with type := rtnLocal, scope := rtScopeHost }
  | some .other => none

/-- The header of a route message before the next hops. -/
def routeHeader (type : BitVec 16) (af prefixLen : BitVec 32) : RtMsg where
  family := af.setWidth 8
  dstLen := prefixLen.setWidth 8
  table := rtTableMain
  protocol := rtprotUnspec
  scope := if type = rtmDelroute then rtScopeNowhere else rtScopeUniverse
  type := 0
  flags := 0

/-- The index of an interface, from the system for a management interface. -/
def routeIfIndex (sys : Sys) (vrfName : Option Str) (name : Str) : Option (BitVec 32) :=
  match sys.interfaceInfo name with
  | none => none
  | some info =>
    if info.mgmt then sys.osIfIndex (vrfName.getD sys.defaultVrfName) name else some info.ifIndex

/-- The index of an interface in a next hop operation. -/
def nexthopIfIndex (sys : Sys) (name : Str) : Option (BitVec 32) :=
  (sys.interfaceInfo name).map IntfInfo.ifIndex

/-- A route without gateway in `nas_os_update_route`, whether the interface has
an index or a name. -/
def routeLink (mType : MsgType) (_ : NextHop) (m : RouteMsg) : RouteMsg :=
  if m.rm.type ≠ rtnLocal then
    let m := setScope rtScopeLink m
    if mType = .add then
      { m with nlmsgFlags := (m.nlmsgFlags &&& ~~~nlmFExcl) ||| nlmFReplace }
    else m
  else m

/-- A route without gateway in `nas_os_update_route_nexthop`.  The scope is set
in the branch for an index only. -/
def nexthopLink (nh : NextHop) (m : RouteMsg) : RouteMsg :=
  if nh.ifindex.isSome then setScope rtScopeLink m else m

/-- The type of a message. -/
def rtmType (mType : MsgType) : BitVec 16 := if mType = .del then rtmDelroute else rtmNewroute

/-- `nas_os_update_route`, up to the request. -/
def nasOsUpdateRoute (sys : Sys) (left : Memory) (mType : MsgType) (obj : RouteObj) :
    Except Stop RouteMsg :=
  match obj.routePrefix, obj.af, obj.prefixLen with
  | some routePrefix, some af, some prefixLen =>
    if mType ≠ .del ∧ obj.nhCount = none ∧ obj.specialNextHop = none then .error .rejected
    else
      let nhc := (obj.nhCount.getD 0).toNat
      if leaked sys obj.vrfName obj.nhVrfName then .error .published
      else if obj.specialNextHop.isSome ∧ nhc > 1 then .error .rejected
      else
        let type := rtmType mType
        match specialRoute (routeHeader type af prefixLen) obj.specialNextHop with
        | none => .error .rejected
        | some rm =>
          startRoute type (nasOsGetNlFlags mType) rm routePrefix left >>=
            addNexthops sys (routeIfIndex sys obj.vrfName) (routeLink mType) nhc obj.nhList
  | _, _, _ => .error .rejected

/-- `nas_os_update_route_nexthop`, up to the request. -/
def nasOsUpdateRouteNexthop (sys : Sys) (left : Memory) (obj : NhOperation) :
    Except Stop RouteMsg :=
  match obj.routePrefix, obj.af, obj.prefixLen, obj.nhCount, obj.operation with
  | some routePrefix, some af, some prefixLen, some nhCount, some op =>
    let mType := if op = .delete then MsgType.del else .set
    if leaked sys obj.vrfName obj.nhVrfName then .error .published
    else
      let type := rtmType mType
      let flags := nasOsGetNlFlags mType
      let flags := if op = .append then (flags &&& ~~~nlmFReplace) ||| nlmFAppend else flags
      startRoute type flags { routeHeader type af prefixLen with type := rtnUnicast } routePrefix
          left >>=
        addNexthops sys (nexthopIfIndex sys) nexthopLink nhCount.toNat obj.nhList
  | _, _, _, _, _ => .error .rejected

end OpxNasLinux.Route
