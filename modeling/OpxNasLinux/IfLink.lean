import OpxNasLinux.IfCache
import OpxNasLinux.Lib.Listing

/-!
# The link messages of the kernel

`os_interface_to_object` takes a link message to pieces and hands it to a chain
of handlers, one for each kind of interface.  The handlers keep the members of
the bonds and of the bridges, and they settle the type under which the
interface goes into the cache.

What the handlers put into the published object is left out.  A message that
does not parse changes nothing and is left out too.
-/

namespace OpxNasLinux

/-! ## The tables -/

/-- `if_bond`: the members of every bond, and the bond of every member. -/
structure IfBond where
  mbrMap : Listing IfIndex IfIndex
  sMap : Dict IfIndex IfIndex

/-- `if_bridge`: the tagged and the untagged members of every bridge. -/
structure IfBridge where
  tagMap : Listing IfIndex IfIndex
  untagMap : Listing IfIndex IfIndex

/-- The interface cache, the members of the bonds and the bridges, and
`mbr_intf_to_vlan_map`, the bridges that every port is a member of. -/
structure IfDb where
  cache : IfCache
  bond : IfBond
  bridge : IfBridge
  mbrIntfToVlanMap : Listing IfIndex IfIndex

namespace IfBond

/-- `member_present`. -/
def bondMbrPresent (masterIdx mbrIdx : IfIndex) (b : IfBond) : Bool :=
  decide (mbrIdx ∈ b.mbrMap.under masterIdx)

/-- `bond_mbr_add`.  `std::unordered_map::insert` leaves an entry that is there. -/
def bondMbrAdd (masterIdx mbrIdx : IfIndex) (b : IfBond) : IfBond where
  mbrMap := b.mbrMap.add masterIdx mbrIdx
  sMap := if mbrIdx ∈ b.sMap then b.sMap else b.sMap.insert mbrIdx masterIdx

/-- `bond_mbr_del`. -/
def bondMbrDel (masterIdx mbrIdx : IfIndex) (b : IfBond) : IfBond where
  mbrMap := b.mbrMap.discard masterIdx mbrIdx
  sMap := b.sMap.erase mbrIdx

/-- `bond_master_get`. -/
def bondMasterGet (mbrIdx : IfIndex) (b : IfBond) : IfIndex := (b.sMap.lookup mbrIdx).getD 0

end IfBond

namespace IfBridge

/-- `bridge_tag_mbr_present`. -/
def bridgeTagMbrPresent (masterIdx mbrIdx : IfIndex) (b : IfBridge) : Bool :=
  decide (mbrIdx ∈ b.tagMap.under masterIdx)

/-- `bridge_mbr_present`. -/
def bridgeMbrPresent (masterIdx mbrIdx : IfIndex) (b : IfBridge) : Bool :=
  b.bridgeTagMbrPresent masterIdx mbrIdx || decide (mbrIdx ∈ b.untagMap.under masterIdx)

end IfBridge

namespace IfDb

/-- The tables before the first message. -/
def empty : IfDb := ⟨IfCache.empty, ⟨∅, ∅⟩, ⟨∅, ∅⟩, ∅⟩

/-- `nas_os_is_port_part_of_vlan`. -/
def nasOsIsPortPartOfVlan (vlanIfindex portIfindex : IfIndex) (db : IfDb) : Bool :=
  decide (vlanIfindex ∈ db.mbrIntfToVlanMap.under portIfindex)

end IfDb

/-! ## Messages -/

/-- `cps_api_operation_types_t`, as far as the handlers use it. -/
inductive IfOp where
  | create
  | set
  | delete
deriving DecidableEq

/-- The type of a message. -/
inductive RtmType where
  | newLink
  | delLink
  | other
deriving DecidableEq

/-- A link message: what is read from its header and attributes. -/
structure LinkMsg where
  rtmType : RtmType
  /-- `vrf_id == NAS_DEFAULT_VRF_ID`. -/
  defaultVrf : Bool
  ifindex : IfIndex
  /-- `IFF_UP`, `IFF_RUNNING` and `IFF_SLAVE`. -/
  up : Bool
  running : Bool
  slave : Bool
  infoKind : Option Str
  ifName : Option Str
  address : Option (List UInt8)
  mtu : Option ℤ
  link : Option IfIndex
  master : Option IfIndex

/-- What others answer while a message is handled. -/
structure LinkAnswers where
  /-- `check_bridge_membership_in_os`. -/
  isMember : Bool
  /-- `cps_api_interface_if_index_to_name` finds the name of the member. -/
  hasName : Bool
  /-- `cps_api_interface_name_to_if_index`; `0` for a name that it does not find. -/
  nameToIndex : Str → IfIndex
  /-- The result of `os_interface_stg_attrs_handler`. -/
  stgOk : Bool

/-- `if_details`. -/
structure IfDetails where
  op : IfOp
  type : IfType
  ifindex : IfIndex
  slave : Bool
  infoKind : Option Str
  ifName : Str
  link : Option IfIndex
  master : Option IfIndex
  parentIdx : IfIndex

/-- `strncmp(kind, text, strlen(text)) == 0` for a kind that is there. -/
def IfDetails.kindStarts (d : IfDetails) (text : String) : Bool :=
  match d.infoKind with
  | some kind => text.toList.isPrefixOf kind
  | none => false

/-- A handler gives its verdict, and may change the details and the tables
whatever the verdict is. -/
abbrev Handler := LinkAnswers → IfDetails → IfDb → Bool × IfDetails × IfDb

/-! ## Bonds -/

/-- The part of `os_interface_lag_attrs_handler` for a `tun` interface that is a
slave and has a master. -/
def lagMemberAdd (masterIdx : IfIndex) : Handler := fun a d db =>
  if db.bond.bondMbrPresent masterIdx d.ifindex then (true, d, db)
  else
    let db := { db with bond := db.bond.bondMbrAdd masterIdx d.ifindex }
    if a.hasName = false then (false, d, db)
    -- the attributes of the bond replace those of the member
    else if db.cache.ifInfoGetName masterIdx = [] then
      (false, { d with type := .lag, op := .create }, db)
    else (true, { d with type := .lag, op := .create }, db)

/-- The part of it for a `tun` interface that is a slave without a master. -/
def lagMemberDel : Handler := fun a d db =>
  let masterIdx := db.bond.bondMasterGet d.ifindex
  if masterIdx = 0 then (true, d, db)
  else
    let db := { db with bond := db.bond.bondMbrDel masterIdx d.ifindex }
    if a.hasName = false then (false, d, db)
    else (true, { d with type := .lag, op := .delete }, db)

/-- `os_interface_lag_attrs_handler`. -/
def lagAttrsHandler : Handler := fun a d db =>
  if d.type = .lag then (true, d, db)
  else if d.kindStarts "tun" && d.slave then
    match d.master with
    | some masterIdx => lagMemberAdd masterIdx a d db
    | none => lagMemberDel a d db
  else (true, d, db)

/-! ## Bridges -/

/-- The name that `nas_os_sub_intf_name_to_intf_ifindex` looks up: `strtok_r`
gives the first text between dots. -/
def firstToken (name : Str) : Str :=
  (name.dropWhile fun c => decide (c = '.')).takeWhile fun c => decide (c ≠ '.')

/-- The port of a member: the member itself, or the port under a tagged member.
`none` when there is no such port. -/
def memberPort (isTag : Bool) (a : LinkAnswers) (memIdx : IfIndex) (memName : Str) :
    Option IfIndex :=
  if isTag then
    if firstToken memName = [] ∨ a.nameToIndex (firstToken memName) = 0 then none
    else some (a.nameToIndex (firstToken memName))
  else some memIdx

/-- `os_interface_update_vlan_info`. -/
def updateVlanInfo (memIdx vlanIfIndex : IfIndex) (memName : Str) (isTag add : Bool)
    (a : LinkAnswers) (db : IfDb) : IfDb :=
  match memberPort isTag a memIdx memName with
  | none => db
  | some mbrIfindex =>
    if add then
      { db with mbrIntfToVlanMap := db.mbrIntfToVlanMap.add mbrIfindex vlanIfIndex }
    else
      let vlans := db.mbrIntfToVlanMap.discard mbrIfindex vlanIfIndex
      { db with
        mbrIntfToVlanMap :=
          if vlans.under mbrIfindex = [] then vlans.erase mbrIfindex else vlans }

/-- `bridge_tag_mbr_add` and `bridge_untag_mbr_add`. -/
def bridgeMbrAdd (tag : Bool) (masterIdx mbrIdx : IfIndex) (db : IfDb) : IfDb :=
  if tag then
    { db with bridge := { db.bridge with tagMap := db.bridge.tagMap.add masterIdx mbrIdx } }
  else { db with bridge := { db.bridge with untagMap := db.bridge.untagMap.add masterIdx mbrIdx } }

/-- `bridge_tag_mbr_del` and `bridge_untag_mbr_del`. -/
def bridgeMbrDel (tag : Bool) (masterIdx mbrIdx : IfIndex) (db : IfDb) : IfDb :=
  if tag then
    { db with bridge := { db.bridge with tagMap := db.bridge.tagMap.discard masterIdx mbrIdx } }
  else
    { db with bridge := { db.bridge with untagMap := db.bridge.untagMap.discard masterIdx mbrIdx } }

/-- `os_interface_vlan_bridge_handler`. -/
def vlanBridgeHandler (masIdx memIdx : IfIndex) (memName : Str) (tag : Bool) (a : LinkAnswers)
    (db : IfDb) : Bool × IfDb :=
  if db.bridge.bridgeMbrPresent masIdx memIdx then (false, db)
  else if a.isMember = false then (false, db)
  else (true, bridgeMbrAdd tag masIdx memIdx (updateVlanInfo memIdx masIdx memName tag true a db))

/-- The interfaces that are tagged members. -/
def IfType.tagged (t : IfType) : Bool := decide (t = .vlanSubintf) || decide (t = .vxlan)

/-- The part of `os_interface_bridge_attrs_handler` for a delete. -/
def bridgeMemberDel (masterIdx : IfIndex) : Handler := fun a d db =>
  let tag := d.type.tagged
  (true, { d with type := .l2Port },
    updateVlanInfo d.ifindex masterIdx d.ifName tag false a
      (bridgeMbrDel tag masterIdx d.ifindex db))

/-- The part of it for any other message of an interface with a link kind. -/
def bridgeMemberAdd (masterIdx : IfIndex) : Handler := fun a d db =>
  if d.kindStarts "tun" || decide (d.type = .lag) then
    match vlanBridgeHandler masterIdx d.ifindex d.ifName false a db with
    | (false, db) => (true, d, db)
    | (true, db) => (true, { d with type := .l2Port, op := .create }, db)
  else if d.type.tagged then
    let (added, db) := vlanBridgeHandler masterIdx d.ifindex d.ifName true a db
    (added, { d with type := .l2Port, op := .create }, db)
  else (true, d, db)

/-- `os_interface_bridge_attrs_handler`. -/
def bridgeAttrsHandler : Handler := fun a d db =>
  if d.type = .bridge then (true, d, db)
  else
    match d.master with
    | none => (true, d, db)
    | some masterIdx =>
      if d.op = .delete then bridgeMemberDel masterIdx a d db
      else if d.infoKind = none ∨ d.slave = true then (true, d, db)
      else bridgeMemberAdd masterIdx a d db

/-! ## The other handlers -/

/-- `os_interface_vlan_attrs_handler`. -/
def vlanAttrsHandler : Handler := fun _ d db =>
  if d.type = .vlanSubintf ∧ d.master = none ∧ d.op = .create then
    (true, { d with parentIdx := d.link.getD 0 }, db)
  else (true, d, db)

/-- `os_interface_macvlan_attrs_handler`. -/
def macvlanAttrsHandler : Handler := fun _ d db =>
  if d.kindStarts "macvlan" then (true, { d with type := .macvlan }, db) else (true, d, db)

/-- `os_interface_vxlan_attrs_handler`. -/
def vxlanAttrsHandler : Handler := fun _ d db =>
  if d.kindStarts "vxlan" && d.master.isNone then (true, { d with type := .vxlan }, db)
  else (true, d, db)

/-- `os_interface_stg_attrs_handler`. -/
def stgAttrsHandler : Handler := fun a d db => (a.stgOk, d, db)

/-- `std::stol` takes in the whole text. -/
def stolWhole (s : Str) : Bool :=
  let s := s.dropWhile fun c => decide (c = ' ') || (decide ('\t' ≤ c) && decide (c ≤ '\r'))
  let digits :=
    match s with
    | '-' :: rest => rest
    | '+' :: rest => rest
    | _ => s
  let n : ℤ := Nat.ofDigitChars 10 digits 0
  let value := if s.head? = some '-' then -n else n
  decide (digits ≠ []) && (digits.all Char.isDigit &&
    (decide (-9223372036854775808 ≤ value) && decide (value < 9223372036854775808)))

/-- `os_interface_is_valid_loopback_intf`. -/
def isValidLoopbackIntf (ifName : Str) : Bool :=
  if ifName = "dummy0".toList then false
  else if "dummy-bo-".toList.isPrefixOf ifName && stolWhole (ifName.drop 9) then false
  else true

/-- `os_interface_dummy_attrs_handler`. -/
def dummyAttrsHandler : Handler := fun _ d db =>
  if d.kindStarts "dummy" && isValidLoopbackIntf d.ifName then
    (true, { d with type := .loopback }, db)
  else (true, d, db)

/-- `os_interface_mgmt_attrs_handler`. -/
def mgmtAttrsHandler : Handler := fun _ d db =>
  if d.ifName = "eth0".toList then (true, { d with type := .management }, db) else (true, d, db)

/-- `os_interface_phy_attrs_handler` and `os_interface_ip_attrs_handler`. -/
def noAttrsHandler : Handler := fun _ d db => (true, d, db)

/-- The handlers in the order of `fptr`. -/
def handlers : List Handler :=
  [noAttrsHandler, lagAttrsHandler, vlanAttrsHandler, macvlanAttrsHandler, vxlanAttrsHandler,
    stgAttrsHandler, noAttrsHandler, dummyAttrsHandler, bridgeAttrsHandler, mgmtAttrsHandler]

/-- `if_hdlr`: the handlers in order, up to the first that fails. -/
def ifHdlr (a : LinkAnswers) : List Handler → IfDetails → IfDb → Bool × IfDetails × IfDb
  | [], d, db => (true, d, db)
  | h :: rest, d, db =>
    match h a d db with
    | (false, d, db) => (false, d, db)
    | (true, d, db) => ifHdlr a rest d db

/-! ## The message -/

/-- `info_kind_to_intf_type`. -/
def infoKindToIntfType (kind : Str) : Option IfType :=
  if kind = "tun".toList then some .l3Port
  else if kind = "bond".toList then some .lag
  else if kind = "bridge".toList then some .bridge
  else if kind = "vlan".toList then some .vlanSubintf
  else if kind = "macvlan".toList then some .macvlan
  else if kind = "vxlan".toList then some .vxlan
  else if kind = "dummy".toList then some .loopback
  else none

/-- `_if_op`: an interface that is in the cache is not created again. -/
def linkOp (m : LinkMsg) (c : IfCache) : IfOp :=
  match m.rtmType with
  | .newLink => if m.defaultVrf && c.ifInfoPresent m.ifindex then .set else .create
  | .delLink => .delete
  | .other => .set

/-- The type before the handlers: that of the link kind, or of the cache when
the message has no link kind. -/
def linkType (m : LinkMsg) (c : IfCache) : IfType :=
  match m.infoKind with
  | some kind => (infoKindToIntfType kind).getD .l3Port
  | none => (c.ifInfoGetType m.ifindex).getD .l3Port

/-- The details before the handlers. -/
def linkDetails (m : LinkMsg) (c : IfCache) : IfDetails where
  op := linkOp m c
  type := linkType m c
  ifindex := m.ifindex
  slave := m.slave
  infoKind := m.infoKind
  ifName := m.ifName.getD []
  link := m.link
  master := m.master
  parentIdx := 0

/-- `ifinfo` after the handlers. -/
def linkInfo (m : LinkMsg) (d : IfDetails) : IfInfo where
  admin := m.up
  oper := m.running
  mtu := m.mtu
  ifType := d.type
  osLinkType := m.infoKind.getD []
  phyAddr := m.address
  ifName := d.ifName
  masterIdx := m.master
  parentIdx := d.parentIdx

/-- A delete takes the interface out of the cache, unless it is a member that
was taken out of a bridge or a bond, or a MAC-VLAN interface. -/
def leavesCache (op : IfOp) (d : IfDetails) : Bool :=
  -- a bond without a link kind in the message makes `strncmp` read through a null pointer
  decide (op = .delete) &&
    ((decide (d.type ≠ .l2Port) && (decide (d.type ≠ .lag) && decide (d.type ≠ .macvlan))) ||
      (decide (d.type = .lag) && d.kindStarts "bond"))

/-- The cache after a message of the default VRF. -/
def updateCache (m : LinkMsg) (op : IfOp) (d : IfDetails) (c : IfCache) : IfCache :=
  let info := linkInfo m d
  let c := c.ifInfoUpdate m.ifindex info
  if leavesCache op d then c.ifInfoDelete m.ifindex d.ifName
  else if op = .delete ∧ d.type = .l2Port then
    c.ifInfoUpdate m.ifindex { info with masterIdx := some 0 }
  else c

/-- `os_interface_to_object`. -/
def osInterfaceToObject (m : LinkMsg) (a : LinkAnswers) (db : IfDb) : IfDb :=
  match ifHdlr a handlers (linkDetails m db.cache) db with
  | (false, _, db) => db
  | (true, d, db') =>
    if m.defaultVrf then { db' with cache := updateCache m (linkOp m db.cache) d db'.cache }
    else db'

/-- A message and what others answer while it is handled. -/
abbrev LinkInput := LinkMsg × LinkAnswers

/-- The tables after a message. -/
def linkStep (db : IfDb) (i : LinkInput) : IfDb := osInterfaceToObject i.1 i.2 db

/-- A message of the default VRF about an interface that is up. -/
def sampleLink (rtmType : RtmType) (ifindex : IfIndex) (ifName : String) (infoKind : Option String)
    (master : Option IfIndex) : LinkMsg :=
  ⟨rtmType, true, ifindex, true, true, false, infoKind.map String.toList, some ifName.toList, none,
    none, none, master⟩

/-- The kernel finds every member and the index `2` for every name. -/
def sampleAnswers : LinkAnswers := ⟨true, true, fun _ => 2, true⟩

end OpxNasLinux
