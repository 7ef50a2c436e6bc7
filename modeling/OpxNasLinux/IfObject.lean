import OpxNasLinux.IfNames

/-!
# A link message in full

`os_interface_to_object` fills a record of type `if_info_t`, lets the handlers
see the message, and updates the interface cache with the record.  `IfLink` has
the tables that come out of this.  This file adds what else the function reads
and decides:

* the records with all their fields, the event mask among them, and the changes
  that an update reports;
* every place where an attribute is read, with the check in front of it if there
  is one (`Reads`);
* the decision to publish.

The record lives on the stack and nothing clears it, so a field whose attribute
the message lacks has the value that was there before (`StackFill`).

* `runStages_eq` is the chain of handlers: it fails in two of the reads, or it does
  what the handlers do.
* `osInterfaceToObjectFull_eq` is the whole function.
* `osInterfaceToObjectFull_agrees`: where the message has all of its attributes,
  the tables are those of `osInterfaceToObject`.
-/

namespace OpxNasLinux.IfObject

/-! ## The records -/

/-- `if_change_t`.  A change of the master sets the bits of the administrative
state and of the MAC address. -/
abbrev IfChange := ℕ

def osIfChangeNone : IfChange := 0x0
def osIfAdmChange : IfChange := 0x1
def osIfMtuChange : IfChange := 0x2
def osIfPhyChange : IfChange := 0x4
def osIfMasterChange : IfChange := 0x5
def osIfOperChange : IfChange := 0x8
def osIfChangeAll : IfChange := 0xf

/-- `if_info_t`. -/
structure IfRecord where
  admin : Bool
  evMask : IfChange
  mtu : ℤ
  ifType : IfType
  osLinkType : Str
  phyAddr : List UInt8
  ifName : Str
  masterIdx : IfIndex
  parentIdx : IfIndex
  oper : Bool
deriving DecidableEq

/-- The part of a record that `IfCache` has. -/
def IfRecord.info (r : IfRecord) : IfInfo where
  admin := r.admin
  oper := r.oper
  mtu := some r.mtu
  ifType := r.ifType
  osLinkType := r.osLinkType
  phyAddr := some r.phyAddr
  ifName := r.ifName
  masterIdx := some r.masterIdx
  parentIdx := r.parentIdx

/-- The tables, with all fields of the records. -/
structure IfTables where
  ifMap : Dict IfIndex IfRecord
  nameIfindexMap : Dict Str IfIndex
  bond : IfBond
  bridge : IfBridge
  mbrIntfToVlanMap : Listing IfIndex IfIndex

namespace IfTables

/-- The tables before the first message. -/
def empty : IfTables := ⟨∅, ∅, ⟨∅, ∅⟩, ⟨∅, ∅⟩, ∅⟩

/-- The tables as `IfLink` has them. -/
def db (t : IfTables) : IfDb where
  cache := ⟨Dict.mapVal IfRecord.info t.ifMap, t.nameIfindexMap⟩
  bond := t.bond
  bridge := t.bridge
  mbrIntfToVlanMap := t.mbrIntfToVlanMap

/-- The tables after the handlers: they leave the cache alone. -/
def withMembers (db : IfDb) (t : IfTables) : IfTables :=
  { t with bond := db.bond, bridge := db.bridge, mbrIntfToVlanMap := db.mbrIntfToVlanMap }

/-- `if_info_setmask`. -/
def ifInfoSetmask (ifx : IfIndex) (maskVal : IfChange) (t : IfTables) : IfTables :=
  match t.ifMap.lookup ifx with
  | none => t
  | some r => { t with ifMap := t.ifMap.insert ifx { r with evMask := maskVal } }

/-- `if_info_getmask`. -/
def ifInfoGetmask (ifx : IfIndex) (t : IfTables) : IfChange :=
  ((t.ifMap.lookup ifx).map IfRecord.evMask).getD osIfChangeNone

/-- `zero_mac`. -/
def zeroMac : List UInt8 := [0, 0, 0, 0, 0, 0]

/-- `track_` for an interface that is known.  A MAC address of zeros is stored,
and not published. -/
def trackChange (old info : IfRecord) : IfChange :=
  (if old.admin = info.admin then osIfChangeNone else osIfAdmChange) |||
  (if old.oper = info.oper then osIfChangeNone else osIfOperChange) |||
  (if old.mtu = info.mtu then osIfChangeNone else osIfMtuChange) |||
  (if old.masterIdx = info.masterIdx then osIfChangeNone else osIfMasterChange) |||
  (if info.phyAddr = zeroMac ∨ old.phyAddr = info.phyAddr then osIfChangeNone else osIfPhyChange)

/-- `if_info_update`: the changes that it reports, and the tables behind it. -/
def ifInfoUpdate (ifx : IfIndex) (info : IfRecord) (t : IfTables) : IfChange × IfTables :=
  match t.ifMap.lookup ifx with
  | none =>
    (osIfChangeAll,
      { t with
        ifMap := t.ifMap.insert ifx info
        nameIfindexMap :=
          if info.ifName = [] then t.nameIfindexMap
          else t.nameIfindexMap.insert info.ifName ifx })
  | some old =>
    (trackChange old info,
      { t with
        ifMap := t.ifMap.insert ifx
          { old with
            admin := info.admin
            oper := info.oper
            mtu := info.mtu
            masterIdx := info.masterIdx
            phyAddr := info.phyAddr } })

/-- `if_info_delete`. -/
def ifInfoDelete (ifx : IfIndex) (name : Str) (t : IfTables) : IfTables :=
  { t with
    ifMap := t.ifMap.erase ifx
    nameIfindexMap := if name = [] then t.nameIfindexMap else t.nameIfindexMap.erase name }

end IfTables

/-! ## Reading a message -/

/-- The attributes in a nested attribute, by their type. -/
abbrev Nested := ℕ → Option (List UInt8)

/-- A link message with the nested attributes that the handlers look into. -/
structure FullLinkMsg extends LinkMsg where
  /-- `IFLA_INFO_DATA`. -/
  infoData : Option Nested
  /-- `IFLA_PROTINFO`. -/
  protinfo : Option Nested

/-- The ways in which a message makes the code read through a null pointer. -/
inductive Fault where
  | absentData
  | absentNested
  | nullKind
deriving DecidableEq

/-- `nla_data`. -/
def nlaData {α : Type} : Option α → Except Fault α
  | some v => .ok v
  | none => .error .absentData

/-- `nla_parse_nested`. -/
def nlaParseNested : Option Nested → Except Fault Nested
  | some nested => .ok nested
  | none => .error .absentNested

/-- `strncmp` with the link kind. -/
def strncmpKind (d : IfDetails) (text : String) : Except Fault Bool :=
  match d.infoKind with
  | some kind => .ok (text.toList.isPrefixOf kind)
  | none => .error .nullKind

/-- The data of an attribute behind a check that it is there. -/
def readIfThere {α : Type} (attr : Option α) : Except Fault Unit :=
  if attr.isSome then do
    let _ ← nlaData attr
    .ok ()
  else .ok ()

/-- What a handler reads from a message. -/
abbrev Reads := FullLinkMsg → IfDetails → Except Fault Unit

/-- The handlers that read nothing. -/
def noReads : Reads := fun _ _ => .ok ()

/-- The reads of `os_interface_lag_attrs_handler`. -/
def lagReads : Reads := fun _ d =>
  if d.type = .lag then .ok ()
  else do
    readIfThere d.master
    if d.infoKind.isSome then
      let _ ← strncmpKind d "tun"
    readIfThere d.master

/-- `IFLA_VLAN_ID`. -/
def iflaVlanId : ℕ := 1

/-- The reads of `os_interface_vlan_attrs_handler`.  Nothing checks that
`IFLA_LINK` and `IFLA_INFO_DATA` are there. -/
def vlanReads : Reads := fun x d =>
  if d.type = .vlanSubintf ∧ d.master = none ∧ d.op = .create then do
    let _ ← nlaData d.link
    let vlan ← nlaParseNested x.infoData
    readIfThere (vlan iflaVlanId)
  else .ok ()

/-- The reads of `os_interface_macvlan_attrs_handler`. -/
def macvlanReads : Reads := fun _ d =>
  if d.infoKind = none then .ok ()
  else do
    let _ ← strncmpKind d "macvlan"
    .ok ()

/-- `IFLA_VXLAN_ID`, `_LOCAL`, `_LOCAL6`, `_GROUP`, `_LINK`, `_PORT`, `_LEARNING`,
`_AGEING`, `_TTL`, `_TOS`, `_L2MISS` and `_L3MISS`. -/
def vxlanAttrs : List ℕ := [1, 4, 17, 2, 3, 15, 7, 8, 5, 6, 13, 14]

/-- The reads of `os_interface_vxlan_attrs_handler`.  Nothing checks that
`IFLA_INFO_DATA` is there. -/
def vxlanReads : Reads := fun x d =>
  if d.infoKind = none ∨ d.master ≠ none then .ok ()
  else do
    if ← strncmpKind d "vxlan" then
      let vxlan ← nlaParseNested x.infoData
      vxlanAttrs.forM fun attr => readIfThere (vxlan attr)

/-- `IFLA_BRPORT_STATE`. -/
def iflaBrportState : ℕ := 1

/-- The reads of `os_interface_stg_attrs_handler`. -/
def stgReads : Reads := fun x _ =>
  if x.protinfo.isSome then do
    let brinfo ← nlaParseNested x.protinfo
    readIfThere (brinfo iflaBrportState)
  else .ok ()

/-- The reads of `os_interface_dummy_attrs_handler`. -/
def dummyReads : Reads := fun _ d =>
  if d.infoKind = none then .ok ()
  else do
    let _ ← strncmpKind d "dummy"
    .ok ()

/-- The reads of `os_interface_bridge_attrs_handler`. -/
def bridgeReads : Reads := fun x d => do
  readIfThere d.master
  if d.type = .bridge ∨ d.master = none ∨ d.op = .delete ∨ d.infoKind = none ∨ d.slave = true then
    .ok ()
  else
    let tun ← strncmpKind d "tun"
    if (!tun && d.type.tagged) = true then
      let _ ← nlaData d.master
      if d.type = .vlanSubintf ∧ x.infoData.isSome then
        let vlan ← nlaParseNested x.infoData
        readIfThere (vlan iflaVlanId)

/-- The handlers in the order of `fptr`, each with its reads. -/
def stages : List (Reads × Handler) :=
  [(noReads, noAttrsHandler), (lagReads, lagAttrsHandler), (vlanReads, vlanAttrsHandler),
    (macvlanReads, macvlanAttrsHandler), (vxlanReads, vxlanAttrsHandler),
    (stgReads, stgAttrsHandler), (noReads, noAttrsHandler), (dummyReads, dummyAttrsHandler),
    (bridgeReads, bridgeAttrsHandler), (noReads, mgmtAttrsHandler)]

/-- `if_hdlr` with the reads. -/
def runStages (x : FullLinkMsg) (a : LinkAnswers) :
    List (Reads × Handler) → IfDetails → IfDb → Except Fault (Bool × IfDetails × IfDb)
  | [], d, db => .ok (true, d, db)
  | (reads, h) :: rest, d, db =>
    match reads x d with
    | .error f => .error f
    | .ok () =>
      match h a d db with
      | (false, d, db) => .ok (false, d, db)
      | (true, d, db) => runStages x a rest d db

/-! ## The function -/

/-- What is on the stack where `ifinfo` comes to lie. -/
structure StackFill where
  mtu : ℤ
  phyAddr : Fin 6 → UInt8
  masterIdx : IfIndex

/-- `ifinfo` after the handlers. -/
def stackRecord (fill : StackFill) (m : LinkMsg) (d : IfDetails) : IfRecord where
  admin := m.up
  evMask := osIfChangeNone
  mtu := m.mtu.getD fill.mtu
  ifType := d.type
  osLinkType := m.infoKind.getD []
  phyAddr := m.address.getD (List.ofFn fill.phyAddr)
  ifName := d.ifName
  masterIdx := m.master.getD fill.masterIdx
  parentIdx := d.parentIdx
  oper := m.running

/-- What a message leads to besides the tables: the changes that
`if_info_update` reports, and the decision to publish.  There is no decision
when the function returns an error first. -/
structure LinkSeen where
  track : Option IfChange
  publish : Option Bool
deriving DecidableEq

/-- `is_reserved_interface`. -/
def isReservedInterface (ifName : Str) : Bool :=
  ["eth", "mgmt", "veth-", "vdef-"].any fun text => text.toList.isPrefixOf ifName

/-- `evt_publish` for an interface that is not a member. -/
def evtPublish (ifx : IfIndex) (d : IfDetails) (track : IfChange) (t : IfTables) : Bool :=
  if track = osIfChangeNone then
    !(decide (d.op ≠ .delete) && (decide (d.type ≠ .l2Port) && !isReservedInterface d.ifName))
  else
    let mask := t.ifInfoGetmask ifx
    if mask = osIfChangeNone then true
    -- only the administrative state goes out of the object
    else if track ≠ osIfAdmChange ∧ mask = osIfAdmChange then true
    else if mask = osIfAdmChange then false
    else true

/-- The part of `os_interface_to_object` for a delete. -/
def forgetLink (ifx : IfIndex) (op : IfOp) (d : IfDetails) (info : IfRecord) (t : IfTables) :
    Except Fault IfTables :=
  if op ≠ .delete then .ok t
  else if d.type ≠ .l2Port ∧ d.type ≠ .lag ∧ d.type ≠ .macvlan then
    .ok (t.ifInfoDelete ifx d.ifName)
  else if d.type = .lag then
    match strncmpKind d "bond" with
    | .error f => .error f
    | .ok bond => .ok (if bond then t.ifInfoDelete ifx d.ifName else t)
  else if d.type = .l2Port then .ok (t.ifInfoUpdate ifx { info with masterIdx := 0 }).2
  else .ok t

/-- The part of it behind the handlers, for a message of the default VRF. -/
def updateTables (fill : StackFill) (m : LinkMsg) (op : IfOp) (d : IfDetails) (t : IfTables) :
    Except Fault (IfTables × LinkSeen) :=
  let info := stackRecord fill m d
  let track := (t.ifInfoUpdate m.ifindex info).1
  match forgetLink m.ifindex op d info (t.ifInfoUpdate m.ifindex info).2 with
  | .error f => .error f
  | .ok t =>
    if d.type = .l2Port ∨ (d.type = .lag ∧ m.master.isSome) then
      match nlaData m.master with
      | .error f => .error f
      | .ok ifix =>
        if t.db.cache.ifInfoGetName ifix = [] then .ok (t, ⟨some track, none⟩)
        else .ok (t, ⟨some track, some true⟩)
    else .ok (t, ⟨some track, some (evtPublish m.ifindex d track t)⟩)

/-- A new member of a bond has its event mask taken off. -/
def lagUnmask (d : IfDetails) (t : IfTables) : IfTables :=
  if lagMemberEvent d t.bond && d.master.isSome then t.ifInfoSetmask d.ifindex osIfChangeNone
  else t

/-- The reads in front of the handlers. -/
def attrReads (m : LinkMsg) : Except Fault Unit := do
  readIfThere m.infoKind
  readIfThere m.address
  readIfThere m.ifName
  readIfThere m.mtu
  readIfThere m.link
  readIfThere m.master

/-- A message and what others answer while it is handled. -/
abbrev FullInput := FullLinkMsg × LinkAnswers

/-- `os_interface_to_object` with its reads, for a stack with `fill` on it. -/
def osInterfaceToObjectFull (fill : StackFill) (t : IfTables) (i : FullInput) :
    Except Fault (IfTables × LinkSeen) :=
  let m := i.1.toLinkMsg
  let d := linkDetails m t.db.cache
  match attrReads m with
  | .error f => .error f
  | .ok () =>
    match runStages i.1 i.2 stages d t.db with
    | .error f => .error f
    | .ok (false, _, db) => .ok ((lagUnmask d t).withMembers db, ⟨none, none⟩)
    | .ok (true, d', db) =>
      let t' := (lagUnmask d t).withMembers db
      if m.defaultVrf then updateTables fill m (linkOp m t.db.cache) d' t'
      else .ok (t', ⟨none, some true⟩)

/-! ## The reads that are checked -/

@[simp] theorem readIfThere_eq {α : Type} (attr : Option α) : readIfThere attr = .ok () := by
  cases attr <;> rfl

theorem attrReads_eq (m : LinkMsg) : attrReads m = .ok () := by
  simp only [attrReads, readIfThere_eq]
  rfl

theorem strncmpKind_some {d : IfDetails} (h : d.infoKind ≠ none) (text : String) :
    strncmpKind d text = .ok (d.kindStarts text) := by
  rw [strncmpKind, IfDetails.kindStarts]
  cases hkind : d.infoKind with
  | none => exact absurd hkind h
  | some kind => rfl

theorem lagReads_eq (x : FullLinkMsg) (d : IfDetails) : lagReads x d = .ok () := by
  rw [lagReads]
  split
  · rfl
  simp only [readIfThere_eq]
  cases hkind : d.infoKind with
  | none => rfl
  | some kind =>
    rw [strncmpKind_some (by simp [hkind])]
    rfl

theorem macvlanReads_eq (x : FullLinkMsg) (d : IfDetails) : macvlanReads x d = .ok () := by
  rw [macvlanReads]
  split
  · rfl
  · rename_i hkind
    rw [strncmpKind_some hkind]
    rfl

theorem stgReads_eq (x : FullLinkMsg) (d : IfDetails) : stgReads x d = .ok () := by
  rw [stgReads]
  cases x.protinfo with
  | none => rfl
  | some brinfo => exact readIfThere_eq (brinfo iflaBrportState)

theorem dummyReads_eq (x : FullLinkMsg) (d : IfDetails) : dummyReads x d = .ok () := by
  rw [dummyReads]
  split
  · rfl
  · rename_i hkind
    rw [strncmpKind_some hkind]
    rfl

theorem bridgeReads_eq (x : FullLinkMsg) (d : IfDetails) : bridgeReads x d = .ok () := by
  rw [bridgeReads, readIfThere_eq]
  show (if _ then _ else _) = _
  split
  · rfl
  rename_i hon
  simp only [not_or] at hon
  obtain ⟨-, hmaster, -, hkind, -⟩ := hon
  obtain ⟨masterIdx, hmaster⟩ := Option.ne_none_iff_exists'.mp hmaster
  rw [strncmpKind_some hkind, hmaster]
  show (if _ then _ else _) = _
  split
  · show (if _ then _ else _) = _
    split
    · rename_i hdata
      obtain ⟨vlan, hvlan⟩ := Option.isSome_iff_exists.mp hdata.2
      rw [hvlan]
      exact readIfThere_eq (vlan iflaVlanId)
    · rfl
  · rfl

/-! ## The chain of handlers with its reads -/

section

variable {x : FullLinkMsg} {a : LinkAnswers} {reads : Reads} {h : Handler}
  {rest : List (Reads × Handler)} {d d' : IfDetails} {db db' : IfDb}

/-- A handler whose reads are all right, and the rest of the chain. -/
theorem runStages_ok {hs : List Handler} (hreads : reads x d = .ok ())
    (hrest : ∀ d' db', h a d db = (true, d', db') →
      runStages x a rest d' db' = .ok (ifHdlr a hs d' db')) :
    runStages x a ((reads, h) :: rest) d db = .ok (ifHdlr a (h :: hs) d db) := by
  rw [runStages, hreads, ifHdlr]
  rcases hh : h a d db with ⟨ok, d', db'⟩
  cases ok with
  | false => rfl
  | true => exact hrest d' db' hh

theorem runStages_error {f : Fault} (hreads : reads x d = .error f) :
    runStages x a ((reads, h) :: rest) d db = .error f := by
  rw [runStages, hreads]

/-- A chain behind a handler that accepts the message. -/
theorem runStages_next (hreads : reads x d = .ok ()) (hh : h a d db = (true, d', db')) :
    runStages x a ((reads, h) :: rest) d db = runStages x a rest d' db' := by
  rw [runStages, hreads, hh]

/-- A chain whose reads are all checked. -/
theorem runStages_checked {hs : List (Reads × Handler)}
    (hreads : ∀ s ∈ hs, ∀ d, s.1 x d = .ok ()) (d : IfDetails) (db : IfDb) :
    runStages x a hs d db = .ok (ifHdlr a (hs.map Prod.snd) d db) := by
  induction hs generalizing d db with
  | nil => rfl
  | cons s rest ih =>
    have hrest : ∀ s ∈ rest, ∀ d, s.1 x d = .ok () :=
      fun s hs => hreads s (List.mem_cons_of_mem _ hs)
    exact runStages_ok (hreads s List.mem_cons_self d) fun d' db' _ => ih hrest d' db'

end

/-- What a handler reads depends on the link kind and the master only. -/
theorem vxlanReads_congr {x : FullLinkMsg} {d d' : IfDetails} (hkind : d'.infoKind = d.infoKind)
    (hmaster : d'.master = d.master) : vxlanReads x d' = vxlanReads x d := by
  rw [vxlanReads, vxlanReads, strncmpKind, strncmpKind, hkind, hmaster]

/-- A message that turns into one about a bond is read in the same way. -/
theorem vlanReads_lagDetails (x : FullLinkMsg) (c : IfCache) (b : IfBond) :
    vlanReads x (lagDetails (linkDetails x.toLinkMsg c) b) =
      vlanReads x (linkDetails x.toLinkMsg c) := by
  cases hevent : lagMemberEvent (linkDetails x.toLinkMsg c) b with
  | false => rw [lagDetails_of_not_event hevent]
  | true =>
    have hkind := (lagMemberEvent_slave hevent).1
    have htype : (linkDetails x.toLinkMsg c).type = .l3Port := by
      rcases @linkType_of_kindStarts _ c ("tun", .l3Port) (by decide) hkind with h | h <;> exact h
    rw [vlanReads, vlanReads, lagDetails, hevent, htype]
    rfl

/-- It keeps its link kind and its master. -/
theorem lagDetails_keeps (d : IfDetails) (b : IfBond) :
    (lagDetails d b).infoKind = d.infoKind ∧ (lagDetails d b).master = d.master := by
  rw [lagDetails]
  split <;> exact ⟨rfl, rfl⟩

/-- The handlers from that of the STP states on. -/
def checkedStages : List (Reads × Handler) :=
  [(stgReads, stgAttrsHandler), (noReads, noAttrsHandler), (dummyReads, dummyAttrsHandler),
    (bridgeReads, bridgeAttrsHandler), (noReads, mgmtAttrsHandler)]

theorem checkedStages_reads (x : FullLinkMsg) :
    ∀ s ∈ checkedStages, ∀ d, s.1 x d = .ok () := by
  intro s hs d
  simp only [checkedStages, List.mem_cons, List.not_mem_nil, or_false] at hs
  rcases hs with rfl | rfl | rfl | rfl | rfl
  · exact stgReads_eq x d
  · rfl
  · exact dummyReads_eq x d
  · exact bridgeReads_eq x d
  · rfl

/-- The chain fails in the reads for VLAN and VXLAN interfaces, or it does what
the handlers do. -/
theorem runStages_eq (x : FullLinkMsg) (a : LinkAnswers) (db : IfDb) :
    let d := linkDetails x.toLinkMsg db.cache
    runStages x a stages d db =
      match vlanReads x d with
      | .error f => .error f
      | .ok () =>
        match vxlanReads x d with
        | .error f => .error f
        | .ok () => .ok (ifHdlr a handlers d db) := by
  intro d
  obtain ⟨hverdict, hdetails, -⟩ := lagAttrsHandler_eq a d db
  show runStages x a ((lagReads, lagAttrsHandler) :: (vlanReads, vlanAttrsHandler) ::
    (macvlanReads, macvlanAttrsHandler) :: (vxlanReads, vxlanAttrsHandler) ::
      checkedStages) d db = _
  cases hrefuses : lagRefuses a d db with
  | true =>
    -- a message that the handler of the bonds refuses is one of a `tun` interface
    have hevent : lagMemberEvent d db.bond = true := (Bool.and_eq_true_iff.mp hrefuses).1
    have htun := (lagMemberEvent_slave hevent).1
    have htype : d.type = .l3Port := by
      rcases @linkType_of_kindStarts _ db.cache ("tun", .l3Port) (by decide) htun with h | h <;>
        exact h
    have hvxlan : d.kindStarts "vxlan" = false :=
      @kindStarts_other d ("tun", .l3Port) ("vxlan", .vxlan) (by decide) (by decide) (by decide)
        htun
    have hkind : d.infoKind ≠ none := by
      intro hnone
      rw [IfDetails.kindStarts, hnone] at htun
      cases htun
    have hvlanReads : vlanReads x d = .ok () := by
      rw [vlanReads, htype, if_neg (by simp)]
    have hvxlanReads : vxlanReads x d = .ok () := by
      rw [vxlanReads, strncmpKind_some hkind, hvxlan]
      split <;> rfl
    rw [hvlanReads, hvxlanReads]
    refine runStages_ok (lagReads_eq x d) fun d' db' hh => ?_
    rw [hh, hrefuses] at hverdict
    cases hverdict
  | false =>
    have hlag : lagAttrsHandler a d db =
        (true, lagDetails d db.bond, (lagAttrsHandler a d db).2.2) := by
      rw [← hdetails hrefuses]
      exact Prod.ext (hverdict.trans (by rw [hrefuses]; rfl)) rfl
    have hhandlers : ifHdlr a handlers d db = ifHdlr a (vlanAttrsHandler :: macvlanAttrsHandler ::
        vxlanAttrsHandler :: checkedStages.map Prod.snd) (lagDetails d db.bond)
          (lagAttrsHandler a d db).2.2 := ifHdlr_cons_true hlag _
    have hvlanReads : vlanReads x (lagDetails d db.bond) = vlanReads x d :=
      vlanReads_lagDetails x db.cache db.bond
    rw [runStages_next (lagReads_eq x d) hlag, hhandlers, ← hvlanReads]
    obtain ⟨hlagKind, hlagMaster⟩ := lagDetails_keeps d db.bond
    generalize lagDetails d db.bond = d1 at hlagKind hlagMaster ⊢
    generalize (lagAttrsHandler a d db).2.2 = db1
    cases hread : vlanReads x d1 with
    | error f => exact runStages_error hread
    | ok u =>
      rw [runStages_next hread (vlanAttrsHandler_eq a d1 db1),
        runStages_next (macvlanReads_eq x _) (macvlanAttrsHandler_eq a _ db1),
        ifHdlr_cons_true (vlanAttrsHandler_eq a d1 db1),
        ifHdlr_cons_true (macvlanAttrsHandler_eq a _ db1)]
      cases hread : vxlanReads x d with
      | error f =>
        exact runStages_error ((vxlanReads_congr hlagKind hlagMaster).trans hread)
      | ok u =>
        exact runStages_ok ((vxlanReads_congr hlagKind hlagMaster).trans hread) fun d' db' _ =>
          runStages_checked (checkedStages_reads x) d' db'

/-! ## The event masks -/

namespace IfTables

/-- The mask of one interface changes, if the cache has it. -/
theorem setmask_lookup (t : IfTables) (ix ix' : IfIndex) (maskVal : IfChange) :
    (t.ifInfoSetmask ix maskVal).ifMap.lookup ix' =
      (t.ifMap.lookup ix').map fun r => if ix' = ix then { r with evMask := maskVal } else r := by
  rw [ifInfoSetmask]
  cases hlookup : t.ifMap.lookup ix with
  | none =>
    by_cases hix : ix' = ix
    · rw [hix, hlookup]
      rfl
    · simp [hix]
  | some r =>
    by_cases hix : ix' = ix
    · rw [hix, hlookup]
      simp
    · simp [hix, AList.lookup_insert_ne hix]

theorem setmask_keeps (t : IfTables) (ix : IfIndex) (maskVal : IfChange) :
    (t.ifInfoSetmask ix maskVal).nameIfindexMap = t.nameIfindexMap ∧
      (t.ifInfoSetmask ix maskVal).bond = t.bond ∧
      (t.ifInfoSetmask ix maskVal).bridge = t.bridge ∧
      (t.ifInfoSetmask ix maskVal).mbrIntfToVlanMap = t.mbrIntfToVlanMap := by
  rw [ifInfoSetmask]
  split <;> exact ⟨rfl, rfl, rfl, rfl⟩

end IfTables

/-! ## The tables of `IfLink` -/

/-- The tables have the same interfaces and the same members. -/
structure Agrees (t : IfTables) (db : IfDb) : Prop where
  records : ∀ ix, t.db.cache.ifMap.lookup ix = db.cache.ifMap.lookup ix
  names : t.nameIfindexMap = db.cache.nameIfindexMap
  bond : t.bond = db.bond
  bridge : t.bridge = db.bridge
  vlans : t.mbrIntfToVlanMap = db.mbrIntfToVlanMap

namespace Agrees

variable {t : IfTables} {db : IfDb}

theorem refl (t : IfTables) : Agrees t t.db := ⟨fun _ => rfl, rfl, rfl, rfl, rfl⟩

theorem setmask (h : Agrees t db) (ix : IfIndex) (maskVal : IfChange) :
    Agrees (t.ifInfoSetmask ix maskVal) db := by
  obtain ⟨hnames, hbond, hbridge, hvlans⟩ := t.setmask_keeps ix maskVal
  refine ⟨fun ix' => ?_, hnames.trans h.names, hbond.trans h.bond, hbridge.trans h.bridge,
    hvlans.trans h.vlans⟩
  rw [← h.records ix', IfTables.db, IfTables.db, Dict.lookup_mapVal, Dict.lookup_mapVal,
    IfTables.setmask_lookup]
  cases t.ifMap.lookup ix' with
  | none => rfl
  | some r =>
    rw [Option.map_some, Option.map_some, Option.map_some]
    split <;> rfl

theorem unmask (h : Agrees t db) (d : IfDetails) : Agrees (lagUnmask d t) db := by
  rw [lagUnmask]
  split
  · exact h.setmask d.ifindex osIfChangeNone
  · exact h

/-- The handlers leave the cache alone. -/
theorem members (h : Agrees t db) {db' : IfDb} (hcache : db'.cache = db.cache) :
    Agrees (t.withMembers db') db' :=
  ⟨fun ix => (h.records ix).trans (by rw [hcache]), h.names.trans (by rw [hcache]), rfl, rfl, rfl⟩

theorem update (h : Agrees t db) (ix : IfIndex) (r : IfRecord) :
    Agrees (t.ifInfoUpdate ix r).2 { db with cache := db.cache.ifInfoUpdate ix r.info } := by
  have hix := h.records ix
  rw [IfTables.db, Dict.lookup_mapVal] at hix
  rw [IfTables.ifInfoUpdate, IfCache.ifInfoUpdate]
  cases hlookup : t.ifMap.lookup ix with
  | none =>
    rw [hlookup, Option.map_none] at hix
    rw [← hix]
    refine ⟨fun ix' => ?_, ?_, h.bond, h.bridge, h.vlans⟩
    · have hix' := h.records ix'
      rw [IfTables.db, Dict.lookup_mapVal] at hix' ⊢
      by_cases heq : ix' = ix
      · rw [heq, AList.lookup_insert, AList.lookup_insert]
        rfl
      · rw [AList.lookup_insert_ne heq, AList.lookup_insert_ne heq, hix']
    · show (if _ then _ else _) = if _ then _ else _
      rw [h.names]
      rfl
  | some old =>
    rw [hlookup, Option.map_some] at hix
    rw [← hix]
    refine ⟨fun ix' => ?_, h.names, h.bond, h.bridge, h.vlans⟩
    have hix' := h.records ix'
    rw [IfTables.db, Dict.lookup_mapVal] at hix' ⊢
    by_cases heq : ix' = ix
    · rw [heq, AList.lookup_insert, AList.lookup_insert]
      rfl
    · rw [AList.lookup_insert_ne heq, AList.lookup_insert_ne heq, hix']

theorem delete (h : Agrees t db) (ix : IfIndex) (name : Str) :
    Agrees (t.ifInfoDelete ix name) { db with cache := db.cache.ifInfoDelete ix name } := by
  rw [IfTables.ifInfoDelete, IfCache.ifInfoDelete]
  refine ⟨fun ix' => ?_, ?_, h.bond, h.bridge, h.vlans⟩
  · have hix' := h.records ix'
    rw [IfTables.db, Dict.lookup_mapVal] at hix' ⊢
    by_cases heq : ix' = ix
    · rw [heq, AList.lookup_erase, AList.lookup_erase]
      rfl
    · rw [AList.lookup_erase_ne heq, AList.lookup_erase_ne heq, hix']
  · show (if _ then _ else _) = if _ then _ else _
    rw [h.names]

end Agrees

/-- The message has every attribute that goes into a record. -/
structure Carried (m : LinkMsg) : Prop where
  mtu : m.mtu.isSome = true
  address : m.address.isSome = true
  master : m.master.isSome = true

instance (m : LinkMsg) : Decidable (Carried m) :=
  decidable_of_iff (m.mtu.isSome = true ∧ m.address.isSome = true ∧ m.master.isSome = true)
    ⟨fun h => ⟨h.1, h.2.1, h.2.2⟩, fun h => ⟨h.mtu, h.address, h.master⟩⟩

/-- Nothing of the stack is in the record of such a message. -/
theorem Carried.record {m : LinkMsg} (h : Carried m) (fill : StackFill) (d : IfDetails) :
    (stackRecord fill m d).info = linkInfo m d := by
  obtain ⟨mtu, hmtu⟩ := Option.isSome_iff_exists.mp h.mtu
  obtain ⟨address, haddress⟩ := Option.isSome_iff_exists.mp h.address
  obtain ⟨masterIdx, hmaster⟩ := Option.isSome_iff_exists.mp h.master
  rw [stackRecord, IfRecord.info, linkInfo, hmtu, haddress, hmaster]
  rfl

/-- What a delete leaves, when it reads no link kind that is absent. -/
theorem forgetLink_eq {ifx : IfIndex} {op : IfOp} {d : IfDetails} {r : IfRecord} {t t' : IfTables}
    (h : forgetLink ifx op d r t = .ok t') :
    t' =
      if leavesCache op d then t.ifInfoDelete ifx d.ifName
      else if op = .delete ∧ d.type = .l2Port then (t.ifInfoUpdate ifx { r with masterIdx := 0 }).2
      else t := by
  rw [forgetLink] at h
  rw [leavesCache]
  split at h
  · rename_i hop
    cases h
    simp [hop]
  rename_i hop
  rw [not_not.mp hop]
  split at h
  · rename_i htype
    cases h
    simp [htype.1, htype.2.1, htype.2.2]
  rename_i htype
  split at h
  · rename_i hlag
    cases hkind : d.infoKind with
    | none =>
      rw [strncmpKind, hkind] at h
      cases h
    | some kind =>
      rw [strncmpKind_some (by simp [hkind])] at h
      cases h
      simp [hlag]
  rename_i hlag
  split at h
  · rename_i hl2
    cases h
    simp [hl2]
  · rename_i hl2
    cases h
    have hmac : d.type = .macvlan := by simpa [hl2, hlag] using htype
    simp [hmac]

theorem forgetLink_agrees {ifx : IfIndex} {op : IfOp} {d : IfDetails} {r : IfRecord} {m : LinkMsg}
    {t t' : IfTables} {db : IfDb} (hinfo : r.info = linkInfo m d) (h : Agrees t db)
    (hforget : forgetLink ifx op d r t = .ok t') :
    Agrees t' { db with
      cache :=
        if leavesCache op d then db.cache.ifInfoDelete ifx d.ifName
        else if op = .delete ∧ d.type = .l2Port then
          db.cache.ifInfoUpdate ifx { linkInfo m d with masterIdx := some 0 }
        else db.cache } := by
  have hzero : { linkInfo m d with masterIdx := some 0 } = ({ r with masterIdx := 0 }).info := by
    rw [← hinfo]
    rfl
  rw [forgetLink_eq hforget, hzero]
  split
  · exact h.delete ifx d.ifName
  split
  · exact h.update ifx { r with masterIdx := 0 }
  · exact h

/-- The decision to publish, from the changes and from the tables that the
message leaves. -/
def linkPublish (m : LinkMsg) (d : IfDetails) (track : IfChange) (t : IfTables) : Option Bool :=
  if d.type = .l2Port ∨ (d.type = .lag ∧ m.master.isSome) then
    if t.db.cache.ifInfoGetName (m.master.getD 0) = [] then none else some true
  else some (evtPublish m.ifindex d track t)

/-- The tables behind the handlers are those of the update and the delete. -/
theorem updateTables_ok {fill : StackFill} {m : LinkMsg} {op : IfOp} {d : IfDetails}
    {t t' : IfTables} {seen : LinkSeen} (h : updateTables fill m op d t = .ok (t', seen)) :
    forgetLink m.ifindex op d (stackRecord fill m d)
        (t.ifInfoUpdate m.ifindex (stackRecord fill m d)).2 = .ok t' ∧
      seen = ⟨some (t.ifInfoUpdate m.ifindex (stackRecord fill m d)).1,
        linkPublish m d (t.ifInfoUpdate m.ifindex (stackRecord fill m d)).1 t'⟩ := by
  rw [updateTables] at h
  cases hforget : forgetLink m.ifindex op d (stackRecord fill m d)
    (t.ifInfoUpdate m.ifindex (stackRecord fill m d)).2 with
  | error f =>
    rw [hforget] at h
    cases h
  | ok t1 =>
    rw [hforget] at h
    dsimp only at h
    split at h
    · rename_i hmember
      cases hmaster : m.master with
      | none =>
        rw [hmaster] at h
        cases h
      | some ifix =>
        rw [hmaster] at h hmember
        dsimp only [nlaData] at h
        split at h
        · rename_i hname
          cases h
          rw [linkPublish, hmaster, if_pos hmember, Option.getD_some, if_pos hname]
          exact ⟨rfl, rfl⟩
        · rename_i hname
          cases h
          rw [linkPublish, hmaster, if_pos hmember, Option.getD_some, if_neg hname]
          exact ⟨rfl, rfl⟩
    · rename_i hmember
      cases h
      rw [linkPublish, if_neg hmember]
      exact ⟨rfl, rfl⟩

/-- The whole function, once the reads for VLAN and VXLAN interfaces are made. -/
theorem osInterfaceToObjectFull_eq (fill : StackFill) (t : IfTables) (x : FullLinkMsg)
    (a : LinkAnswers) :
    let d := linkDetails x.toLinkMsg t.db.cache
    let behind := ifHdlr a handlers d t.db
    let t1 := (lagUnmask d t).withMembers behind.2.2
    osInterfaceToObjectFull fill t (x, a) =
      match vlanReads x d with
      | .error f => .error f
      | .ok () =>
        match vxlanReads x d with
        | .error f => .error f
        | .ok () =>
          if reachesCache t.db (x.toLinkMsg, a) then
            updateTables fill x.toLinkMsg (linkOp x.toLinkMsg t.db.cache) behind.2.1 t1
          else .ok (t1, ⟨none, if accepts a d t.db then some true else none⟩) := by
  intro d behind t1
  obtain ⟨hverdict, -, -⟩ := ifHdlr_handlers a x.toLinkMsg t.db
  have hverdict : behind.1 = accepts a d t.db := hverdict
  rw [osInterfaceToObjectFull, attrReads_eq]
  dsimp only
  rw [runStages_eq]
  cases vlanReads x (linkDetails x.toLinkMsg t.db.cache) with
  | error f => rfl
  | ok u =>
    cases vxlanReads x (linkDetails x.toLinkMsg t.db.cache) with
    | error f => rfl
    | ok u =>
      have hreach : reachesCache t.db (x.toLinkMsg, a) = (x.defaultVrf && behind.1) := by
        rw [hverdict]
        rfl
      dsimp only
      rw [hreach, ← hverdict]
      have hall : ifHdlr a handlers d t.db = (behind.1, behind.2.1, behind.2.2) := rfl
      rw [hall]
      cases behind.1 with
      | false =>
        rw [Bool.and_false]
        rfl
      | true =>
        rw [Bool.and_true]
        rfl

/-- A message that carries all of it, and that makes the code read through no
null pointer, leaves the tables that `osInterfaceToObject` leaves. -/
theorem osInterfaceToObjectFull_agrees {fill : StackFill} {t t' : IfTables} {i : FullInput}
    {seen : LinkSeen} (hcarried : Carried i.1.toLinkMsg)
    (h : osInterfaceToObjectFull fill t i = .ok (t', seen)) :
    Agrees t' (osInterfaceToObject i.1.toLinkMsg i.2 t.db) := by
  obtain ⟨x, a⟩ := i
  have hmembers := ((Agrees.refl t).unmask (linkDetails x.toLinkMsg t.db.cache)).members
    (ifHdlr_cache a x.toLinkMsg t.db)
  obtain ⟨hverdict, -, -⟩ := ifHdlr_handlers a x.toLinkMsg t.db
  rw [osInterfaceToObjectFull_eq] at h
  split at h
  · cases h
  split at h
  · cases h
  rw [osInterfaceToObject]
  rw [reachesCache] at h
  dsimp only at h hverdict ⊢
  rw [← hverdict] at h
  rcases hall : ifHdlr a handlers (linkDetails x.toLinkMsg t.db.cache) t.db with ⟨ok, d', db'⟩
  rw [hall] at h hmembers
  cases ok with
  | false =>
    rw [Bool.and_false] at h
    cases h
    exact hmembers
  | true =>
    rw [Bool.and_true] at h
    dsimp only at h ⊢
    split at h
    · rename_i hvrf
      have hrecord := hcarried.record fill d'
      have hupdate := hmembers.update x.ifindex (stackRecord fill x.toLinkMsg d')
      have hforget := forgetLink_agrees hrecord hupdate (updateTables_ok h).1
      rw [hrecord] at hforget
      rw [if_pos hvrf, updateCache]
      exact hforget
    · rename_i hvrf
      rw [if_neg hvrf]
      cases h
      exact hmembers

end OpxNasLinux.IfObject
