import Mathlib.Data.Finset.Insert
import OpxNasLinux.Lib.Run
import OpxNasLinux.IpAddress
import OpxNasLinux.NeighNetconf
import OpxNasLinux.NlDump

/-!
# Addresses that the kernel reports

`nl_get_ip_info` makes an object of a message about an address.  The kernel
repeats the message about a dynamic IPv6 address, so the function remembers the
addresses it has seen, and drops a message about one of them.  The event thread
and the get requests go through the same function, and the same set.

* `nlGetIpInfo` is the function, and `nasOsIpAddrReadFunction` the get.
* `Touches` says that a message gets to the set.
* `recorded_iff` says which addresses are in the set after any history.
* `reported_iff` says when a message about one of them makes an object.
* `second_read` is what two equal answers to a get give.
-/

namespace OpxNasLinux.IpInfo

open Run Netlink
open NlDump (Msg Scratch Turn processSocket)
open McastIfNames (safestrncpy)
open IpAddress (Defs IntfDb KeyInfo Request nasOsIpKeyInfoGet)

def ifaFManagetempaddr : BitVec 32 := 0x100
def ifaFDadfailed : BitVec 32 := 0x08

/-! ## The message -/

/-- A message about an address, after `nla_parse`. -/
structure AddrMsg where
  /-- `nlmsg_len` covers a `struct ifaddrmsg`. -/
  whole : Bool
  type : BitVec 16
  family : UInt8
  ifIndex : BitVec 32
  prefixLen : UInt8
  /-- The bytes behind `IFA_ADDRESS` that are read. -/
  address : Option Bytes
  /-- `IFA_LABEL`. -/
  label : Option Str
  /-- `IFA_FLAGS`. -/
  flags : Option (BitVec 32)

/-- What the rest of the system answers while a message is handled. -/
structure Env where
  /-- `NAS_DEFAULT_VRF_ID`. -/
  defaultVrfId : BitVec 32
  /-- `nas_os_get_vrf_name`. -/
  vrfName : BitVec 32 → Option Str
  /-- `dn_hal_get_interface_info`: the name, and whether it is a MACVLAN. -/
  halIntf : BitVec 32 → Option (Str × Bool)
  /-- `cps_api_interface_if_index_to_name`. -/
  osName : BitVec 32 → Option Str
  /-- `std_ip_to_string`. -/
  ipToString : Bytes → Str
  /-- `nas_os_util_int_if_name_get`. -/
  ifName : Str → BitVec 32 → Option Str
  /-- `nas_os_read_ipv6_status`. -/
  ipv6Status : Str → Str → Option Bool

inductive Qualifier where
  | observed
  | target
deriving DecidableEq

inductive Oper where
  | create
  | delete
  | set
deriving DecidableEq

/-- The object. -/
structure Obj where
  qual : Qualifier
  oper : Oper
  family : UInt8
  vrfName : Str
  vrfId : BitVec 32
  ifIndex : BitVec 32
  prefixLen : UInt8
  address : Option Bytes
  ifName : Option Str
  dadFailed : Bool
  autoconfAddr : Bool
  enabled : Option Bool
deriving DecidableEq

/-- `ip_addr_key_t`. -/
structure Key where
  vrfId : BitVec 32
  ifIndex : BitVec 32
  ipAddr : Str
deriving DecidableEq

/-! ## The function -/

/-- `nas_os_handle_dynamic_ipv6_addr`: `is_dup`, and the set. -/
def handleDynamicIpv6Addr (isDel : Bool) (key : Key) (addrMap : Finset Key) : Bool × Finset Key :=
  if key ∈ addrMap then
    if isDel then (false, addrMap.erase key) else (true, addrMap)
  else if isDel then (false, addrMap) else (false, insert key addrMap)

/-- `nas_os_is_reserved_ipv4`. -/
def isReservedIpv4 (ip : Bytes) : Bool := ip.getD 0 0 == 0x7f

/-- `STD_IP_IS_V6_ADDR_LOOP_BACK`. -/
def isV6LoopBack (ip : Bytes) : Bool := ip == List.replicate 15 0 ++ [1]

/-- `nas_os_is_reserved_ipv6`. -/
def isReservedIpv6 (ip : Bytes) : Bool :=
  (ip.getD 0 0 == 0xff && ip.getD 1 0 &&& 0xf0 == 0) || isV6LoopBack ip

/-- `nas_rt_is_reserved_intf_idx`, for a check of sub interfaces. -/
def isReservedIntfIdx (env : Env) (ifIndex : BitVec 32) : Bool :=
  (((env.halIntf ifIndex).map Prod.fst).orElse fun _ => env.osName ifIndex).any fun name =>
    name.contains '.' || name == "lo".toList

/-- The message is about a sub interface of the default VRF that is ignored. -/
def ignoredIntf (env : Env) (vrfId : BitVec 32) (ifIndex : BitVec 32) : Bool :=
  vrfId == env.defaultVrfId && !(env.halIntf ifIndex).any Prod.snd &&
    isReservedIntfIdx env ifIndex

/-- The address is one that is ignored. -/
def ignoredAddr (m : AddrMsg) : Bool :=
  m.address.any fun ip =>
    if m.family = afInet then isReservedIpv4 ip
    else if m.family = afInet6 then isReservedIpv6 ip
    else false

/-- `ifa_flags`. -/
def ifaFlags (m : AddrMsg) : BitVec 32 :=
  if m.family = afInet6 then m.flags.getD 0 else 0

def dadFailed (m : AddrMsg) : Bool := ifaFlags m &&& ifaFDadfailed != 0
def dynamic (m : AddrMsg) : Bool := ifaFlags m &&& ifaFManagetempaddr != 0

/-- The key under which the function looks a dynamic address up. -/
def dynamicKey (env : Env) (vrfId : BitVec 32) (m : AddrMsg) : Option Key :=
  if dynamic m then
    m.address.bind fun ip =>
      if m.family = afInet6 ∧ (m.type = rtmDeladdr ∨ dadFailed m = false) then
        some ⟨vrfId, m.ifIndex, env.ipToString ip⟩
      else none
  else none

/-- The operation of the object. -/
def operOf (type : BitVec 16) : Oper :=
  if type = rtmNewaddr then .create else if type = rtmDeladdr then .delete else .set

/-- The object before the name of its interface. -/
def objOf (vrfId : BitVec 32) (qual : Qualifier) (m : AddrMsg) (vrfName : Str) : Obj :=
  { qual, oper := operOf m.type, family := m.family, vrfName, vrfId, ifIndex := m.ifIndex
    prefixLen := m.prefixLen, address := m.address, ifName := m.label
    dadFailed := dadFailed m, autoconfAddr := dynamic m, enabled := none }

/-- The rest of the function, for an IPv6 address: the name of the interface. -/
def nameIntf (env : Env) (m : AddrMsg) (obj : Obj) : Option Obj :=
  if m.family = afInet6 then
    match env.ifName obj.vrfName m.ifIndex with
    | none => if m.type = rtmDeladdr then some obj else none
    | some name =>
      some { obj with
        ifName := obj.ifName.orElse fun _ => some name
        enabled := if dadFailed m then env.ipv6Status obj.vrfName name else none }
  else some obj

/-- `nl_get_ip_info`. -/
def nlGetIpInfo (env : Env) (vrfId : BitVec 32) (qual : Qualifier) (m : AddrMsg)
    (addrMap : Finset Key) : Option Obj × Finset Key :=
  if m.whole = false then (none, addrMap)
  else if m.family ≠ afInet ∧ m.family ≠ afInet6 then (none, addrMap)
  else
    match env.vrfName vrfId with
    | none => (none, addrMap)
    | some vrfName =>
      if ignoredIntf env vrfId m.ifIndex then (none, addrMap)
      else if ignoredAddr m then (none, addrMap)
      else
        let obj := objOf vrfId qual m vrfName
        match dynamicKey env vrfId m with
        | none => (nameIntf env m obj, addrMap)
        | some key =>
          match handleDynamicIpv6Addr (m.type == rtmDeladdr) key addrMap with
          | (true, addrMap) => (none, addrMap)
          | (false, addrMap) => (nameIntf env m obj, addrMap)

/-! ## What is remembered -/

/-- A call of the function. -/
structure Call where
  env : Env
  vrfId : BitVec 32
  qual : Qualifier
  msg : AddrMsg

/-- The object of a call. -/
def Call.obj (c : Call) (addrMap : Finset Key) : Option Obj :=
  (nlGetIpInfo c.env c.vrfId c.qual c.msg addrMap).1

def step (addrMap : Finset Key) (c : Call) : Finset Key :=
  (nlGetIpInfo c.env c.vrfId c.qual c.msg addrMap).2

/-- The checks in front of the set let the message pass. -/
structure Passes (env : Env) (vrfId : BitVec 32) (m : AddrMsg) : Prop where
  whole : m.whole = true
  family : m.family = afInet ∨ m.family = afInet6
  vrf : ∃ vrfName, env.vrfName vrfId = some vrfName
  intf : ignoredIntf env vrfId m.ifIndex = false
  addr : ignoredAddr m = false

/-- The message gets to the set with this key. -/
structure Touches (c : Call) (key : Key) : Prop where
  passes : Passes c.env c.vrfId c.msg
  key : dynamicKey c.env c.vrfId c.msg = some key

/-- The message is the first that says that the address is there. -/
def Adds (key : Key) (c : Call) : Prop := Touches c key ∧ c.msg.type ≠ rtmDeladdr

/-- The message says that the address is gone. -/
def Deletes (key : Key) (c : Call) : Prop := Touches c key ∧ c.msg.type = rtmDeladdr

/-- A message that does not pass the checks. -/
theorem nlGetIpInfo_ignored {env : Env} {vrfId : BitVec 32} {m : AddrMsg}
    (h : ¬ Passes env vrfId m) (qual : Qualifier) (addrMap : Finset Key) :
    nlGetIpInfo env vrfId qual m addrMap = (none, addrMap) := by
  rw [nlGetIpInfo]
  by_cases hwhole : m.whole = false
  · exact if_pos hwhole
  by_cases hfamily : m.family ≠ afInet ∧ m.family ≠ afInet6
  · rw [if_neg hwhole, if_pos hfamily]
  rw [if_neg hwhole, if_neg hfamily]
  cases hvrf : env.vrfName vrfId with
  | none => rfl
  | some vrfName =>
    by_cases hintf : ignoredIntf env vrfId m.ifIndex = true
    · exact if_pos hintf
    by_cases haddr : ignoredAddr m = true
    · exact (if_neg hintf).trans (if_pos haddr)
    refine absurd ⟨Bool.eq_true_of_not_eq_false hwhole, ?_, ⟨vrfName, hvrf⟩,
      Bool.eq_false_iff.mpr hintf, Bool.eq_false_iff.mpr haddr⟩ h
    tauto

/-- A message that passes them. -/
theorem nlGetIpInfo_passes {env : Env} {vrfId : BitVec 32} {m : AddrMsg} (h : Passes env vrfId m) :
    ∃ vrfName, env.vrfName vrfId = some vrfName ∧ ∀ qual addrMap,
      nlGetIpInfo env vrfId qual m addrMap =
      match dynamicKey env vrfId m with
      | none => (nameIntf env m (objOf vrfId qual m vrfName), addrMap)
      | some key =>
        if m.type ≠ rtmDeladdr ∧ key ∈ addrMap then (none, addrMap)
        else (nameIntf env m (objOf vrfId qual m vrfName),
          if m.type = rtmDeladdr then addrMap.erase key else insert key addrMap) := by
  obtain ⟨hwhole, hfamily, ⟨vrfName, hvrf⟩, hintf, haddr⟩ := h
  refine ⟨vrfName, hvrf, fun qual addrMap => ?_⟩
  have hfamily' : ¬ (m.family ≠ afInet ∧ m.family ≠ afInet6) := by tauto
  rw [nlGetIpInfo, hwhole, if_neg (by decide), if_neg hfamily', hvrf]
  dsimp only
  rw [hintf, haddr, if_neg Bool.false_ne_true, if_neg Bool.false_ne_true]
  cases dynamicKey env vrfId m with
  | none => rfl
  | some key =>
    dsimp only
    rw [handleDynamicIpv6Addr]
    by_cases hdel : m.type = rtmDeladdr
    · have hnot : ¬ (m.type ≠ rtmDeladdr ∧ key ∈ addrMap) := fun h => h.1 hdel
      rw [beq_iff_eq.mpr hdel, if_pos rfl, if_pos rfl, if_neg hnot, if_pos hdel]
      split_ifs with hmem
      · rfl
      · rw [Finset.erase_eq_of_notMem hmem]
    · rw [beq_eq_false_iff_ne.mpr hdel, if_neg Bool.false_ne_true, if_neg Bool.false_ne_true,
        if_neg hdel]
      split_ifs with hmem hboth hboth
      · rfl
      · exact absurd ⟨hdel, hmem⟩ hboth
      · exact absurd hboth.2 hmem
      · rfl

/-- What a call does to the set. -/
theorem mem_step (addrMap : Finset Key) (c : Call) (key : Key) :
    key ∈ step addrMap c ↔ Adds key c ∨ key ∈ addrMap ∧ ¬ Deletes key c := by
  by_cases hpasses : Passes c.env c.vrfId c.msg
  · obtain ⟨vrfName, -, hcall⟩ := nlGetIpInfo_passes hpasses
    rw [step, hcall]
    cases hkey : dynamicKey c.env c.vrfId c.msg with
    | none =>
      have hnot : ¬ Touches c key := by
        rintro ⟨-, hsome⟩
        rw [hkey] at hsome
        cases hsome
      exact ⟨fun h => Or.inr ⟨h, fun hdel => hnot hdel.1⟩,
        fun h => h.elim (fun hadd => absurd hadd.1 hnot) And.left⟩
    | some key' =>
      have htouches : Touches c key ↔ key' = key := by
        refine ⟨fun h => ?_, ?_⟩
        · exact Option.some_inj.mp (hkey.symm.trans h.key)
        · rintro rfl
          exact ⟨hpasses, hkey⟩
      rw [Adds, Deletes, htouches]
      dsimp only
      split_ifs with hdup hdel
      · dsimp only
        constructor
        · exact fun h => Or.inr ⟨h, fun hdel => hdup.1 hdel.2⟩
        · rintro (⟨rfl, -⟩ | ⟨h, -⟩)
          · exact hdup.2
          · exact h
      · dsimp only
        rw [Finset.mem_erase]
        constructor
        · rintro ⟨hne, hmem⟩
          exact Or.inr ⟨hmem, fun h => hne h.1.symm⟩
        · rintro (⟨-, hne⟩ | ⟨hmem, hnot⟩)
          · exact absurd hdel hne
          · exact ⟨fun heq => hnot ⟨heq.symm, hdel⟩, hmem⟩
      · dsimp only
        rw [Finset.mem_insert]
        constructor
        · rintro (rfl | hmem)
          · exact Or.inl ⟨rfl, hdel⟩
          · exact Or.inr ⟨hmem, fun h => hdel h.2⟩
        · rintro (⟨rfl, -⟩ | ⟨hmem, -⟩)
          · exact Or.inl rfl
          · exact Or.inr hmem
  · rw [step, nlGetIpInfo_ignored hpasses]
    exact ⟨fun h => Or.inr ⟨h, fun hdel => hpasses hdel.1.passes⟩,
      fun h => h.elim (fun hadd => absurd hadd.1.passes hpasses) And.left⟩

/-- An address is in the set when a message added it and none deleted it
since. -/
theorem recorded_iff (hist : List Call) (key : Key) :
    key ∈ run step ∅ hist ↔ ∃ front c back, hist = front ++ c :: back ∧ Adds key c ∧
      ∀ c' ∈ back, ¬ Deletes key c' := by
  have hstep : ∀ addrMap c, key ∈ step addrMap c ↔ Adds key c ∨ key ∈ addrMap ∧ ¬ Deletes key c :=
    fun addrMap c => mem_step addrMap c key
  have hrun := @run_since _ _ step (key ∈ ·) (fun _ => True) (fun _ => Adds key) (Deletes key)
    (fun _ => True) (fun _ _ _ _ => trivial) (fun addrMap c _ _ => hstep addrMap c) ∅ hist trivial
    fun _ _ => trivial
  simpa using hrun

theorem dynamicKey_family {env : Env} {vrfId : BitVec 32} {m : AddrMsg} {key : Key}
    (h : dynamicKey env vrfId m = some key) :
    m.family = afInet6 ∧ dynamic m = true ∧ (m.type = rtmDeladdr ∨ dadFailed m = false) ∧
      m.address.isSome := by
  rw [dynamicKey] at h
  split_ifs at h with hdynamic hboth
  · obtain ⟨ip, hip, hkey⟩ := Option.bind_eq_some_iff.mp h
    exact ⟨hboth.1, hdynamic, hboth.2, Option.isSome_iff_exists.mpr ⟨ip, hip⟩⟩
  · obtain ⟨ip, hip, hkey⟩ := Option.bind_eq_some_iff.mp h
    cases hkey

/-- The name of the interface is found. -/
def Named (c : Call) : Prop :=
  ∃ vrfName name, c.env.vrfName c.vrfId = some vrfName ∧
    c.env.ifName vrfName c.msg.ifIndex = some name

/-- A message that a dynamic IPv6 address is there makes an object when its
interface has a name and no message before it said so, reported or not, since
the last one that it is gone. -/
theorem reported_iff (hist : List Call) {c : Call} {key : Key} (h : Adds key c) :
    (c.obj (run step ∅ hist)).isSome ↔
      Named c ∧ ¬ ∃ front c' back, hist = front ++ c' :: back ∧ Adds key c' ∧
        ∀ c'' ∈ back, ¬ Deletes key c'' := by
  rw [← recorded_iff]
  generalize run step ∅ hist = addrMap
  obtain ⟨⟨hpasses, hkey⟩, hadd⟩ := h
  obtain ⟨vrfName, hvrf, hcall⟩ := nlGetIpInfo_passes hpasses
  obtain ⟨hfamily, -⟩ := dynamicKey_family hkey
  have hnamed : Named c ↔ (c.env.ifName vrfName c.msg.ifIndex).isSome := by
    rw [Option.isSome_iff_exists]
    constructor
    · rintro ⟨vrfName', name, hvrf', hname⟩
      obtain rfl := Option.some_inj.mp (hvrf.symm.trans hvrf')
      exact ⟨name, hname⟩
    · rintro ⟨name, hname⟩
      exact ⟨vrfName, name, hvrf, hname⟩
  rw [hnamed, Call.obj, hcall, hkey]
  dsimp only
  by_cases hmem : key ∈ addrMap
  · rw [if_pos ⟨hadd, hmem⟩]
    exact iff_of_false Bool.false_ne_true fun hnot => hnot.2 hmem
  · rw [if_neg fun hdup => hmem hdup.2, and_iff_left hmem, nameIntf, if_pos hfamily]
    dsimp only [objOf]
    cases c.env.ifName vrfName c.msg.ifIndex with
    | none =>
      dsimp only
      rw [if_neg hadd]
      exact iff_of_false Bool.false_ne_true Bool.false_ne_true
    | some name => rfl

/-! ## The get -/

/-- A message of an answer, with what the system answers while it is handled. -/
structure Notice where
  env : Env
  msg : AddrMsg

/-- The objects of the answer so far, and the set. -/
abbrev ReadState := List Obj × Finset Key

/-- Where a get may run out of memory. -/
structure Room where
  /-- `cps_api_object_create` succeeds for the message. -/
  created : Msg Notice → ReadState → Bool
  /-- `cps_api_object_list_append` succeeds for its object. -/
  appended : Msg Notice → ReadState → Bool

/-- It does nowhere. -/
structure Room.Ample (room : Room) : Prop where
  created : ∀ m s, room.created m s = true
  appended : ∀ m s, room.appended m s = true

/-- The message is one that the handler goes on after, when there is memory. -/
def acceptsNotice (m : Msg Notice) : Bool :=
  m.data.msg.whole && (m.data.msg.family == afInet || m.data.msg.family == afInet6)

/-- The message is for the request. -/
def Wanted (family : UInt8) (filter : Option (BitVec 32)) (m : AddrMsg) : Prop :=
  m.family = family ∧ (filter = none ∨ filter = some m.ifIndex)

instance (family : UInt8) (filter : Option (BitVec 32)) (m : AddrMsg) :
    Decidable (Wanted family filter m) :=
  inferInstanceAs (Decidable (_ ∧ _))

/-- `nl_get_nas_os_ip_info`. -/
def nlGetNasOsIpInfo (room : Room) (family : UInt8) (filter : Option (BitVec 32))
    (vrfId : BitVec 32) : NlDump.Handler Notice ReadState := fun m s =>
  if acceptsNotice m = false then (false, s)
  else if ¬ Wanted family filter m.data.msg then (true, s)
  else if room.created m s = false then (false, s)
  else
    match nlGetIpInfo m.data.env vrfId .target { m.data.msg with type := m.type } s.2 with
    | (some obj, addrMap) =>
      if room.appended m s = false then (false, s.1, addrMap) else (true, s.1 ++ [obj], addrMap)
    | (none, addrMap) => (true, s.1, addrMap)

/-- What the kernel and the sockets answer about one VRF. -/
structure Dump where
  /-- `nas_nl_sock_create` succeeds. -/
  sock : Bool
  /-- `nl_send_request` succeeds. -/
  sent : Bool
  seq : BitVec 32
  turns : List (Turn Notice)

/-- What the system answers during a get. -/
structure Sys where
  /-- `malloc` finds the memory. -/
  malloc : Bool
  /-- `nas_os_get_vrf_id`. -/
  vrfId : Str → Option (BitVec 32)
  /-- `nas_os_get_vrf_name`. -/
  vrfName : BitVec 32 → Option Str
  nlMsgBufferLen : ℕ
  newKernel : Bool
  room : Room
  dump : BitVec 32 → Dump

/-- The inner loop: the addresses of one VRF.  `none` is a call that waits. -/
def readVrf (sys : Sys) (family : UInt8) (filter : Option (BitVec 32)) (vrfId : BitVec 32)
    (s : ReadState) : Option ReadState :=
  let dump := sys.dump vrfId
  if dump.sock && dump.sent then
    (processSocket (nlGetNasOsIpInfo sys.room family filter vrfId)
      ⟨sys.newKernel, sys.nlMsgBufferLen⟩ (some dump.seq) (.initial s) dump.turns).map
        fun r => r.ctx
  else some s

/-- The VRFs of a request without keys, from `NAS_DEFAULT_VRF_ID` on. -/
def readVrfs (sys : Sys) (family : UInt8) : List (BitVec 32) → ReadState → Option ReadState
  | [], s => some s
  | vrfId :: rest, s =>
    match sys.vrfName vrfId with
    | none => readVrfs sys family rest s
    | some _ => readVrf sys family none vrfId s >>= readVrfs sys family rest

section Read

variable (defs : Defs) (db : IntfDb defs.halIfNameSz) (req : Request) (sys : Sys)

/-- The VRF ids up to `NAS_MAX_VRF_ID`, from the default one on. -/
def vrfIds (nasMaxVrfId : ℕ) : List (BitVec 32) :=
  (List.range' defs.nasDefaultVrfId.toNat (nasMaxVrfId + 1 - defs.nasDefaultVrfId.toNat)).map
    (BitVec.ofNat 32)

/-- The request names an interface. -/
def namesIntf : Bool := req.ifName.isSome || req.ifIndex.isSome

/-- The interface index that the answers are filtered by. -/
def filterIfIndex (key : KeyInfo) : Option (BitVec 32) :=
  if namesIntf req then some key.ifIndex else none

/-- `nas_os_ip_addr_read_function`: whether it returns `cps_api_ret_code_OK`, and
what it leaves behind.  `none` is a call that waits. -/
def nasOsIpAddrReadFunction (nasMaxVrfId : ℕ) (family : UInt8) (s : ReadState) :
    Option (Bool × ReadState) :=
  match (if namesIntf req then nasOsIpKeyInfoGet defs db req ⟨[], [], 0⟩
    else some ⟨[], [], 0⟩ : Option KeyInfo) with
  | none => some (false, s)
  | some key =>
    if sys.malloc = false then some (false, s)
    else if req.vrfName.isSome || namesIntf req then
      match sys.vrfId key.vrfName with
      | none => some (false, s)
      | some vrfId => (readVrf sys family (filterIfIndex req key) vrfId s).map (true, ·)
    else (readVrfs sys family (vrfIds defs nasMaxVrfId) s).map (true, ·)

end Read

/-! ## Two gets -/

/-- A message about one VRF. -/
abbrev Heard := BitVec 32 × Msg Notice

/-- What one message of the answer makes of the variables. -/
def hear (room : Room) (family : UInt8) (filter : Option (BitVec 32)) (s : ReadState)
    (h : Heard) : ReadState :=
  (nlGetNasOsIpInfo room family filter h.1 h.2 s).2

/-- The messages that a get hears about one VRF. -/
def heardVrf (sys : Sys) (vrfId : BitVec 32) : Option (List Heard) :=
  let dump := sys.dump vrfId
  if dump.sock && dump.sent then
    (NlDump.handedTo acceptsNotice ⟨sys.newKernel, sys.nlMsgBufferLen⟩ (some dump.seq)
      dump.turns).map fun msgs => msgs.map fun m => (vrfId, m)
  else some []

/-- The same about several VRFs. -/
def heardVrfs (sys : Sys) : List (BitVec 32) → Option (List Heard)
  | [] => some []
  | vrfId :: rest =>
    match sys.vrfName vrfId with
    | none => heardVrfs sys rest
    | some _ => heardVrf sys vrfId >>= fun hs => (heardVrfs sys rest).map (hs ++ ·)

/-- The message as the function reads it. -/
def addrMsg (m : Msg Notice) : AddrMsg := { m.data.msg with type := m.type }

theorem nlGetNasOsIpInfo_wanted {room : Room} (hroom : room.Ample) {family : UInt8}
    {filter : Option (BitVec 32)} (vrfId : BitVec 32) {m : Msg Notice}
    (haccepts : acceptsNotice m = true) (hwanted : Wanted family filter m.data.msg)
    (s : ReadState) :
    nlGetNasOsIpInfo room family filter vrfId m s =
      (true, s.1 ++ (nlGetIpInfo m.data.env vrfId .target (addrMsg m) s.2).1.toList,
        (nlGetIpInfo m.data.env vrfId .target (addrMsg m) s.2).2) := by
  rw [nlGetNasOsIpInfo, if_neg (by simp [haccepts]), if_neg (not_not.mpr hwanted),
    if_neg (by simp [hroom.created]), addrMsg]
  generalize nlGetIpInfo m.data.env vrfId .target { m.data.msg with type := m.type } s.2 = out
  obtain ⟨obj, addrMap⟩ := out
  cases obj with
  | none => exact congrArg (fun l => (true, l, addrMap)) (List.append_nil s.1).symm
  | some obj => exact if_neg (by simp [hroom.appended])

/-- A message that is not for the request. -/
theorem nlGetNasOsIpInfo_unwanted (room : Room) {family : UInt8} {filter : Option (BitVec 32)}
    (vrfId : BitVec 32) {m : Msg Notice}
    (h : ¬ (acceptsNotice m = true ∧ Wanted family filter m.data.msg)) (s : ReadState) :
    nlGetNasOsIpInfo room family filter vrfId m s = (acceptsNotice m, s) := by
  rw [nlGetNasOsIpInfo]
  cases haccepts : acceptsNotice m with
  | false => rfl
  | true => exact if_pos fun hwanted => h ⟨haccepts, hwanted⟩

theorem readVrf_eq {sys : Sys} (hroom : sys.room.Ample) (family : UInt8)
    (filter : Option (BitVec 32)) (vrfId : BitVec 32) (s : ReadState) :
    readVrf sys family filter vrfId s =
      (heardVrf sys vrfId).map fun hs => hs.foldl (hear sys.room family filter) s := by
  rw [readVrf, heardVrf]
  split_ifs
  · have haccept : ∀ m s,
        (nlGetNasOsIpInfo sys.room family filter vrfId m s).1 = acceptsNotice m := by
      intro m s
      by_cases h : acceptsNotice m = true ∧ Wanted family filter m.data.msg
      · rw [nlGetNasOsIpInfo_wanted hroom vrfId h.1 h.2, h.1]
      · rw [nlGetNasOsIpInfo_unwanted sys.room vrfId h]
    rw [NlDump.processSocket_fold haccept, Option.map_map]
    refine congrArg (Option.map · _) (funext fun msgs => ?_)
    rw [Function.comp_apply, List.foldl_map]
    rfl
  · rfl

theorem readVrfs_eq {sys : Sys} (hroom : sys.room.Ample) (family : UInt8)
    (ids : List (BitVec 32)) (s : ReadState) :
    readVrfs sys family ids s =
      (heardVrfs sys ids).map fun hs => hs.foldl (hear sys.room family none) s := by
  induction ids generalizing s with
  | nil => rfl
  | cons vrfId rest ih =>
    rw [readVrfs, heardVrfs]
    cases sys.vrfName vrfId with
    | none => exact ih s
    | some name =>
      dsimp only
      rw [readVrf_eq hroom]
      cases heardVrf sys vrfId with
      | none => rfl
      | some hs =>
        show readVrfs sys family rest (hs.foldl (hear sys.room family none) s) = _
        rw [ih]
        cases heardVrfs sys rest with
        | none => rfl
        | some hs' => exact congrArg some (List.foldl_append ..).symm

/-- The address is not one of those that are remembered. -/
def static (obj : Obj) : Bool :=
  !(obj.autoconfAddr && !obj.dadFailed && obj.address.isSome)

theorem nameIntf_static {env : Env} {m : AddrMsg} {obj obj' : Obj}
    (h : nameIntf env m obj = some obj') : static obj' = static obj := by
  rw [nameIntf] at h
  by_cases hfamily : m.family = afInet6
  · rw [if_pos hfamily] at h
    cases hname : env.ifName obj.vrfName m.ifIndex with
    | none =>
      rw [hname] at h
      dsimp only at h
      split_ifs at h
      rw [Option.some_inj.mp h]
    | some name =>
      rw [hname] at h
      obtain rfl := Option.some_inj.mp h
      rfl
  · rw [if_neg hfamily] at h
    rw [Option.some_inj.mp h]

/-- A message about a new address is looked up when its object is of that
kind. -/
theorem static_objOf {env : Env} {vrfId : BitVec 32} {m : AddrMsg} (htype : m.type ≠ rtmDeladdr)
    (qual : Qualifier) (vrfName : Str) :
    static (objOf vrfId qual m vrfName) = (dynamicKey env vrfId m).isNone := by
  cases hkey : dynamicKey env vrfId m with
  | none =>
    by_contra hstatic
    have hall : (dynamic m = true ∧ dadFailed m = false) ∧ ¬ m.address = none := by
      simpa [static, objOf] using hstatic
    obtain ⟨⟨hdynamic, hdad⟩, haddress⟩ := hall
    obtain ⟨ip, hip⟩ := Option.ne_none_iff_exists'.mp haddress
    have hfamily : m.family = afInet6 := by
      by_contra hne
      rw [dynamic, ifaFlags, if_neg hne] at hdynamic
      exact absurd hdynamic (by decide)
    rw [dynamicKey, if_pos hdynamic, hip] at hkey
    exact absurd hkey (by simp [hfamily, hdad])
  | some key =>
    obtain ⟨-, hdynamic, hdel, haddress⟩ := dynamicKey_family hkey
    have hdad : dadFailed m = false := hdel.resolve_left htype
    simp [static, objOf, hdynamic, hdad, haddress]

/-- The objects of a message that is not looked up are not of that kind. -/
theorem filter_static {env : Env} {m : AddrMsg} {obj : Obj} {b : Bool} (h : static obj = b) :
    (nameIntf env m obj).toList.filter static =
      if b then (nameIntf env m obj).toList else [] := by
  cases hobj : nameIntf env m obj with
  | none => cases b <;> rfl
  | some obj' =>
    rw [Option.toList_some, List.filter_singleton, nameIntf_static hobj, h]
    cases b <;> rfl

/-- The objects that a message about a new address adds, and what they are the
next time. -/
theorem hear_again {room : Room} (hroom : room.Ample) (family : UInt8)
    (filter : Option (BitVec 32)) (addrMap : Finset Key) {h : Heard}
    (hnew : h.2.type = rtmNewaddr) :
    ∃ new addrMap', addrMap ⊆ addrMap' ∧
      (∀ list, hear room family filter (list, addrMap) h = (list ++ new, addrMap')) ∧
      ∀ list later, addrMap' ⊆ later →
        hear room family filter (list, later) h = (list ++ new.filter static, later) := by
  obtain ⟨vrfId, n⟩ := h
  have hsilent : (∀ s, hear room family filter s (vrfId, n) = s) →
      ∃ new addrMap', addrMap ⊆ addrMap' ∧
        (∀ list, hear room family filter (list, addrMap) (vrfId, n) = (list ++ new, addrMap')) ∧
        ∀ list later, addrMap' ⊆ later →
          hear room family filter (list, later) (vrfId, n) =
            (list ++ new.filter static, later) := by
    intro hsame
    refine ⟨[], addrMap, subset_rfl, fun list => ?_, fun list later _ => ?_⟩
    · rw [hsame, List.append_nil]
    · rw [hsame, List.filter_nil, List.append_nil]
  by_cases hwanted : acceptsNotice n = true ∧ Wanted family filter n.data.msg
  swap
  · exact hsilent fun s => congrArg Prod.snd (nlGetNasOsIpInfo_unwanted room vrfId hwanted s)
  have hhear : ∀ s, hear room family filter s (vrfId, n) =
      (s.1 ++ (nlGetIpInfo n.data.env vrfId .target (addrMsg n) s.2).1.toList,
        (nlGetIpInfo n.data.env vrfId .target (addrMsg n) s.2).2) :=
    fun s => congrArg Prod.snd (nlGetNasOsIpInfo_wanted hroom vrfId hwanted.1 hwanted.2 s)
  by_cases hpasses : Passes n.data.env vrfId (addrMsg n)
  swap
  · refine hsilent fun s => ?_
    rw [hhear, nlGetIpInfo_ignored hpasses]
    exact congrArg (·, s.2) (List.append_nil s.1)
  obtain ⟨vrfName, -, hcall⟩ := nlGetIpInfo_passes hpasses
  have htype : (addrMsg n).type ≠ rtmDeladdr := by
    change n.type = rtmNewaddr at hnew
    change n.type ≠ rtmDeladdr
    rw [hnew]
    decide
  have hstatic := @static_objOf n.data.env vrfId (addrMsg n) htype .target vrfName
  simp only [hhear, hcall]
  cases hkey : dynamicKey n.data.env vrfId (addrMsg n) with
  | none =>
    rw [hkey] at hstatic
    refine ⟨_, addrMap, subset_rfl, fun list => rfl, fun list later _ => ?_⟩
    rw [filter_static hstatic]
    rfl
  | some key =>
    rw [hkey] at hstatic
    dsimp only
    by_cases hmem : key ∈ addrMap
    · refine ⟨[], addrMap, subset_rfl, fun list => ?_, fun list later hlater => ?_⟩
      · rw [if_pos ⟨htype, hmem⟩]
        rfl
      · rw [if_pos ⟨htype, hlater hmem⟩]
        rfl
    · refine ⟨(nameIntf n.data.env (addrMsg n) (objOf vrfId .target (addrMsg n) vrfName)).toList,
        insert key addrMap, Finset.subset_insert _ _, fun list => ?_, fun list later hlater => ?_⟩
      · rw [if_neg fun hdup => hmem hdup.2, if_neg htype]
      · rw [if_pos ⟨htype, hlater (Finset.mem_insert_self _ _)⟩, filter_static hstatic]
        rfl

theorem hear_all_again {room : Room} (hroom : room.Ample) (family : UInt8)
    (filter : Option (BitVec 32)) {hs : List Heard}
    (hnew : ∀ h ∈ hs, h.2.type = rtmNewaddr) (addrMap : Finset Key) :
    ∃ new addrMap', addrMap ⊆ addrMap' ∧
      (∀ list, hs.foldl (hear room family filter) (list, addrMap) = (list ++ new, addrMap')) ∧
      ∀ list later, addrMap' ⊆ later →
        hs.foldl (hear room family filter) (list, later) = (list ++ new.filter static, later) := by
  induction hs generalizing addrMap with
  | nil =>
    refine ⟨[], addrMap, subset_rfl, fun list => ?_, fun list later _ => ?_⟩
    · rw [List.append_nil, List.foldl_nil]
    · rw [List.filter_nil, List.append_nil, List.foldl_nil]
  | cons h hs ih =>
    obtain ⟨new, addrMap₁, hsub, hfirst, hagain⟩ :=
      hear_again hroom family filter addrMap (hnew h List.mem_cons_self)
    obtain ⟨news, addrMap₂, hsubs, hrest, hrestAgain⟩ :=
      ih (fun h' hh' => hnew h' (List.mem_cons_of_mem _ hh')) addrMap₁
    refine ⟨new ++ news, addrMap₂, hsub.trans hsubs, fun list => ?_, fun list later hlater => ?_⟩
    · rw [List.foldl_cons, hfirst, hrest, List.append_assoc]
    · rw [List.foldl_cons, hagain list later (hsubs.trans hlater), hrestAgain _ later hlater,
        List.filter_append, List.append_assoc]

section SecondRead

variable (defs : Defs) (db : IntfDb defs.halIfNameSz) (req : Request) (sys : Sys)

/-- The messages that a get hears. -/
def heard (nasMaxVrfId : ℕ) : Option (List Heard) :=
  if req.vrfName.isSome || namesIntf req then
    (if namesIntf req then nasOsIpKeyInfoGet defs db req ⟨[], [], 0⟩
      else some ⟨[], [], 0⟩ : Option KeyInfo).bind fun key =>
        (sys.vrfId key.vrfName).bind fun vrfId => heardVrf sys vrfId
  else heardVrfs sys (vrfIds defs nasMaxVrfId)

/-- A get that is answered twice with the same messages about addresses that are
there returns the second time what it returned the first time, without the
dynamic IPv6 addresses, when there is memory for the objects. -/
theorem second_read (hroom : sys.room.Ample) (nasMaxVrfId : ℕ) (family : UInt8)
    {addrMap addrMap' : Finset Key} {list : List Obj}
    (hnew : ∀ hs, heard defs db req sys nasMaxVrfId = some hs →
      ∀ h ∈ hs, h.2.type = rtmNewaddr)
    (hread : nasOsIpAddrReadFunction defs db req sys nasMaxVrfId family ([], addrMap) =
      some (true, list, addrMap')) :
    nasOsIpAddrReadFunction defs db req sys nasMaxVrfId family ([], addrMap') =
      some (true, list.filter static, addrMap') := by
  have hagain : ∀ {filter : Option (BitVec 32)} {answer : Option (List Heard)},
      (∀ hs, answer = some hs → ∀ h ∈ hs, h.2.type = rtmNewaddr) →
      (answer.map fun hs => hs.foldl (hear sys.room family filter) ([], addrMap)) =
        some (list, addrMap') →
      (answer.map fun hs => hs.foldl (hear sys.room family filter) ([], addrMap')) =
        some (list.filter static, addrMap') := by
    intro filter answer hnew hfirst
    obtain ⟨hs, rfl, hlist⟩ := Option.map_eq_some_iff.mp hfirst
    obtain ⟨new, addrMap₁, -, hone, htwo⟩ :=
      hear_all_again hroom family filter (hnew hs rfl) addrMap
    rw [hone, List.nil_append] at hlist
    obtain ⟨rfl, rfl⟩ := Prod.mk.inj hlist
    exact congrArg some (htwo [] addrMap₁ subset_rfl)
  have htrue : ∀ {answer : Option ReadState} {s : ReadState},
      (answer.map (true, ·)) = some (true, s) ↔ answer = some s := by
    intro answer s
    simp
  rw [nasOsIpAddrReadFunction] at hread ⊢
  rw [heard] at hnew
  generalize (if namesIntf req then nasOsIpKeyInfoGet defs db req ⟨[], [], 0⟩
    else some ⟨[], [], 0⟩ : Option KeyInfo) = info at hread hnew ⊢
  cases info with
  | none => cases hread
  | some key =>
    dsimp only at hread ⊢
    split_ifs at hread ⊢ with hmalloc hkeys
    · cases hread
    · rw [if_pos hkeys] at hnew
      dsimp only [Option.bind_some] at hnew
      cases hvrf : sys.vrfId key.vrfName with
      | none =>
        rw [hvrf] at hread
        cases hread
      | some vrfId =>
        rw [hvrf] at hread hnew
        dsimp only [Option.bind_some] at hread hnew ⊢
        rw [htrue, readVrf_eq hroom] at hread ⊢
        exact hagain hnew hread
    · rw [if_neg hkeys] at hnew
      rw [htrue, readVrfs_eq hroom] at hread ⊢
      exact hagain hnew hread

end SecondRead

/-! ## An interface with two addresses -/

/-- A system with one interface. -/
def oneIntf : Env where
  defaultVrfId := 0
  vrfName vrfId := if vrfId = 0 then some "default".toList else none
  halIntf _ := some ("e101".toList, false)
  osName _ := some "e101".toList
  ipToString ip := ip.map fun b => Char.ofNat b.toNat
  ifName _ _ := some "e101".toList
  ipv6Status _ _ := none

/-- A dynamic address. -/
def dynamicAddr : AddrMsg where
  whole := true
  type := rtmNewaddr
  family := afInet6
  ifIndex := 3
  prefixLen := 64
  address := some [0x20, 1, 0xd, 0xb8, 0, 0, 0, 0, 0, 0, 0, 0, 0, 0, 0, 1]
  label := none
  flags := some ifaFManagetempaddr

def dynamicEvent : Call := ⟨oneIntf, 0, .observed, dynamicAddr⟩

theorem reported_iff_dynamicEvent :
    (dynamicEvent.obj (run step ∅ [dynamicEvent])).isSome ↔
      Named dynamicEvent ∧ ¬ ∃ front c' back, [dynamicEvent] = front ++ c' :: back ∧
        Adds ⟨0, 3, oneIntf.ipToString (dynamicAddr.address.getD [])⟩ c' ∧
        ∀ c'' ∈ back, ¬ Deletes ⟨0, 3, oneIntf.ipToString (dynamicAddr.address.getD [])⟩ c'' := by
  refine reported_iff [dynamicEvent] ⟨⟨⟨rfl, Or.inr rfl, ⟨_, rfl⟩, by decide, by decide⟩, ?_⟩, ?_⟩
  · decide
  · decide

/-- A message of the kernel about an address. -/
def notice (m : AddrMsg) : Msg Notice := ⟨64, rtmNewaddr, 0, 7, 0, oneIntf, m⟩

/-- The end of an answer. -/
def noticeEnd : Msg Notice := ⟨16, nlmsgDone, 0, 7, 0, oneIntf, dynamicAddr⟩

/-- An answer with a dynamic address and another one. -/
def twoAddrs : NlDump.Datagram Notice where
  msgs := [notice dynamicAddr, notice { dynamicAddr with flags := none }, noticeEnd]
  size := 144
  headLen := 64
  holds := by decide
  head := fun _ h => Option.some_inj.mp h ▸ rfl

def twoAddrsSys : Sys where
  malloc := true
  vrfId _ := some 0
  vrfName vrfId := if vrfId = 0 then some "default".toList else none
  nlMsgBufferLen := 4096
  newKernel := true
  room := ⟨fun _ _ => true, fun _ _ => true⟩
  dump _ := ⟨true, true, 7, [.received twoAddrs false]⟩

/-- A get without keys. -/
def allAddrs : Request := ⟨none, none, none, none, none⟩

/-- The object of one of the two addresses. -/
def twoAddrsObj (autoconfAddr : Bool) : Obj where
  qual := .target
  oper := .create
  family := afInet6
  vrfName := "default".toList
  vrfId := 0
  ifIndex := 3
  prefixLen := 64
  address := dynamicAddr.address
  ifName := some "e101".toList
  dadFailed := false
  autoconfAddr := autoconfAddr
  enabled := none

theorem second_read_twoAddrs :
    nasOsIpAddrReadFunction IpAddress.oneIntfDefs IpAddress.oneIntfDb allAddrs twoAddrsSys 1 afInet6
        ([], {⟨0, 3, oneIntf.ipToString (dynamicAddr.address.getD [])⟩}) =
      some (true, [twoAddrsObj true, twoAddrsObj false].filter static,
        {⟨0, 3, oneIntf.ipToString (dynamicAddr.address.getD [])⟩}) := by
  refine @second_read _ _ _ _ ⟨fun _ _ => rfl, fun _ _ => rfl⟩ 1 afInet6 ∅ _ _
    (fun hs hhs => ?_) (by decide +kernel)
  have hheard : heard IpAddress.oneIntfDefs IpAddress.oneIntfDb allAddrs twoAddrsSys 1 =
      some [(0, notice dynamicAddr), (0, notice { dynamicAddr with flags := none })] := rfl
  obtain rfl := Option.some_inj.mp (hheard.symm.trans hhs)
  decide

end OpxNasLinux.IpInfo
