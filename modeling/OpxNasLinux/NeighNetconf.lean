import OpxNasLinux.RouteInfo
import OpxNasLinux.RtaLoop

/-!
# Neighbour and netconf messages of the kernel

`nl_to_neigh_info` and `nl_get_ip_netconf_info` go over the attributes of a
message with `RTA_OK` and `RTA_NEXT`.

* `Neigh.start` and `Netconf.start` are the functions up to their loops, and
  `Neigh.body` and `Netconf.body` the bodies of these.
* `Whole` says which messages the loops can go over, in lengths.
* `attrLoops_safe_iff` puts the two together.
-/

namespace OpxNasLinux.Rta

open ByteStore Loop NlMsg Netlink
open RouteInfo (Oper bytesAt)
open VrfIds (strncmpEq)

/-! ## Reads -/

/-- So many bytes from a position on. -/
def span (p : ℤ) (n : ℕ) : List ℤ := (List.range n).map fun i : ℕ => p + i

theorem mem_span {p b : ℤ} {n : ℕ} : b ∈ span p n ↔ p ≤ b ∧ b < p + n := by
  unfold span
  rw [List.mem_map]
  constructor
  · rintro ⟨i, hi, rfl⟩
    rw [List.mem_range] at hi
    omega
  · intro h
    refine ⟨(b - p).toNat, ?_, by omega⟩
    rw [List.mem_range]
    omega

theorem agree_span {mem mem' : Memory} {p : ℤ} {n : ℕ} (h : ∀ b ∈ span p n, mem b = mem' b) :
    Agree p (p + n) mem mem' := fun b hlo hhi => (h b (mem_span.mpr ⟨hlo, hhi⟩)).symm

theorem bytesAt_span {mem mem' : Memory} {p : ℤ} {n : ℕ} (h : ∀ b ∈ span p n, mem b = mem' b) :
    bytesAt mem p n = bytesAt mem' p n :=
  List.map_congr_left fun i hi => h _ (List.mem_map.mpr ⟨i, hi, rfl⟩)

theorem rtaType_span {mem mem' : Memory} {p : ℤ} (h : ∀ b ∈ span (p + 2) 2, mem b = mem' b) :
    rtaType mem p = rtaType mem' p :=
  (load16_agree (agree_span h)).symm

theorem span_inMsg {p : ℤ} {n len : ℕ} (hp : 0 ≤ p) (hlen : p ≤ len) :
    (∀ b ∈ span p n, InMsg len b) ↔ p + n ≤ len := by
  constructor
  · intro h
    cases n with
    | zero => simpa using hlen
    | succ n =>
      have hlast := (h (p + n) (mem_span.mpr (by omega))).2
      push_cast
      omega
  · intro h b hb
    rw [mem_span] at hb
    unfold InMsg
    omega

/-- Every attribute ends in the message with its padding, and what a turn reads
for it does too.  `least` are the bytes from the start of an attribute that a
turn reads. -/
def Whole (least : Memory → ℤ → ℕ) (mem : Memory) (first stop len : ℕ) : Prop :=
  ∀ o, AttrAt mem first stop o → o + 4 ≤ stop →
    o + 2 ≤ len ∧
      (Fits mem stop o →
        o + padded (rtaLen mem o).toNat ≤ stop ∧ o + least mem o ≤ len)

theorem contained_iff_whole {reads : Memory → ℤ → List ℤ} {least : Memory → ℤ → ℕ}
    {mem : Memory} {first stop len : ℕ} (hstop : first ≤ stop)
    (h : ∀ o, first ≤ o → Fits mem stop o → o + 2 ≤ len →
      ((∀ b ∈ reads mem o, InMsg len b) ↔ o + least mem o ≤ len)) :
    Contained reads mem first stop len ↔ Whole least mem first stop len := by
  unfold Contained Whole
  refine forall_congr' fun o => forall_congr' fun ho => forall_congr' fun _ =>
    and_congr_right fun hhdr => forall_congr' fun hfits => and_congr_right fun _ => ?_
  exact h o (ho.bounds hstop).1 hfits hhdr

/-! ## `nl_to_neigh_info` -/

namespace Neigh

def nudProbe : BitVec 16 := 0x10
def ndaDst : BitVec 16 := 1
def ndaLladdr : BitVec 16 := 2
def ndaMaster : BitVec 16 := 9

/-- The attributes that are added to the object. -/
inductive Attr where
  | vrfName (name : Str)
  | vrfId (id : BitVec 32)
  | flags (flags : UInt8)
  | state (state : BitVec 16)
  | af (family : UInt8)
  | address (addr : Bytes)
  | macAddr (text : Str)
  | ifindex (ifindex : BitVec 32)
  | mbrIfindex (ifindex : BitVec 32)
deriving DecidableEq

/-- What the function asks for, outside of the message. -/
structure Env where
  /-- `NAS_DEFAULT_VRF_ID`. -/
  defaultVrfId : BitVec 32
  /-- `nas_os_get_vrf_name`. -/
  vrfName : BitVec 32 → Option Str
  /-- `cps_api_interface_if_index_to_name`. -/
  osName : BitVec 32 → Option Str
  /-- The interface is a management VLAN. -/
  mgmtVlan : Str → Bool
  /-- `os_intf_admin_state_get`, `none` for an error. -/
  adminState : BitVec 32 → Option Bool
  /-- `nas_os_physical_to_vlan_ifindex`. -/
  physicalToVlanIfindex : BitVec 32 → BitVec 32
  /-- `nas_os_mac_get_learning`. -/
  macGetLearning : BitVec 32 → Bool
  /-- `std_mac_to_string`. -/
  macToString : Bytes → Str
  /-- The object has room for the attribute. -/
  room : Attr → Bool
  /-- `EV_LOGGING` evaluates its arguments. -/
  logs : Bool

section Fields

/- The fields of `struct ndmsg`, at 16. -/

variable (mem : Memory)

def ndmFamily : UInt8 := mem 16
def ndmIfindex : BitVec 32 := load32 mem 20
def ndmState : BitVec 16 := load16 mem 24
def ndmFlags : UInt8 := mem 26

end Fields

/-- The variables of the loop. -/
structure Vars where
  attrs : List Attr
  op : Oper
  macAddr : Option ℤ
  /-- What was copied to `mac_buff`. -/
  macBuff : Option Str
  ifix : BitVec 32
  /-- What was copied to `if_name`. -/
  ifName : Option Str
  isBridge : Bool

/-- `cps_api_object_attr_add`. -/
def Vars.add (env : Env) (a : Attr) (v : Vars) : Vars :=
  if env.room a then { v with attrs := v.attrs ++ [a] } else v

/-- `nas_rt_is_reserved_intf`. -/
def nasRtIsReservedIntf (env : Env) (name : Str) : Bool :=
  strncmpEq name ['e', 't', 'h'] 3 || name == ['l', 'o'] || env.mgmtVlan name

/-- The interface of the neighbour is a reserved one. -/
def reserved (env : Env) (vrfId : BitVec 32) (mem : Memory) : Bool :=
  vrfId == env.defaultVrfId && (env.osName (ndmIfindex mem)).any (nasRtIsReservedIntf env)

/-- The operation of the object.  A neighbour that leaves with its interface is
ignored. -/
def neighOp (env : Env) (rtMsgType vrfId : BitVec 32) (mem : Memory) : Option Oper :=
  if rtMsgType = rtmNewneigh ∨ rtMsgType = rtmGetneigh then some .create
  else if rtMsgType = rtmDelneigh then
    if vrfId = env.defaultVrfId ∧ (ndmFamily mem = afInet ∨ ndmFamily mem = afInet6) ∧
        env.adminState (ndmIfindex mem) ≠ some true then none
    else some .delete
  else none

/-- The function up to its loop.  `none` is `return false`. -/
def start (env : Env) (rtMsgType vrfId : BitVec 32) (mem : Memory) : Option Vars :=
  if (load32 mem 0).toNat < 28 then none
  else if ndmFamily mem ≠ afInet ∧ ndmFamily mem ≠ afInet6 ∧ ndmFamily mem ≠ afBridge then none
  else if vrfId ≠ env.defaultVrfId ∧ ndmFamily mem = afBridge then none
  else if reserved env vrfId mem then none
  else
    match neighOp env rtMsgType vrfId mem, env.vrfName vrfId with
    | some op, some vrfName =>
      let v : Vars := ⟨[], op, none, none, 0, none, false⟩
      let v := (v.add env (.vrfName vrfName)).add env (.vrfId vrfId)
      let v := (v.add env (.flags (ndmFlags mem))).add env (.state (ndmState mem))
      let v := v.add env (.af (ndmFamily mem))
      if ndmState mem = nudProbe then none else some v
    | _, _ => none

/-- The loop variables at its start. -/
def cursor (mem : Memory) : Cursor := ⟨28, load32 mem 0 - 28#32⟩

def readDst (env : Env) (mem : Memory) (p : ℤ) (v : Vars) : Vars :=
  v.add env (.address (bytesAt mem (nlaData p) (nlaDataLen mem p).toNat))

def readLladdr (env : Env) (mem : Memory) (p : ℤ) (v : Vars) : Vars :=
  let text := env.macToString (bytesAt mem (nlaData p) 6)
  { v.add env (.macAddr text) with macAddr := some (nlaData p), macBuff := some text }

def readMaster (env : Env) (mem : Memory) (p : ℤ) (v : Vars) : Vars :=
  let ifix := load32 mem (nlaData p)
  let v := { v with ifix := ifix, ifName := (env.osName ifix).or v.ifName, isBridge := true }
  let v := v.add env (.ifindex ifix)
  if env.macGetLearning (ndmIfindex mem) then
    v.add env (.mbrIfindex (env.physicalToVlanIfindex (ndmIfindex mem)))
  else v

/-- The body of the loop. -/
def turn (env : Env) (mem : Memory) (p : ℤ) (v : Vars) : Vars :=
  let v := if rtaType mem p = ndaDst then readDst env mem p v else v
  let v := if rtaType mem p = ndaLladdr then readLladdr env mem p v else v
  if rtaType mem p = ndaMaster then readMaster env mem p v else v

/-- The bytes of an address that `inet_ntop` reads. -/
def ntopLen (family : UInt8) : ℕ :=
  if family = afInet then 4 else if family = afInet6 then 16 else 0

/-- The bytes that a turn reads: the type, and what there is for it. -/
def reads (env : Env) (mem : Memory) (p : ℤ) : List ℤ :=
  span (p + 2) 2 ++
    (if rtaType mem p = ndaDst then
      span p 2 ++ span (nlaData p) (nlaDataLen mem p).toNat ++
        if env.logs then span 16 1 ++ span (nlaData p) (ntopLen (ndmFamily mem)) else []
    else if rtaType mem p = ndaLladdr then span (nlaData p) 6
    else if rtaType mem p = ndaMaster then span (nlaData p) 4 ++ span 20 4
    else [])

theorem turn_congr (env : Env) {mem mem' : Memory} {p : ℤ}
    (h : ∀ b ∈ reads env mem p, mem b = mem' b) (v : Vars) :
    turn env mem p v = turn env mem' p v := by
  unfold reads at h
  rw [List.forall_mem_append] at h
  obtain ⟨htype, hrest⟩ := h
  unfold turn
  rw [← rtaType_span htype]
  by_cases hdst : rtaType mem p = ndaDst
  · rw [if_pos hdst, List.forall_mem_append, List.forall_mem_append] at hrest
    obtain ⟨⟨hlen, hdata⟩, -⟩ := hrest
    have hfield : nlaDataLen mem p = nlaDataLen mem' p := by
      rw [nlaDataLen, nlaDataLen, load16_agree (agree_span hlen)]
    have hread : readDst env mem p v = readDst env mem' p v := by
      rw [readDst, readDst, ← hfield, bytesAt_span hdata]
    simp [hdst, ndaDst, ndaLladdr, ndaMaster, hread]
  · rw [if_neg hdst] at hrest
    by_cases hll : rtaType mem p = ndaLladdr
    · rw [if_pos hll] at hrest
      have hread : readLladdr env mem p v = readLladdr env mem' p v := by
        rw [readLladdr, readLladdr, bytesAt_span hrest]
      simp [hll, ndaDst, ndaLladdr, ndaMaster, hread]
    · rw [if_neg hll] at hrest
      by_cases hmaster : rtaType mem p = ndaMaster
      · rw [if_pos hmaster, List.forall_mem_append] at hrest
        obtain ⟨hdata, hindex⟩ := hrest
        have hread : readMaster env mem p v = readMaster env mem' p v := by
          rw [readMaster, readMaster, ndmIfindex, ndmIfindex, load32_agree (agree_span hdata),
            load32_agree (agree_span hindex)]
        simp [hmaster, ndaDst, ndaLladdr, ndaMaster, hread]
      · simp [hdst, hll, hmaster]

/-- The loop over the attributes. -/
def body (env : Env) : Body Vars := ⟨turn env, reads env, fun h => turn_congr env h⟩

/-- The bytes from the start of an attribute that a turn reads, whatever its
length. -/
def least (env : Env) (mem : Memory) (p : ℤ) : ℕ :=
  if rtaType mem p = ndaDst then 4 + if env.logs then ntopLen (ndmFamily mem) else 0
  else if rtaType mem p = ndaLladdr then 10
  else if rtaType mem p = ndaMaster then 8
  else 4

theorem reads_inMsg (env : Env) {mem : Memory} {o len : ℕ} (hhdr : 28 ≤ len)
    (hfits : Fits mem len o) :
    (∀ b ∈ reads env mem o, InMsg len b) ↔ o + least env mem o ≤ len := by
  obtain ⟨hin, hmin, hend⟩ := hfits
  have hfields {p : ℤ} {n : ℕ} (h0 : 0 ≤ p) (h28 : p + n ≤ 28) :
      ∀ b ∈ span p n, InMsg len b := (span_inMsg h0 (by omega)).mpr (by omega)
  have hdata {n : ℕ} : (∀ b ∈ span (nlaData o) n, InMsg len b) ↔ o + 4 + n ≤ len := by
    unfold nlaData
    rw [span_inMsg (by omega) (by omega)]
    omega
  have htype : ∀ b ∈ span ((o : ℤ) + 2) 2, InMsg len b :=
    (span_inMsg (by omega) (by omega)).mpr (by omega)
  unfold reads least
  rw [List.forall_mem_append, and_iff_right htype]
  by_cases hdst : rtaType mem o = ndaDst
  · have hlen : ∀ b ∈ span (o : ℤ) 2, InMsg len b :=
      (span_inMsg (by omega) (by omega)).mpr (by omega)
    have hcopy : ∀ b ∈ span (nlaData o) (nlaDataLen mem o).toNat, InMsg len b := by
      have hlt := (rtaLen mem o).isLt
      have hwide : (nlaDataLen mem o).toNat = (rtaLen mem o).toNat - 4 := by
        unfold nlaDataLen
        rw [BitVec.toNat_sub, BitVec.toNat_setWidth, BitVec.toNat_ofNat]
        show (_ + (rtaLen mem o).toNat % 2 ^ 32) % 2 ^ 32 = _
        omega
      rw [hdata, hwide]
      omega
    rw [if_pos hdst, if_pos hdst, List.forall_mem_append, List.forall_mem_append,
      and_iff_right ⟨hlen, hcopy⟩]
    cases env.logs with
    | false => simpa using hin
    | true =>
      rw [if_pos rfl, if_pos rfl, List.forall_mem_append, hdata,
        and_iff_right (hfields (by decide) (by decide)), Nat.add_assoc]
  · rw [if_neg hdst, if_neg hdst]
    by_cases hll : rtaType mem o = ndaLladdr
    · rw [if_pos hll, if_pos hll, hdata]
    · rw [if_neg hll, if_neg hll]
      by_cases hmaster : rtaType mem o = ndaMaster
      · rw [if_pos hmaster, if_pos hmaster, List.forall_mem_append, hdata,
          and_iff_left (hfields (by decide) (by decide))]
      · simpa [hmaster] using hin

/-- The messages that the loop can go over. -/
def Readable (env : Env) (mem : Memory) : Prop :=
  Whole (least env) mem 28 (load32 mem 0).toNat (load32 mem 0).toNat

/-- A message that comes to the loop has its header. -/
theorem hdr_of_start {env : Env} {rtMsgType vrfId : BitVec 32} {mem : Memory} {v : Vars}
    (h : start env rtMsgType vrfId mem = some v) : 28 ≤ (load32 mem 0).toNat := by
  unfold start at h
  split at h
  · cases h
  · omega

theorem safe_iff {env : Env} {rtMsgType vrfId : BitVec 32} {mem : Memory} {v : Vars}
    (h : start env rtMsgType vrfId mem = some v) :
    (body env).Safe mem (load32 mem 0).toNat (cursor mem, v) ↔ Readable env mem := by
  have hhdr := hdr_of_start h
  have hlt := (load32 mem 0).isLt
  have hcursor : cursor mem = cursorAt (load32 mem 0).toNat 28 := by
    rw [cursor, cursorAt, Cursor.mk.injEq]
    refine ⟨rfl, BitVec.eq_of_toNat_eq ?_⟩
    rw [BitVec.toNat_sub, BitVec.toNat_ofNat, BitVec.toNat_ofNat]
    omega
  rw [hcursor, Body.safe_iff (by omega) hhdr le_rfl]
  exact contained_iff_whole hhdr fun o _ hfits _ => reads_inMsg env hhdr hfits

end Neigh

/-! ## `nl_get_ip_netconf_info` -/

namespace Netconf

def netconfaIfindex : BitVec 16 := 1
def netconfaForwarding : BitVec 16 := 2
def netconfaIfindexAll : BitVec 32 := -1
def netconfaIfindexDefault : BitVec 32 := -2

/-- `ncm_family`, the field of `struct netconfmsg`. -/
def ncmFamily (mem : Memory) : UInt8 := mem 16

/-- The variables of the loop, and the name in the object. -/
structure Vars where
  vrfName : Str
  ifIndex : BitVec 32
  forward : BitVec 32
  isIfIndexSet : Bool
  isFwdSet : Bool

/-- The function up to its loop.  `none` is `return false`, and
`nasOsGetVrfName` what `nas_os_get_vrf_name` returns. -/
def start (nasOsGetVrfName : Option Str) (mem : Memory) : Option Vars :=
  if ncmFamily mem ≠ afInet ∧ ncmFamily mem ≠ afInet6 then none
  else nasOsGetVrfName.map fun name => ⟨name, 0, 0, false, false⟩

/-- The loop variables at its start.  The first attribute lies behind the
padding of the header, which is not taken off the count. -/
def cursor (mem : Memory) : Cursor := ⟨20, load32 mem 0 - 17#32⟩

/-- The body of the loop. -/
def turn (mem : Memory) (p : ℤ) (v : Vars) : Vars :=
  if rtaType mem p = netconfaIfindex then
    let ifIndex := load32 mem (nlaData p)
    let global := ifIndex = netconfaIfindexAll ∨ ifIndex = netconfaIfindexDefault
    { v with ifIndex := if global then 0 else ifIndex, isIfIndexSet := true }
  else if rtaType mem p = netconfaForwarding then
    { v with forward := load32 mem (nlaData p), isFwdSet := true }
  else v

/-- The bytes that a turn reads. -/
def reads (mem : Memory) (p : ℤ) : List ℤ :=
  span (p + 2) 2 ++
    if rtaType mem p = netconfaIfindex ∨ rtaType mem p = netconfaForwarding then
      span (nlaData p) 4
    else []

theorem turn_congr {mem mem' : Memory} {p : ℤ} (h : ∀ b ∈ reads mem p, mem b = mem' b)
    (v : Vars) : turn mem p v = turn mem' p v := by
  unfold reads at h
  rw [List.forall_mem_append] at h
  obtain ⟨htype, hrest⟩ := h
  unfold turn
  rw [← rtaType_span htype]
  split at hrest
  · rw [load32_agree (agree_span hrest)]
  · rename_i hother
    rw [not_or] at hother
    rw [if_neg hother.1, if_neg hother.2, if_neg hother.1, if_neg hother.2]

/-- The loop over the attributes. -/
def body : Body Vars := ⟨turn, reads, turn_congr⟩

/-- The bytes from the start of an attribute that a turn reads. -/
def least (mem : Memory) (p : ℤ) : ℕ :=
  if rtaType mem p = netconfaIfindex ∨ rtaType mem p = netconfaForwarding then 8 else 4

theorem reads_inMsg {mem : Memory} {o len : ℕ} (hhdr : o + 2 ≤ len) :
    (∀ b ∈ reads mem o, InMsg len b) ↔ o + least mem o ≤ len := by
  have htype : (∀ b ∈ span ((o : ℤ) + 2) 2, InMsg len b) ↔ o + 4 ≤ len := by
    rw [span_inMsg (by omega) (by omega)]
    omega
  unfold reads least
  rw [List.forall_mem_append, htype]
  split
  · constructor
    · rintro ⟨hin, hdata⟩
      unfold nlaData at hdata
      rw [span_inMsg (by omega) (by omega)] at hdata
      omega
    · intro h
      refine ⟨by omega, ?_⟩
      unfold nlaData
      rw [span_inMsg (by omega) (by omega)]
      omega
  · simp

/-- The messages that the loop can go over.  Its count ends three bytes behind
the message. -/
def Readable (mem : Memory) : Prop :=
  17 ≤ (load32 mem 0).toNat ∧
    Whole least mem 20 ((load32 mem 0).toNat + 3) (load32 mem 0).toNat

theorem safe_iff (mem : Memory) (v : Vars) :
    body.Safe mem (load32 mem 0).toNat (cursor mem, v) ↔ Readable mem := by
  have hlt := (load32 mem 0).isLt
  have hcursor : cursor mem = cursorAt (20 + (load32 mem 0 - 17#32).toNat) 20 := by
    rw [cursor, cursorAt, Nat.add_sub_cancel_left, BitVec.ofNat_toNat, BitVec.setWidth_eq]
    rfl
  have hcount : (load32 mem 0 - 17#32).toNat = (2 ^ 32 - 17 + (load32 mem 0).toNat) % 2 ^ 32 := by
    rw [BitVec.toNat_sub, BitVec.toNat_ofNat]
  rw [hcursor, Body.safe_iff (by omega) (by omega) (by omega)]
  show Contained reads _ _ _ _ ↔ _
  rw [contained_iff_whole (by omega) fun o _ _ hhdr => reads_inMsg hhdr]
  unfold Readable
  by_cases hshort : 17 ≤ (load32 mem 0).toNat
  · have hstop : 20 + (load32 mem 0 - 17#32).toNat = (load32 mem 0).toNat + 3 := by omega
    rw [hstop, and_iff_right hshort]
  · -- The count has wrapped, and the first test reads behind the message.
    refine iff_of_false (fun h => ?_) fun h => hshort h.1
    have hfirst := (h 20 .head (by omega)).1
    omega

end Netconf

/-! ## The two loops -/

/-- A function that comes to its loop, if it does. -/
theorem forall_started_iff {α : Type*} {start : Option α} {P : α → Prop} {Q : Prop}
    (h : ∀ v, start = some v → (P v ↔ Q)) :
    (∀ v, start = some v → P v) ↔ (start.isSome → Q) := by
  constructor
  · intro hall hsome
    obtain ⟨v, hv⟩ := Option.isSome_iff_exists.mp hsome
    exact (h v hv).mp (hall v hv)
  · intro hq v hv
    exact (h v hv).mpr (hq (Option.isSome_iff_exists.mpr ⟨v, hv⟩))

/-- The loops end and stay in their messages exactly when these can be gone
over. -/
theorem attrLoops_safe_iff (env : Neigh.Env) (rtMsgType vrfId : BitVec 32)
    (nasOsGetVrfName : Option Str) (mem : Memory) :
    ((∀ v, Neigh.start env rtMsgType vrfId mem = some v →
          (Neigh.body env).Safe mem (load32 mem 0).toNat (Neigh.cursor mem, v)) ↔
        ((Neigh.start env rtMsgType vrfId mem).isSome → Neigh.Readable env mem)) ∧
      ((∀ v, Netconf.start nasOsGetVrfName mem = some v →
          Netconf.body.Safe mem (load32 mem 0).toNat (Netconf.cursor mem, v)) ↔
        ((Netconf.start nasOsGetVrfName mem).isSome → Netconf.Readable mem)) :=
  ⟨forall_started_iff fun _ hv => Neigh.safe_iff hv,
    forall_started_iff fun v _ => Netconf.safe_iff mem v⟩

/-- A message of a neighbour with 33 bytes.  Its attribute has five, and ends
with it. -/
def unpadded : Memory := fun p =>
  if p = 0 then 33 else if p = 16 then afInet else if p = 28 then 5 else 0

def plainEnv : Neigh.Env where
  defaultVrfId := 0
  vrfName := fun _ => some []
  osName := fun _ => none
  mgmtVlan := fun _ => false
  adminState := fun _ => some true
  physicalToVlanIfindex := id
  macGetLearning := fun _ => false
  macToString := fun _ => []
  room := fun _ => true
  logs := false

/-- The padding of the attribute makes a large number of the count. -/
theorem unpadded_not_safe :
    ¬ ∀ (env : Neigh.Env) (rtMsgType vrfId : BitVec 32) (nasOsGetVrfName : Option Str)
        (mem : Memory),
      (∀ v, Neigh.start env rtMsgType vrfId mem = some v →
          (Neigh.body env).Safe mem (load32 mem 0).toNat (Neigh.cursor mem, v)) ∧
        ∀ v, Netconf.start nasOsGetVrfName mem = some v →
          Netconf.body.Safe mem (load32 mem 0).toNat (Netconf.cursor mem, v) := by
  intro h
  have hstart : (Neigh.start plainEnv rtmNewneigh 0 unpadded).isSome := by decide
  obtain ⟨v, hv⟩ := Option.isSome_iff_exists.mp hstart
  have hsafe := (h plainEnv rtmNewneigh 0 none unpadded).1 v hv
  have hlen : (load32 unpadded 0).toNat = 33 := by decide
  have hwhole := (Neigh.safe_iff hv).mp hsafe
  unfold Neigh.Readable at hwhole
  rw [hlen] at hwhole
  have hfits : Fits unpadded 33 28 := by
    unfold Fits
    decide
  have hpad := ((hwhole 28 .head (by decide)).2 hfits).1
  exact absurd hpad (by decide)

end OpxNasLinux.Rta
