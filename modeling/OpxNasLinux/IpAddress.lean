import Mathlib.Data.Fin.VecNotation
import OpxNasLinux.McastIfNames
import OpxNasLinux.Netlink

/-!
# Setting an address of an interface

`nas_os_ip_addr_write_function` finds the interface of a request with
`nas_os_ip_key_info_get`, works out the broadcast address of an IPv4 address with
`nas_os_ip_get_broadcast_ip` and sends a message to the kernel.

* `nasOsIpGetBroadcastIp` puts the octets of an address together as signed
  integers.  `broadcast_iff` says for which addresses no sign spreads into a
  network bit.
* `nasOsIpKeyInfoGet` is the lookup and `nasOsIpAddrWriteFunction` the message.
  `ifIndex_iff` says for which requests they find the interface.
-/

namespace OpxNasLinux.IpAddress

open Netlink
open McastIfNames (safestrncpy safestrncpy_of_lt)

/-! ## The broadcast address -/

def halInet4Len : ℕ := 4

/-- An IPv4 address in the order of the network. -/
abbrev Ipv4 := Fin 4 → UInt8

/-- `ip[k]`, a signed `char`, at its place in an `int`. -/
def octet (addr : Ipv4) (k : Fin 4) : BitVec 32 :=
  (addr k).toBitVec.signExtend 32 <<< (24 - 8 * k.val)

/-- `mask`: the host bits. -/
def hostMask (prefixLen : BitVec 32) : BitVec 32 :=
  if prefixLen ≠ 0 then (1#32 <<< (32 - prefixLen.toNat)) - 1#32 else 0xffffffff#32

/-- `nas_os_ip_get_broadcast_ip`.  The last byte of the integer in the memory is
the first one of the address. -/
def nasOsIpGetBroadcastIp (addr : Ipv4) (prefixLen : BitVec 32) : Option Ipv4 :=
  if halInet4Len * 8 - 1 ≤ prefixLen.toNat then none
  else
    let bcastAddr := octet addr 0 ||| octet addr 1 ||| octet addr 2 ||| octet addr 3 |||
      hostMask prefixLen
    some fun i => ⟨bcastAddr.extractLsb' (8 * (3 - i.val)) 8⟩

/-- A bit of an octet, the highest one first. -/
def addrBit (addr : Ipv4) (j : Fin 4) (b : Fin 8) : Bool :=
  (addr j).toBitVec.getMsbD b

/-- The address with all host bits set. -/
def IsBroadcast (addr : Ipv4) (prefixLen : ℕ) (bcast : Ipv4) : Prop :=
  ∀ j b, addrBit bcast j b = (addrBit addr j b || decide (prefixLen ≤ 8 * j.val + b.val))

/-- An octet from 128 on is a negative `char`, and sets all bits of the octets in
front of it.  Their network bits are set already. -/
def NoLeak (addr : Ipv4) (prefixLen : ℕ) : Prop :=
  ∀ j k, j < k → 128 ≤ addr k → ∀ b : Fin 8, 8 * j.val + b.val < prefixLen →
    addrBit addr j b = true

instance (addr : Ipv4) (prefixLen : ℕ) (bcast : Ipv4) :
    Decidable (IsBroadcast addr prefixLen bcast) :=
  inferInstanceAs (Decidable (∀ _ _, _))

instance (addr : Ipv4) (prefixLen : ℕ) : Decidable (NoLeak addr prefixLen) :=
  inferInstanceAs (Decidable (∀ _ _, _))

/-- A signed `char` is negative from 128 on. -/
theorem msb_octet (x : UInt8) : x.toBitVec.msb = true ↔ 128 ≤ x := by
  rw [BitVec.msb_eq_decide, decide_eq_true_iff, UInt8.le_iff_toNat_le]
  rfl

/-- The bits of an octet in the integer: its sign in front of it, and nothing
behind it. -/
theorem octet_bit (addr : Ipv4) (k j : Fin 4) (b : Fin 8) :
    (octet addr k).getMsbD (8 * j.val + b.val) = true ↔
      (j < k ∧ 128 ≤ addr k) ∨ (j = k ∧ addrBit addr k b = true) := by
  have hj := j.isLt
  have hk := k.isLt
  have hb := b.isLt
  unfold octet addrBit
  rw [BitVec.getMsbD_shiftLeft, BitVec.getMsbD_signExtend, Bool.and_eq_true, decide_eq_true_iff,
    Fin.lt_def, Fin.ext_iff]
  split_ifs with hlow
  · by_cases hjk : j.val = k.val
    · have hbit : 8 * j.val + b.val + (24 - 8 * k.val) + 8 - 32 = b.val := by omega
      rw [hbit]
      exact ⟨fun h => .inr ⟨hjk, h.2⟩,
        fun h => h.elim (fun h => by omega) fun h => ⟨by omega, h.2⟩⟩
    · exact iff_of_false (fun h => by omega) fun h => h.elim (fun h => by omega) fun h => hjk h.1
  · rw [msb_octet]
    exact ⟨fun h => .inl ⟨by omega, h.2⟩,
      fun h => h.elim (fun h => ⟨by omega, h.2⟩) fun h => by omega⟩

theorem hostMask_bit {prefixLen : BitVec 32} (h : prefixLen.toNat ≤ 30) {i : ℕ} (hi : i < 32) :
    (hostMask prefixLen).getMsbD i = decide (prefixLen.toNat ≤ i) := by
  unfold hostMask
  split_ifs with hzero
  · have hpos : prefixLen.toNat ≠ 0 := fun h => hzero (BitVec.eq_of_toNat_eq h)
    have hpow : 2 ^ (32 - prefixLen.toNat) ≤ 2 ^ 31 := Nat.pow_le_pow_right (by decide) (by omega)
    have hge : 1 ≤ 2 ^ (32 - prefixLen.toNat) := Nat.one_le_two_pow
    have hval : (1#32 <<< (32 - prefixLen.toNat) - 1#32).toNat =
        2 ^ (32 - prefixLen.toNat) - 1 := by
      rw [BitVec.toNat_sub, BitVec.toNat_shiftLeft, BitVec.toNat_ofNat, Nat.shiftLeft_eq]
      omega
    rw [BitVec.getMsbD_eq_getLsbD, BitVec.getLsbD, hval, Nat.testBit_two_pow_sub_one,
      decide_eq_true hi, Bool.true_and]
    congr 1
    rw [eq_iff_iff]
    omega
  · rw [not_not] at hzero
    have hle : (0 : BitVec 32).toNat ≤ i := Nat.zero_le i
    rw [hzero, decide_eq_true hle]
    have hall : ∀ i : Fin 32, (0xffffffff#32).getMsbD i = true := by decide
    exact hall ⟨i, hi⟩

/-- A bit of the integer that is written. -/
theorem bcastAddr_bit (addr : Ipv4) {prefixLen : BitVec 32} (h : prefixLen.toNat ≤ 30)
    (j : Fin 4) (b : Fin 8) :
    (octet addr 0 ||| octet addr 1 ||| octet addr 2 ||| octet addr 3 |||
        hostMask prefixLen).getMsbD (8 * j.val + b.val) = true ↔
      (∃ k, j < k ∧ 128 ≤ addr k) ∨ addrBit addr j b = true ∨
        prefixLen.toNat ≤ 8 * j.val + b.val := by
  have hany : (∃ k, (octet addr k).getMsbD (8 * j.val + b.val) = true) ↔
      (∃ k, j < k ∧ 128 ≤ addr k) ∨ addrBit addr j b = true := by
    constructor
    · rintro ⟨k, hk⟩
      obtain hleak | ⟨rfl, hown⟩ := (octet_bit addr k j b).mp hk
      · exact .inl ⟨k, hleak⟩
      · exact .inr hown
    · rintro (⟨k, hleak⟩ | hown)
      · exact ⟨k, (octet_bit addr k j b).mpr (.inl hleak)⟩
      · exact ⟨j, (octet_bit addr j j b).mpr (.inr ⟨rfl, hown⟩)⟩
  have hj := j.isLt
  have hb := b.isLt
  rw [BitVec.getMsbD_or, BitVec.getMsbD_or, BitVec.getMsbD_or, BitVec.getMsbD_or,
    hostMask_bit h (by omega), Bool.or_eq_true, Bool.or_eq_true, Bool.or_eq_true, Bool.or_eq_true,
    decide_eq_true_iff, ← or_assoc, ← hany]
  simp [Fin.exists_fin_succ, or_assoc]

/-- What is written, bit by bit. -/
theorem nasOsIpGetBroadcastIp_bit (addr : Ipv4) {prefixLen : BitVec 32}
    (h : prefixLen.toNat ≤ 30) : ∃ bcast, nasOsIpGetBroadcastIp addr prefixLen = some bcast ∧
      ∀ j b, addrBit bcast j b = true ↔ (∃ k, j < k ∧ 128 ≤ addr k) ∨ addrBit addr j b = true ∨
        prefixLen.toNat ≤ 8 * j.val + b.val := by
  unfold nasOsIpGetBroadcastIp halInet4Len
  rw [if_neg (by omega)]
  refine ⟨_, rfl, fun j b => ?_⟩
  have hj := j.isLt
  have hb := b.isLt
  have hplace : 32 - (8 * (3 - j.val) + 8 - b.val) = 8 * j.val + b.val := by omega
  rw [← bcastAddr_bit addr h j b]
  show (BitVec.extractLsb' _ 8 _).getMsbD b = true ↔ _
  rw [BitVec.getMsbD_extractLsb', decide_eq_true hb, decide_eq_true (by omega), Bool.true_and,
    Bool.true_and, hplace]

/-- The addresses whose broadcast address is right. -/
theorem broadcast_iff (addr : Ipv4) (prefixLen : BitVec 32) (h : prefixLen.toNat ≤ 30) :
    (∃ bcast, nasOsIpGetBroadcastIp addr prefixLen = some bcast ∧
      IsBroadcast addr prefixLen.toNat bcast) ↔ NoLeak addr prefixLen.toNat := by
  obtain ⟨bcast, hbcast, hbit⟩ := nasOsIpGetBroadcastIp_bit addr h
  rw [hbcast]
  constructor
  · rintro ⟨bcast', heq, hright⟩ j k hjk hneg b hnet
    obtain rfl := Option.some.inj heq
    have hset := hright j b
    rw [(hbit j b).mpr (.inl ⟨k, hjk, hneg⟩), decide_eq_false (by omega), Bool.or_false] at hset
    exact hset.symm
  · intro hleak
    refine ⟨bcast, rfl, fun j b => ?_⟩
    rw [Bool.eq_iff_iff, hbit, Bool.or_eq_true, decide_eq_true_iff]
    refine ⟨?_, .inr⟩
    rintro (⟨k, hjk, hneg⟩ | hown)
    · -- A network bit of `j` is set already, and a host bit is set by the mask.
      by_cases hnet : 8 * j.val + b.val < prefixLen.toNat
      · exact .inl (hleak j k hjk hneg b hnet)
      · exact .inr (by omega)
    · exact hown

/-- `10.1.1.1`, with the prefix length 24. -/
theorem broadcast_tenNet :
    ∃ bcast, nasOsIpGetBroadcastIp ![10, 1, 1, 1] 24#32 = some bcast ∧
      IsBroadcast ![10, 1, 1, 1] 24 bcast :=
  (broadcast_iff ![10, 1, 1, 1] 24#32 (by decide)).mpr (by decide)

/-- The last octet of `10.1.1.200` is negative, and `10.1.1.200/24` gets the
broadcast address `255.255.255.255`. -/
theorem tenNet_leaks :
    ¬ ∀ addr (prefixLen : BitVec 32), prefixLen.toNat ≤ 30 →
      ∃ bcast, nasOsIpGetBroadcastIp addr prefixLen = some bcast ∧
        IsBroadcast addr prefixLen.toNat bcast := by
  intro h
  obtain ⟨bcast, heq, hright⟩ := h ![10, 1, 1, 200] 24#32 (by decide)
  have hfirst : (nasOsIpGetBroadcastIp ![10, 1, 1, 200] 24#32).map (addrBit · 0 0) = some true := by
    decide
  rw [heq, Option.map_some, Option.some.injEq, hright] at hfirst
  exact absurd hfirst (by decide)

/-! ## The interface of a request -/

def ifaFPermanent : UInt8 := 0x80

/-- What the headers of other packages define. -/
structure Defs where
  /-- `NAS_VRF_NAME_SZ`. -/
  nasVrfNameSz : ℕ
  /-- `HAL_IF_NAME_SZ`. -/
  halIfNameSz : ℕ
  /-- `NAS_DEFAULT_VRF_NAME`. -/
  nasDefaultVrfName : Str
  /-- `NAS_DEFAULT_VRF_ID`. -/
  nasDefaultVrfId : BitVec 32

/-- What `dn_hal_get_interface_info` says about an interface.  The kernel counts
its interfaces from one. -/
structure Intf where
  ifName : Str
  ifIndex : BitVec 32
  vrfId : BitVec 32
  ifIndex_ne : ifIndex ≠ 0
deriving DecidableEq

/-- The interface database.  A name in it has room in `interface_ctrl_t`. -/
structure IntfDb (halIfNameSz : ℕ) where
  /-- `HAL_INTF_INFO_FROM_IF_NAME`. -/
  ofName : Str → Option Intf
  /-- `HAL_INTF_INFO_FROM_IF`. -/
  ofIndex : BitVec 32 → Option Intf
  ofName_short {name : Str} {intf : Intf} : ofName name = some intf → name.length < halIfNameSz

/-- The attributes of the object. -/
structure Request where
  ifName : Option Str
  ifIndex : Option (BitVec 32)
  vrfName : Option Str
  prefixLen : Option (BitVec 32)
  ip : Option Bytes

/-- `vrf_name`, `if_name` and `if_index`. -/
structure KeyInfo where
  vrfName : Str
  ifName : Str
  ifIndex : BitVec 32

inductive Operation where
  | create
  | set
  | delete
  | other
deriving DecidableEq

/-- The message to the kernel, and the VRF whose socket it is sent on. -/
structure AddrMsg where
  vrfName : Str
  nlmsgFlags : BitVec 16
  nlmsgType : BitVec 16
  ifaFamily : Af
  ifaPrefixlen : BitVec 8
  ifaFlags : UInt8
  ifaIndex : BitVec 32
  ifaScope : UInt8
  /-- `IFA_LOCAL`. -/
  ifaLocal : Bytes
  /-- `IFA_BROADCAST`. -/
  ifaBroadcast : Option Bytes

/-- What the system does in the call. -/
structure Sys where
  /-- `malloc` finds the memory. -/
  malloc : Bool
  /-- `nl_do_set_request` returns `STD_ERR_OK`. -/
  request : AddrMsg → Bool

section Code

variable (defs : Defs) (db : IntfDb defs.halIfNameSz) (req : Request)

/-- The check of a request without a VRF name. -/
def inOtherVrf (intf : Intf) : Bool :=
  req.vrfName.isNone && intf.vrfId != defs.nasDefaultVrfId

/-- `nas_os_ip_key_info_get`.  `none` is an error. -/
def nasOsIpKeyInfoGet (key : KeyInfo) : Option KeyInfo :=
  if req.ifName.isNone && req.ifIndex.isNone then none
  else
    let key := { key with
      vrfName := safestrncpy defs.nasVrfNameSz (req.vrfName.getD defs.nasDefaultVrfName) }
    match req.ifName with
    | some name =>
      let key := { key with ifName := safestrncpy defs.halIfNameSz name }
      if req.ifIndex.isNone || req.vrfName.isNone then
        (db.ofName (safestrncpy defs.halIfNameSz key.ifName)).bind fun intf =>
          if inOtherVrf defs req intf then none else some { key with ifIndex := intf.ifIndex }
      else some key
    | none =>
      match req.ifIndex with
      | some ifIndex =>
        let key := { key with ifIndex := ifIndex }
        if req.vrfName.isNone then
          (db.ofIndex ifIndex).bind fun intf =>
            if inOtherVrf defs req intf then none
            else some { key with ifName := safestrncpy defs.halIfNameSz intf.ifName }
        else some key
      | none => some key

/-- `nlmsg_flags` and `nlmsg_type`. -/
def msgFlags (op : Operation) : BitVec 16 :=
  nlmFRequest ||| nlmFAck |||
    match op with
    | .create => nlmFCreate ||| nlmFExcl ||| nlmFAppend
    | .set => nlmFReplace
    | _ => 0

def msgType (op : Operation) : BitVec 16 := if op = .delete then rtmDeladdr else rtmNewaddr

/-- `bcast_addr`, which is zero at first. -/
def bcastAddr (ip : Bytes) (prefixLen : BitVec 32) : Bytes :=
  List.ofFn ((nasOsIpGetBroadcastIp (fun i => ip.getD i 0) prefixLen).getD fun _ => 0)

/-- `nas_os_ip_addr_write_function`: the message that is sent, and whether the
function returns `cps_api_ret_code_OK`. -/
def nasOsIpAddrWriteFunction (sys : Sys) (op : Operation) (family : Af) : Option AddrMsg × Bool :=
  match nasOsIpKeyInfoGet defs db req ⟨[], [], 0⟩, req.ip, req.prefixLen with
  | some key, some ip, some prefixLen =>
    if sys.malloc then
      let msg : AddrMsg :=
        { vrfName := key.vrfName
          nlmsgFlags := msgFlags op
          nlmsgType := msgType op
          ifaFamily := family
          ifaPrefixlen := prefixLen.setWidth 8
          ifaFlags := ifaFPermanent
          ifaIndex := key.ifIndex
          ifaScope := 0
          ifaLocal := ip
          ifaBroadcast := if family = .inet then some ((bcastAddr ip prefixLen).take ip.length)
            else none }
      (some msg, sys.request msg)
    else (none, false)
  | _, _, _ => (none, false)

/-! ## What it is the index of -/

/-- The request is about this interface. -/
structure Names (intf : Intf) : Prop where
  named : req.ifName.isSome ∨ req.ifIndex.isSome
  byName (name : Str) : req.ifName = some name → db.ofName name = some intf
  byIndex (ifIndex : BitVec 32) : req.ifIndex = some ifIndex → intf.ifIndex = ifIndex

/-- The request has the name, the index and the VRF name.  There the index is not
set. -/
def AllThree : Prop := req.ifName.isSome ∧ req.ifIndex.isSome ∧ req.vrfName.isSome

/-- The request gets as far as its message. -/
def Sends (sys : Sys) : Prop := req.ip.isSome ∧ req.prefixLen.isSome ∧ sys.malloc

instance : Decidable (AllThree req) := inferInstanceAs (Decidable (_ ∧ _))
instance (sys : Sys) : Decidable (Sends req sys) := inferInstanceAs (Decidable (_ ∧ _))

end Code

section Lookup

variable {defs : Defs} {db : IntfDb defs.halIfNameSz} {req : Request} {intf : Intf}

/-- The index is left alone. -/
theorem keyInfoGet_allThree (h : AllThree req) (before : KeyInfo) :
    ∃ after, nasOsIpKeyInfoGet defs db req before = some after ∧
      after.ifIndex = before.ifIndex := by
  obtain ⟨hname, hindex, hvrf⟩ := h
  obtain ⟨name, hname⟩ := Option.isSome_iff_exists.mp hname
  obtain ⟨ifIndex, hindex⟩ := Option.isSome_iff_exists.mp hindex
  obtain ⟨vrfName, hvrf⟩ := Option.isSome_iff_exists.mp hvrf
  unfold nasOsIpKeyInfoGet
  rw [hname, hindex, hvrf]
  exact ⟨_, rfl, rfl⟩

/-- In all other cases it is the one of the interface. -/
theorem keyInfoGet_ifIndex (hintf : Names defs db req intf) (h : ¬ AllThree req)
    {before after : KeyInfo} (hget : nasOsIpKeyInfoGet defs db req before = some after) :
    after.ifIndex = intf.ifIndex := by
  obtain ⟨hnamed, hofName, hofIndex⟩ := hintf
  unfold nasOsIpKeyInfoGet at hget
  cases hname : req.ifName with
  | some name =>
    have hlookup := hofName name hname
    have hshort := db.ofName_short hlookup
    have hcopy : safestrncpy defs.halIfNameSz (safestrncpy defs.halIfNameSz name) = name := by
      rw [safestrncpy_of_lt hshort, safestrncpy_of_lt hshort]
    have hmissing : (req.ifIndex.isNone || req.vrfName.isNone) = true := by
      unfold AllThree at h
      rw [hname] at h
      cases hindex : req.ifIndex with
      | none => rfl
      | some _ =>
        cases hvrf : req.vrfName with
        | none => rfl
        | some _ => simp [hindex, hvrf] at h
    rw [hname] at hget
    dsimp only at hget
    rw [hmissing, hcopy, hlookup] at hget
    by_cases hother : inOtherVrf defs req intf = true
    · simp [hother] at hget
    · simp only [Option.isNone_some, Bool.false_and, Bool.false_eq_true, if_false, if_true,
        Option.bind_some, hother, Option.some.injEq] at hget
      rw [← hget]
  | none =>
    rw [hname] at hnamed hget
    obtain ⟨ifIndex, hindex⟩ := Option.isSome_iff_exists.mp (hnamed.resolve_left (by simp))
    rw [hofIndex ifIndex hindex]
    rw [hindex] at hget
    dsimp only at hget
    simp only [Option.isNone_none, Option.isNone_some, Bool.and_false, Bool.false_eq_true,
      if_false] at hget
    split_ifs at hget with hvrf
    · obtain ⟨found, -, hfound⟩ := Option.bind_eq_some_iff.mp hget
      split_ifs at hfound
      obtain rfl := Option.some.inj hfound
      rfl
    · obtain rfl := Option.some.inj hget
      rfl

/-- A message that is sent has the index of the lookup, and the rest of the
request is there. -/
theorem write_ifaIndex {sys : Sys} {op : Operation} {family : Af} {msg : AddrMsg}
    (h : (nasOsIpAddrWriteFunction defs db req sys op family).1 = some msg) :
    Sends req sys ∧ ∃ key, nasOsIpKeyInfoGet defs db req ⟨[], [], 0⟩ = some key ∧
      msg.ifaIndex = key.ifIndex := by
  unfold nasOsIpAddrWriteFunction at h
  split at h
  · rename_i key ip prefixLen hkey hip hlen
    by_cases hmalloc : sys.malloc = true
    · rw [if_pos hmalloc] at h
      obtain rfl := Option.some.inj h
      exact ⟨⟨by simp [hip], by simp [hlen], hmalloc⟩, key, hkey, rfl⟩
    · rw [if_neg hmalloc] at h
      cases h
  · cases h

/-- A message is sent after a lookup when the rest of the request is there. -/
theorem write_sends {sys : Sys} (op : Operation) (family : Af) {key : KeyInfo}
    (hkey : nasOsIpKeyInfoGet defs db req ⟨[], [], 0⟩ = some key) (h : Sends req sys) :
    ∃ msg, (nasOsIpAddrWriteFunction defs db req sys op family).1 = some msg ∧
      msg.ifaIndex = key.ifIndex := by
  obtain ⟨hip, hlen, hmalloc⟩ := h
  obtain ⟨ip, hip⟩ := Option.isSome_iff_exists.mp hip
  obtain ⟨prefixLen, hlen⟩ := Option.isSome_iff_exists.mp hlen
  unfold nasOsIpAddrWriteFunction
  rw [hkey, hip, hlen]
  dsimp only
  rw [if_pos hmalloc]
  exact ⟨_, rfl, rfl⟩

/-- The requests whose interface is found. -/
theorem ifIndex_iff (hintf : Names defs db req intf) :
    (∀ before, (∀ after, nasOsIpKeyInfoGet defs db req before = some after →
        after.ifIndex = intf.ifIndex) ↔ (AllThree req → before.ifIndex = intf.ifIndex)) ∧
    ∀ sys op family, (∀ msg, (nasOsIpAddrWriteFunction defs db req sys op family).1 = some msg →
        msg.ifaIndex = intf.ifIndex ∧ msg.ifaIndex ≠ 0) ↔ ¬ (AllThree req ∧ Sends req sys) := by
  refine ⟨fun before => ?_, fun sys op family => ?_⟩
  · constructor
    · intro h hall
      obtain ⟨after, hget, hkept⟩ := keyInfoGet_allThree hall before
      exact hkept.symm.trans (h after hget)
    · intro h after hget
      by_cases hall : AllThree req
      · obtain ⟨after', hget', hkept⟩ := @keyInfoGet_allThree defs db req hall before
        obtain rfl := Option.some.inj (hget'.symm.trans hget)
        exact hkept.trans (h hall)
      · exact keyInfoGet_ifIndex hintf hall hget
  · constructor
    · rintro h ⟨hall, hsends⟩
      obtain ⟨key, hkey, hzero⟩ := keyInfoGet_allThree hall ⟨[], [], 0⟩
      obtain ⟨msg, hmsg, hindex⟩ := write_sends op family hkey hsends
      exact (h msg hmsg).2 (hindex.trans hzero)
    · intro h msg hmsg
      obtain ⟨hsends, key, hkey, hindex⟩ := write_ifaIndex hmsg
      have hall : ¬ AllThree req := fun hall => h ⟨hall, hsends⟩
      have hright := keyInfoGet_ifIndex hintf hall hkey
      rw [hindex, hright]
      exact ⟨rfl, intf.ifIndex_ne⟩

end Lookup

/-- One interface. -/
def oneIntfDefs : Defs := ⟨32, 32, "default".toList, 0⟩

def eth0 : Intf := ⟨"eth0".toList, 3, 0, by decide⟩

def oneIntfDb : IntfDb oneIntfDefs.halIfNameSz where
  ofName name := if name = "eth0".toList then some eth0 else none
  ofIndex ifIndex := if ifIndex = 3 then some eth0 else none
  ofName_short := by
    intro name intf h
    split_ifs at h with hname
    rw [hname]
    decide

def anySys : Sys := ⟨true, fun _ => true⟩

/-- A request that has no VRF name. -/
def byNameAndIndex : Request :=
  ⟨some "eth0".toList, some 3, none, some 24, some [10, 1, 1, 1]⟩

theorem byNameAndIndex_names : Names oneIntfDefs oneIntfDb byNameAndIndex eth0 where
  named := by decide
  byName name h := by
    obtain rfl := Option.some.inj h
    rfl
  byIndex ifIndex h := by
    obtain rfl := Option.some.inj h
    rfl

theorem ifIndex_byNameAndIndex :
    (∀ before after, nasOsIpKeyInfoGet oneIntfDefs oneIntfDb byNameAndIndex before = some after →
        after.ifIndex = 3) ∧
      ∀ msg, (nasOsIpAddrWriteFunction oneIntfDefs oneIntfDb byNameAndIndex anySys .create
        .inet).1 = some msg → msg.ifaIndex = 3 ∧ msg.ifaIndex ≠ 0 :=
  ⟨fun before => ((ifIndex_iff byNameAndIndex_names).1 before).mpr fun h => absurd h (by decide),
    ((ifIndex_iff byNameAndIndex_names).2 anySys .create .inet).mpr (by decide)⟩

/-- The same request in the default VRF. -/
def inDefaultVrf : Request := { byNameAndIndex with vrfName := some "default".toList }

/-- Its address goes to the interface with the index zero. -/
theorem inDefaultVrf_index_zero :
    ¬ ∀ (req : Request) (intf : Intf), Names oneIntfDefs oneIntfDb req intf →
      (∀ after, nasOsIpKeyInfoGet oneIntfDefs oneIntfDb req ⟨[], [], 0⟩ = some after →
        after.ifIndex = intf.ifIndex) ∧
      ∀ sys op family msg,
        (nasOsIpAddrWriteFunction oneIntfDefs oneIntfDb req sys op family).1 = some msg →
          msg.ifaIndex = intf.ifIndex := by
  intro h
  have hnames : Names oneIntfDefs oneIntfDb inDefaultVrf eth0 :=
    ⟨by decide, byNameAndIndex_names.byName, byNameAndIndex_names.byIndex⟩
  have hall : AllThree inDefaultVrf := by decide
  obtain ⟨after, hget, hzero⟩ := keyInfoGet_allThree hall ⟨[], [], 0⟩
  have hright := (h inDefaultVrf eth0 hnames).1 after hget
  exact absurd (hzero.symm.trans hright) (by decide)

end OpxNasLinux.IpAddress
