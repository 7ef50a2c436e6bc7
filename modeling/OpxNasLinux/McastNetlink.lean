import OpxNasLinux.McastIfNames
import OpxNasLinux.NeighNetconf

/-!
# Multicast messages of the kernel

`nl_to_mcast_snoop_info` goes over the attributes of a message, over the
entries in them and over the first attribute of every entry.  The walks over
the entries use the count of the walk outside.

* `topLoop` is the walk over the attributes of the message, and `nested` the one
  over the attributes inside.
* `nlToMcastSnoopInfo` is the function, with the events that it publishes and
  the bytes that it reads.
* `Chain` says where the attributes of a walk lie, and `walkEnd_spec` where the
  walk ends.
-/

namespace OpxNasLinux.McastNetlink

open NlMsg Netlink
open McastIfNames (getIfname)
open RouteInfo (Oper bytesAt visits visits_spec)
open Rta (span)

/-! ## The walks -/

/-- The loop variables at the end of a walk, in so many turns at most. -/
def walkEndIn (mem : Memory) : ℕ → Cursor → Cursor
  | 0, c => c
  | turns + 1, c => if nlaOk mem c then walkEndIn mem turns (nlaNext mem c) else c

/-- The loop variables at the end of a walk.  A turn lowers the count. -/
def walkEnd (mem : Memory) (c : Cursor) : Cursor := walkEndIn mem c.rem.toInt.toNat c

/-! ## The code -/

def mdbaMdb : ℕ := 1
def mdbaRouter : ℕ := 2
def mdbaMdbEntry : ℕ := 1
def mdbaMdbEntryInfo : ℕ := 1
def mdbaRouterPort : ℕ := 1
def ethPIp : BitVec 16 := 0x0800
def ethPIpv6 : BitVec 16 := 0x86dd

/-- What the function asks for, outside of the message. -/
structure Env where
  /-- `HAL_IF_NAME_SZ`. -/
  halIfNameSz : ℕ
  /-- `cps_api_interface_if_index_to_name`. -/
  osName : BitVec 32 → Option Str
  /-- The VLAN id in `dn_hal_get_interface_info`. -/
  vlanId : BitVec 32 → Option (BitVec 16)
  /-- `inet_ntoa` and `inet_ntop`. -/
  ntop : Af → Bytes → Str
  /-- `EV_LOGGING` evaluates its arguments. -/
  logs : Bool

inductive Event where
  | group (op : Oper) (vlanId : BitVec 16) (af : Af) (ifName grpAddr : Str)
  | router (op : Oper) (vlanId : BitVec 16) (ifName : Str) (isMld : Bool)
deriving DecidableEq

/-- The events that are published, with the attributes they come from, and the
bytes that are read. -/
structure St where
  events : List (ℤ × Event)
  reads : List ℤ

def St.read (s : St) (bs : List ℤ) : St := { s with reads := s.reads ++ bs }

/-- `net_publish_event`. -/
def St.publish (s : St) (p : ℤ) (e : Event) : St := { s with events := s.events ++ [(p, e)] }

/-- The operation of the objects. -/
def mdbOp (msgType : BitVec 32) : Option Oper :=
  if msgType = rtmNewmdb then some .create
  else if msgType = rtmDelmdb then some .delete
  else none

section Records

variable (env : Env) (op : Oper) (vlanId : BitVec 16) (mem : Memory)

/- The fields of `struct br_mdb_entry`, at `e`. -/

/-- `ntohs(br_entry->addr.proto)`. -/
def addrProto (e : ℤ) : BitVec 16 := (mem (e + 24)).toBitVec ++ (mem (e + 25)).toBitVec

/-- The group of an entry, unless its protocol is another one. -/
def groupOf (e : ℤ) : Option (Af × Bytes) :=
  if addrProto mem e = ethPIp then some (.inet, bytesAt mem (e + 8) 4)
  else if addrProto mem e = ethPIpv6 then some (.inet6, bytesAt mem (e + 8) 16)
  else none

/-- The bytes that `_populate_mdb_entry_object` reads. -/
def groupReads (e : ℤ) : List ℤ :=
  span (e + 24) 2 ++ (groupOf mem e).elim [] fun group => span (e + 8) group.1.length

/-- The branch for a `struct br_mdb_entry`, in the attribute at `d`.  An error
is `return false`. -/
def readRecord (s : St) (d : ℤ) : Except St St :=
  let e := nlaData d
  let s := s.read (span e 4 ++ if env.logs then span (e + 24) 2 else [])
  match getIfname env.halIfNameSz env.osName (load32 mem e) with
  | .error _ => .error s
  | .ok ifName =>
    let s := s.read (groupReads mem e)
    match groupOf mem e with
    | none => .ok s
    | some (af, addr) => .ok (s.publish d (.group op vlanId af ifName (env.ntop af addr)))

/-- A turn of the walk over the attributes in `MDBA_MDB`.  What lies behind the
header of an entry is taken for an attribute. -/
def readEntry (s : St) (q : ℤ) : Except St St :=
  let s := s.read (span (q + 2) 2)
  if nlaType mem q = mdbaMdbEntry then
    let s := s.read (span (nlaData q + 2) 2)
    if nlaType mem (nlaData q) = mdbaMdbEntryInfo then readRecord env op vlanId mem s (nlaData q)
    else .ok s
  else .ok s

/-- A turn of the walk over the attributes in `MDBA_ROUTER`.  Both objects are
made in the same buffer, so each is published as it is then. -/
def readPort (s : St) (q : ℤ) : Except St St :=
  let s := s.read (span (q + 2) 2)
  if nlaType mem q = mdbaRouterPort then
    let s := s.read (span (nlaData q) 4)
    match getIfname env.halIfNameSz env.osName (load32 mem (nlaData q)) with
    | .error _ => .error s
    | .ok ifName =>
      .ok ((s.publish q (.router op vlanId ifName true)).publish q
        (.router op vlanId ifName false))
  else .ok s

/-- `nla_for_each_nested`: the state and the count that it leaves. -/
def nested (body : St → ℤ → Except St St) (p : ℤ) (s : St) : Except St (St × BitVec 32) :=
  let start := embedded mem p
  ((visits mem start).foldlM (fun s q => body (s.read (span q 2)) q) (s.read (span p 2))).map
    fun s => (s.read (nlaOkReads (walkEnd mem start)), (walkEnd mem start).rem)

/-- The body of the walk over the attributes of the message, with the count
that it leaves. -/
def readTop (s : St) (c : Cursor) : Except St (St × BitVec 32) :=
  let s := s.read (span (c.pos + 2) 2)
  if nlaType mem c.pos = mdbaMdb then nested mem (readEntry env op vlanId mem) c.pos s
  else if nlaType mem c.pos = mdbaRouter then nested mem (readPort env op vlanId mem) c.pos s
  else .ok (s, c.rem)

/-- The walk over the attributes of the message, in so many turns at most. -/
def topLoop : ℕ → Cursor → St → Except St St
  | 0, _, s => .ok s
  | turns + 1, c, s =>
    let s := s.read (nlaOkReads c)
    if nlaOk mem c then
      readTop env op vlanId mem s c >>= fun out =>
        topLoop turns (nlaNext mem ⟨c.pos, out.2⟩) (out.1.read (span c.pos 2))
    else .ok s

end Records

/-- `nl_to_mcast_snoop_info`. -/
def nlToMcastSnoopInfo (env : Env) (msgType : BitVec 32) (mem : Memory) : Except St St :=
  let s : St := ⟨[], if env.logs then span 16 1 ++ span 20 4 else []⟩
  match mdbOp msgType with
  | none => .error s
  | some op =>
    let s := s.read (span 20 4)
    match env.vlanId (load32 mem 20) with
    | none => .error s
    | some vlanId =>
      let start := attrCursor mem 8#32
      topLoop env op vlanId mem (start.rem.toInt.toNat + 1) start (s.read (span 0 4))

/-- The state when the function returns. -/
def stOf : Except St St → St
  | .ok s => s
  | .error s => s

/-! ## Where the walks go -/

/-- The length of an attribute. -/
def attrLen (mem : Memory) (p : ℤ) : ℕ := (load16 mem p).toNat

/-- The next attribute, when the count is not near the end of the integers. -/
theorem nlaNext_eq (mem : Memory) {c : Cursor} (h : -65536 ≤ c.rem.toInt) :
    (nlaNext mem c).pos = c.pos + padded (attrLen mem c.pos) ∧
      (nlaNext mem c).rem.toInt = c.rem.toInt - padded (attrLen mem c.pos) := by
  have hlt := (load16 mem c.pos).isLt
  have hwide : ((nlaLen mem c).setWidth 32).toNat = attrLen mem c.pos := by
    rw [BitVec.toNat_setWidth]
    show (load16 mem c.pos).toNat % 2 ^ 32 = attrLen mem c.pos
    unfold attrLen
    omega
  have hsmall : attrLen mem c.pos < 2 ^ 16 := hlt
  have hpad : (align ((nlaLen mem c).setWidth 32)).toInt = (padded (attrLen mem c.pos) : ℤ) := by
    rw [align_toInt, hwide]
    rw [hwide]
    omega
  have hclose := padded_lt (attrLen mem c.pos)
  have htop : c.rem.toInt < 2 ^ 31 := BitVec.toInt_lt
  unfold nlaNext
  dsimp only
  rw [hpad, BitVec.toInt_sub, hpad, Int.bmod_eq_of_le]
  · exact ⟨rfl, rfl⟩
  · omega
  · omega

theorem nlaOk_attrLen {mem : Memory} {c : Cursor} :
    nlaOk mem c = true ↔ 4 ≤ attrLen mem c.pos ∧ (attrLen mem c.pos : ℤ) ≤ c.rem.toInt := by
  rw [nlaOk_iff]
  show (4 : ℕ) ≤ c.rem.toInt ∧ 4 ≤ attrLen mem c.pos ∧ (attrLen mem c.pos : ℤ) ≤ c.rem.toInt ↔ _
  omega

/-- A walk goes one way. -/
theorem visits_unique {mem : Memory} {c : Cursor} {ps qs : List ℤ} (hp : Visits mem c ps)
    (hq : Visits mem c qs) : ps = qs := by
  induction hp generalizing qs with
  | stop hend =>
    cases hq with
    | stop _ => rfl
    | turn hok _ => exact absurd hok (by simp [hend])
  | turn hok _ ih =>
    cases hq with
    | stop hend => exact absurd hok (by simp [hend])
    | turn _ hrest => rw [ih hrest]

theorem visits_cons {mem : Memory} {c : Cursor} (hok : nlaOk mem c = true) :
    visits mem c = c.pos :: visits mem (nlaNext mem c) :=
  visits_unique (visits_spec mem c) (.turn hok (visits_spec mem _))

theorem visits_nil {mem : Memory} {c : Cursor} (hend : nlaOk mem c = false) :
    visits mem c = [] :=
  visits_unique (visits_spec mem c) (.stop hend)

/-- Attributes that lie one behind the other, from `lo` on and before `hi`. -/
def Chain (mem : Memory) (hi : ℤ) : ℤ → List ℤ → Prop
  | _, [] => True
  | lo, p :: ps =>
    p = lo ∧ 4 ≤ attrLen mem p ∧ p + attrLen mem p ≤ hi ∧
      Chain mem hi (p + padded (attrLen mem p)) ps

theorem visits_chain (mem : Memory) (c : Cursor) :
    Chain mem (c.pos + c.rem.toInt) c.pos (visits mem c) := by
  have hall := visits_spec mem c
  generalize visits mem c = ps at hall
  induction hall with
  | stop _ => trivial
  | turn hok _ ih =>
    rename_i c ps _
    obtain ⟨hmin, hin⟩ := nlaOk_attrLen.mp hok
    obtain ⟨hpos, hrem⟩ := nlaNext_eq mem (c := c) (by omega)
    have hsum : c.pos + padded (attrLen mem c.pos) + (c.rem.toInt - padded (attrLen mem c.pos)) =
        c.pos + c.rem.toInt := by omega
    rw [hpos, hrem, hsum] at ih
    exact ⟨rfl, hmin, by omega, ih⟩

/-- The attributes of a chain lie where it does. -/
theorem Chain.bounds {mem : Memory} {hi lo : ℤ} {ps : List ℤ} (h : Chain mem hi lo ps) {p : ℤ}
    (hp : p ∈ ps) : lo ≤ p ∧ 4 ≤ attrLen mem p ∧ p + attrLen mem p ≤ hi := by
  induction ps generalizing lo with
  | nil => cases hp
  | cons first ps ih =>
    obtain ⟨rfl, hmin, hin, hrest⟩ := h
    obtain rfl | hp := List.mem_cons.mp hp
    · exact ⟨le_rfl, hmin, hin⟩
    · obtain ⟨hlo, hmin', hin'⟩ := ih hrest hp
      exact ⟨by omega, hmin', hin'⟩

/-- A walk ends where its test fails, and not far behind its end. -/
theorem walkEnd_spec {mem : Memory} {c : Cursor} (h : -3 ≤ c.rem.toInt) :
    nlaOk mem (walkEnd mem c) = false ∧ c.pos ≤ (walkEnd mem c).pos ∧
      (walkEnd mem c).pos + (walkEnd mem c).rem.toInt = c.pos + c.rem.toInt ∧
      -3 ≤ (walkEnd mem c).rem.toInt := by
  have hturns : ∀ turns c, c.rem.toInt.toNat ≤ turns → -3 ≤ c.rem.toInt →
      nlaOk mem (walkEndIn mem turns c) = false ∧ c.pos ≤ (walkEndIn mem turns c).pos ∧
        (walkEndIn mem turns c).pos + (walkEndIn mem turns c).rem.toInt = c.pos + c.rem.toInt ∧
        -3 ≤ (walkEndIn mem turns c).rem.toInt := by
    intro turns
    induction turns with
    | zero =>
      intro c hc hrem
      refine ⟨Bool.eq_false_iff.mpr fun hok => ?_, le_rfl, rfl, hrem⟩
      replace hok : nlaOk mem c = true := hok
      have hin := nlaOk_attrLen.mp hok
      omega
    | succ turns ih =>
      intro c hc hrem
      rw [walkEndIn]
      split_ifs with hok
      · obtain ⟨hmin, hin⟩ := nlaOk_attrLen.mp hok
        obtain ⟨hpos', hrem'⟩ := nlaNext_eq mem (c := c) (by omega)
        have hle := le_padded (attrLen mem c.pos)
        have hclose := padded_lt (attrLen mem c.pos)
        obtain ⟨hend, hge, hsum, hlast⟩ := ih (nlaNext mem c) (by omega) (by omega)
        exact ⟨hend, by omega, by omega, hlast⟩
      · exact ⟨Bool.eq_false_iff.mpr hok, le_rfl, rfl, hrem⟩
  exact hturns _ c le_rfl h

/-- The count of the walk inside an attribute. -/
theorem embedded_rem {mem : Memory} {p : ℤ} (h : 4 ≤ attrLen mem p) :
    (embedded mem p).rem.toInt = attrLen mem p - 4 := by
  have hlt : attrLen mem p < 2 ^ 16 := (load16 mem p).isLt
  have hnat : (nlaDataLen mem p).toNat = attrLen mem p - 4 := by
    unfold nlaDataLen
    rw [BitVec.toNat_sub, BitVec.toNat_setWidth, BitVec.toNat_ofNat]
    show (_ + attrLen mem p % 2 ^ 32) % 2 ^ 32 = _
    omega
  show (nlaDataLen mem p).toInt = _
  rw [BitVec.toInt_eq_toNat_of_lt, hnat]
  · omega
  · rw [hnat]
    omega

/-- The attributes inside an attribute. -/
theorem embedded_chain {mem : Memory} {p : ℤ} (h : 4 ≤ attrLen mem p) :
    Chain mem (p + attrLen mem p) (p + 4) (visits mem (embedded mem p)) := by
  have hchain := visits_chain mem (embedded mem p)
  rw [embedded_rem h] at hchain
  have hsum : (embedded mem p).pos + ((attrLen mem p : ℤ) - 4) = p + attrLen mem p := by
    show p + 4 + _ = _
    omega
  rw [hsum] at hchain
  exact hchain

end OpxNasLinux.McastNetlink
