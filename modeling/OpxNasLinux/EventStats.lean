import OpxNasLinux.NlDump
import OpxNasLinux.NlSockets

/-!
# The statistics of the netlink sockets

`get_netlink_data` picks the decoder of a message by the range its type is in,
publishes what the decoder makes of it, and counts what became of it.
`netlink_tools_receive_event` hands it the messages of one datagram and counts
the datagram.  The answers to a dump come over the same sockets and through
the same handler.

* `Counters.count` and `countBulk` are what the functions count.
* `getNetlinkData` is the handler.  The multicast decoder publishes and counts
  on its own.
* `receiveEvent` reads one datagram.
* `step` is a call.  A call that waits blocks the thread, so `Event` and
  `Answer` are calls that return.
-/

namespace OpxNasLinux.NlSock.EventStats

open Netlink
open NlDump (Msg Datagram Turn Scratch processSocket eintr)

/-! ## The types of messages -/

/-- `nas_nl_is_rt_add_event`. -/
def isRtAddEvent (type : BitVec 16) : Bool :=
  type == rtmNewlink || type == rtmNewaddr || type == rtmNewroute || type == rtmNewneigh ||
    type == rtmNewnetconf || type == rtmNewmdb

/-- `nas_nl_is_rt_del_event`.  `RTM_DELNETCONF` is not one. -/
def isRtDelEvent (type : BitVec 16) : Bool :=
  type == rtmDellink || type == rtmDeladdr || type == rtmDelroute || type == rtmDelneigh ||
    type == rtmDelmdb

/-- `nas_nl_is_rt_get_event`. -/
def isRtGetEvent (type : BitVec 16) : Bool :=
  type == rtmGetlink || type == rtmGetaddr || type == rtmGetroute || type == rtmGetneigh ||
    type == rtmGetnetconf || type == rtmGetmdb

theorem add_not_del {type : BitVec 16} (h : isRtAddEvent type = true) :
    isRtDelEvent type = false := by
  simp only [isRtAddEvent, Bool.or_eq_true, beq_iff_eq] at h
  rcases h with ((((rfl | rfl) | rfl) | rfl) | rfl) | rfl <;> rfl

theorem add_not_get {type : BitVec 16} (h : isRtAddEvent type = true) :
    isRtGetEvent type = false := by
  simp only [isRtAddEvent, Bool.or_eq_true, beq_iff_eq] at h
  rcases h with ((((rfl | rfl) | rfl) | rfl) | rfl) | rfl <;> rfl

theorem del_not_get {type : BitVec 16} (h : isRtDelEvent type = true) :
    isRtGetEvent type = false := by
  simp only [isRtDelEvent, Bool.or_eq_true, beq_iff_eq] at h
  rcases h with (((rfl | rfl) | rfl) | rfl) | rfl <;> rfl

/-! ## The counters -/

/-- The counters for the events that add, delete and get, each with what
counts one more. -/
structure Counters where
  add : Stats → Stats
  del : Stats → Stats
  get : Stats → Stats

/-- What the functions `nas_nl_stats_update_…_msg` have in common. -/
def Counters.count (c : Counters) (type : BitVec 16) (stats : Stats) : Stats :=
  if isRtAddEvent type then c.add stats
  else if isRtDelEvent type then c.del stats
  else if isRtGetEvent type then c.get stats
  else stats

def totMsg : Counters where
  add stats := { stats with numAddEvents := stats.numAddEvents + 1 }
  del stats := { stats with numDelEvents := stats.numDelEvents + 1 }
  get stats := { stats with numGetEvents := stats.numGetEvents + 1 }

def invalidMsg : Counters where
  add stats := { stats with numInvalidAddEvents := stats.numInvalidAddEvents + 1 }
  del stats := { stats with numInvalidDelEvents := stats.numInvalidDelEvents + 1 }
  get stats := { stats with numInvalidGetEvents := stats.numInvalidGetEvents + 1 }

def pubMsg : Counters where
  add stats := { stats with numAddEventsPub := stats.numAddEventsPub + 1 }
  del stats := { stats with numDelEventsPub := stats.numDelEventsPub + 1 }
  get stats := { stats with numGetEventsPub := stats.numGetEventsPub + 1 }

def pubMsgFailed : Counters where
  add stats := { stats with numAddEventsPubFailed := stats.numAddEventsPubFailed + 1 }
  del stats := { stats with numDelEventsPubFailed := stats.numDelEventsPubFailed + 1 }
  get stats := { stats with numGetEventsPubFailed := stats.numGetEventsPubFailed + 1 }

/-- What `nas_nl_stats_update` makes of the counters of a socket. -/
def countBulk (bulkMsgCount : UInt32) (stats : Stats) : Stats :=
  let stats := { stats with numEventsRcvd := stats.numEventsRcvd + bulkMsgCount }
  if bulkMsgCount > 1 then
    let stats := { stats with numBulkEventsRcvd := stats.numBulkEventsRcvd + 1 }
    let stats :=
      if bulkMsgCount > stats.maxEventsRcvdInBulk then
        { stats with maxEventsRcvdInBulk := bulkMsgCount }
      else stats
    if bulkMsgCount < stats.minEventsRcvdInBulk then
      { stats with minEventsRcvdInBulk := bulkMsgCount }
    else if stats.minEventsRcvdInBulk = 0 then { stats with minEventsRcvdInBulk := bulkMsgCount }
    else stats
  else stats

/-- `nlm_counters`. -/
abbrev Table := Dict ℤ Stats

/-- `nas_nl_stats_update_tot_msg`. -/
def updateTotMsg (sock : ℤ) (type : BitVec 16) : Table → Table :=
  statsUpdate sock (totMsg.count type)

/-- `nas_nl_stats_update_invalid_msg`. -/
def updateInvalidMsg (sock : ℤ) (type : BitVec 16) : Table → Table :=
  statsUpdate sock (invalidMsg.count type)

/-- `nas_nl_stats_update_pub_msg`. -/
def updatePubMsg (sock : ℤ) (type : BitVec 16) : Table → Table :=
  statsUpdate sock (pubMsg.count type)

/-- `nas_nl_stats_update_pub_msg_failed`. -/
def updatePubMsgFailed (sock : ℤ) (type : BitVec 16) : Table → Table :=
  statsUpdate sock (pubMsgFailed.count type)

/-- `nas_nl_stats_update`. -/
def nlStatsUpdate (sock : ℤ) (bulkMsgCount : UInt32) : Table → Table :=
  statsUpdate sock (countBulk bulkMsgCount)

/-- `nas_nl_stats_reset`. -/
def nlStatsReset (sock : ℤ) : Table → Table := statsUpdate sock fun _ => .zero

/-! ## The handler -/

/-- The decoders. -/
inductive Decoder where
  | osInterfaceToObject
  | nlGetIpInfo
  | nlToRouteInfo
  | nlToNeighInfo
  | nlGetIpNetconfInfo
  | nlToMcastSnoopInfo
deriving DecidableEq

/-- What the decoders and the event service answer to a message. -/
structure Verdict where
  /-- The decoder takes the message for this VRF. -/
  decode : Decoder → BitVec 32 → Bool
  /-- What `os_interface_to_object` leaves in `evt_publish`. -/
  evtPublish : Bool
  /-- `net_publish_event` succeeds. -/
  published : Bool
  /-- Whether it does for the objects that `nl_to_mcast_snoop_info` publishes,
  one after the other. -/
  snooped : List Bool

/-- An object is published and counted. -/
def countObject (sock : ℤ) (type : BitVec 16) (published : Bool) (t : Table) : Table :=
  let t := updatePubMsg sock type t
  if published then t else updatePubMsgFailed sock type t

/-- One range of `get_netlink_data`. -/
def countAndPublish (sock : ℤ) (m : Msg Verdict) (decoded : Bool) (t : Table) : Table :=
  let t := updateTotMsg sock m.type t
  if decoded then countObject sock m.type m.data.published t
  else updateInvalidMsg sock m.type t

/-- What `nl_to_mcast_snoop_info` counts.  It publishes an object for every group
and two for every router port, and may fail after some of them. -/
def nlToMcastSnoopInfo (sock : ℤ) (m : Msg Verdict) (decoded : Bool) (t : Table) : Bool × Table :=
  if m.type ≠ rtmNewmdb ∧ m.type ≠ rtmDelmdb then (false, t)
  else (decoded, m.data.snooped.foldl (fun t ok => countObject sock m.type ok t) t)

/-- `get_netlink_data`. -/
def getNetlinkData (sock : ℤ) (vrfId : BitVec 32) : NlDump.Handler Verdict Table := fun m t =>
  let decode := fun d => m.data.decode d vrfId
  if m.type < rtmBase then (false, t)
  else if m.type ≤ rtmSetlink then
    (true, countAndPublish sock m (decode .osInterfaceToObject && m.data.evtPublish) t)
  else if m.type ≤ rtmGetaddr then (true, countAndPublish sock m (decode .nlGetIpInfo) t)
  else if m.type ≤ rtmGetroute then (true, countAndPublish sock m (decode .nlToRouteInfo) t)
  else if m.type ≤ rtmGetneigh then (true, countAndPublish sock m (decode .nlToNeighInfo) t)
  else if m.type ≤ rtmGetnetconf then
    (true, countAndPublish sock m (decode .nlGetIpNetconfInfo) t)
  else if m.type ≤ rtmGetmdb then
    let r := nlToMcastSnoopInfo sock m (decode .nlToMcastSnoopInfo) (updateTotMsg sock m.type t)
    if r.1 = false then (true, updateInvalidMsg sock m.type r.2) else (true, r.2)
  else (false, t)

/-! ## Receiving an event -/

def nlDefaultVrfId : BitVec 32 := 0

/-- What a `recvmsg` gives. -/
inductive Recv (α : Type*) where
  /-- It fails with `EINTR` or `EAGAIN`. -/
  | interrupted
  /-- It fails otherwise, with this `errno`. -/
  | failed (errno : BitVec 32)
  /-- A datagram, with the control messages about the namespace it is from. -/
  | received (d : Datagram α) (nsids : List (BitVec 32))

/-- The VRF of a datagram.  A socket of the default VRF hears the others too. -/
def eventVrfId (vrfId : BitVec 32) (nsids : List (BitVec 32)) : BitVec 32 :=
  if vrfId = nlDefaultVrfId then
    nsids.foldl (fun vrfId data => if data ≠ -1 then data else vrfId) vrfId
  else vrfId

/-- The variables of the walk over a datagram. -/
structure WalkState (γ : Type*) where
  errorCode : BitVec 32
  msgCount : ℕ
  ctx : γ

section Walk

variable {α γ : Type*}

/-- One turn of the walk over the messages.  An error is the `return`. -/
def receiveMsg (handlers : NlDump.Handler α γ) (s : WalkState γ) (m : Msg α) :
    Except (WalkState γ) (WalkState γ) :=
  if m.dumpIntr then .error { s with errorCode := eintr }
  else if m.type = nlmsgDone then .ok s
  else if m.type = nlmsgNoop then .ok s
  else if m.type = nlmsgError then
    if m.error = 0 then .ok s else .error { s with errorCode := -m.error }
  else
    match handlers m s.ctx with
    | (false, ctx) => .error { s with msgCount := s.msgCount + 1, ctx }
    | (true, ctx) => .ok { s with msgCount := s.msgCount + 1, ctx }

/-- `netlink_tools_receive_event` with a scratch buffer of `len` bytes.  `none`
is a call that still waits. -/
def receiveEvent (handlers : BitVec 32 → NlDump.Handler α γ) (update : UInt32 → γ → γ) (len : ℕ)
    (vrfId : BitVec 32) (ctx : γ) : List (Recv α) → Option (BitVec 32 × γ)
  | [] => none
  | .interrupted :: rest => receiveEvent handlers update len vrfId ctx rest
  | .failed errno :: _ => some (errno, ctx)
  | .received d nsids :: _ =>
    -- `MSG_TRUNC`
    if len < d.size then some (0, ctx)
    else
      match d.msgs.foldlM (receiveMsg (handlers (eventVrfId vrfId nsids))) ⟨0, 0, ctx⟩ with
      | .error s => some (s.errorCode, s.ctx)
      | .ok s => some (s.errorCode, update (UInt32.ofNat s.msgCount) s.ctx)

end Walk

/-! ## The calls -/

/-- The handler goes on after messages of these types. -/
def handled (type : BitVec 16) : Bool := rtmBase ≤ type && type ≤ rtmGetmdb

/-- The answers of the handler alone. -/
def accepts : NlDump.Handler Verdict Unit := fun m ctx => (handled m.type, ctx)

/-- A call of `netlink_tools_receive_event` that returns. -/
structure Event where
  sock : ℤ
  vrfId : BitVec 32
  len : ℕ
  recvs : List (Recv Verdict)
  returns : (receiveEvent (fun _ => accepts) (fun _ => id) len vrfId () recvs).isSome

/-- A call of `netlink_tools_process_socket` that returns, for the answer to a
request. -/
structure Answer where
  sock : ℤ
  vrfId : BitVec 32
  scratch : Scratch
  seq : BitVec 32
  turns : List (Turn Verdict)
  returns : (processSocket accepts scratch (some seq) (.initial ()) turns).isSome

/-- A call. -/
inductive Act where
  | init (sock : ℤ)
  | deinit (sock : ℤ)
  | reset (sock : ℤ)
  | event (e : Event)
  | answer (a : Answer)

/-- What a call makes of the counters. -/
def step (t : Table) : Act → Table
  | .init sock => statsInit sock t
  | .deinit sock => statsDeinit sock t
  | .reset sock => nlStatsReset sock t
  | .event e =>
    match receiveEvent (getNetlinkData e.sock) (nlStatsUpdate e.sock) e.len e.vrfId t e.recvs with
    | none => t
    | some (_, t) => t
  | .answer a =>
    match processSocket (getNetlinkData a.sock a.vrfId) a.scratch (some a.seq) (.initial t)
        a.turns with
    | none => t
    | some r => r.ctx

end OpxNasLinux.NlSock.EventStats
