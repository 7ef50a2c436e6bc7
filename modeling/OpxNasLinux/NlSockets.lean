import Mathlib.Data.Finset.Insert
import Mathlib.Data.List.Sort
import OpxNasLinux.Lib.Run
import OpxNasLinux.VrfIds

/-!
# The netlink sockets of the VRFs

The event thread listens on the sockets in `nlm_sockets` with `select`, which
takes the descriptors from `read_fds` and their bound from `max_fd`.  Each
socket has its counters in `nlm_counters`.  `os_create_netlink_sock` opens the
sockets of a VRF one by one, `os_del_netlink_sock` closes them all.

* `FdSet` is the set of `select`, which has no bit for a descriptor from
  `FD_SETSIZE` on.
* `Sockets.Consistent` says that the four agree.
* `createNetlinkSock_consistent` and `delNetlinkSock_consistent` are the two
  calls.
* `netlink_sockets_consistent` is the run.
-/

namespace OpxNasLinux

open Run
open VrfIds (strncmpEq)

/-! ## Sets of descriptors -/

/-- The descriptors that an `fd_set` has bits for. -/
def fdSetsize : ℤ := 1024

/-- `fd_set`. -/
structure FdSet where
  fds : Finset ℤ
  inRange : ∀ fd ∈ fds, 0 ≤ fd ∧ fd < fdSetsize

namespace FdSet

/-- `FD_ZERO`. -/
def zero : FdSet := ⟨∅, fun _ h => absurd h (Finset.notMem_empty _)⟩

/-- `FD_SET`.  For a descriptor out of range it writes outside of the set. -/
def set (fd : ℤ) (fdset : FdSet) : FdSet :=
  if h : 0 ≤ fd ∧ fd < fdSetsize then
    ⟨insert fd fdset.fds, fun fd' hfd => by
      rcases Finset.mem_insert.mp hfd with rfl | hold
      · exact h
      · exact fdset.inRange fd' hold⟩
  else fdset

/-- `FD_ISSET`. -/
def isSet (fd : ℤ) (fdset : FdSet) : Prop := fd ∈ fdset.fds

instance (fd : ℤ) (fdset : FdSet) : Decidable (fdset.isSet fd) :=
  inferInstanceAs (Decidable (fd ∈ fdset.fds))

@[simp] theorem isSet_zero (fd : ℤ) : ¬ zero.isSet fd := Finset.notMem_empty fd

theorem isSet_set {fd fd' : ℤ} {fdset : FdSet} (h : 0 ≤ fd ∧ fd < fdSetsize) :
    (fdset.set fd).isSet fd' ↔ fd' = fd ∨ fdset.isSet fd' := by
  rw [set, dif_pos h]
  exact Finset.mem_insert

end FdSet

namespace NlSock

/-! ## The tables -/

/-- `nas_nl_sock_TYPES`. -/
inductive SockType where
  | route
  | int
  | nei
  | netconf
  | mcastSnoop
deriving DecidableEq

/-- The types in the order of their numbers. -/
def SockType.all : List SockType := [.route, .int, .nei, .netconf, .mcastSnoop]

/-- `nlm_sock_info`. -/
structure SockInfo where
  sockType : SockType
  vrfName : Str
  vrfId : ℕ

/-- `nas_nl_stats_desc_t`. -/
structure Stats where
  numEventsRcvd : UInt32
  numBulkEventsRcvd : UInt32
  maxEventsRcvdInBulk : UInt32
  minEventsRcvdInBulk : UInt32
  numAddEvents : UInt32
  numDelEvents : UInt32
  numGetEvents : UInt32
  numInvalidAddEvents : UInt32
  numInvalidDelEvents : UInt32
  numInvalidGetEvents : UInt32
  numAddEventsPub : UInt32
  numDelEventsPub : UInt32
  numGetEventsPub : UInt32
  numAddEventsPubFailed : UInt32
  numDelEventsPubFailed : UInt32
  numGetEventsPubFailed : UInt32

/-- Counters after the `memset`. -/
def Stats.zero : Stats := ⟨0, 0, 0, 0, 0, 0, 0, 0, 0, 0, 0, 0, 0, 0, 0, 0⟩

/-- `nlm_sockets`, `read_fds`, `max_fd`, `nlm_counters` and whether `_handle` is
connected. -/
structure Sockets where
  nlmSockets : Dict ℤ SockInfo
  readFds : FdSet
  maxFd : ℤ
  nlmCounters : Dict ℤ Stats
  handle : Bool

/-- The variables before the first call. -/
def Sockets.initial : Sockets := ⟨∅, .zero, -1, ∅, false⟩

/-- The sockets in the order of the map. -/
def sockFds (sockets : Dict ℤ SockInfo) : List ℤ := sockets.keys.insertionSort (· ≤ ·)

/-! ## The counters -/

/-- `nas_nl_stats_init`. -/
def statsInit (sock : ℤ) (counters : Dict ℤ Stats) : Dict ℤ Stats :=
  match counters.lookup sock with
  | some _ => counters
  | none => counters.insert sock .zero

/-- `nas_nl_stats_deinit`. -/
def statsDeinit (sock : ℤ) (counters : Dict ℤ Stats) : Dict ℤ Stats :=
  match counters.lookup sock with
  | none => counters
  | some _ => counters.erase sock

/-- The functions `nas_nl_stats_update…`, which change the counters of a socket
that has some. -/
def statsUpdate (sock : ℤ) (change : Stats → Stats) (counters : Dict ℤ Stats) : Dict ℤ Stats :=
  match counters.lookup sock with
  | none => counters
  | some stats => counters.insert sock (change stats)

/-! ## The two calls -/

/-- What the system and the other modules answer during a call. -/
structure Answers where
  /-- `cps_api_event_client_connect` succeeds. -/
  connects : Bool
  /-- `nas_switch_get_os_event_flag`, when the socket is due. -/
  osEventFlag : SockType → Bool
  /-- `nas_nl_sock_create`: a descriptor, or `-1`. -/
  sockCreate : SockType → ℤ
  /-- What the answers to a refresh make of the counters of a socket. -/
  heard : ℤ → Stats → Stats

variable (vrfNameSz : ℕ)

/-- `nas_os_create_publish_handle`. -/
def createPublishHandle (a : Answers) (s : Sockets) : Bool × Sockets :=
  if s.handle then (true, s) else (a.connects, { s with handle := a.connects })

/-- `add_fd_set`. -/
def addFdSet (fd : ℤ) (s : Sockets) : Sockets :=
  { s with
    readFds := s.readFds.set fd
    maxFd := if fd > s.maxFd then fd else s.maxFd }

/-- The insertion of a new socket.  A descriptor that has an entry keeps it. -/
def insertSock (sock : ℤ) (info : SockInfo) (s : Sockets) : Sockets :=
  match s.nlmSockets.lookup sock with
  | some _ => s
  | none => { s with nlmSockets := s.nlmSockets.insert sock info }

/-- The loop over the types, `false` for the return in the middle. -/
def createSocks (a : Answers) (vrfName : Str) (vrfId : ℕ) :
    List SockType → Sockets → Bool × Sockets
  | [], s => (true, s)
  | ix :: rest, s =>
    if ix = .route ∧ a.osEventFlag ix = false then createSocks a vrfName vrfId rest s
    else if ix = .mcastSnoop ∧ a.osEventFlag ix = false then createSocks a vrfName vrfId rest s
    else
      let sock := a.sockCreate ix
      if sock = -1 then (false, s)
      else
        let s := insertSock sock ⟨ix, vrfName.take vrfNameSz, vrfId⟩ s
        let s := addFdSet sock s
        createSocks a vrfName vrfId rest { s with nlmCounters := statsInit sock s.nlmCounters }

/-- `os_send_refresh`. -/
def sendRefresh (a : Answers) (type : SockType) (vrfName : Str) (s : Sockets) : Sockets :=
  (sockFds s.nlmSockets).foldl (fun s fd =>
    match s.nlmSockets.lookup fd with
    | none => s
    | some info =>
      if info.sockType = type ∧ strncmpEq vrfName info.vrfName vrfNameSz = true then
        { s with nlmCounters := statsUpdate fd (a.heard fd) s.nlmCounters }
      else s) s

/-- `os_refresh_netlink_info`. -/
def refreshNetlinkInfo (a : Answers) (vrfName : Str) (s : Sockets) : Sockets :=
  [SockType.int, .nei, .route, .netconf].foldl
    (fun s type => sendRefresh vrfNameSz a type vrfName s) s

/-- `os_create_netlink_sock`. -/
def createNetlinkSock (a : Answers) (vrfName : Str) (vrfId : ℕ) (s : Sockets) : Bool × Sockets :=
  match createPublishHandle a s with
  | (false, s) => (false, s)
  | (true, s) =>
    match createSocks vrfNameSz a vrfName vrfId SockType.all s with
    | (false, s) => (false, s)
    | (true, s) => (true, refreshNetlinkInfo vrfNameSz a vrfName s)

/-- The loop that closes the sockets of a VRF. -/
def closeSocks (vrfName : Str) (s : Sockets) : Sockets :=
  (sockFds s.nlmSockets).foldl (fun s fd =>
    match s.nlmSockets.lookup fd with
    | none => s
    | some info =>
      if strncmpEq vrfName info.vrfName vrfNameSz then
        { s with
          nlmCounters := statsDeinit fd s.nlmCounters
          nlmSockets := s.nlmSockets.erase fd }
      else s) s

/-- The loop that fills `read_fds` again. -/
def fillFds (s : Sockets) : Sockets :=
  (sockFds s.nlmSockets).foldl (fun s fd => addFdSet fd s)
    { s with maxFd := -1, readFds := .zero }

/-- `os_del_netlink_sock`. -/
def delNetlinkSock (vrfName : Str) (s : Sockets) : Sockets :=
  fillFds (closeSocks vrfNameSz vrfName s)

/-- A call. -/
inductive Call where
  | create (vrfName : Str) (vrfId : ℕ) (answers : Answers)
  | del (vrfName : Str)

def step (s : Sockets) : Call → Sockets
  | .create vrfName vrfId a => (createNetlinkSock vrfNameSz a vrfName vrfId s).2
  | .del vrfName => delNetlinkSock vrfNameSz vrfName s

/-! ## What the calls keep -/

/-- `m` is the largest of the descriptors, `-1` when there is none. -/
def Largest (fds : ℤ → Prop) (m : ℤ) : Prop :=
  (∀ fd, ¬ fds fd) ∧ m = -1 ∨ fds m ∧ ∀ fd, fds fd → fd ≤ m

/-- The descriptors that are set, the bound and the counters are those of the
sockets. -/
structure Sockets.Consistent (s : Sockets) : Prop where
  readFds : ∀ fd, s.readFds.isSet fd ↔ fd ∈ s.nlmSockets
  maxFd : Largest (· ∈ s.nlmSockets) s.maxFd
  nlmCounters : ∀ fd, fd ∈ s.nlmCounters ↔ fd ∈ s.nlmSockets

/-- `select` is called for the descriptors. -/
structure Watches (fds : ℤ → Prop) (s : Sockets) : Prop where
  readFds : ∀ fd, s.readFds.isSet fd ↔ fds fd
  maxFd : Largest fds s.maxFd

/-- The descriptors of the sockets have bits in the set. -/
theorem Sockets.Consistent.inRange {s : Sockets} (h : s.Consistent) {fd : ℤ}
    (hfd : fd ∈ s.nlmSockets) : 0 ≤ fd ∧ fd < fdSetsize :=
  s.readFds.inRange fd ((h.readFds fd).mpr hfd)

theorem Largest.congr {fds fds' : ℤ → Prop} {m : ℤ} (h : Largest fds m)
    (heq : ∀ fd, fds' fd ↔ fds fd) : Largest fds' m := by
  obtain rfl : fds' = fds := funext fun fd => propext (heq fd)
  exact h

/-- One more descriptor. -/
theorem Largest.insert {fds : ℤ → Prop} {m fd : ℤ} (h : Largest fds m) (hfd : 0 ≤ fd) :
    Largest (fun fd' => fd' = fd ∨ fds fd') (if fd > m then fd else m) := by
  rcases h with ⟨hnone, rfl⟩ | ⟨hm, hle⟩
  · have hgt : fd > -1 := by omega
    rw [if_pos hgt]
    refine Or.inr ⟨Or.inl rfl, ?_⟩
    rintro fd' (rfl | hfd')
    · exact le_rfl
    · exact absurd hfd' (hnone fd')
  · split_ifs with hgt
    · refine Or.inr ⟨Or.inl rfl, ?_⟩
      rintro fd' (rfl | hfd')
      · exact le_rfl
      · exact (hle fd' hfd').trans hgt.le
    · refine Or.inr ⟨Or.inr hm, ?_⟩
      rintro fd' (rfl | hfd')
      · exact not_lt.mp hgt
      · exact hle fd' hfd'

/-- `add_fd_set` adds its descriptor to those that are watched. -/
theorem addFdSet_watches {fds : ℤ → Prop} {s : Sockets} {fd : ℤ} (h : Watches fds s)
    (hfd : 0 ≤ fd ∧ fd < fdSetsize) :
    Watches (fun fd' => fd' = fd ∨ fds fd') (addFdSet fd s) where
  readFds fd' := by
    rw [addFdSet, FdSet.isSet_set hfd, h.readFds]
  maxFd := h.maxFd.insert hfd.1

theorem mem_statsInit {fd fd' : ℤ} {counters : Dict ℤ Stats} :
    fd' ∈ statsInit fd counters ↔ fd' = fd ∨ fd' ∈ counters := by
  rw [statsInit]
  cases hold : counters.lookup fd with
  | none => exact Dict.mem_insert_iff
  | some stats =>
    refine ⟨Or.inr, ?_⟩
    rintro (rfl | hmem)
    · exact Dict.mem_iff.mpr ⟨stats, hold⟩
    · exact hmem

theorem mem_statsDeinit {fd fd' : ℤ} {counters : Dict ℤ Stats} :
    fd' ∈ statsDeinit fd counters ↔ fd' ≠ fd ∧ fd' ∈ counters := by
  rw [statsDeinit]
  cases hold : counters.lookup fd with
  | none =>
    refine ⟨fun hmem => ⟨?_, hmem⟩, And.right⟩
    rintro rfl
    obtain ⟨stats, hsome⟩ := Dict.mem_iff.mp hmem
    cases hold.symm.trans hsome
  | some stats => exact Dict.mem_erase_iff

theorem mem_statsUpdate {fd fd' : ℤ} {change : Stats → Stats} {counters : Dict ℤ Stats} :
    fd' ∈ statsUpdate fd change counters ↔ fd' ∈ counters := by
  rw [statsUpdate]
  cases hold : counters.lookup fd with
  | none => exact Iff.rfl
  | some stats =>
    rw [Dict.mem_insert_iff]
    refine ⟨?_, Or.inr⟩
    rintro (rfl | hmem)
    · exact Dict.mem_iff.mpr ⟨stats, hold⟩
    · exact hmem

theorem mem_insertSock {fd fd' : ℤ} {info : SockInfo} {s : Sockets} :
    fd' ∈ (insertSock fd info s).nlmSockets ↔ fd' = fd ∨ fd' ∈ s.nlmSockets := by
  rw [insertSock]
  cases hold : s.nlmSockets.lookup fd with
  | none => exact Dict.mem_insert_iff
  | some old =>
    refine ⟨Or.inr, ?_⟩
    rintro (rfl | hmem)
    · exact Dict.mem_iff.mpr ⟨old, hold⟩
    · exact hmem

theorem mem_sockFds {fd : ℤ} {sockets : Dict ℤ SockInfo} : fd ∈ sockFds sockets ↔ fd ∈ sockets := by
  rw [sockFds, List.mem_insertionSort, AList.mem_keys]

/-! ## Creating sockets -/

/-- One socket that has been created. -/
theorem newSock_consistent {s : Sockets} (h : s.Consistent) {fd : ℤ}
    (hfd : 0 ≤ fd ∧ fd < fdSetsize) (info : SockInfo) :
    { addFdSet fd (insertSock fd info s) with
      nlmCounters :=
        statsInit fd (addFdSet fd (insertSock fd info s)).nlmCounters }.Consistent := by
  have hsame : (insertSock fd info s).readFds = s.readFds ∧
      (insertSock fd info s).maxFd = s.maxFd ∧
      (insertSock fd info s).nlmCounters = s.nlmCounters := by
    rw [insertSock]
    split <;> exact ⟨rfl, rfl, rfl⟩
  obtain ⟨hread, hmax, hcounters⟩ := hsame
  have hold : Watches (· ∈ s.nlmSockets) (insertSock fd info s) := by
    constructor
    · rw [hread]
      exact h.readFds
    · rw [hmax]
      exact h.maxFd
  have hnew := addFdSet_watches hold hfd
  constructor
  · intro fd'
    exact (hnew.readFds fd').trans mem_insertSock.symm
  · exact hnew.maxFd.congr fun fd' => mem_insertSock
  · intro fd'
    change fd' ∈ statsInit fd (insertSock fd info s).nlmCounters ↔
      fd' ∈ (insertSock fd info s).nlmSockets
    rw [mem_statsInit, mem_insertSock, hcounters, h.nlmCounters]

/-- The descriptors that the system hands out have bits in an `fd_set`. -/
def Answers.InRange (a : Answers) : Prop :=
  ∀ ix, a.sockCreate ix = -1 ∨ 0 ≤ a.sockCreate ix ∧ a.sockCreate ix < fdSetsize

theorem createSocks_consistent {a : Answers} (ha : a.InRange) (vrfName : Str) (vrfId : ℕ)
    (types : List SockType) {s : Sockets} (h : s.Consistent) :
    (createSocks vrfNameSz a vrfName vrfId types s).2.Consistent := by
  induction types generalizing s with
  | nil => exact h
  | cons ix rest ih =>
    rw [createSocks]
    split_ifs with hroute hmcast
    · exact ih h
    · exact ih h
    · dsimp only
      split_ifs with hfail
      · exact h
      · obtain hneg | hfd := ha ix
        · exact absurd hneg hfail
        · exact ih (newSock_consistent h hfd _)

/-- A refresh counts events only. -/
theorem sendRefresh_consistent (a : Answers) (type : SockType) (vrfName : Str) {s : Sockets}
    (h : s.Consistent) : (sendRefresh vrfNameSz a type vrfName s).Consistent := by
  refine run_invariant ?_ (sockFds s.nlmSockets) h
  intro s fd h
  split
  · exact h
  · split_ifs
    · exact ⟨h.readFds, h.maxFd, fun fd' => mem_statsUpdate.trans (h.nlmCounters fd')⟩
    · exact h

theorem createPublishHandle_consistent (a : Answers) {s : Sockets} (h : s.Consistent) :
    (createPublishHandle a s).2.Consistent := by
  rw [createPublishHandle]
  split_ifs
  · exact h
  · exact ⟨h.readFds, h.maxFd, h.nlmCounters⟩

theorem refreshNetlinkInfo_consistent (a : Answers) (vrfName : Str) {s : Sockets}
    (h : s.Consistent) : (refreshNetlinkInfo vrfNameSz a vrfName s).Consistent := by
  refine run_invariant ?_ [SockType.int, .nei, .route, .netconf] h
  exact fun s type h => sendRefresh_consistent vrfNameSz a type vrfName h

/-- `os_create_netlink_sock`, also when it returns in the middle. -/
theorem createNetlinkSock_consistent {a : Answers} (ha : a.InRange) (vrfName : Str) (vrfId : ℕ)
    {s : Sockets} (h : s.Consistent) :
    (createNetlinkSock vrfNameSz a vrfName vrfId s).2.Consistent := by
  have hhandle := createPublishHandle_consistent a h
  rw [createNetlinkSock]
  generalize createPublishHandle a s = res at hhandle ⊢
  obtain ⟨connected, s⟩ := res
  cases connected with
  | false => exact hhandle
  | true =>
    have hsocks := createSocks_consistent vrfNameSz ha vrfName vrfId SockType.all hhandle
    dsimp only
    generalize createSocks vrfNameSz a vrfName vrfId SockType.all s = res at hsocks ⊢
    obtain ⟨created, s⟩ := res
    cases created with
    | false => exact hsocks
    | true =>
      dsimp only
      exact refreshNetlinkInfo_consistent vrfNameSz a vrfName hsocks

/-! ## Deleting sockets -/

/-- The sockets are those with counters, and their descriptors can be set. -/
structure Sockets.Counted (s : Sockets) : Prop where
  inRange : ∀ fd ∈ s.nlmSockets, 0 ≤ fd ∧ fd < fdSetsize
  nlmCounters : ∀ fd, fd ∈ s.nlmCounters ↔ fd ∈ s.nlmSockets

/-- A socket that is closed loses its counters, and no other does. -/
theorem closeSocks_counted (vrfName : Str) {s : Sockets} (h : s.Counted) :
    (closeSocks vrfNameSz vrfName s).Counted := by
  refine run_invariant ?_ (sockFds s.nlmSockets) h
  intro s fd h
  split
  · exact h
  · split_ifs
    · refine ⟨fun fd' hfd' => h.inRange fd' (Dict.mem_erase_iff.mp hfd').2, fun fd' => ?_⟩
      rw [mem_statsDeinit, Dict.mem_erase_iff, h.nlmCounters]
    · exact h

/-- Adding descriptors one after the other. -/
theorem addFdSets_watches {fds : List ℤ} (hrange : ∀ fd ∈ fds, 0 ≤ fd ∧ fd < fdSetsize)
    {old : ℤ → Prop} {s : Sockets} (h : Watches old s) :
    Watches (fun fd => fd ∈ fds ∨ old fd) (fds.foldl (fun s fd => addFdSet fd s) s) := by
  induction fds generalizing old s with
  | nil => simpa using h
  | cons fd fds ih =>
    have hfd := addFdSet_watches h (hrange fd List.mem_cons_self)
    have hrest := ih (fun fd' hfd' => hrange fd' (List.mem_cons_of_mem _ hfd')) hfd
    have hsame : ∀ fd', fd' ∈ fd :: fds ∨ old fd' ↔ fd' ∈ fds ∨ fd' = fd ∨ old fd' := by
      intro fd'
      rw [List.mem_cons]
      tauto
    exact ⟨fun fd' => (hrest.readFds fd').trans (hsame fd').symm, hrest.maxFd.congr hsame⟩

theorem addFdSets_tables (fds : List ℤ) (s : Sockets) :
    (fds.foldl (fun s fd => addFdSet fd s) s).nlmSockets = s.nlmSockets ∧
      (fds.foldl (fun s fd => addFdSet fd s) s).nlmCounters = s.nlmCounters := by
  induction fds generalizing s with
  | nil => exact ⟨rfl, rfl⟩
  | cons fd fds ih => exact ih (addFdSet fd s)

/-- `os_del_netlink_sock`. -/
theorem delNetlinkSock_consistent (vrfName : Str) {s : Sockets} (h : s.Consistent) :
    (delNetlinkSock vrfNameSz vrfName s).Consistent := by
  obtain ⟨hrange, hcounters⟩ :=
    closeSocks_counted vrfNameSz vrfName ⟨fun fd hfd => h.inRange hfd, h.nlmCounters⟩
  rw [delNetlinkSock, fillFds]
  generalize closeSocks vrfNameSz vrfName s = t at hrange hcounters ⊢
  have hempty : Watches (fun _ => False) { t with maxFd := -1, readFds := .zero } :=
    ⟨fun fd => iff_of_false (FdSet.isSet_zero fd) id, Or.inl ⟨fun _ => id, rfl⟩⟩
  have hfill := addFdSets_watches (fun fd hfd => hrange fd (mem_sockFds.mp hfd)) hempty
  obtain ⟨hsockets, hstats⟩ := addFdSets_tables (sockFds t.nlmSockets)
    { t with maxFd := -1, readFds := .zero }
  have hsame : ∀ fd, fd ∈ t.nlmSockets ↔ fd ∈ sockFds t.nlmSockets ∨ False :=
    fun fd => mem_sockFds.symm.trans (iff_of_eq (or_false _)).symm
  constructor
  · intro fd
    rw [hsockets]
    exact (hfill.readFds fd).trans (hsame fd).symm
  · rw [hsockets]
    exact hfill.maxFd.congr hsame
  · intro fd
    rw [hsockets, hstats]
    exact hcounters fd

/-! ## Runs -/

/-- The descriptors that the system hands out during the call have bits in an
`fd_set`. -/
def Call.InRange : Call → Prop
  | .create _ _ a => a.InRange
  | .del _ => True

/-- After any sequence of calls the descriptors that are set are those of the
sockets, the bound is the largest of them, and they are the ones with
counters. -/
theorem netlink_sockets_consistent (calls : List Call) (hrange : ∀ c ∈ calls, c.InRange) :
    (run (step vrfNameSz) .initial calls).Consistent := by
  have hstep : ∀ (s : Sockets) c, s.Consistent → c.InRange → (step vrfNameSz s c).Consistent := by
    intro s c h hc
    cases c with
    | create vrfName vrfId a => exact createNetlinkSock_consistent vrfNameSz hc vrfName vrfId h
    | del vrfName => exact delNetlinkSock_consistent vrfNameSz vrfName h
  have hinit : Sockets.initial.Consistent :=
    ⟨fun fd => iff_of_false (FdSet.isSet_zero fd) (by simp [Sockets.initial]),
      Or.inl ⟨fun fd => by simp [Sockets.initial], rfl⟩, fun fd => by simp [Sockets.initial]⟩
  exact run_preserves hstep hinit (along_of_forall _ hrange)

/-- A system that hands out the descriptors from `first` on. -/
def handing (first : ℤ) : Answers where
  connects := true
  osEventFlag _ := true
  sockCreate
    | .route => first
    | .int => first + 1
    | .nei => first + 2
    | .netconf => first + 3
    | .mcastSnoop => first + 4
  heard _ stats := stats

theorem netlink_sockets_consistent_small :
    (run (step 16) .initial
      [.create "blue".toList 1 (handing 3), .del "blue".toList]).Consistent := by
  refine netlink_sockets_consistent 16 _ fun c hc => ?_
  have hrange : (handing 3).InRange := by
    intro ix
    cases ix <;> decide
  rcases List.mem_pair.mp hc with rfl | rfl
  · exact hrange
  · trivial

/-- A descriptor from `FD_SETSIZE` on is in the table and not in the set. -/
theorem high_descriptor_not_watched :
    let s := run (step 16) .initial [.create "blue".toList 1 (handing 1020)]
    (1024 : ℤ) ∈ s.nlmSockets ∧ ¬ s.readFds.isSet 1024 ∧ ¬ s.Consistent := by
  intro s
  have hmem : (1024 : ℤ) ∈ s.nlmSockets := by decide +kernel
  have hset : ¬ s.readFds.isSet 1024 := fun h => absurd (s.readFds.inRange _ h).2 (by decide)
  exact ⟨hmem, hset, fun h => hset ((h.readFds 1024).mpr hmem)⟩

end NlSock

end OpxNasLinux
