import Mathlib.Algebra.BigOperators.Group.List.Basic
import Mathlib.Data.Bool.Count
import Mathlib.Data.UInt
import OpxNasLinux.EventStats

/-!
# What the statistics stand for

The counters of a socket sum up what happened on it.  The ledger writes it
down: every message that was handled, with what became of it, and every
datagram, since the counters were made or reset.

* `tally` are the counters that a list of records adds up to.
* `Stands` says that the counters are those of the ledger.  Each function
  keeps it.
* `receiveMsgs_walked` says which messages of a datagram get to the handler.
* `stats_refine_ledger` is the run.
* `stats_balanced` is what follows for the counters among each other.
-/

namespace OpxNasLinux.NlSock.EventStats

open Run Netlink
open NlDump (Msg Calls Datagram Together Alike logged processSocket eintr)

/-! ## The ledger -/

/-- What became of a message that was handled. -/
inductive Outcome where
  | invalid
  | published
  | publishFailed
  /-- It went to the multicast decoder, which took it or not, and published
  objects on its own. -/
  | snooped (taken : Bool) (objects : List Bool)
deriving DecidableEq

/-- A record. -/
inductive Entry where
  | msg (type : BitVec 16) (outcome : Outcome)
  /-- A datagram that was walked to its end, with the number of messages in it. -/
  | datagram (count : UInt32)

/-- For every socket with counters, what was recorded since they were made or
reset. -/
abbrev Ledger := ℤ → Option (List Entry)

/-- Records are added for a socket that has some. -/
def Ledger.append (sock : ℤ) (entries : List Entry) (l : Ledger) : Ledger :=
  Function.update l sock ((l sock).map (· ++ entries))

/-- The decoder of a type. -/
def decoderOf (type : BitVec 16) : Decoder :=
  if type ≤ rtmSetlink then .osInterfaceToObject
  else if type ≤ rtmGetaddr then .nlGetIpInfo
  else if type ≤ rtmGetroute then .nlToRouteInfo
  else if type ≤ rtmGetneigh then .nlToNeighInfo
  else if type ≤ rtmGetnetconf then .nlGetIpNetconfInfo
  else .nlToMcastSnoopInfo

/-- The decoder takes the message, and the event is to be published. -/
def taken (vrfId : BitVec 32) (m : Msg Verdict) : Bool :=
  m.data.decode (decoderOf m.type) vrfId &&
    (decoderOf m.type != .osInterfaceToObject || m.data.evtPublish)

/-- The multicast decoder looks at messages of this type. -/
def isMdb (type : BitVec 16) : Bool := type == rtmNewmdb || type == rtmDelmdb

/-- What becomes of a message. -/
def outcomeOf (vrfId : BitVec 32) (m : Msg Verdict) : Outcome :=
  if decoderOf m.type = .nlToMcastSnoopInfo then
    if isMdb m.type then .snooped (taken vrfId m) m.data.snooped else .invalid
  else if taken vrfId m = false then .invalid
  else if m.data.published then .published
  else .publishFailed

/-- The record of a message. -/
def entryOf (vrfId : BitVec 32) (m : Msg Verdict) : Entry := .msg m.type (outcomeOf vrfId m)

/-- The messages of a datagram that get to the handler, and whether the walk
comes to the end. -/
def walked {α : Type*} (accept : Msg α → Bool) : List (Msg α) → List (Msg α) × Bool
  | [] => ([], true)
  | m :: msgs =>
    if m.dumpIntr then ([], false)
    else if m.isData then
      if accept m then (m :: (walked accept msgs).1, (walked accept msgs).2) else ([m], false)
    else if m.type = nlmsgError ∧ m.error ≠ 0 then ([], false)
    else walked accept msgs

/-- The records of the messages that were handed to the handler. -/
def recordsOf (vrfId : BitVec 32) (msgs : List (Msg Verdict)) : List Entry :=
  (msgs.filter fun m => handled m.type).map (entryOf vrfId)

/-- The records of a datagram. -/
def datagramRecords (vrfId : BitVec 32) (msgs : List (Msg Verdict)) : List Entry :=
  let walk := walked (fun m => handled m.type) msgs
  recordsOf vrfId walk.1 ++ if walk.2 then [.datagram (UInt32.ofNat walk.1.length)] else []

/-- The records of an event. -/
def eventRecords (len : ℕ) (vrfId : BitVec 32) : List (Recv Verdict) → List Entry
  | [] => []
  | .interrupted :: rest => eventRecords len vrfId rest
  | .failed _ :: _ => []
  | .received d nsids :: _ =>
    if len < d.size then [] else datagramRecords (eventVrfId vrfId nsids) d.msgs

/-- The records of an answer: those of the messages that get to the handler. -/
def answerRecords (a : Answer) : List Entry :=
  match processSocket (logged accepts) a.scratch (some a.seq) (.initial ((), [])) a.turns with
  | none => []
  | some r => recordsOf a.vrfId (r.ctx.2.map Prod.fst)

/-- What a call makes of the ledger. -/
def ledgerStep (l : Ledger) : Act → Ledger
  | .init sock => Function.update l sock (some ((l sock).getD []))
  | .deinit sock => Function.update l sock none
  | .reset sock => Function.update l sock ((l sock).map fun _ => [])
  | .event e => l.append e.sock (eventRecords e.len e.vrfId e.recvs)
  | .answer a => l.append a.sock (answerRecords a)

/-! ## What records add up to -/

/-- How often a message with this outcome counts as invalid. -/
def Outcome.invalids : Outcome → ℕ
  | .invalid | .snooped false _ => 1
  | _ => 0

/-- The objects that were published for it with success. -/
def Outcome.delivered : Outcome → ℕ
  | .published => 1
  | .snooped _ objects => objects.count true
  | _ => 0

/-- Those that the event service has refused. -/
def Outcome.failed : Outcome → ℕ
  | .publishFailed => 1
  | .snooped _ objects => objects.count false
  | _ => 0

/-- All of them. -/
def Outcome.objects : Outcome → ℕ
  | .invalid => 0
  | .published | .publishFailed => 1
  | .snooped _ objects => objects.length

/-- The objects of the multicast decoder. -/
def Outcome.snoopObjects : Outcome → ℕ
  | .snooped _ objects => objects.length
  | _ => 0

/-- The multicast decoder has taken the message. -/
def Outcome.snoops : Outcome → ℕ
  | .snooped true _ => 1
  | _ => 0

/-- What a record has of something, for messages of these types. -/
def Entry.amount (types : BitVec 16 → Bool) (of : Outcome → ℕ) : Entry → ℕ
  | .msg type o => if types type then of o else 0
  | .datagram _ => 0

/-- What the records have of it together. -/
def total (types : BitVec 16 → Bool) (of : Outcome → ℕ) (l : List Entry) : UInt32 :=
  UInt32.ofNat (l.map (Entry.amount types of)).sum

/-- The sizes of the datagrams. -/
def datagrams (l : List Entry) : List UInt32 :=
  l.filterMap fun
    | .msg _ _ => none
    | .datagram count => some count

/-- The sizes of those with several messages. -/
def bulks (l : List Entry) : List UInt32 := (datagrams l).filter (1 < ·)

/-- The counters that records add up to. -/
def tally (l : List Entry) : Stats where
  numEventsRcvd := (datagrams l).sum
  numBulkEventsRcvd := UInt32.ofNat (bulks l).length
  maxEventsRcvdInBulk := (bulks l).max?.getD 0
  minEventsRcvdInBulk := (bulks l).min?.getD 0
  numAddEvents := total isRtAddEvent (fun _ => 1) l
  numDelEvents := total isRtDelEvent (fun _ => 1) l
  numGetEvents := total isRtGetEvent (fun _ => 1) l
  numInvalidAddEvents := total isRtAddEvent Outcome.invalids l
  numInvalidDelEvents := total isRtDelEvent Outcome.invalids l
  numInvalidGetEvents := total isRtGetEvent Outcome.invalids l
  numAddEventsPub := total isRtAddEvent Outcome.objects l
  numDelEventsPub := total isRtDelEvent Outcome.objects l
  numGetEventsPub := total isRtGetEvent Outcome.objects l
  numAddEventsPubFailed := total isRtAddEvent Outcome.failed l
  numDelEventsPubFailed := total isRtDelEvent Outcome.failed l
  numGetEventsPubFailed := total isRtGetEvent Outcome.failed l

/-- The counters that an object counts in. -/
def objectCounters (published : Bool) : List Counters :=
  if published then [pubMsg] else [pubMsg, pubMsgFailed]

/-- The counters that an outcome counts in. -/
def Outcome.counters : Outcome → List Counters
  | .invalid => [totMsg, invalidMsg]
  | .published => totMsg :: objectCounters true
  | .publishFailed => totMsg :: objectCounters false
  | .snooped taken objects =>
    totMsg :: objects.flatMap objectCounters ++ if taken then [] else [invalidMsg]

/-- What a message makes of the counters. -/
def countAll (type : BitVec 16) (cs : List Counters) (stats : Stats) : Stats :=
  cs.foldl (fun stats c => c.count type stats) stats

/-- What a record makes of the counters. -/
def note (stats : Stats) : Entry → Stats
  | .msg type o => countAll type o.counters stats
  | .datagram count => countBulk count stats

theorem total_concat (types : BitVec 16 → Bool) (of : Outcome → ℕ) (l : List Entry) (e : Entry) :
    total types of (l ++ [e]) = total types of l + UInt32.ofNat (e.amount types of) := by
  rw [total, List.map_append, List.sum_append, List.map_singleton, List.sum_singleton,
    UInt32.ofNat_add]
  rfl

theorem datagrams_msg (l : List Entry) (type : BitVec 16) (o : Outcome) :
    datagrams (l ++ [.msg type o]) = datagrams l := by
  rw [datagrams, List.filterMap_append]
  exact List.append_nil _

theorem datagrams_datagram (l : List Entry) (count : UInt32) :
    datagrams (l ++ [.datagram count]) = datagrams l ++ [count] := by
  rw [datagrams, List.filterMap_append]
  rfl

/-- So many objects, and so many of them refused. -/
def publishes (objects failed : UInt32) : Counters where
  add stats :=
    { stats with
      numAddEventsPub := stats.numAddEventsPub + objects
      numAddEventsPubFailed := stats.numAddEventsPubFailed + failed }
  del stats :=
    { stats with
      numDelEventsPub := stats.numDelEventsPub + objects
      numDelEventsPubFailed := stats.numDelEventsPubFailed + failed }
  get stats :=
    { stats with
      numGetEventsPub := stats.numGetEventsPub + objects
      numGetEventsPubFailed := stats.numGetEventsPubFailed + failed }

/-- The objects of the multicast decoder count together. -/
theorem countAll_objects (type : BitVec 16) (objects : List Bool) (stats : Stats) :
    countAll type (objects.flatMap objectCounters) stats =
      (publishes (UInt32.ofNat objects.length) (UInt32.ofNat (objects.count false))).count type
        stats := by
  induction objects generalizing stats with
  | nil =>
    unfold Counters.count
    split_ifs <;> simp [countAll, publishes]
  | cons published objects ih =>
    have hsplit : countAll type ((published :: objects).flatMap objectCounters) stats =
        countAll type (objects.flatMap objectCounters)
          (countAll type (objectCounters published) stats) := by
      rw [countAll, List.flatMap_cons, List.foldl_append]
      rfl
    rw [hsplit, ih]
    unfold Counters.count
    cases published <;> split_ifs <;>
      simp [countAll, objectCounters, Counters.count, publishes, pubMsg, pubMsgFailed, *,
        UInt32.ofNat_add, add_assoc, add_comm]

/-- What the counters of an outcome come to. -/
theorem countAll_counters (type : BitVec 16) (o : Outcome) (stats : Stats) :
    countAll type o.counters stats =
      countAll type (if o.invalids = 0 then [] else [invalidMsg])
        ((publishes (UInt32.ofNat o.objects) (UInt32.ofNat o.failed)).count type
          (totMsg.count type stats)) := by
  have hsplit : ∀ (objects : List Bool) (rest : List Counters),
      countAll type (totMsg :: objects.flatMap objectCounters ++ rest) stats =
        countAll type rest
          (countAll type (objects.flatMap objectCounters) (totMsg.count type stats)) := by
    intro objects rest
    rw [countAll, List.cons_append, List.foldl_cons, List.foldl_append]
    rfl
  have hone : ∀ (objects : List Bool) (taken : Bool),
      countAll type (Outcome.snooped taken objects).counters stats =
        countAll type (if taken then [] else [invalidMsg])
          ((publishes (UInt32.ofNat objects.length) (UInt32.ofNat (objects.count false))).count type
            (totMsg.count type stats)) := by
    intro objects taken
    rw [Outcome.counters, hsplit, countAll_objects]
  cases o with
  | invalid => exact hone [] false
  | published => exact hone [true] true
  | publishFailed => exact hone [false] true
  | snooped taken objects =>
    rw [hone]
    cases taken <;> rfl

theorem tally_msg (l : List Entry) (type : BitVec 16) (o : Outcome) :
    tally (l ++ [.msg type o]) = note (tally l) (.msg type o) := by
  have hinvalids : o.invalids = 0 ∨ o.invalids = 1 := by
    cases o with
    | snooped taken objects => cases taken <;> simp [Outcome.invalids]
    | invalid => exact Or.inr rfl
    | published => exact Or.inl rfl
    | publishFailed => exact Or.inl rfl
  rw [note, countAll_counters]
  simp only [tally, bulks, datagrams_msg, total_concat, Entry.amount]
  unfold Counters.count
  by_cases hadd : isRtAddEvent type = true
  · rcases hinvalids with hnone | hone
    · simp [countAll, publishes, totMsg, hadd, add_not_del hadd, add_not_get hadd, hnone]
    · simp [countAll, Counters.count, publishes, totMsg, invalidMsg, hadd, add_not_del hadd,
        add_not_get hadd, hone]
  · by_cases hdel : isRtDelEvent type = true
    · rcases hinvalids with hnone | hone
      · simp [countAll, publishes, totMsg, hadd, hdel, del_not_get hdel, hnone]
      · simp [countAll, Counters.count, publishes, totMsg, invalidMsg, hadd, hdel,
          del_not_get hdel, hone]
    · by_cases hget : isRtGetEvent type = true
      · rcases hinvalids with hnone | hone
        · simp [countAll, publishes, totMsg, hadd, hdel, hget, hnone]
        · simp [countAll, Counters.count, publishes, totMsg, invalidMsg, hadd, hdel, hget, hone]
      · rcases hinvalids with hnone | hone
        · simp [countAll, hadd, hdel, hget, hnone]
        · simp [countAll, Counters.count, hadd, hdel, hget, hone]

theorem bulks_pos {l : List Entry} {n : UInt32} (h : n ∈ bulks l) : 1 < n :=
  of_decide_eq_true (List.mem_filter.mp h).2

theorem bulks_datagram (l : List Entry) (n : UInt32) :
    bulks (l ++ [.datagram n]) = if 1 < n then bulks l ++ [n] else bulks l := by
  rw [bulks, datagrams_datagram, List.filter_append]
  split_ifs with hn
  · rw [List.filter_singleton, decide_eq_true hn]
    rfl
  · rw [List.filter_singleton, decide_eq_false hn]
    exact List.append_nil _

/-- The largest size, after one more. -/
theorem max?_concat (l : List UInt32) {n : UInt32} (hn : 1 < n) :
    (l ++ [n]).max?.getD 0 = if n > l.max?.getD 0 then n else l.max?.getD 0 := by
  cases l with
  | nil =>
    have hpos : n > 0 := UInt32.lt_trans (by decide) hn
    exact (if_pos hpos).symm
  | cons m l =>
    rw [List.cons_append, List.max?_cons', List.foldl_append, List.max?_cons', Option.getD_some,
      Option.getD_some]
    generalize l.foldl max m = k
    show (if k ≤ n then n else k) = _
    split_ifs with hle hlt hlt
    · rfl
    · exact UInt32.le_antisymm (UInt32.not_lt.mp hlt) hle
    · exact absurd (UInt32.le_of_lt hlt) hle
    · rfl

/-- The smallest size, after one more. -/
theorem min?_concat {l : List UInt32} (hl : ∀ m ∈ l, 1 < m) (n : UInt32) :
    (l ++ [n]).min?.getD 0 =
      if n < l.min?.getD 0 then n else if l.min?.getD 0 = 0 then n else l.min?.getD 0 := by
  cases hmin : l.min? with
  | none =>
    obtain rfl := List.min?_eq_none_iff.mp hmin
    have hpos : ¬ n < (0 : UInt32) := UInt32.not_lt_zero
    exact (if_neg hpos).symm
  | some k =>
    have hk : 1 < k := hl k (List.min?_mem hmin)
    have hne : k ≠ 0 := by
      rintro rfl
      exact absurd hk (by decide)
    obtain ⟨m, l, rfl⟩ : ∃ m l', l = m :: l' := by
      cases l with
      | nil => cases hmin
      | cons m l => exact ⟨m, l, rfl⟩
    rw [List.min?_cons'] at hmin
    obtain rfl := Option.some_inj.mp hmin
    rw [List.cons_append, List.min?_cons', List.foldl_append, Option.getD_some, Option.getD_some]
    generalize l.foldl min m = k at hne
    show (if k ≤ n then k else n) = _
    rw [if_neg hne]
    split_ifs with hle hlt hlt
    · exact absurd hlt (UInt32.not_lt.mpr hle)
    · rfl
    · rfl
    · exact absurd (UInt32.not_lt.mp hlt) hle

theorem total_datagram (types : BitVec 16 → Bool) (of : Outcome → ℕ) (l : List Entry)
    (n : UInt32) : total types of (l ++ [.datagram n]) = total types of l := by
  rw [total_concat]
  exact UInt32.add_zero _

theorem countBulk_eq (n : UInt32) (stats : Stats) (hn : 1 < n) :
    countBulk n stats =
      { stats with
        numEventsRcvd := stats.numEventsRcvd + n
        numBulkEventsRcvd := stats.numBulkEventsRcvd + 1
        maxEventsRcvdInBulk :=
          if n > stats.maxEventsRcvdInBulk then n else stats.maxEventsRcvdInBulk
        minEventsRcvdInBulk :=
          if n < stats.minEventsRcvdInBulk then n
          else if stats.minEventsRcvdInBulk = 0 then n else stats.minEventsRcvdInBulk } := by
  have hgt : n > 1 := hn
  unfold countBulk
  dsimp only
  rw [if_pos hgt]
  by_cases hmax : n > stats.maxEventsRcvdInBulk
  · simp only [if_pos hmax]
    split_ifs <;> rfl
  · simp only [if_neg hmax]
    split_ifs <;> rfl

theorem tally_datagram (l : List Entry) (n : UInt32) :
    tally (l ++ [.datagram n]) = note (tally l) (.datagram n) := by
  rw [note]
  by_cases hn : 1 < n
  · rw [countBulk_eq n _ hn]
    simp only [tally, bulks_datagram, datagrams_datagram, total_datagram, List.sum_append,
      List.sum_singleton, if_pos hn, max?_concat _ hn, min?_concat (fun m => bulks_pos (l := l)) n,
      List.length_append, UInt32.ofNat_add]
    rfl
  · simp only [tally, bulks_datagram, datagrams_datagram, total_datagram, List.sum_append,
      List.sum_singleton, countBulk, if_neg hn]

/-- One more record counts as the functions count it. -/
theorem tally_concat (l : List Entry) (e : Entry) : tally (l ++ [e]) = note (tally l) e := by
  cases e with
  | msg type o => exact tally_msg l type o
  | datagram n => exact tally_datagram l n

/-! ## The counters stand for the ledger -/

/-- The counters of every socket are what its records add up to. -/
def Stands (t : Table) (l : Ledger) : Prop := ∀ fd, t.lookup fd = (l fd).map tally

theorem lookup_statsUpdate (sock fd : ℤ) (change : Stats → Stats) (t : Table) :
    (statsUpdate sock change t).lookup fd =
      if fd = sock then (t.lookup sock).map change else t.lookup fd := by
  rw [statsUpdate]
  split_ifs with hfd
  · subst hfd
    cases hold : t.lookup fd with
    | none => exact hold
    | some stats => exact AList.lookup_insert t
  · cases t.lookup sock with
    | none => rfl
    | some stats => exact AList.lookup_insert_ne hfd

/-- A function that counts, and what it stands for. -/
theorem Stands.update {t : Table} {l : Ledger} (h : Stands t l) (sock : ℤ)
    {change : Stats → Stats} {edit : List Entry → List Entry}
    (hedit : ∀ es, change (tally es) = tally (edit es)) :
    Stands (statsUpdate sock change t) (Function.update l sock ((l sock).map edit)) := by
  intro fd
  rw [lookup_statsUpdate, Function.update_apply]
  split_ifs
  · rw [h sock, Option.map_map, Option.map_map]
    congr 1
    exact funext hedit
  · exact h fd

theorem Ledger.append_nil (sock : ℤ) (l : Ledger) : l.append sock [] = l := by
  have hsame : (l sock).map (· ++ []) = l sock := by simp
  rw [Ledger.append, hsame, Function.update_eq_self]

theorem Ledger.append_append (sock : ℤ) (es es' : List Entry) (l : Ledger) :
    l.append sock (es ++ es') = (l.append sock es).append sock es' := by
  rw [Ledger.append, Ledger.append, Ledger.append, Function.update_self, Function.update_idem,
    Option.map_map]
  congr 2
  funext es₀
  exact (List.append_assoc es₀ es es').symm

theorem Stands.note {t : Table} {l : Ledger} (h : Stands t l) (sock : ℤ) (e : Entry) :
    Stands (statsUpdate sock (note · e) t) (l.append sock [e]) :=
  h.update sock fun es => (tally_concat es e).symm

/-! ## The handler -/

theorem Stands.congr {t t' : Table} {l : Ledger} (h : Stands t l)
    (heq : ∀ fd, t'.lookup fd = t.lookup fd) : Stands t' l := fun fd => (heq fd).trans (h fd)

/-- Two changes of the counters of a socket are one. -/
theorem lookup_statsUpdate_comp (sock : ℤ) (f g : Stats → Stats) (t : Table) (fd : ℤ) :
    (statsUpdate sock g (statsUpdate sock f t)).lookup fd =
      (statsUpdate sock (g ∘ f) t).lookup fd := by
  simp only [lookup_statsUpdate, if_true, Option.map_map]
  split_ifs <;> rfl

theorem lookup_statsUpdate_congr (sock : ℤ) (f : Stats → Stats) {t t' : Table}
    (h : ∀ fd, t.lookup fd = t'.lookup fd) (fd : ℤ) :
    (statsUpdate sock f t).lookup fd = (statsUpdate sock f t').lookup fd := by
  rw [lookup_statsUpdate, lookup_statsUpdate, h, h]

/-- The table has changed as these counters count for the socket. -/
def Counts (sock : ℤ) (type : BitVec 16) (cs : List Counters) (t t' : Table) : Prop :=
  ∀ fd, t'.lookup fd = (statsUpdate sock (countAll type cs) t).lookup fd

theorem Counts.nil (sock : ℤ) (type : BitVec 16) (t : Table) : Counts sock type [] t t := by
  intro fd
  rw [lookup_statsUpdate]
  split_ifs with hfd
  · subst hfd
    exact (congrFun Option.map_id _).symm
  · rfl

theorem Counts.single (sock : ℤ) (type : BitVec 16) (c : Counters) (t : Table) :
    Counts sock type [c] t (statsUpdate sock (c.count type) t) := fun _ => rfl

theorem Counts.append {sock : ℤ} {type : BitVec 16} {cs cs' : List Counters} {t t' t'' : Table}
    (h : Counts sock type cs t t') (h' : Counts sock type cs' t' t'') :
    Counts sock type (cs ++ cs') t t'' := by
  intro fd
  have hcomp : countAll type (cs ++ cs') = countAll type cs' ∘ countAll type cs := by
    funext stats
    exact List.foldl_append
  rw [hcomp, ← lookup_statsUpdate_comp, h' fd]
  exact lookup_statsUpdate_congr sock _ h fd

/-- An object counts in its counters. -/
theorem counts_object (sock : ℤ) (type : BitVec 16) (published : Bool) (t : Table) :
    Counts sock type (objectCounters published) t (countObject sock type published t) := by
  cases published with
  | true => exact .single sock type pubMsg t
  | false => exact (Counts.single sock type pubMsg t).append (.single sock type pubMsgFailed _)

theorem counts_objects (sock : ℤ) (type : BitVec 16) (objects : List Bool) (t : Table) :
    Counts sock type (objects.flatMap objectCounters) t
      (objects.foldl (fun t ok => countObject sock type ok t) t) := by
  induction objects generalizing t with
  | nil => exact .nil sock type t
  | cons published objects ih =>
    rw [List.flatMap_cons, List.foldl_cons]
    exact (counts_object sock type published t).append (ih _)

/-- One range counts what its outcome counts. -/
theorem counts_countAndPublish (sock : ℤ) (m : Msg Verdict) (decoded : Bool) (t : Table) :
    Counts sock m.type
      (if decoded = false then Outcome.invalid
        else if m.data.published then .published else .publishFailed).counters
      t (countAndPublish sock m decoded t) := by
  have htotal := Counts.single sock m.type totMsg t
  cases decoded with
  | false => exact htotal.append (.single sock m.type invalidMsg _)
  | true =>
    cases hpub : m.data.published with
    | true =>
      have hobject := counts_object sock m.type true (updateTotMsg sock m.type t)
      rw [countAndPublish, if_pos rfl, hpub]
      exact htotal.append hobject
    | false =>
      have hobject := counts_object sock m.type false (updateTotMsg sock m.type t)
      rw [countAndPublish, if_pos rfl, hpub]
      exact htotal.append hobject

/-- The range of the multicast decoder counts what its outcome counts. -/
theorem counts_snoop (sock : ℤ) (m : Msg Verdict) (decoded : Bool) (t : Table) :
    let r := nlToMcastSnoopInfo sock m decoded (updateTotMsg sock m.type t)
    Counts sock m.type
      (if isMdb m.type then Outcome.snooped decoded m.data.snooped else .invalid).counters
      t (if r.1 = false then updateInvalidMsg sock m.type r.2 else r.2) := by
  intro r
  have htotal := Counts.single sock m.type totMsg t
  by_cases hmdb : isMdb m.type = true
  · have hr : r = (decoded, m.data.snooped.foldl (fun t ok => countObject sock m.type ok t)
        (updateTotMsg sock m.type t)) := by
      refine if_neg fun hother => ?_
      simp [isMdb, hother.1, hother.2] at hmdb
    have hobjects := htotal.append (counts_objects sock m.type m.data.snooped
      (updateTotMsg sock m.type t))
    rw [if_pos hmdb, hr]
    cases decoded with
    | true =>
      rw [Outcome.counters, if_pos rfl, List.append_nil]
      exact hobjects
    | false =>
      rw [Outcome.counters, if_neg Bool.false_ne_true, if_pos rfl]
      exact hobjects.append (.single sock m.type invalidMsg _)
  · have hr : r = (false, updateTotMsg sock m.type t) := by
      refine if_pos ?_
      simpa [isMdb] using hmdb
    rw [if_neg hmdb, hr, if_pos rfl]
    exact htotal.append (.single sock m.type invalidMsg _)

/-- A message that was counted is in the ledger. -/
theorem Stands.counts {t t' : Table} {l : Ledger} (h : Stands t l) {sock : ℤ} {type : BitVec 16}
    {o : Outcome} (hc : Counts sock type o.counters t t') :
    Stands t' (l.append sock [.msg type o]) :=
  (h.note sock (.msg type o)).congr hc

theorem recordsOf_handled {vrfId : BitVec 32} {m : Msg Verdict} (h : handled m.type = true) :
    recordsOf vrfId [m] = [entryOf vrfId m] := by
  rw [recordsOf, List.filter_singleton, h]
  rfl

theorem recordsOf_refused {vrfId : BitVec 32} {m : Msg Verdict} (h : handled m.type = false) :
    recordsOf vrfId [m] = [] := by
  rw [recordsOf, List.filter_singleton, h]
  rfl

/-- A range that publishes. -/
theorem Stands.countAndPublish {t : Table} {l : Ledger} (h : Stands t l) (sock : ℤ)
    {vrfId : BitVec 32} {m : Msg Verdict} (hm : handled m.type = true)
    (hdec : decoderOf m.type ≠ .nlToMcastSnoopInfo) :
    Stands (countAndPublish sock m (taken vrfId m) t) (l.append sock (recordsOf vrfId [m])) := by
  rw [recordsOf_handled hm, entryOf, outcomeOf, if_neg hdec]
  exact h.counts (counts_countAndPublish sock m (taken vrfId m) t)

/-- The same for a range whose decoder only returns a flag. -/
theorem Stands.decoded {t : Table} {l : Ledger} (h : Stands t l) (sock : ℤ) {vrfId : BitVec 32}
    {m : Msg Verdict} (hm : handled m.type = true) {d : Decoder} (hdec : decoderOf m.type = d)
    (hlink : d ≠ .osInterfaceToObject) (hmdb : d ≠ .nlToMcastSnoopInfo) :
    Stands (EventStats.countAndPublish sock m (m.data.decode d vrfId) t)
      (l.append sock (recordsOf vrfId [m])) := by
  have htaken : m.data.decode d vrfId = taken vrfId m := by
    rw [taken, hdec, bne_iff_ne.mpr hlink, Bool.true_or, Bool.and_true]
  rw [htaken]
  exact h.countAndPublish sock hm (by rwa [hdec])

/-- The range of the multicast decoder. -/
theorem Stands.snooped {t : Table} {l : Ledger} (h : Stands t l) (sock : ℤ) {vrfId : BitVec 32}
    {m : Msg Verdict} (hm : handled m.type = true)
    (hdec : decoderOf m.type = .nlToMcastSnoopInfo) :
    let r := nlToMcastSnoopInfo sock m (m.data.decode .nlToMcastSnoopInfo vrfId)
      (updateTotMsg sock m.type t)
    Stands (if r.1 = false then updateInvalidMsg sock m.type r.2 else r.2)
      (l.append sock (recordsOf vrfId [m])) := by
  have htaken : m.data.decode .nlToMcastSnoopInfo vrfId = taken vrfId m := by
    rw [taken, hdec]
    exact (Bool.and_true _).symm
  rw [recordsOf_handled hm, entryOf, outcomeOf, if_pos hdec, htaken]
  exact h.counts (counts_snoop sock m (taken vrfId m) t)

/-- A message of another kind is refused and not counted. -/
theorem getNetlinkData_refused {sock : ℤ} {vrfId : BitVec 32} {m : Msg Verdict} {t : Table}
    (hm : handled m.type = false) : getNetlinkData sock vrfId m t = (false, t) := by
  have hcases : m.type < rtmBase ∨ ¬ m.type ≤ rtmGetmdb := by
    by_contra hboth
    rw [not_or, not_not] at hboth
    refine Bool.eq_false_iff.mp hm ?_
    rw [handled, Bool.and_eq_true, decide_eq_true_eq, decide_eq_true_eq]
    exact ⟨BitVec.not_lt.mp hboth.1, hboth.2⟩
  rw [getNetlinkData]
  dsimp only
  rcases hcases with hlt | hgt
  · exact if_pos hlt
  · have hlarge : ∀ bound, bound ≤ rtmGetmdb → ¬ m.type ≤ bound :=
      fun bound hb hle => hgt (BitVec.le_trans hle hb)
    rw [if_neg (hlarge rtmSetlink (by decide)), if_neg (hlarge rtmGetaddr (by decide)),
      if_neg (hlarge rtmGetroute (by decide)), if_neg (hlarge rtmGetneigh (by decide)),
      if_neg (hlarge rtmGetnetconf (by decide)), if_neg hgt, ite_self]

/-- What the handler returns, and what it counts. -/
theorem getNetlinkData_stands {t : Table} {l : Ledger} (h : Stands t l) (sock : ℤ)
    (vrfId : BitVec 32) (m : Msg Verdict) :
    (getNetlinkData sock vrfId m t).1 = handled m.type ∧
      Stands (getNetlinkData sock vrfId m t).2 (l.append sock (recordsOf vrfId [m])) := by
  by_cases hm : handled m.type = true
  · have hrange : rtmBase ≤ m.type ∧ m.type ≤ rtmGetmdb := by
      simpa [handled] using hm
    rw [getNetlinkData, if_neg (BitVec.not_lt.mpr hrange.1), hm]
    dsimp only
    split_ifs with hlink haddr hroute hneigh hconf hmdb hdecode
    · have hdec : decoderOf m.type = .osInterfaceToObject := if_pos hlink
      have htaken : (m.data.decode .osInterfaceToObject vrfId && m.data.evtPublish) =
          taken vrfId m := by
        rw [taken, hdec]
        rfl
      rw [htaken]
      exact ⟨rfl, h.countAndPublish sock hm (by rw [hdec]; decide)⟩
    · have hdec : decoderOf m.type = .nlGetIpInfo := by
        rw [decoderOf, if_neg hlink, if_pos haddr]
      exact ⟨rfl, h.decoded sock hm hdec (by decide) (by decide)⟩
    · have hdec : decoderOf m.type = .nlToRouteInfo := by
        rw [decoderOf, if_neg hlink, if_neg haddr, if_pos hroute]
      exact ⟨rfl, h.decoded sock hm hdec (by decide) (by decide)⟩
    · have hdec : decoderOf m.type = .nlToNeighInfo := by
        rw [decoderOf, if_neg hlink, if_neg haddr, if_neg hroute, if_pos hneigh]
      exact ⟨rfl, h.decoded sock hm hdec (by decide) (by decide)⟩
    · have hdec : decoderOf m.type = .nlGetIpNetconfInfo := by
        rw [decoderOf, if_neg hlink, if_neg haddr, if_neg hroute, if_neg hneigh, if_pos hconf]
      exact ⟨rfl, h.decoded sock hm hdec (by decide) (by decide)⟩
    · have hdec : decoderOf m.type = .nlToMcastSnoopInfo := by
        rw [decoderOf, if_neg hlink, if_neg haddr, if_neg hroute, if_neg hneigh, if_neg hconf]
      have hsnooped := @Stands.snooped _ _ h sock vrfId _ hm hdec
      dsimp only at hsnooped
      rw [if_pos hdecode] at hsnooped
      exact ⟨rfl, hsnooped⟩
    · have hdec : decoderOf m.type = .nlToMcastSnoopInfo := by
        rw [decoderOf, if_neg hlink, if_neg haddr, if_neg hroute, if_neg hneigh, if_neg hconf]
      have hsnooped := @Stands.snooped _ _ h sock vrfId _ hm hdec
      dsimp only at hsnooped
      rw [if_neg hdecode] at hsnooped
      exact ⟨rfl, hsnooped⟩
    · exact absurd hrange.2 hmdb
  · have hfalse := Bool.eq_false_iff.mpr hm
    rw [getNetlinkData_refused hfalse, hfalse, recordsOf_refused hfalse, Ledger.append_nil]
    exact ⟨rfl, h⟩

/-! ## The calls -/

/-- What the handler makes of messages one after the other. -/
theorem Stands.handle {t : Table} {l : Ledger} (h : Stands t l) (sock : ℤ) (vrfId : BitVec 32)
    (msgs : List (Msg Verdict)) :
    Stands (msgs.foldl (fun t m => (getNetlinkData sock vrfId m t).2) t)
      (l.append sock (recordsOf vrfId msgs)) := by
  induction msgs generalizing t l with
  | nil =>
    rw [recordsOf, List.filter_nil, List.map_nil, Ledger.append_nil]
    exact h
  | cons m msgs ih =>
    have hsplit : recordsOf vrfId (m :: msgs) = recordsOf vrfId [m] ++ recordsOf vrfId msgs := by
      rw [← List.singleton_append, recordsOf, List.filter_append, List.map_append]
      rfl
    rw [hsplit, Ledger.append_append]
    exact ih (getNetlinkData_stands h sock vrfId m).2

/-- A message that is not for the handler. -/
theorem receiveMsg_other {α γ : Type*} {func : NlDump.Handler α γ} {s : WalkState γ} {m : Msg α}
    (hintr : ¬ m.dumpIntr = true) (hdata : ¬ m.isData = true)
    (herror : ¬ (m.type = nlmsgError ∧ m.error ≠ 0)) : receiveMsg func s m = .ok s := by
  rw [receiveMsg, if_neg hintr]
  split_ifs with hdone hnoop htype hzero
  · rfl
  · rfl
  · rfl
  · exact absurd ⟨htype, hzero⟩ herror
  · refine absurd ?_ hdata
    simp [Msg.isData, hdone, hnoop, htype]

/-- A message for the handler. -/
theorem receiveMsg_data {α γ : Type*} {func : NlDump.Handler α γ} {s : WalkState γ} {m : Msg α}
    (hintr : ¬ m.dumpIntr = true) (hdata : m.isData = true) :
    receiveMsg func s m =
      if (func m s.ctx).1 then .ok ⟨s.errorCode, s.msgCount + 1, (func m s.ctx).2⟩
      else .error ⟨s.errorCode, s.msgCount + 1, (func m s.ctx).2⟩ := by
  obtain ⟨⟨hdone, hnoop⟩, herror⟩ :
      (m.type ≠ nlmsgDone ∧ m.type ≠ nlmsgNoop) ∧ m.type ≠ nlmsgError := by
    simpa [Msg.isData] using hdata
  rw [receiveMsg, if_neg hintr, if_neg hdone, if_neg hnoop, if_neg herror]
  generalize func m s.ctx = out
  obtain ⟨accepted, ctx⟩ := out
  cases accepted <;> rfl

/-- The walk over a datagram hands over what `walked` says, and ends as it
says. -/
theorem receiveMsgs_walked {α γ : Type*} {func : NlDump.Handler α γ} {accept : Msg α → Bool}
    (haccept : ∀ m ctx, (func m ctx).1 = accept m) (msgs : List (Msg α)) (s : WalkState γ) :
    (walked accept msgs).2 = true ∧
        msgs.foldlM (receiveMsg func) s =
          .ok ⟨s.errorCode, s.msgCount + (walked accept msgs).1.length,
            (walked accept msgs).1.foldl (fun ctx m => (func m ctx).2) s.ctx⟩ ∨
      (walked accept msgs).2 = false ∧ ∃ errorCode msgCount,
        msgs.foldlM (receiveMsg func) s =
          .error ⟨errorCode, msgCount,
            (walked accept msgs).1.foldl (fun ctx m => (func m ctx).2) s.ctx⟩ := by
  induction msgs generalizing s with
  | nil => exact Or.inl ⟨rfl, rfl⟩
  | cons m msgs ih =>
    rw [List.foldlM_cons, walked]
    by_cases hintr : m.dumpIntr = true
    · rw [receiveMsg, if_pos hintr, if_pos hintr]
      exact Or.inr ⟨rfl, eintr, s.msgCount, rfl⟩
    rw [if_neg hintr]
    by_cases hdata : m.isData = true
    · rw [receiveMsg_data hintr hdata, haccept, if_pos hdata]
      cases haccepts : accept m with
      | false => exact Or.inr ⟨rfl, s.errorCode, s.msgCount + 1, rfl⟩
      | true =>
        have hcount : s.msgCount + (m :: (walked accept msgs).1).length =
            s.msgCount + 1 + (walked accept msgs).1.length := by
          rw [List.length_cons]
          omega
        rw [if_pos rfl, if_pos rfl]
        dsimp only
        rw [hcount, List.foldl_cons]
        exact ih ⟨s.errorCode, s.msgCount + 1, (func m s.ctx).2⟩
    · rw [if_neg hdata]
      by_cases herror : m.type = nlmsgError ∧ m.error ≠ 0
      · obtain ⟨htype, hne⟩ := herror
        rw [if_pos ⟨htype, hne⟩, receiveMsg, htype, if_neg hintr, if_neg (by decide),
          if_neg (by decide), if_pos rfl, if_neg hne]
        exact Or.inr ⟨rfl, -m.error, s.msgCount, rfl⟩
      · rw [receiveMsg_other hintr hdata herror, if_neg herror]
        exact ih s

theorem getNetlinkData_accepts (sock : ℤ) (vrfId : BitVec 32) (m : Msg Verdict) (t : Table) :
    (getNetlinkData sock vrfId m t).1 = handled m.type := by
  have hsame : (getNetlinkData sock vrfId m t).1 = (getNetlinkData sock vrfId m ∅).1 := by
    unfold getNetlinkData
    dsimp only
    split_ifs <;> rfl
  have hempty : Stands ∅ fun _ => none := fun fd => rfl
  rw [hsame]
  exact (getNetlinkData_stands hempty sock vrfId m).1

theorem Stands.datagram {t : Table} {l : Ledger} (h : Stands t l) (sock : ℤ)
    (vrfId : BitVec 32) (msgs : List (Msg Verdict)) :
    Stands
      (match msgs.foldlM (receiveMsg (getNetlinkData sock vrfId)) ⟨0, 0, t⟩ with
        | .error s => s.ctx
        | .ok s => nlStatsUpdate sock (UInt32.ofNat s.msgCount) s.ctx)
      (l.append sock (datagramRecords vrfId msgs)) := by
  have hwalk := receiveMsgs_walked (getNetlinkData_accepts sock vrfId) msgs ⟨0, 0, t⟩
  have hhandle := h.handle sock vrfId (walked (fun m => handled m.type) msgs).1
  rw [datagramRecords]
  rcases hwalk with ⟨hend, hrun⟩ | ⟨hend, errorCode, msgCount, hrun⟩
  · rw [hrun, hend, if_pos rfl, Ledger.append_append]
    dsimp only
    rw [Nat.zero_add]
    exact hhandle.note sock (.datagram (UInt32.ofNat (walked _ msgs).1.length))
  · rw [hrun, hend, if_neg Bool.false_ne_true, List.append_nil]
    exact hhandle

theorem Stands.receive {t : Table} {l : Ledger} (h : Stands t l) (sock : ℤ) (len : ℕ)
    (vrfId : BitVec 32) (recvs : List (Recv Verdict)) :
    Stands
      (match receiveEvent (getNetlinkData sock) (nlStatsUpdate sock) len vrfId t recvs with
        | none => t
        | some (_, t) => t)
      (l.append sock (eventRecords len vrfId recvs)) := by
  induction recvs with
  | nil =>
    rw [eventRecords, Ledger.append_nil]
    exact h
  | cons r recvs ih =>
    cases r with
    | interrupted => exact ih
    | failed errno =>
      rw [eventRecords, Ledger.append_nil]
      exact h
    | received d nsids =>
      rw [receiveEvent, eventRecords]
      split_ifs with htrunc
      · rw [Ledger.append_nil]
        exact h
      · have hd := h.datagram sock (eventVrfId vrfId nsids) d.msgs
        generalize d.msgs.foldlM (receiveMsg (getNetlinkData sock (eventVrfId vrfId nsids)))
          ⟨0, 0, t⟩ = out at hd ⊢
        cases out <;> exact hd

theorem recordsOf_append (vrfId : BitVec 32) (msgs msgs' : List (Msg Verdict)) :
    recordsOf vrfId (msgs ++ msgs') = recordsOf vrfId msgs ++ recordsOf vrfId msgs' := by
  rw [recordsOf, List.filter_append, List.map_append]
  rfl

/-- The handler goes with its answers alone, whose calls are written down. -/
theorem handlers_together (l : Ledger) (sock : ℤ) (vrfId : BitVec 32) :
    Together (fun t (c : Unit × Calls Verdict) =>
        Stands t (l.append sock (recordsOf vrfId (c.2.map Prod.fst))))
      (getNetlinkData sock vrfId) (logged accepts) := by
  intro m t c h
  obtain ⟨hsame, hstands⟩ := getNetlinkData_stands h sock vrfId m
  refine ⟨hsame, ?_⟩
  have hcalls : (logged accepts m c).2.2.map Prod.fst = c.2.map Prod.fst ++ [m] :=
    List.map_append
  dsimp only
  rw [hcalls, recordsOf_append, Ledger.append_append]
  exact hstands

theorem Stands.answer {t : Table} {l : Ledger} (h : Stands t l) (a : Answer) :
    Stands (step t (.answer a)) (ledgerStep l (.answer a)) := by
  have hstart : Alike (fun t (c : Unit × Calls Verdict) =>
      Stands t (l.append a.sock (recordsOf a.vrfId (c.2.map Prod.fst))))
      (.initial t) (.initial ((), [])) := by
    refine ⟨rfl, rfl, rfl, ?_⟩
    show Stands t (l.append a.sock [])
    rw [Ledger.append_nil]
    exact h
  have hend := (handlers_together l a.sock a.vrfId).processSocket a.scratch (some a.seq) a.turns
    hstart
  rw [step, ledgerStep, answerRecords]
  generalize processSocket (getNetlinkData a.sock a.vrfId) a.scratch (some a.seq) (.initial t)
    a.turns = out at hend ⊢
  generalize processSocket (logged accepts) a.scratch (some a.seq) (.initial ((), []))
    a.turns = out' at hend ⊢
  cases out <;> cases out'
  · rw [Ledger.append_nil]
    exact h
  · exact hend.elim
  · exact hend.elim
  · exact hend.2.2

theorem lookup_statsInit (sock fd : ℤ) (t : Table) :
    (statsInit sock t).lookup fd =
      if fd = sock then some ((t.lookup sock).getD .zero) else t.lookup fd := by
  rw [statsInit]
  cases hold : t.lookup sock with
  | none =>
    dsimp only
    split_ifs with hfd
    · subst hfd
      exact AList.lookup_insert t
    · exact AList.lookup_insert_ne hfd
  | some stats =>
    dsimp only
    split_ifs with hfd
    · rw [hfd, hold]
      rfl
    · rfl

theorem lookup_statsDeinit (sock fd : ℤ) (t : Table) :
    (statsDeinit sock t).lookup fd = if fd = sock then none else t.lookup fd := by
  rw [statsDeinit]
  cases hold : t.lookup sock with
  | none =>
    dsimp only
    split_ifs with hfd
    · rw [hfd, hold]
    · rfl
  | some stats =>
    dsimp only
    split_ifs with hfd
    · subst hfd
      exact AList.lookup_erase ..
    · exact AList.lookup_erase_ne hfd

/-- One call. -/
theorem Stands.call {t : Table} {l : Ledger} (h : Stands t l) (act : Act) :
    Stands (step t act) (ledgerStep l act) := by
  cases act with
  | init sock =>
    intro fd
    rw [EventStats.step, ledgerStep, lookup_statsInit, Function.update_apply, h sock]
    split_ifs
    · cases l sock <;> rfl
    · exact h fd
  | deinit sock =>
    intro fd
    rw [EventStats.step, ledgerStep, lookup_statsDeinit, Function.update_apply]
    split_ifs
    · rfl
    · exact h fd
  | reset sock => exact h.update sock fun es => rfl
  | event e => exact h.receive e.sock e.len e.vrfId e.recvs
  | answer a => exact h.answer a

theorem Stands.acts {t : Table} {l : Ledger} (h : Stands t l) (acts : List Act) :
    Stands (run step t acts) (run ledgerStep l acts) := by
  induction acts generalizing t l with
  | nil => exact h
  | cons act acts ih => exact ih (h.call act)

/-- After any sequence of calls, every socket has counters when the ledger has
records for it, and they are what these add up to. -/
theorem stats_refine_ledger (acts : List Act) (sock : ℤ) :
    (run step ∅ acts).lookup sock = (run ledgerStep (fun _ => none) acts sock).map tally := by
  have hempty : Stands ∅ fun _ => none := fun fd => rfl
  exact hempty.acts acts sock

/-! ## The counters among each other -/

theorem total_add (types : BitVec 16 → Bool) (of of' : Outcome → ℕ) (l : List Entry) :
    total types (fun o => of o + of' o) l = total types of l + total types of' l := by
  have hsum : (l.map (Entry.amount types fun o => of o + of' o)).sum =
      (l.map (Entry.amount types of)).sum + (l.map (Entry.amount types of')).sum := by
    rw [← List.sum_map_add]
    congr 2
    funext e
    cases e with
    | datagram n => rfl
    | msg type o =>
      simp only [Entry.amount]
      split_ifs <;> rfl
  rw [total, hsum, UInt32.ofNat_add]
  rfl

/-- Every message is invalid, or has an object, or goes to the multicast decoder,
whose objects are in addition. -/
theorem total_all (types : BitVec 16 → Bool) (es : List Entry) :
    total types (fun _ => 1) es + total types Outcome.snoopObjects es =
      total types Outcome.invalids es + total types Outcome.objects es +
        total types Outcome.snoops es := by
  rw [← total_add, ← total_add, ← total_add]
  congr 1
  funext o
  cases o with
  | invalid => rfl
  | published => rfl
  | publishFailed => rfl
  | snooped taken objects =>
    cases taken
    · exact (Nat.add_zero _).symm
    · simp only [Outcome.snoopObjects, Outcome.invalids, Outcome.objects, Outcome.snoops]
      omega

theorem total_objects (types : BitVec 16 → Bool) (es : List Entry) :
    total types Outcome.objects es =
      total types Outcome.delivered es + total types Outcome.failed es := by
  rw [← total_add]
  congr 1
  funext o
  cases o with
  | invalid => rfl
  | published => rfl
  | publishFailed => rfl
  | snooped taken objects => exact (List.count_true_add_count_false objects).symm

/-- What the counters of a socket with these records have to do with each
other.  Every event is counted as invalid or published or was taken by the
multicast decoder, which publishes so many objects more. -/
structure Balanced (stats : Stats) (es : List Entry) : Prop where
  add : stats.numAddEvents + total isRtAddEvent Outcome.snoopObjects es =
    stats.numInvalidAddEvents + stats.numAddEventsPub + total isRtAddEvent Outcome.snoops es
  del : stats.numDelEvents + total isRtDelEvent Outcome.snoopObjects es =
    stats.numInvalidDelEvents + stats.numDelEventsPub + total isRtDelEvent Outcome.snoops es
  get : stats.numGetEvents + total isRtGetEvent Outcome.snoopObjects es =
    stats.numInvalidGetEvents + stats.numGetEventsPub + total isRtGetEvent Outcome.snoops es
  addPub : stats.numAddEventsPub =
    total isRtAddEvent Outcome.delivered es + stats.numAddEventsPubFailed
  delPub : stats.numDelEventsPub =
    total isRtDelEvent Outcome.delivered es + stats.numDelEventsPubFailed
  getPub : stats.numGetEventsPub =
    total isRtGetEvent Outcome.delivered es + stats.numGetEventsPubFailed
  bulk : bulks es = [] ∧ stats.minEventsRcvdInBulk = 0 ∧ stats.maxEventsRcvdInBulk = 0 ∨
    stats.minEventsRcvdInBulk ∈ bulks es ∧ stats.maxEventsRcvdInBulk ∈ bulks es ∧
      ∀ n ∈ bulks es, 1 < n ∧ stats.minEventsRcvdInBulk ≤ n ∧ n ≤ stats.maxEventsRcvdInBulk

/-- The largest of a list. -/
theorem max?_spec {l : List UInt32} {m : UInt32} (h : l.max? = some m) :
    m ∈ l ∧ ∀ n ∈ l, n ≤ m := by
  have hlawful : Std.LawfulOrderMax UInt32 := .of_max_le_iff
    (fun a b c => by
      show (if a ≤ b then b else a) ≤ c ↔ _
      split_ifs with hle
      · exact ⟨fun h => ⟨UInt32.le_trans hle h, h⟩, And.right⟩
      · have hlt := UInt32.not_le.mp hle
        exact ⟨fun h => ⟨h, UInt32.le_trans (UInt32.le_of_lt hlt) h⟩, And.left⟩)
    (fun a b => by
      show (if a ≤ b then b else a) = a ∨ (if a ≤ b then b else a) = b
      split_ifs
      · exact Or.inr rfl
      · exact Or.inl rfl)
  exact List.max?_eq_some_iff.mp h

theorem tally_balanced (es : List Entry) : Balanced (tally es) es where
  add := total_all ..
  del := total_all ..
  get := total_all ..
  addPub := total_objects ..
  delPub := total_objects ..
  getPub := total_objects ..
  bulk := by
    by_cases hnone : bulks es = []
    · refine Or.inl ⟨hnone, ?_, ?_⟩
      · simp [tally, hnone]
      · simp [tally, hnone]
    · obtain ⟨k, hmin⟩ := Option.ne_none_iff_exists'.mp (mt List.min?_eq_none_iff.mp hnone)
      obtain ⟨m, hmax⟩ := Option.ne_none_iff_exists'.mp (mt List.max?_eq_none_iff.mp hnone)
      obtain ⟨hk, hkle⟩ := List.min?_eq_some_iff.mp hmin
      obtain ⟨hm, hmle⟩ := max?_spec hmax
      refine Or.inr ?_
      simp only [tally, hmin, hmax, Option.getD_some]
      exact ⟨hk, hm, fun n hn => ⟨bulks_pos hn, hkle n hn, hmle n hn⟩⟩

/-- After any sequence of calls, the counters of a socket belong together as
those of its records do. -/
theorem stats_balanced (acts : List Act) {sock : ℤ} {stats : Stats}
    (h : (run step ∅ acts).lookup sock = some stats) :
    ∃ es, run ledgerStep (fun _ => none) acts sock = some es ∧ Balanced stats es := by
  have hempty : Stands ∅ fun _ => none := fun fd => rfl
  have hsock := hempty.acts acts sock
  rw [h] at hsock
  obtain ⟨es, hes, rfl⟩ := Option.map_eq_some_iff.mp hsock.symm
  exact ⟨es, hes, tally_balanced es⟩

/-- A route that the decoder takes. -/
def newRoute (published : Bool) : Msg Verdict :=
  ⟨20, rtmNewroute, 0, 0, 0, ⟨fun _ _ => true, true, published, []⟩⟩

/-- A router port, whose second object is refused. -/
def newMdb : Msg Verdict := ⟨20, rtmNewmdb, 0, 0, 0, ⟨fun _ _ => true, true, true, [true, false]⟩⟩

/-- Two routes, of which one is published, and a router port. -/
def twoRoutes : Datagram Verdict where
  msgs := [newRoute true, newRoute false, newMdb]
  size := 60
  headLen := 20
  holds := by decide
  head := fun _ h => Option.some_inj.mp h ▸ rfl

/-- A call that reads them. -/
def readRoutes : Act := .event ⟨7, 0, 1048576, [.interrupted, .received twoRoutes []], rfl⟩

theorem stats_balanced_routes :
    ∃ es, run ledgerStep (fun _ => none) [.init 7, readRoutes] 7 = some es ∧
      Balanced { Stats.zero with
        numEventsRcvd := 3, numBulkEventsRcvd := 1, maxEventsRcvdInBulk := 3
        minEventsRcvdInBulk := 3, numAddEvents := 3, numAddEventsPub := 4
        numAddEventsPubFailed := 2 } es :=
  @stats_balanced [.init 7, readRoutes] 7 _ rfl

end OpxNasLinux.NlSock.EventStats
