import OpxNasLinux.McastNetlink

/-!
# Which multicast events are published

* `required` are the events for the records and router ports of a message.
* `EntriesOk` says which lists of entries the walk over them can go over, and
  `entries_iff` that it is those.
* `TopsOk` and `top_iff` are the same for the attributes of the message.
* `publishes_all_iff` is the function.
-/

namespace OpxNasLinux.McastNetlink

open NlMsg Netlink
open McastIfNames (getIfname NameError)
open RouteInfo (Oper visits)
open Rta (span span_inMsg InMsg mem_span)

/-! ## What has to be published -/

/-- The attributes inside an attribute. -/
def inside (mem : Memory) (p : ℤ) : List ℤ := visits mem (embedded mem p)

/-- The attributes of a message. -/
def tops (mem : Memory) : List ℤ := visits mem (attrCursor mem 8#32)

section Required

variable (env : Env) (op : Oper) (vlanId : BitVec 16) (mem : Memory)

/-- The interface with the index at this position. -/
def portName (p : ℤ) : Except NameError Str :=
  getIfname env.halIfNameSz env.osName (load32 mem p)

def recordEvents (r : ℤ) : List (ℤ × Event) :=
  match portName env mem (nlaData r), groupOf mem (nlaData r) with
  | .ok ifName, some (af, addr) => [(r, .group op vlanId af ifName (env.ntop af addr))]
  | _, _ => []

def isInfo (r : ℤ) : Bool := nlaType mem r == mdbaMdbEntryInfo

def entryEvents (q : ℤ) : List (ℤ × Event) :=
  if nlaType mem q = mdbaMdbEntry then
    ((inside mem q).filter (isInfo mem)).flatMap (recordEvents env op vlanId mem)
  else []

def portEvents (q : ℤ) : List (ℤ × Event) :=
  if nlaType mem q = mdbaRouterPort then
    match portName env mem (nlaData q) with
    | .ok ifName => [(q, .router op vlanId ifName true), (q, .router op vlanId ifName false)]
    | .error _ => []
  else []

def topEvents (p : ℤ) : List (ℤ × Event) :=
  if nlaType mem p = mdbaMdb then (inside mem p).flatMap (entryEvents env op vlanId mem)
  else if nlaType mem p = mdbaRouter then (inside mem p).flatMap (portEvents env op vlanId mem)
  else []

/-- The events for the records and the router ports of a message, in their
order. -/
def required : List (ℤ × Event) := (tops mem).flatMap (topEvents env op vlanId mem)

end Required

/-! ## Messages -/

section Messages

variable (env : Env) (mem : Memory)

/-- The message has its header, and its records and router ports have their
structures. -/
structure WellFormed : Prop where
  header : 24 ≤ (load32 mem 0).toNat
  records : ∀ p ∈ tops mem, nlaType mem p = mdbaMdb → ∀ q ∈ inside mem p,
    nlaType mem q = mdbaMdbEntry → ∀ r ∈ inside mem q, nlaType mem r = mdbaMdbEntryInfo →
      32 ≤ attrLen mem r
  ports : ∀ p ∈ tops mem, nlaType mem p = mdbaRouter → ∀ q ∈ inside mem p,
    nlaType mem q = mdbaRouterPort → 8 ≤ attrLen mem q

/-- The records and the router ports name interfaces that are known. -/
structure Resolves : Prop where
  records : ∀ p ∈ tops mem, nlaType mem p = mdbaMdb → ∀ q ∈ inside mem p,
    nlaType mem q = mdbaMdbEntry → ∀ r ∈ inside mem q, nlaType mem r = mdbaMdbEntryInfo →
      ∃ name, portName env mem (nlaData r) = .ok name
  ports : ∀ p ∈ tops mem, nlaType mem p = mdbaRouter → ∀ q ∈ inside mem p,
    nlaType mem q = mdbaRouterPort → ∃ name, portName env mem (nlaData q) = .ok name

/-- The records of an attribute in `MDBA_MDB` are whole, and their interfaces
known. -/
def EntryFine (q : ℤ) : Prop :=
  nlaType mem q = mdbaMdbEntry → ∀ r ∈ inside mem q, nlaType mem r = mdbaMdbEntryInfo →
    32 ≤ attrLen mem r ∧ ∃ name, portName env mem (nlaData r) = .ok name

/-- The same for an attribute in `MDBA_ROUTER`. -/
def PortFine (q : ℤ) : Prop :=
  nlaType mem q = mdbaRouterPort →
    8 ≤ attrLen mem q ∧ ∃ name, portName env mem (nlaData q) = .ok name

/-- The same for an attribute of the message. -/
def TopFine (p : ℤ) : Prop :=
  (nlaType mem p = mdbaMdb → ∀ q ∈ inside mem p, EntryFine env mem q) ∧
    (nlaType mem p = mdbaRouter → ∀ q ∈ inside mem p, PortFine env mem q)

theorem WellFormed.topFine {env : Env} {mem : Memory} (h : WellFormed mem)
    (hres : Resolves env mem) : ∀ p ∈ tops mem, TopFine env mem p := fun p hp =>
  ⟨fun hmdb q hq hentry r hr hinfo => ⟨h.records p hp hmdb q hq hentry r hr hinfo,
      hres.records p hp hmdb q hq hentry r hr hinfo⟩,
    fun hrouter q hq hport => ⟨h.ports p hp hrouter q hq hport,
      hres.ports p hp hrouter q hq hport⟩⟩

/-! ## The condition -/

/-- A record with an IPv4 or IPv6 group. -/
def HasGroup (r : ℤ) : Prop :=
  nlaType mem r = mdbaMdbEntryInfo ∧ (groupOf mem (nlaData r)).isSome

/-- An entry with such a record. -/
def EntryCounts (q : ℤ) : Prop :=
  nlaType mem q = mdbaMdbEntry ∧ ∃ r ∈ inside mem q, HasGroup mem r

/-- An attribute of the message with such a record, or with a router port. -/
def TopCounts (p : ℤ) : Prop :=
  (nlaType mem p = mdbaMdb ∧ ∃ q ∈ inside mem p, EntryCounts mem q) ∨
    (nlaType mem p = mdbaRouter ∧ ∃ q ∈ inside mem p, nlaType mem q = mdbaRouterPort)

/-- What lies at `d`, behind the header of an entry without attributes, is in
the message, and is no record of a known interface with a group. -/
def Skipped (len : ℕ) (d : ℤ) : Prop :=
  d + 4 ≤ len ∧
    (nlaType mem d = mdbaMdbEntryInfo →
      d + 8 ≤ len ∧ (env.logs = true → d + 30 ≤ len) ∧
        ∀ name, portName env mem (nlaData d) = .ok name →
          d + 30 ≤ len ∧ groupOf mem (nlaData d) = none)

/-- The function returns at this entry: it has no attributes, and what lies
behind it is taken for a record of an unknown interface. -/
def Ends (q : ℤ) : Prop :=
  nlaType mem q = mdbaMdbEntry ∧ inside mem q = [] ∧
    nlaType mem (nlaData q) = mdbaMdbEntryInfo ∧
    ∀ name, portName env mem (nlaData (nlaData q)) ≠ .ok name

/-- Only the first attribute of an entry may be a record with a group. -/
def EntryOk (len : ℕ) (q : ℤ) : Prop :=
  nlaType mem q = mdbaMdbEntry →
    match inside mem q with
    | [] => Skipped env mem len (nlaData q)
    | _ :: rs => ∀ r ∈ rs, ¬ HasGroup mem r

/-- The entries that the walk can go over. -/
def EntriesOk (len : ℕ) : List ℤ → Prop
  | [] => True
  | q :: qs =>
    EntryOk env mem len q ∧ (Ends env mem q → ∀ q' ∈ qs, ¬ EntryCounts mem q') ∧
      (¬ Ends env mem q → EntriesOk len qs)

/-- The attributes of a message that the walk can go over: nothing that counts
is behind the first `MDBA_MDB` or `MDBA_ROUTER`. -/
def TopsOk (len : ℕ) : List ℤ → Prop
  | [] => True
  | p :: ps =>
    if nlaType mem p = mdbaMdb then
      (∀ p' ∈ ps, ¬ TopCounts mem p') ∧ EntriesOk env mem len (inside mem p)
    else if nlaType mem p = mdbaRouter then ∀ p' ∈ ps, ¬ TopCounts mem p'
    else TopsOk len ps

end Messages

/-! ## The events of a list of attributes -/

section Events

variable {env : Env} {op : Oper} {vlanId : BitVec 16} {mem : Memory}

theorem recordEvents_eq_nil_iff {r : ℤ} (hname : ∃ name, portName env mem (nlaData r) = .ok name) :
    recordEvents env op vlanId mem r = [] ↔ groupOf mem (nlaData r) = none := by
  obtain ⟨name, hname⟩ := hname
  unfold recordEvents
  rw [hname]
  cases groupOf mem (nlaData r) <;> simp

/-- The events of some records of an entry. -/
theorem records_eq_nil_iff (op : Oper) (vlanId : BitVec 16) {rs : List ℤ}
    (hname : ∀ r ∈ rs, nlaType mem r = mdbaMdbEntryInfo →
      ∃ name, portName env mem (nlaData r) = .ok name) :
    (rs.filter (isInfo mem)).flatMap (recordEvents env op vlanId mem) = [] ↔
      ∀ r ∈ rs, ¬ HasGroup mem r := by
  rw [List.flatMap_eq_nil_iff]
  refine forall_congr' fun r => ?_
  rw [List.mem_filter, isInfo, beq_iff_eq, and_imp]
  refine forall_congr' fun hr => ?_
  unfold HasGroup
  rw [not_and]
  refine forall_congr' fun hinfo => ?_
  rw [recordEvents_eq_nil_iff (hname r hr hinfo), Option.not_isSome_iff_eq_none]

theorem entryEvents_eq_nil_iff {q : ℤ} (hfine : EntryFine env mem q) :
    entryEvents env op vlanId mem q = [] ↔ ¬ EntryCounts mem q := by
  unfold entryEvents EntryCounts
  split_ifs with hentry
  · rw [records_eq_nil_iff op vlanId fun r hr hinfo => (hfine hentry r hr hinfo).2]
    simp [hentry]
  · simp [hentry]

theorem entries_eq_nil_iff (op : Oper) (vlanId : BitVec 16) {qs : List ℤ}
    (hfine : ∀ q ∈ qs, EntryFine env mem q) :
    qs.flatMap (entryEvents env op vlanId mem) = [] ↔ ∀ q ∈ qs, ¬ EntryCounts mem q := by
  rw [List.flatMap_eq_nil_iff]
  exact forall₂_congr fun q hq => entryEvents_eq_nil_iff (hfine q hq)

theorem portEvents_eq_nil_iff {q : ℤ} (hfine : PortFine env mem q) :
    portEvents env op vlanId mem q = [] ↔ nlaType mem q ≠ mdbaRouterPort := by
  unfold portEvents
  split_ifs with hport
  · obtain ⟨-, name, hname⟩ := hfine hport
    rw [hname]
    simp [hport]
  · simp [hport]

theorem topEvents_eq_nil_iff {p : ℤ} (hfine : TopFine env mem p) :
    topEvents env op vlanId mem p = [] ↔ ¬ TopCounts mem p := by
  unfold topEvents TopCounts
  have hne : mdbaMdb ≠ mdbaRouter := by decide
  split_ifs with hmdb hrouter
  · rw [entries_eq_nil_iff op vlanId (hfine.1 hmdb)]
    simp [hmdb, hne]
  · have hports : ∀ q ∈ inside mem p, (portEvents env op vlanId mem q = [] ↔
        nlaType mem q ≠ mdbaRouterPort) :=
      fun q hq => portEvents_eq_nil_iff (hfine.2 hrouter q hq)
    rw [List.flatMap_eq_nil_iff, forall₂_congr hports]
    simp [hrouter, hne.symm]
  · simp [hmdb, hrouter]

theorem tops_eq_nil_iff (op : Oper) (vlanId : BitVec 16) {ps : List ℤ}
    (hfine : ∀ p ∈ ps, TopFine env mem p) :
    ps.flatMap (topEvents env op vlanId mem) = [] ↔ ∀ p ∈ ps, ¬ TopCounts mem p := by
  rw [List.flatMap_eq_nil_iff]
  exact forall₂_congr fun p hp => topEvents_eq_nil_iff (hfine p hp)

/-! ## Where the events come from -/

theorem mem_recordEvents {r : ℤ} {x : ℤ × Event} (hx : x ∈ recordEvents env op vlanId mem r) :
    x.1 = r := by
  unfold recordEvents at hx
  split at hx
  · rw [List.mem_singleton] at hx
    rw [hx]
  · cases hx

theorem mem_records {rs : List ℤ} {lo hi : ℤ} (hchain : Chain mem hi lo rs) {x : ℤ × Event}
    (hx : x ∈ (rs.filter (isInfo mem)).flatMap (recordEvents env op vlanId mem)) :
    lo ≤ x.1 ∧ x.1 < hi := by
  obtain ⟨r, hr, hx⟩ := List.mem_flatMap.mp hx
  obtain ⟨hlo, hmin, hin⟩ := hchain.bounds (List.mem_filter.mp hr).1
  rw [mem_recordEvents hx]
  omega

theorem mem_entryEvents {q : ℤ} (hq : 4 ≤ attrLen mem q) {x : ℤ × Event}
    (hx : x ∈ entryEvents env op vlanId mem q) : q + 4 ≤ x.1 ∧ x.1 < q + attrLen mem q := by
  unfold entryEvents at hx
  split_ifs at hx
  · exact mem_records (embedded_chain hq) hx
  · cases hx

theorem mem_entries {qs : List ℤ} {lo hi : ℤ} (hchain : Chain mem hi lo qs) {x : ℤ × Event}
    (hx : x ∈ qs.flatMap (entryEvents env op vlanId mem)) : lo + 4 ≤ x.1 ∧ x.1 < hi := by
  obtain ⟨q, hq, hx⟩ := List.mem_flatMap.mp hx
  obtain ⟨hlo, hmin, hin⟩ := hchain.bounds hq
  have htag := mem_entryEvents hmin hx
  omega

theorem mem_topEvents {p : ℤ} (hp : 4 ≤ attrLen mem p) {x : ℤ × Event}
    (hx : x ∈ topEvents env op vlanId mem p) : p + 4 ≤ x.1 := by
  unfold topEvents at hx
  split_ifs at hx
  · have htag := mem_entries (embedded_chain hp) hx
    omega
  · obtain ⟨q, hq, hx⟩ := List.mem_flatMap.mp hx
    have hlo := ((embedded_chain hp).bounds hq).1
    have htag : x.1 = q := by
      unfold portEvents at hx
      split_ifs at hx
      · split at hx
        · rw [List.mem_pair] at hx
          obtain rfl | rfl := hx <;> rfl
        · cases hx
      · cases hx
    omega
  · cases hx

theorem mem_tops {ps : List ℤ} {lo hi : ℤ} (hchain : Chain mem hi lo ps) {x : ℤ × Event}
    (hx : x ∈ ps.flatMap (topEvents env op vlanId mem)) : lo + 4 ≤ x.1 := by
  obtain ⟨p, hp, hx⟩ := List.mem_flatMap.mp hx
  obtain ⟨hlo, hmin, -⟩ := hchain.bounds hp
  have htag := mem_topEvents hmin hx
  omega

end Events

/-! ## Runs -/

/-- The function returns with these events, and read bytes of the message
only. -/
def Good (len : ℕ) (out : Except St St) (events : List (ℤ × Event)) : Prop :=
  (stOf out).events = events ∧ ∀ b ∈ (stOf out).reads, InMsg len b

/-- A state that comes later: events from `lo` on were added, and nothing is
taken back. -/
structure Grows (lo : ℤ) (s s' : St) : Prop where
  events : ∃ xs, s'.events = s.events ++ xs ∧ ∀ x ∈ xs, lo ≤ x.1
  reads : ∀ b ∈ s.reads, b ∈ s'.reads

theorem Grows.refl (lo : ℤ) (s : St) : Grows lo s s := ⟨⟨[], by simp, by simp⟩, fun _ => id⟩

theorem Grows.trans {lo lo' : ℤ} {s s' s'' : St} (h : Grows lo s s') (h' : Grows lo' s' s'')
    (hlo : lo ≤ lo') : Grows lo s s'' := by
  obtain ⟨⟨xs, hxs, htags⟩, hreads⟩ := h
  obtain ⟨⟨ys, hys, htags'⟩, hreads'⟩ := h'
  refine ⟨⟨xs ++ ys, by rw [hys, hxs, List.append_assoc], fun x hx => ?_⟩,
    fun b hb => hreads' b (hreads b hb)⟩
  obtain hx | hx := List.mem_append.mp hx
  · exact htags x hx
  · have hge := htags' x hx
    omega

@[simp] theorem St.read_events (s : St) (bs : List ℤ) : (s.read bs).events = s.events := rfl

@[simp] theorem St.read_reads (s : St) (bs : List ℤ) : (s.read bs).reads = s.reads ++ bs := rfl

@[simp] theorem St.publish_events (s : St) (p : ℤ) (e : Event) :
    (s.publish p e).events = s.events ++ [(p, e)] := rfl

@[simp] theorem St.publish_reads (s : St) (p : ℤ) (e : Event) :
    (s.publish p e).reads = s.reads := rfl

theorem St.read_grows (lo : ℤ) (s : St) (bs : List ℤ) : Grows lo s (s.read bs) :=
  ⟨⟨[], by simp, by simp⟩, fun b hb => List.mem_append_left bs hb⟩

theorem St.publish_grows {lo p : ℤ} (h : lo ≤ p) (s : St) (e : Event) :
    Grows lo s (s.publish p e) :=
  ⟨⟨[(p, e)], rfl, by simpa using h⟩, fun _ => id⟩

/-- The function goes on with `s'` and returns with `out`.  `A` are the events
that the step has added, and `R` those that it should have added too. -/
theorem good_continue {len : ℕ} {out : Except St St} {s s' : St} {A R T : List (ℤ × Event)}
    {lo : ℤ} {C P : Prop} (hA : s'.events = s.events ++ A) (hgrow : Grows lo s' (stOf out))
    (hR : ∀ x ∈ R, x.1 < lo) (hC : (∀ b ∈ s'.reads, InMsg len b) ↔ C)
    (ih : (∀ b ∈ s'.reads, InMsg len b) → (Good len out (s'.events ++ T) ↔ P)) :
    Good len out (s.events ++ (A ++ (R ++ T))) ↔ R = [] ∧ C ∧ P := by
  constructor
  · intro hgood
    have hreads : ∀ b ∈ s'.reads, InMsg len b := fun b hb => hgood.2 b (hgrow.reads b hb)
    obtain ⟨xs, hxs, htags⟩ := hgrow.events
    have heq : xs = R ++ T := by
      have hevents := hgood.1
      rw [hxs, hA, List.append_assoc] at hevents
      exact List.append_cancel_left (List.append_cancel_left hevents)
    -- What is missing comes from before the step.
    have hnil : R = [] := by
      cases R with
      | nil => rfl
      | cons x R =>
        have hge := htags x (by rw [heq]; simp)
        have hlt := hR x List.mem_cons_self
        omega
    refine ⟨hnil, hC.mp hreads, (ih hreads).mp ?_⟩
    rw [hA, List.append_assoc]
    rw [hnil, List.nil_append] at hgood
    exact hgood
  · rintro ⟨rfl, hcond, hrest⟩
    have hgood := (ih (hC.mpr hcond)).mpr hrest
    rw [hA, List.append_assoc] at hgood
    rw [List.nil_append]
    exact hgood

theorem span_inMsg_iff {p : ℤ} {n len : ℕ} (hp : 0 ≤ p) (hn : 0 < n) :
    (∀ b ∈ span p n, InMsg len b) ↔ p + n ≤ len := by
  by_cases hlen : p ≤ len
  · exact span_inMsg hp hlen
  · refine iff_of_false (fun h => ?_) (by omega)
    have hfirst := (h p (mem_span.mpr (by omega))).2
    omega

theorem read_inMsg_iff {len : ℕ} {s : St} {bs : List ℤ} :
    (∀ b ∈ (s.read bs).reads, InMsg len b) ↔
      (∀ b ∈ s.reads, InMsg len b) ∧ ∀ b ∈ bs, InMsg len b := by
  rw [St.read_reads, List.forall_mem_append]

section Entries

variable {env : Env} {op : Oper} {vlanId : BitVec 16} {mem : Memory}

/-! ## The walk over the entries -/

/-- The bytes of a record that the function reads. -/
def recordReads (env : Env) (mem : Memory) (d : ℤ) : List ℤ :=
  span (nlaData d) 4 ++ (if env.logs then span (nlaData d + 24) 2 else []) ++
    groupReads mem (nlaData d)

/-- A record of a known interface. -/
theorem readRecord_ok (op : Oper) (vlanId : BitVec 16) {d : ℤ} (s : St) {name : Str}
    (hname : portName env mem (nlaData d) = .ok name) :
    ∃ s', readRecord env op vlanId mem s d = .ok s' ∧
      s'.events = s.events ++ recordEvents env op vlanId mem d ∧
      s'.reads = s.reads ++ recordReads env mem d := by
  have hget : getIfname env.halIfNameSz env.osName (load32 mem (nlaData d)) = .ok name := hname
  unfold readRecord recordEvents recordReads
  rw [hname]
  dsimp only
  rw [hget]
  dsimp only
  cases groupOf mem (nlaData d) with
  | none => exact ⟨_, rfl, by simp, by simp⟩
  | some group => exact ⟨_, rfl, by simp, by simp⟩

/-- A record of an unknown interface. -/
theorem readRecord_error {d : ℤ} (s : St)
    (hname : ∀ name, portName env mem (nlaData d) ≠ .ok name) :
    readRecord env op vlanId mem s d = .error (s.read
      (span (nlaData d) 4 ++ if env.logs then span (nlaData d + 24) 2 else [])) := by
  unfold readRecord
  dsimp only
  cases hget : getIfname env.halIfNameSz env.osName (load32 mem (nlaData d)) with
  | error _ => rfl
  | ok name => exact absurd hget (hname name)

theorem readRecord_grows (s : St) (d : ℤ) :
    Grows d s (stOf (readRecord env op vlanId mem s d)) := by
  unfold readRecord
  dsimp only
  split
  · exact s.read_grows d _
  · split
    · exact (s.read_grows d _).trans (St.read_grows d _ _) le_rfl
    · exact ((s.read_grows d _).trans (St.read_grows d _ _) le_rfl).trans
        (St.publish_grows le_rfl _ _) le_rfl

theorem readEntry_grows (env : Env) (op : Oper) (vlanId : BitVec 16) (s : St) (q : ℤ) :
    Grows (q + 4) s (stOf (readEntry env op vlanId mem s q)) := by
  unfold readEntry
  dsimp only
  split_ifs
  · exact ((s.read_grows _ _).trans (St.read_grows (q + 4) _ _) le_rfl).trans
      (readRecord_grows _ (nlaData q)) le_rfl
  · exact (s.read_grows _ _).trans (St.read_grows (q + 4) _ _) le_rfl
  · exact s.read_grows _ _

/-- The walk over the entries. -/
def readEntries (env : Env) (op : Oper) (vlanId : BitVec 16) (mem : Memory) (qs : List ℤ)
    (s : St) : Except St St :=
  qs.foldlM (fun s q => readEntry env op vlanId mem (s.read (span q 2)) q) s

theorem readEntries_cons (q : ℤ) (qs : List ℤ) (s : St) :
    readEntries env op vlanId mem (q :: qs) s =
      readEntry env op vlanId mem (s.read (span q 2)) q >>=
        readEntries env op vlanId mem qs := rfl

theorem readEntries_grows (env : Env) (op : Oper) (vlanId : BitVec 16) {qs : List ℤ}
    {lo hi : ℤ} (hchain : Chain mem hi lo qs) (s : St) :
    Grows (lo + 4) s (stOf (readEntries env op vlanId mem qs s)) := by
  induction qs generalizing lo s with
  | nil => exact Grows.refl _ _
  | cons q qs ih =>
    obtain ⟨rfl, hmin, -, hrest⟩ := hchain
    have hentry : Grows (q + 4) (s.read (span q 2))
        (stOf (readEntry env op vlanId mem (s.read (span q 2)) q)) :=
      readEntry_grows env op vlanId _ q
    have hstep := (s.read_grows (q + 4) (span q 2)).trans hentry le_rfl
    rw [readEntries_cons]
    cases hout : readEntry env op vlanId mem (s.read (span q 2)) q with
    | error s' =>
      rw [hout] at hstep
      exact hstep
    | ok s' =>
      rw [hout] at hstep
      exact hstep.trans (ih hrest s') (by omega)

/-! ## Which entries the walk can go over -/

theorem readEntry_other {s : St} {q : ℤ} (h : nlaType mem q ≠ mdbaMdbEntry) :
    readEntry env op vlanId mem s q = .ok (s.read (span (q + 2) 2)) := by
  unfold readEntry
  rw [if_neg h]

/-- The state before the attribute in an entry is looked at. -/
def entryRead (s : St) (q : ℤ) : St :=
  ((s.read (span q 2)).read (span (q + 2) 2)).read (span (nlaData q + 2) 2)

theorem readEntry_entry {s : St} {q : ℤ} (h : nlaType mem q = mdbaMdbEntry) :
    readEntry env op vlanId mem (s.read (span q 2)) q =
      if nlaType mem (nlaData q) = mdbaMdbEntryInfo then
        readRecord env op vlanId mem (entryRead s q) (nlaData q)
      else .ok (entryRead s q) := by
  unfold readEntry
  rw [if_pos h]
  rfl

theorem entryRead_inMsg_iff {len : ℕ} {s : St} {q : ℤ} (hs : ∀ b ∈ s.reads, InMsg len b)
    (hq : 0 ≤ q) :
    (∀ b ∈ (entryRead s q).reads, InMsg len b) ↔ nlaData q + 4 ≤ len := by
  unfold entryRead nlaData
  rw [read_inMsg_iff, read_inMsg_iff, read_inMsg_iff, span_inMsg_iff hq (by decide),
    span_inMsg_iff (by omega) (by decide), span_inMsg_iff (by omega) (by decide),
    and_iff_right hs]
  omega

theorem addrLen_le (af : Af) : af.length ≤ 16 := by
  cases af <;> decide

/-- The whole of a record is read, and no more. -/
theorem recordReads_inMsg {len : ℕ} {d : ℤ} (hd : 0 ≤ d) (hin : d + 32 ≤ len) :
    ∀ b ∈ recordReads env mem d, InMsg len b := by
  have hfield {k : ℤ} {n : ℕ} (hk : 0 ≤ k) (hn : k + n ≤ 28) :
      ∀ b ∈ span (nlaData d + k) n, InMsg len b := by
    unfold nlaData
    rw [span_inMsg (by omega) (by omega)]
    omega
  have hindex : ∀ b ∈ span (nlaData d) 4, InMsg len b := by
    have h := hfield (k := 0) (n := 4) le_rfl (by decide)
    rwa [add_zero] at h
  have hproto : ∀ b ∈ span (nlaData d + 24) 2, InMsg len b := hfield (by decide) (by decide)
  unfold recordReads groupReads
  simp only [List.forall_mem_append]
  refine ⟨⟨hindex, ?_⟩, hproto, ?_⟩
  · split_ifs
    · exact hproto
    · simp
  · cases hgroup : groupOf mem (nlaData d) with
    | none => simp
    | some group =>
      have hlen := addrLen_le group.1
      exact hfield (by decide) (by omega)

/-- What is read of a record without a group. -/
theorem recordReads_inMsg_iff {len : ℕ} {d : ℤ} (hd : 0 ≤ d)
    (hgroup : groupOf mem (nlaData d) = none) :
    (∀ b ∈ recordReads env mem d, InMsg len b) ↔ d + 30 ≤ len := by
  unfold recordReads groupReads
  rw [hgroup]
  simp only [List.forall_mem_append, Option.elim_none, List.not_mem_nil, IsEmpty.forall_iff,
    implies_true, and_true]
  unfold nlaData
  rw [span_inMsg_iff (by omega) (by decide), span_inMsg_iff (by omega) (by decide)]
  constructor
  · omega
  · intro h
    refine ⟨⟨by omega, ?_⟩, by omega⟩
    split_ifs
    · rw [span_inMsg_iff (by omega) (by decide)]
      omega
    · simp

theorem unknownReads_inMsg_iff {len : ℕ} {d : ℤ} (hd : 0 ≤ d) :
    (∀ b ∈ span (nlaData d) 4 ++ (if env.logs then span (nlaData d + 24) 2 else []),
        InMsg len b) ↔ d + 8 ≤ len ∧ (env.logs = true → d + 30 ≤ len) := by
  unfold nlaData
  rw [List.forall_mem_append, span_inMsg_iff (by omega) (by decide)]
  cases env.logs with
  | false => simp; omega
  | true =>
    rw [if_pos rfl, span_inMsg_iff (by omega) (by decide)]
    simp
    omega

theorem entriesOk_cons {len : ℕ} {q : ℤ} {qs : List ℤ} (h : ¬ Ends env mem q) :
    EntriesOk env mem len (q :: qs) ↔ EntryOk env mem len q ∧ EntriesOk env mem len qs := by
  rw [EntriesOk]
  simp [h]

/-- An entry with attributes. -/
theorem entry_cons_iff {len : ℕ} {q d : ℤ} {rs : List ℤ} (hentry : nlaType mem q = mdbaMdbEntry)
    (hinside : inside mem q = d :: rs) :
    EntryOk env mem len q ↔ ∀ r ∈ rs, ¬ HasGroup mem r := by
  unfold EntryOk
  rw [hinside]
  simp [hentry]

/-- An entry without attributes. -/
theorem entry_nil_iff {len : ℕ} {q : ℤ} (hentry : nlaType mem q = mdbaMdbEntry)
    (hinside : inside mem q = []) :
    EntryOk env mem len q ↔ Skipped env mem len (nlaData q) := by
  unfold EntryOk
  rw [hinside]
  simp [hentry]

section Walk

variable {len : ℕ} {q lo hi : ℤ} {qs : List ℤ} {s : St} {rest : List (ℤ × Event)}

/-- The walk goes over the entries behind `q`. -/
def Rest (env : Env) (op : Oper) (vlanId : BitVec 16) (mem : Memory) (len : ℕ) (qs : List ℤ)
    (rest : List (ℤ × Event)) : Prop :=
  ∀ s, (∀ b ∈ s.reads, InMsg len b) →
    (Good len (readEntries env op vlanId mem qs s)
        (s.events ++ (qs.flatMap (entryEvents env op vlanId mem) ++ rest)) ↔
      rest = [] ∧ EntriesOk env mem len qs)

theorem walk_other (hentry : nlaType mem q ≠ mdbaMdbEntry) (hq : 0 ≤ q) (hin : q + 4 ≤ len)
    (hs : ∀ b ∈ s.reads, InMsg len b)
    (ih : Rest env op vlanId mem len qs rest) :
    Good len (readEntries env op vlanId mem (q :: qs) s)
        (s.events ++ ((q :: qs).flatMap (entryEvents env op vlanId mem) ++ rest)) ↔
      rest = [] ∧ EntriesOk env mem len (q :: qs) := by
  have hends : ¬ Ends env mem q := fun h => hentry h.1
  have hok : EntryOk env mem len q := fun h => absurd h hentry
  have hevents : entryEvents env op vlanId mem q = [] := if_neg hentry
  have hreads : ∀ b ∈ ((s.read (span q 2)).read (span (q + 2) 2)).reads, InMsg len b := by
    rw [read_inMsg_iff, read_inMsg_iff, span_inMsg_iff hq (by decide),
      span_inMsg_iff (by omega) (by decide)]
    exact ⟨⟨hs, by omega⟩, by omega⟩
  rw [readEntries_cons, readEntry_other hentry, entriesOk_cons hends, and_iff_right hok,
    List.flatMap_cons, hevents, List.nil_append]
  exact ih _ hreads

/-- An entry whose first attribute is looked at. -/
theorem walk_entry {d : ℤ} {rs : List ℤ} (hentry : nlaType mem q = mdbaMdbEntry)
    (hinside : inside mem q = d :: rs) (hq : 0 ≤ q) (hmin : 4 ≤ attrLen mem q)
    (hin : q + attrLen mem q ≤ len) (hfine : EntryFine env mem q)
    (hs : ∀ b ∈ s.reads, InMsg len b)
    (hchain : Chain mem hi (q + padded (attrLen mem q)) qs)
    (ih : Rest env op vlanId mem len qs rest) :
    Good len (readEntries env op vlanId mem (q :: qs) s)
        (s.events ++ ((q :: qs).flatMap (entryEvents env op vlanId mem) ++ rest)) ↔
      rest = [] ∧ EntriesOk env mem len (q :: qs) := by
  have hpad := le_padded (attrLen mem q)
  have hends : ¬ Ends env mem q := fun h => by
    have hnil := h.2.1
    rw [hinside] at hnil
    cases hnil
  have hinner := embedded_chain hmin
  change Chain mem (q + attrLen mem q) (q + 4) (inside mem q) at hinner
  rw [hinside] at hinner
  obtain ⟨hd, hdmin, hdin, hrs⟩ := hinner
  have hdata : nlaData q = d := hd.symm
  have hfineRs : ∀ r ∈ rs, nlaType mem r = mdbaMdbEntryInfo →
      ∃ name, portName env mem (nlaData r) = .ok name := fun r hr hinfo =>
    (hfine hentry r (by rw [hinside]; exact List.mem_cons_of_mem d hr) hinfo).2
  have htags : ∀ x ∈ (rs.filter (isInfo mem)).flatMap (recordEvents env op vlanId mem),
      x.1 < q + padded (attrLen mem q) + 4 := fun x hx => by
    have hlt := (mem_records hrs hx).2
    omega
  have hread := (entryRead_inMsg_iff hs hq).mpr (show nlaData q + 4 ≤ len by omega)
  rw [readEntries_cons, readEntry_entry hentry, entriesOk_cons hends,
    entry_cons_iff hentry hinside, ← records_eq_nil_iff op vlanId hfineRs,
    List.flatMap_cons, hdata]
  by_cases hinfo : nlaType mem d = mdbaMdbEntryInfo
  · obtain ⟨hsize, name, hname⟩ := hfine hentry d (by rw [hinside]; exact List.mem_cons_self) hinfo
    obtain ⟨s', hs', hevents, hreads⟩ := readRecord_ok op vlanId
      (entryRead s q) hname
    have hall : ∀ b ∈ s'.reads, InMsg len b := by
      rw [hreads, List.forall_mem_append]
      exact ⟨hread, recordReads_inMsg (by omega) (by omega)⟩
    have hsplit : entryEvents env op vlanId mem q = recordEvents env op vlanId mem d ++
        (rs.filter (isInfo mem)).flatMap (recordEvents env op vlanId mem) := by
      have hfirst : isInfo mem d = true := beq_iff_eq.mpr hinfo
      unfold entryEvents
      rw [if_pos hentry, hinside, List.filter_cons_of_pos hfirst, List.flatMap_cons]
    rw [if_pos hinfo, hs', hsplit]
    simp only [List.append_assoc]
    have hgood := good_continue (C := True) (P := rest = [] ∧ EntriesOk env mem len qs)
      (T := qs.flatMap (entryEvents env op vlanId mem) ++ rest) (s := s) hevents
      (readEntries_grows env op vlanId hchain s') htags (iff_true_intro hall) fun _ => ih s' hall
    refine hgood.trans ?_
    tauto
  · have hsplit : entryEvents env op vlanId mem q =
        (rs.filter (isInfo mem)).flatMap (recordEvents env op vlanId mem) := by
      have hfirst : ¬ isInfo mem d = true := fun h => hinfo (beq_iff_eq.mp h)
      unfold entryEvents
      rw [if_pos hentry, hinside, List.filter_cons_of_neg hfirst]
    rw [if_neg hinfo, hsplit]
    simp only [List.append_assoc]
    have hgood := good_continue (C := True) (P := rest = [] ∧ EntriesOk env mem len qs)
      (T := qs.flatMap (entryEvents env op vlanId mem) ++ rest) (s := s)
      (A := []) (show (entryRead s q).events = s.events ++ [] by simp [entryRead])
      (readEntries_grows env op vlanId hchain _) htags (iff_true_intro hread) fun _ => ih _ hread
    rw [List.nil_append] at hgood
    refine hgood.trans ?_
    tauto

/-- A record that is read behind an entry, and has no group. -/
theorem walk_bogus {name : Str} (hq : 0 ≤ q)
    (hinfo : nlaType mem (nlaData q) = mdbaMdbEntryInfo)
    (hname : portName env mem (nlaData (nlaData q)) = .ok name)
    (hgroup : groupOf mem (nlaData (nlaData q)) = none) (hs : ∀ b ∈ s.reads, InMsg len b)
    (hchain : Chain mem hi lo qs) (ih : Rest env op vlanId mem len qs rest) :
    Good len (readRecord env op vlanId mem (entryRead s q) (nlaData q) >>=
          readEntries env op vlanId mem qs)
        (s.events ++ (qs.flatMap (entryEvents env op vlanId mem) ++ rest)) ↔
      Skipped env mem len (nlaData q) ∧ rest = [] ∧ EntriesOk env mem len qs := by
  have hd : 0 ≤ nlaData q := by
    unfold nlaData
    omega
  obtain ⟨s', hs', hs'events, hs'reads⟩ := readRecord_ok op vlanId
    (entryRead s q) hname
  have hnone : recordEvents env op vlanId mem (nlaData q) = [] :=
    (recordEvents_eq_nil_iff ⟨name, hname⟩).mpr hgroup
  have hcond : (∀ b ∈ s'.reads, InMsg len b) ↔ Skipped env mem len (nlaData q) := by
    rw [hs'reads, List.forall_mem_append, entryRead_inMsg_iff hs hq,
      recordReads_inMsg_iff hd hgroup]
    unfold Skipped
    constructor
    · rintro ⟨htype, hrecord⟩
      exact ⟨htype, fun _ => ⟨by omega, fun _ => hrecord, fun _ _ => ⟨hrecord, hgroup⟩⟩⟩
    · rintro ⟨htype, hrecord⟩
      exact ⟨htype, ((hrecord hinfo).2.2 name hname).1⟩
  have hgood := good_continue (R := []) (s := s) (P := rest = [] ∧ EntriesOk env mem len qs)
    (T := qs.flatMap (entryEvents env op vlanId mem) ++ rest) hs'events
    (readEntries_grows env op vlanId hchain s') (by simp) hcond (ih s')
  rw [hnone, List.nil_append, List.nil_append] at hgood
  rw [hs']
  refine hgood.trans ?_
  rw [and_iff_right rfl]

/-- A record that is read behind an entry, with a group: no record of the
message asks for its event. -/
theorem walk_extra {name : Str} {group : Af × Bytes} (hin : q + 4 ≤ hi) (hpad : q + 4 ≤ lo)
    (hname : portName env mem (nlaData (nlaData q)) = .ok name)
    (hgroup : groupOf mem (nlaData (nlaData q)) = some group)
    (hchain : Chain mem hi lo qs) (hrest : ∀ x ∈ rest, hi + 4 ≤ x.1) :
    ¬ Good len (readRecord env op vlanId mem (entryRead s q) (nlaData q) >>=
          readEntries env op vlanId mem qs)
        (s.events ++ (qs.flatMap (entryEvents env op vlanId mem) ++ rest)) := by
  intro hgood
  obtain ⟨s', hs', hs'events, -⟩ := readRecord_ok op vlanId
    (entryRead s q) hname
  obtain ⟨⟨xs, hxs, -⟩, -⟩ := readEntries_grows env op vlanId
    hchain s'
  rw [hs'] at hgood
  have hall := hgood.1
  replace hall : (stOf (readEntries env op vlanId mem qs s')).events = _ := hall
  rw [hxs, hs'events, List.append_assoc] at hall
  replace hall : _ = qs.flatMap (entryEvents env op vlanId mem) ++ rest :=
    List.append_cancel_left hall
  have hfirst : recordEvents env op vlanId mem (nlaData q) =
      [(nlaData q, .group op vlanId group.1 name (env.ntop group.1 group.2))] := by
    unfold recordEvents
    rw [hname, hgroup]
  rw [hfirst, List.singleton_append] at hall
  have hmem : (nlaData q, Event.group op vlanId group.1 name (env.ntop group.1 group.2)) ∈
      qs.flatMap (entryEvents env op vlanId mem) ++ rest := by
    rw [← hall]
    exact List.mem_cons_self
  unfold nlaData at hmem
  obtain hmem | hmem := List.mem_append.mp hmem
  · have htag := (mem_entries hchain hmem).1
    dsimp only at htag
    omega
  · have htag := hrest _ hmem
    dsimp only at htag
    omega

/-- A record that is read behind an entry, of an unknown interface: the
function returns. -/
theorem walk_unknown (hq : 0 ≤ q) (hinfo : nlaType mem (nlaData q) = mdbaMdbEntryInfo)
    (hname : ∀ name, portName env mem (nlaData (nlaData q)) ≠ .ok name)
    (hfine : ∀ q' ∈ qs, EntryFine env mem q') (hs : ∀ b ∈ s.reads, InMsg len b) :
    Good len (readRecord env op vlanId mem (entryRead s q) (nlaData q) >>=
          readEntries env op vlanId mem qs)
        (s.events ++ (qs.flatMap (entryEvents env op vlanId mem) ++ rest)) ↔
      rest = [] ∧ Skipped env mem len (nlaData q) ∧ ∀ q' ∈ qs, ¬ EntryCounts mem q' := by
  have hd : 0 ≤ nlaData q := by
    unfold nlaData
    omega
  rw [readRecord_error _ hname, ← entries_eq_nil_iff op vlanId hfine]
  show (s.events = _ ∧ ∀ b ∈ ((entryRead s q).read _).reads, InMsg len b) ↔ _
  rw [List.self_eq_append_right, List.append_eq_nil_iff, read_inMsg_iff,
    entryRead_inMsg_iff hs hq, unknownReads_inMsg_iff hd]
  unfold Skipped
  constructor
  · rintro ⟨⟨hqs, hnil⟩, htype, hindex, hlog⟩
    exact ⟨hnil, ⟨htype, fun _ => ⟨hindex, hlog, fun name h => absurd h (hname name)⟩⟩, hqs⟩
  · rintro ⟨hnil, ⟨htype, hrecord⟩, hqs⟩
    exact ⟨⟨hqs, hnil⟩, htype, (hrecord hinfo).1, (hrecord hinfo).2.1⟩

/-- An entry without attributes.  What lies behind it is looked at. -/
theorem walk_empty (hentry : nlaType mem q = mdbaMdbEntry) (hinside : inside mem q = [])
    (hq : 0 ≤ q) (hin : q + 4 ≤ hi) (hpad : q + 4 ≤ lo)
    (hfine : ∀ q' ∈ qs, EntryFine env mem q') (hs : ∀ b ∈ s.reads, InMsg len b)
    (hchain : Chain mem hi lo qs) (hrest : ∀ x ∈ rest, hi + 4 ≤ x.1)
    (ih : Rest env op vlanId mem len qs rest) :
    Good len (readEntries env op vlanId mem (q :: qs) s)
        (s.events ++ ((q :: qs).flatMap (entryEvents env op vlanId mem) ++ rest)) ↔
      rest = [] ∧ EntriesOk env mem len (q :: qs) := by
  have hevents : entryEvents env op vlanId mem q = [] := by
    unfold entryEvents
    rw [if_pos hentry, hinside]
    rfl
  rw [readEntries_cons, readEntry_entry hentry, List.flatMap_cons, hevents, List.nil_append]
  by_cases hinfo : nlaType mem (nlaData q) = mdbaMdbEntryInfo
  · rw [if_pos hinfo]
    by_cases hname : ∃ name, portName env mem (nlaData (nlaData q)) = .ok name
    · obtain ⟨name, hname⟩ := hname
      have hends : ¬ Ends env mem q := fun h => h.2.2.2 name hname
      rw [entriesOk_cons hends, entry_nil_iff hentry hinside]
      cases hgroup : groupOf mem (nlaData (nlaData q)) with
      | none =>
        refine (walk_bogus hq hinfo hname hgroup hs hchain ih).trans ?_
        tauto
      | some group =>
        refine iff_of_false (walk_extra hin hpad hname hgroup hchain hrest) fun hok => ?_
        have hnone := ((hok.2.1.2 hinfo).2.2 name hname).2
        rw [hgroup] at hnone
        cases hnone
    · rw [not_exists] at hname
      have hends : Ends env mem q := ⟨hentry, hinside, hinfo, hname⟩
      rw [EntriesOk, entry_nil_iff hentry hinside]
      refine (walk_unknown hq hinfo hname hfine hs).trans ?_
      tauto
  · have hends : ¬ Ends env mem q := fun h => hinfo h.2.2.1
    have hcond : (∀ b ∈ (entryRead s q).reads, InMsg len b) ↔
        Skipped env mem len (nlaData q) := by
      rw [entryRead_inMsg_iff hs hq]
      exact ⟨fun h => ⟨h, fun h' => absurd h' hinfo⟩, fun h => h.1⟩
    rw [if_neg hinfo, entriesOk_cons hends, entry_nil_iff hentry hinside]
    have hgood := good_continue (R := []) (A := []) (s := s)
      (P := rest = [] ∧ EntriesOk env mem len qs)
      (T := qs.flatMap (entryEvents env op vlanId mem) ++ rest)
      (show (entryRead s q).events = s.events ++ [] by simp [entryRead])
      (readEntries_grows env op vlanId hchain _) (by simp) hcond (ih _)
    rw [List.nil_append, List.nil_append] at hgood
    refine hgood.trans ?_
    tauto

end Walk

/-- The walk over the entries publishes what it has to, and nothing is left for
later, exactly when it can go over them. -/
theorem entries_iff {len : ℕ} {lo hi : ℤ} {qs : List ℤ} {rest : List (ℤ × Event)}
    (hchain : Chain mem hi lo qs) (hlo : 0 ≤ lo) (hhi : hi ≤ len)
    (hfine : ∀ q ∈ qs, EntryFine env mem q) (hrest : ∀ x ∈ rest, hi + 4 ≤ x.1) :
    Rest env op vlanId mem len qs rest := by
  induction qs generalizing lo with
  | nil =>
    intro s hs
    show (s.events = _ ∧ _) ↔ _ ∧ True
    rw [List.flatMap_nil, List.nil_append, List.self_eq_append_right, and_true,
      and_iff_left_iff_imp]
    exact fun _ => hs
  | cons q qs ih =>
    intro s hs
    obtain ⟨rfl, hmin, hin, hchain⟩ := hchain
    have hpad := le_padded (attrLen mem q)
    have hqs : ∀ q' ∈ qs, EntryFine env mem q' :=
      fun q' hq' => hfine q' (List.mem_cons_of_mem q hq')
    have hbehind := ih hchain (by omega) hqs
    by_cases hentry : nlaType mem q = mdbaMdbEntry
    · cases hinside : inside mem q with
      | nil =>
        exact walk_empty hentry hinside hlo (by omega) (by omega) hqs hs hchain hrest hbehind
      | cons d rs =>
        exact walk_entry hentry hinside hlo hmin (by omega) (hfine q List.mem_cons_self) hs
          hchain hbehind
    · exact walk_other hentry hlo (by omega) hs hbehind

/-! ## The walk over the router ports -/

/-- The walk over the router ports. -/
def readPorts (env : Env) (op : Oper) (vlanId : BitVec 16) (mem : Memory) (qs : List ℤ)
    (s : St) : Except St St :=
  qs.foldlM (fun s q => readPort env op vlanId mem (s.read (span q 2)) q) s

theorem readPort_ok (op : Oper) (vlanId : BitVec 16) {len : ℕ} {q : ℤ} {s : St}
    (hfine : PortFine env mem q) (hq : 0 ≤ q) (hmin : 4 ≤ attrLen mem q)
    (hin : q + attrLen mem q ≤ len) (hs : ∀ b ∈ s.reads, InMsg len b) :
    ∃ s', readPort env op vlanId mem s q = .ok s' ∧
      s'.events = s.events ++ portEvents env op vlanId mem q ∧ ∀ b ∈ s'.reads, InMsg len b := by
  have htype : ∀ b ∈ (s.read (span (q + 2) 2)).reads, InMsg len b := by
    rw [read_inMsg_iff, span_inMsg_iff (by omega) (by decide)]
    exact ⟨hs, by omega⟩
  unfold readPort portEvents
  dsimp only
  split_ifs with hport
  · obtain ⟨hsize, name, hname⟩ := hfine hport
    have hget : getIfname env.halIfNameSz env.osName (load32 mem (nlaData q)) = .ok name := hname
    rw [hget, hname]
    refine ⟨_, rfl, by simp, ?_⟩
    show ∀ b ∈ ((s.read (span (q + 2) 2)).read (span (nlaData q) 4)).reads, InMsg len b
    unfold nlaData
    rw [read_inMsg_iff, span_inMsg_iff (by omega) (by decide)]
    exact ⟨htype, by omega⟩
  · exact ⟨_, rfl, by simp, htype⟩

theorem readPorts_ok (op : Oper) (vlanId : BitVec 16) {len : ℕ} {lo hi : ℤ} {qs : List ℤ}
    (hchain : Chain mem hi lo qs) (hlo : 0 ≤ lo) (hhi : hi ≤ len)
    (hfine : ∀ q ∈ qs, PortFine env mem q) {s : St}
    (hs : ∀ b ∈ s.reads, InMsg len b) :
    ∃ s', readPorts env op vlanId mem qs s = .ok s' ∧
      s'.events = s.events ++ qs.flatMap (portEvents env op vlanId mem) ∧
      ∀ b ∈ s'.reads, InMsg len b := by
  induction qs generalizing lo s with
  | nil => exact ⟨s, rfl, by simp, hs⟩
  | cons q qs ih =>
    obtain ⟨rfl, hmin, hin, hchain⟩ := hchain
    have hread : ∀ b ∈ (s.read (span q 2)).reads, InMsg len b := by
      rw [read_inMsg_iff, span_inMsg_iff hlo (by decide)]
      exact ⟨hs, by omega⟩
    obtain ⟨s₁, hs₁, hevents₁, hreads₁⟩ := readPort_ok op vlanId
      (hfine q List.mem_cons_self) hlo hmin (by omega) hread
    obtain ⟨s₂, hs₂, hevents₂, hreads₂⟩ := ih hchain (by omega)
      (fun q' hq' => hfine q' (List.mem_cons_of_mem q hq')) hreads₁
    refine ⟨s₂, ?_, ?_, hreads₂⟩
    · show readPort env op vlanId mem (s.read (span q 2)) q >>=
        readPorts env op vlanId mem qs = .ok s₂
      rw [hs₁]
      exact hs₂
    · rw [hevents₂, hevents₁, List.flatMap_cons, List.append_assoc]
      rfl

/-! ## The walk over the attributes of the message -/

/-- A count below the size of a header ends the walk. -/
theorem topLoop_end (turns : ℕ) {c : Cursor} (s : St) (h : c.rem.toInt < 4) :
    topLoop env op vlanId mem turns c s = .ok s := by
  have hend : nlaOk mem c = false := Bool.eq_false_iff.mpr fun hok => by
    have hin := nlaOk_attrLen.mp hok
    omega
  cases turns with
  | zero => rfl
  | succ turns =>
    have hreads : nlaOkReads c = [] := if_neg (by unfold nlaHdrLen; omega)
    rw [topLoop, hend, hreads]
    simp [St.read]

/-- The walk ends behind an attribute with a walk inside. -/
theorem topLoop_nested {turns : ℕ} {c : Cursor} {s : St} {out : Except St St} {bs : List ℤ}
    {rem : BitVec 32} (hok : nlaOk mem c = true)
    (hout : readTop env op vlanId mem (s.read (nlaOkReads c)) c =
      out.map fun s => (s.read bs, rem))
    (hrem : -3 ≤ rem.toInt) (hlast : rem.toInt ≤ attrLen mem c.pos - 4) :
    topLoop env op vlanId mem (turns + 1) c s =
      out.map fun s => s.read (bs ++ span c.pos 2) := by
  have hpad := le_padded (attrLen mem c.pos)
  have hnext := (nlaNext_eq mem (c := ⟨c.pos, rem⟩) (by show -65536 ≤ rem.toInt; omega)).2
  replace hnext : _ = rem.toInt - padded (attrLen mem c.pos) := hnext
  rw [topLoop, hok, if_pos rfl, hout]
  cases out with
  | error s' => rfl
  | ok s' =>
    show topLoop env op vlanId mem turns (nlaNext mem ⟨c.pos, rem⟩)
      ((s'.read bs).read (span c.pos 2)) = .ok (s'.read (bs ++ span c.pos 2))
    rw [topLoop_end turns _ (by omega)]
    simp [St.read]

theorem good_read_iff {len : ℕ} {out : Except St St} {bs : List ℤ} {events : List (ℤ × Event)}
    (hbs : ∀ b ∈ bs, InMsg len b) :
    Good len (out.map fun s => s.read bs) events ↔ Good len out events := by
  cases out with
  | error s => rfl
  | ok s =>
    show (_ ∧ ∀ b ∈ (s.read bs).reads, InMsg len b) ↔ _
    rw [read_inMsg_iff, and_iff_left hbs]
    rfl

/-- What the walk inside an attribute reads in the end, and the count it
leaves. -/
theorem walkEnd_embedded {len : ℕ} {p : ℤ} (hp : 0 ≤ p) (hmin : 4 ≤ attrLen mem p)
    (hin : p + attrLen mem p ≤ len) :
    (∀ b ∈ nlaOkReads (walkEnd mem (embedded mem p)) ++ span p 2, InMsg len b) ∧
      -3 ≤ (walkEnd mem (embedded mem p)).rem.toInt ∧
      (walkEnd mem (embedded mem p)).rem.toInt ≤ attrLen mem p - 4 := by
  have hrem := embedded_rem hmin
  obtain ⟨-, hpos, hsum, hlast⟩ := @walkEnd_spec mem (embedded mem p) (by omega)
  replace hpos : p + 4 ≤ (walkEnd mem (embedded mem p)).pos := hpos
  replace hsum : _ = p + 4 + (embedded mem p).rem.toInt := hsum
  refine ⟨?_, hlast, by omega⟩
  rw [List.forall_mem_append, span_inMsg_iff hp (by decide)]
  refine ⟨fun b hb => ?_, by omega⟩
  unfold nlaOkReads nlaHdrLen at hb
  split at hb
  · rw [List.mem_pair] at hb
    unfold InMsg
    omega
  · cases hb

theorem nlaOkReads_inMsg {len : ℕ} {c : Cursor} (hpos : 0 ≤ c.pos)
    (hend : c.pos + c.rem.toInt ≤ len) : ∀ b ∈ nlaOkReads c, InMsg len b := by
  intro b hb
  unfold nlaOkReads nlaHdrLen at hb
  split at hb
  · rw [List.mem_pair] at hb
    unfold InMsg
    omega
  · cases hb

/-- The walk over the attributes of a message publishes what it has to exactly
when it can go over them. -/
theorem top_iff {len turns : ℕ} {c : Cursor} (hturns : c.rem.toInt.toNat < turns)
    (hpos : 0 ≤ c.pos) (hend : c.pos + c.rem.toInt ≤ len)
    (hfine : ∀ p ∈ visits mem c, TopFine env mem p) {s : St}
    (hs : ∀ b ∈ s.reads, InMsg len b) :
    Good len (topLoop env op vlanId mem turns c s)
        (s.events ++ (visits mem c).flatMap (topEvents env op vlanId mem)) ↔
      TopsOk env mem len (visits mem c) := by
  induction turns generalizing c s with
  | zero => omega
  | succ turns ih =>
    have htest : ∀ b ∈ (s.read (nlaOkReads c)).reads, InMsg len b :=
      read_inMsg_iff.mpr ⟨hs, nlaOkReads_inMsg hpos hend⟩
    cases hok : nlaOk mem c with
    | false =>
      rw [visits_nil hok, topLoop, hok]
      exact iff_of_true ⟨by simp [stOf], htest⟩ trivial
    | true =>
      obtain ⟨hmin, hin⟩ := nlaOk_attrLen.mp hok
      obtain ⟨hnextPos, hnextRem⟩ := nlaNext_eq mem (c := c) (by omega)
      have hpad := le_padded (attrLen mem c.pos)
      have hchain := visits_chain mem (nlaNext mem c)
      rw [hnextPos, hnextRem] at hchain
      rw [visits_cons hok] at hfine ⊢
      have hfirst := hfine c.pos List.mem_cons_self
      have hrest : ∀ p ∈ visits mem (nlaNext mem c), TopFine env mem p :=
        fun p hp => hfine p (List.mem_cons_of_mem _ hp)
      have htype : ∀ b ∈ ((s.read (nlaOkReads c)).read (span (c.pos + 2) 2)).reads,
          InMsg len b := by
        rw [read_inMsg_iff, span_inMsg_iff (by omega) (by decide)]
        exact ⟨htest, by omega⟩
      have hhead : ∀ b ∈ (((s.read (nlaOkReads c)).read (span (c.pos + 2) 2)).read
          (span c.pos 2)).reads, InMsg len b := by
        rw [read_inMsg_iff, span_inMsg_iff hpos (by decide)]
        exact ⟨htype, by omega⟩
      obtain ⟨hlast, hlow, hhigh⟩ := @walkEnd_embedded mem len c.pos hpos hmin (by omega)
      have hinner := embedded_chain hmin
      rw [List.flatMap_cons, TopsOk]
      by_cases hmdb : nlaType mem c.pos = mdbaMdb
      · have hread : readTop env op vlanId mem (s.read (nlaOkReads c)) c =
            (readEntries env op vlanId mem (inside mem c.pos)
              (((s.read (nlaOkReads c)).read (span (c.pos + 2) 2)).read (span c.pos 2))).map
              fun s => (s.read (nlaOkReads (walkEnd mem (embedded mem c.pos))),
                (walkEnd mem (embedded mem c.pos)).rem) := by
          unfold readTop
          rw [if_pos hmdb]
          rfl
        have hevents : topEvents env op vlanId mem c.pos =
            (inside mem c.pos).flatMap (entryEvents env op vlanId mem) := if_pos hmdb
        have htags : ∀ x ∈ (visits mem (nlaNext mem c)).flatMap (topEvents env op vlanId mem),
            c.pos + attrLen mem c.pos + 4 ≤ x.1 := fun x hx => by
          have hge := mem_tops hchain hx
          omega
        rw [topLoop_nested hok hread hlow hhigh, good_read_iff hlast, if_pos hmdb, hevents]
        refine (entries_iff hinner (by omega) (by omega) (hfirst.1 hmdb) htags _ hhead).trans ?_
        rw [tops_eq_nil_iff op vlanId hrest]
        rfl
      · by_cases hrouter : nlaType mem c.pos = mdbaRouter
        · obtain ⟨s', hs', hs'events, hs'reads⟩ := readPorts_ok op vlanId
            hinner (by omega) (by omega) (hfirst.2 hrouter) hhead
          have hread : readTop env op vlanId mem (s.read (nlaOkReads c)) c =
              (Except.ok s').map
                fun s => (s.read (nlaOkReads (walkEnd mem (embedded mem c.pos))),
                  (walkEnd mem (embedded mem c.pos)).rem) := by
            unfold readTop
            rw [if_neg hmdb, if_pos hrouter, ← hs']
            rfl
          have hevents : topEvents env op vlanId mem c.pos =
              (inside mem c.pos).flatMap (portEvents env op vlanId mem) := by
            unfold topEvents
            rw [if_neg hmdb, if_pos hrouter]
          rw [topLoop_nested hok hread hlow hhigh, good_read_iff hlast, if_neg hmdb,
            if_pos hrouter, hevents, ← tops_eq_nil_iff op vlanId hrest]
          show s'.events = _ ∧ (∀ b ∈ s'.reads, InMsg len b) ↔ _
          rw [hs'events, and_iff_left hs'reads, ← List.append_assoc]
          exact List.self_eq_append_right
        · have hread : readTop env op vlanId mem (s.read (nlaOkReads c)) c =
              .ok ((s.read (nlaOkReads c)).read (span (c.pos + 2) 2), c.rem) := by
            unfold readTop
            rw [if_neg hmdb, if_neg hrouter]
          have hevents : topEvents env op vlanId mem c.pos = [] := by
            unfold topEvents
            rw [if_neg hmdb, if_neg hrouter]
          rw [topLoop, hok, if_pos rfl, hread, if_neg hmdb, if_neg hrouter, hevents,
            List.nil_append]
          exact ih (by omega) (by omega) (by omega) hrest hhead

end Entries

/-! ## The function -/

/-- The events of a message are published, and it alone is read, exactly when
its attributes can be gone over. -/
theorem publishes_all_iff (env : Env) (msgType : BitVec 32) (mem : Memory) (op : Oper)
    (vlanId : BitVec 16) (hop : mdbOp msgType = some op)
    (hvlan : env.vlanId (load32 mem 20) = some vlanId) (hmsg : WellFormed mem)
    (hres : Resolves env mem) :
    Good (load32 mem 0).toNat (nlToMcastSnoopInfo env msgType mem)
        (required env op vlanId mem) ↔
      TopsOk env mem (load32 mem 0).toNat (tops mem) := by
  have hhdr := hmsg.header
  have hlt := (load32 mem 0).isLt
  have hfields {p : ℤ} {n : ℕ} (hp : 0 ≤ p) (hn : p + n ≤ 24) :
      ∀ b ∈ span p n, InMsg (load32 mem 0).toNat b := by
    rw [span_inMsg hp (by omega)]
    omega
  have hend : (attrCursor mem 8#32).pos + (attrCursor mem 8#32).rem.toInt ≤
      (load32 mem 0).toNat := by
    have hpos : (attrCursor mem 8#32).pos = 24 := rfl
    have hrem : (attrCursor mem 8#32).rem = load32 mem 0 - 16#32 - 8#32 := rfl
    rw [hpos, hrem, BitVec.toInt_eq_toNat_cond, BitVec.toNat_sub, BitVec.toNat_sub,
      BitVec.toNat_ofNat, BitVec.toNat_ofNat]
    split <;> omega
  unfold nlToMcastSnoopInfo
  rw [hop]
  dsimp only
  rw [hvlan]
  refine top_iff (by omega) (show (0 : ℤ) ≤ 24 by decide) hend (hmsg.topFine hres) ?_
  rw [read_inMsg_iff, read_inMsg_iff]
  refine ⟨⟨?_, hfields (by decide) (by decide)⟩, hfields (by decide) (by decide)⟩
  show ∀ b ∈ (if env.logs then span 16 1 ++ span 20 4 else []), _
  split_ifs
  · rw [List.forall_mem_append]
    exact ⟨hfields (by decide) (by decide), hfields (by decide) (by decide)⟩
  · simp

/-- A message of 64 bytes with one record, of the group `224.0.1.9`. -/
def oneGroup : Memory := fun p =>
  (([(0, 64), (20, 5), (24, 40), (26, 1), (28, 36), (30, 1), (32, 32), (34, 1), (36, 7),
    (44, 224), (46, 1), (47, 9), (60, 8)] : List (ℤ × UInt8)).lookup p).getD 0

/-- A message of 40 bytes with two lists of router ports, of which the first is
empty. -/
def twoRouters : Memory := fun p =>
  (([(0, 40), (20, 5), (24, 4), (26, 2), (28, 12), (30, 2), (32, 8), (34, 1), (36, 7)] :
    List (ℤ × UInt8)).lookup p).getD 0

def oneName : Env where
  halIfNameSz := 32
  osName := fun _ => some ['e', '1']
  vlanId := fun _ => some 10
  ntop := fun _ _ => []
  logs := false

theorem oneName_resolves (mem : Memory) : Resolves oneName mem :=
  ⟨fun _ _ _ _ _ _ _ _ _ => ⟨['e', '1'], rfl⟩, fun _ _ _ _ _ _ => ⟨['e', '1'], rfl⟩⟩

/-- The message with one record. -/
theorem publishes_all_oneGroup :
    (mdbOp rtmNewmdb = some .create ∧ WellFormed oneGroup ∧ Resolves oneName oneGroup) ∧
      (Good (load32 oneGroup 0).toNat (nlToMcastSnoopInfo oneName rtmNewmdb oneGroup)
          (required oneName .create 10 oneGroup) ↔
        TopsOk oneName oneGroup (load32 oneGroup 0).toNat (tops oneGroup)) := by
  have hmsg : WellFormed oneGroup :=
    ⟨by decide +kernel, by decide +kernel, by decide +kernel⟩
  exact ⟨⟨rfl, hmsg, oneName_resolves oneGroup⟩, publishes_all_iff oneName rtmNewmdb oneGroup
    .create 10 rfl rfl hmsg (oneName_resolves oneGroup)⟩

/-- The second list is not looked at. -/
theorem twoRouters_not_published :
    ¬ ∀ (env : Env) (msgType : BitVec 32) (mem : Memory) (op : Oper) (vlanId : BitVec 16),
      mdbOp msgType = some op → env.vlanId (load32 mem 20) = some vlanId → WellFormed mem →
        Resolves env mem →
          Good (load32 mem 0).toNat (nlToMcastSnoopInfo env msgType mem)
            (required env op vlanId mem) := by
  intro h
  have hmsg : WellFormed twoRouters :=
    ⟨by decide +kernel, by decide +kernel, by decide +kernel⟩
  have hgood := h oneName rtmNewmdb twoRouters .create 10 rfl rfl hmsg
    (oneName_resolves twoRouters)
  exact absurd hgood.1 (by decide +kernel)

end OpxNasLinux.McastNetlink
