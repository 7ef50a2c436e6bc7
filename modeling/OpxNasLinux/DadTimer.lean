import OpxNasLinux.Lib.Run
import OpxNasLinux.VrfTool

/-!
# Duplicate addresses

`handle_addr_event` of `dn_base_ip_tool.py` keeps a list of the IPv6 addresses
for which a duplicate was found, and starts a timer when the list gets its first
address.  The timer calls `handle_dad_failure_timer`, which tries to add every
address of the list again and takes it out of the list.

* `Act` has the steps of the thread for the events and of the timers.  A step
  that cannot be taken, such as one that waits for the mutex, changes nothing.
* `DadState.runs` is what the calls of the timer function have found, tried and
  left.
* `Inv` is the invariant over both threads.  `dad_timer_run` says that no
  address waits for ever, for names without a star.
-/

namespace OpxNasLinux.DadTimer

open Delimited Run

/-! ## Events -/

/-- An address that is tried again, as the arguments of `del_ip_addr`. -/
structure Target where
  vrf : Str
  name : Str
  /-- The address with its prefix length. -/
  addr : Str
deriving DecidableEq

/-- The key of an address in `_intf_addr_dad_failed_list`. -/
def Target.key (t : Target) : Str := enclose '*' [t.vrf, t.name, t.addr]

/-- What the timer function reads out of a key. -/
def keyTarget (key : Str) : Target := ⟨field 1 key, field 2 key, field 3 key⟩

/-- The event of an address.  An attribute that is missing raises an exception,
which is caught, and so does an address of the wrong length. -/
structure AddrEvent where
  operation : Option Str
  dadFailed : Option ℕ
  vrfName : Option Str
  name : Option Str
  ip : Option IpAddr
  prefixLength : Option ℕ

/-- What the event is about. -/
def AddrEvent.target (e : AddrEvent) : Option Target :=
  match e.dadFailed, e.vrfName, e.name, e.ip, e.prefixLength with
  | some dadFailed, some vrf, some name, some ip, some len =>
    if dadFailed = 0 then none else some ⟨vrf, name, ip.text ++ ('/' :: str len)⟩
  | _, _, _, _, _ => none

/-! ## States -/

/-- The thread of `handle_addr_event`. -/
inductive EventThread where
  /-- It waits for an event. -/
  | idle
  /-- It waits for the mutex. -/
  | waiting (operation : Str) (t : Target)
  /-- It has the mutex. -/
  | holding (operation : Str) (t : Target)
  /-- The event is handled, and the mutex not released yet. -/
  | handled
deriving DecidableEq

/-- An address was deleted, and if that succeeded added again. -/
structure Attempt where
  target : Target
  added : Bool
deriving DecidableEq

/-- The variables of `handle_dad_failure_timer`.  `found` are the keys that it
goes through, of which `rest` are left. -/
structure Handler where
  found : List Str
  rest : List Str
  tempDelKey : Option Str
  tried : List Attempt
deriving DecidableEq

/-- A timer that was started. -/
inductive Timer where
  /-- It has not expired. -/
  | pending
  /-- Its function waits for the mutex. -/
  | waiting
  | running (h : Handler)
  | finished
deriving DecidableEq

inductive Thread where
  | event
  | timer (i : ℕ)
deriving DecidableEq

/-- A call of `handle_dad_failure_timer`: the keys that it found, what it tried,
and the keys that were left. -/
structure HandlerRun where
  found : List Str
  tried : List Attempt
  left : List Str
deriving DecidableEq

structure DadState where
  /-- `_intf_addr_dad_failed_list`. -/
  failed : Dict Str ℕ
  /-- The thread that has `_addr_mutex`. -/
  owner : Option Thread
  event : EventThread
  timers : List Timer
  runs : List HandlerRun

/-- The list is empty and no timer is started. -/
def DadState.init : DadState := ⟨∅, none, .idle, [], []⟩

/-! ## Steps -/

inductive Act where
  /-- An event arrives. -/
  | receive (e : AddrEvent)
  /-- The thread of the events takes the mutex. -/
  | lock
  | handle
  /-- The thread of the events releases the mutex. -/
  | unlock
  /-- A timer expires. -/
  | expire (i : ℕ)
  /-- A timer takes the mutex and reads the keys. -/
  | start (i : ℕ) (order : KeyOrder)
  /-- A turn of the loop; the result is that of `del_ip_addr`. -/
  | retry (i : ℕ) (deleted : Bool)
  /-- A timer leaves the loop and releases the mutex. -/
  | finish (i : ℕ)

/-- `_intf_addr_dad_failed_list.pop(temp_del_key, None)`, if there is one. -/
def popKey (key : Option Str) (failed : Dict Str ℕ) : Dict Str ℕ :=
  match key with
  | some key => failed.erase key
  | none => failed

/-- What `handle_addr_event` does with the mutex. -/
def handleEvent (operation : Str) (t : Target) (s : DadState) : DadState :=
  if operation = "create".toList ∨ operation = "set".toList then
    if t.key ∈ s.failed then s
    else
      let failed := s.failed.insert t.key 1
      { s with
        failed
        timers := if failed.keys.length = 1 then s.timers ++ [.pending] else s.timers }
  else if operation = "delete".toList then { s with failed := s.failed.erase t.key }
  else s

/-- A step of one of the threads. -/
def step (s : DadState) : Act → DadState
  | .receive e =>
    match s.event, e.operation, e.target with
    | .idle, some operation, some t => { s with event := .waiting operation t }
    | _, _, _ => s
  | .lock =>
    match s.event, s.owner with
    | .waiting operation t, none => { s with event := .holding operation t, owner := some .event }
    | _, _ => s
  | .handle =>
    match s.event with
    | .holding operation t => { handleEvent operation t s with event := .handled }
    | _ => s
  | .unlock =>
    match s.event with
    | .handled => { s with event := .idle, owner := none }
    | _ => s
  | .expire i =>
    match s.timers[i]? with
    | some .pending => { s with timers := s.timers.set i .waiting }
    | _ => s
  | .start i order =>
    match s.timers[i]?, s.owner with
    | some .waiting, none =>
      let keys := order.order s.failed.keys
      { s with
        owner := some (.timer i)
        timers := s.timers.set i (.running ⟨keys, keys, none, []⟩) }
    | _, _ => s
  | .retry i deleted =>
    match s.timers[i]? with
    | some (.running h) =>
      match h.rest with
      | key :: rest =>
        { s with
          failed := popKey h.tempDelKey s.failed
          timers := s.timers.set i
            (.running ⟨h.found, rest, some key, h.tried ++ [⟨keyTarget key, deleted⟩]⟩) }
      | [] => s
    | _ => s
  | .finish i =>
    match s.timers[i]? with
    | some (.running ⟨found, [], key, tried⟩) =>
      let failed := popKey key s.failed
      { s with
        failed
        owner := none
        timers := s.timers.set i .finished
        runs := s.runs ++ [⟨found, tried, failed.keys⟩] }
    | _ => s

/-! ## Keys -/

/-- No name has a star. -/
def Target.StarFree (t : Target) : Prop := '*' ∉ t.vrf ∧ '*' ∉ t.name ∧ '*' ∉ t.addr

/-- The timer function reads back what was recorded. -/
theorem keyTarget_key {t : Target} (h : t.StarFree) : keyTarget t.key = t := by
  have hfree : ∀ f ∈ [t.vrf, t.name, t.addr], '*' ∉ f := by
    simpa using ⟨h.1, h.2.1, h.2.2⟩
  have hsplit : t.key.splitOn '*' = [] :: ([t.vrf, t.name, t.addr] ++ [[]]) :=
    splitOn_enclose hfree
  rw [keyTarget, field, field, field, hsplit]
  rfl

/-- The key is that of what is read out of it. -/
def Readable (key : Str) : Prop := (keyTarget key).key = key

theorem readable_key {t : Target} (h : t.StarFree) : Readable t.key :=
  congrArg Target.key (keyTarget_key h)

/-- The keys after the key of the turn before is popped. -/
theorem popKey_keys {failed : Dict Str ℕ} {key : Option Str} {rest : List Str}
    (h : failed.keys.Perm (key.toList ++ rest)) : (popKey key failed).keys.Perm rest := by
  cases key with
  | none => exact h
  | some key => exact Dict.keys_erase_perm h

theorem mem_of_mem_popKey {failed : Dict Str ℕ} {key : Option Str} {k : Str}
    (h : k ∈ popKey key failed) : k ∈ failed := by
  cases key with
  | none => exact h
  | some key => exact (Dict.mem_erase_iff.mp h).2

/-! ## The invariant -/

/-- A call of the timer function that has retried every address that it found
once, and left none. -/
structure HandlerRun.Complete (r : HandlerRun) : Prop where
  retried : ∃ targets : List Target, targets.Nodup ∧ r.found = targets.map Target.key ∧
    r.tried.map Attempt.target = targets
  emptied : r.left = []

/-- A call that has come to the rest of its keys.  The key of the turn before is
in the list still. -/
structure Handler.Good (failed : Dict Str ℕ) (h : Handler) : Prop where
  keys : failed.keys.Perm (h.tempDelKey.toList ++ h.rest)
  tried : ∃ done, h.found = done ++ h.rest ∧ h.tried.map Attempt.target = done.map keyTarget
  nodup : h.found.Nodup
  readable : ∀ key ∈ h.found, Readable key

/-- The invariant of both threads. -/
structure Inv (s : DadState) : Prop where
  event : (∃ operation t, s.event = .holding operation t) ∨ s.event = .handled →
    s.owner = some .event
  runner : ∀ i h, s.timers[i]? = some (.running h) →
    s.owner = some (.timer i) ∧ h.Good s.failed
  waits : s.failed.keys ≠ [] → ∃ timer ∈ s.timers, timer ≠ .finished
  readable : ∀ key ∈ s.failed, Readable key
  target : ∀ operation t, s.event = .waiting operation t ∨ s.event = .holding operation t →
    t.StarFree
  runs : ∀ r ∈ s.runs, r.Complete

theorem init_inv : Inv .init where
  event h := by
    rcases h with ⟨operation, t, h⟩ | h <;> cases h
  runner i h heq := by cases heq
  waits h := absurd rfl h
  readable key hkey := absurd hkey (AList.notMem_empty key)
  target operation t h := by
    rcases h with h | h <;> cases h
  runs := List.forall_mem_nil _

/-- One call at a time has the mutex. -/
theorem Inv.unique {s : DadState} (hs : Inv s) {i j : ℕ} {h h' : Handler}
    (hi : s.timers[i]? = some (.running h)) (hj : s.timers[j]? = some (.running h')) : i = j := by
  have howner := (hs.runner i h hi).1
  rw [(hs.runner j h' hj).1] at howner
  exact (Thread.timer.inj (Option.some.inj howner)).symm

/-- A timer that is changed and does not run. -/
theorem running_of_set {timers : List Timer} {i j : ℕ} {timer : Timer} {h : Handler}
    (hnot : ∀ h, timer ≠ .running h) (heq : (timers.set i timer)[j]? = some (.running h)) :
    timers[j]? = some (.running h) ∧ j ≠ i := by
  rw [List.getElem?_set] at heq
  split at heq
  · split at heq
    · exact absurd (Option.some.inj heq) (hnot h)
    · cases heq
  · rename_i hne
    exact ⟨heq, fun hji => hne hji.symm⟩

/-- A timer that is changed and is not finished. -/
theorem unfinished_set {timers : List Timer} {i : ℕ} {timer timer' : Timer}
    (hi : timers[i]? = some timer) (hne : timer' ≠ .finished) :
    ∃ t ∈ timers.set i timer', t ≠ .finished := by
  obtain ⟨hlt, -⟩ := List.getElem?_eq_some_iff.mp hi
  exact ⟨timer', List.mem_set hlt timer', hne⟩

/-! ## Steps of the thread for the events -/

theorem receive_inv {s : DadState} (hs : Inv s) {e : AddrEvent}
    (he : ∀ t ∈ e.target, t.StarFree) : Inv (step s (.receive e)) := by
  rw [step]
  split
  · rename_i operation t hidle _ htarget
    refine ⟨fun h => ?_, hs.runner, hs.waits, hs.readable, fun operation' t' h => ?_, hs.runs⟩
    · rcases h with ⟨operation, t, h⟩ | h <;> cases h
    · rcases h with h | h
      · cases h
        exact he t htarget
      · cases h
  · exact hs

theorem lock_inv {s : DadState} (hs : Inv s) : Inv (step s .lock) := by
  rw [step]
  split
  · rename_i operation t hevent howner
    refine ⟨fun _ => rfl, fun i h heq => ?_, hs.waits, hs.readable, fun operation' t' h => ?_,
      hs.runs⟩
    · have hrunner := (hs.runner i h heq).1
      rw [howner] at hrunner
      cases hrunner
    · rcases h with h | h
      · cases h
      · cases h
        exact hs.target operation t (Or.inl hevent)
  · exact hs

theorem unlock_inv {s : DadState} (hs : Inv s) : Inv (step s .unlock) := by
  rw [step]
  split
  · rename_i hevent
    refine ⟨fun h => ?_, fun i h heq => ?_, hs.waits, hs.readable, fun operation t h => ?_, hs.runs⟩
    · rcases h with ⟨operation, t, h⟩ | h <;> cases h
    · have hrunner := (hs.runner i h heq).1
      rw [hs.event (Or.inr hevent)] at hrunner
      cases hrunner
    · rcases h with h | h <;> cases h
  · exact hs

/-- What handling an event does to the list and the timers, when no timer has
the mutex. -/
structure Handles (t : Target) (s s' : DadState) : Prop where
  owner : s'.owner = s.owner
  runs : s'.runs = s.runs
  timers : s'.timers = s.timers ∨ s'.timers = s.timers ++ [.pending]
  keys : ∀ key ∈ s'.failed, key ∈ s.failed ∨ key = t.key
  started : s'.failed.keys ≠ [] → s.failed.keys ≠ [] ∨ .pending ∈ s'.timers

theorem handleEvent_handles (operation : Str) (t : Target) (s : DadState) :
    Handles t s (handleEvent operation t s) := by
  rw [handleEvent]
  split
  · split
    · exact ⟨rfl, rfl, Or.inl rfl, fun key hkey => Or.inl hkey, Or.inl⟩
    · rename_i hnew
      refine ⟨rfl, rfl, ?_, fun key hkey => (Dict.mem_insert_iff.mp hkey).symm, fun _ => ?_⟩
      · dsimp only
        split
        · exact Or.inr rfl
        · exact Or.inl rfl
      · dsimp only
        split
        · exact Or.inr (by simp)
        · -- the list had another address before
          rename_i hlen
          refine Or.inl fun hnil => hlen ?_
          rw [AList.keys_insert, hnil]
          rfl
  · split
    · refine ⟨rfl, rfl, Or.inl rfl, fun key hkey => Or.inl (Dict.mem_erase_iff.mp hkey).2,
        fun hne => Or.inl fun hnil => hne ?_⟩
      rw [AList.keys_erase, hnil]
      rfl
    · exact ⟨rfl, rfl, Or.inl rfl, fun key hkey => Or.inl hkey, Or.inl⟩

theorem handle_inv {s : DadState} (hs : Inv s) : Inv (step s .handle) := by
  rw [step]
  split
  · rename_i operation t hevent
    have hh := handleEvent_handles operation t s
    have howner := hs.event (Or.inl ⟨operation, t, hevent⟩)
    have hsub : ∀ timer ∈ s.timers, timer ∈ (handleEvent operation t s).timers := by
      intro timer htimer
      rcases hh.timers with heq | heq <;> rw [heq]
      · exact htimer
      · exact List.mem_append_left _ htimer
    refine ⟨fun _ => hh.owner.trans howner, fun i h heq => ?_, fun hne => ?_, fun key hkey => ?_,
      fun operation' t' h => ?_, fun r hr => hs.runs r (hh.runs ▸ hr)⟩
    · have hmem : (.running h) ∈ s.timers := by
        have hmem := List.mem_of_getElem? heq
        change _ ∈ (handleEvent operation t s).timers at hmem
        rcases hh.timers with htimers | htimers <;> rw [htimers] at hmem
        · exact hmem
        · simpa using hmem
      obtain ⟨j, hj⟩ := List.getElem?_of_mem hmem
      have hrunner := (hs.runner j h hj).1
      rw [howner] at hrunner
      cases hrunner
    · rcases hh.started hne with hbefore | hpending
      · obtain ⟨timer, htimer, hunfinished⟩ := hs.waits hbefore
        exact ⟨timer, hsub timer htimer, hunfinished⟩
      · exact ⟨.pending, hpending, fun h => by cases h⟩
    · rcases hh.keys key hkey with hold | rfl
      · exact hs.readable key hold
      · exact readable_key (hs.target operation t (Or.inr hevent))
    · rcases h with h | h <;> cases h
  · exact hs

/-! ## Steps of the timers -/

theorem expire_inv {s : DadState} (hs : Inv s) (i : ℕ) : Inv (step s (.expire i)) := by
  rw [step]
  split
  · rename_i hpending
    refine ⟨hs.event, fun j h heq => ?_, fun _ => ?_, hs.readable, hs.target, hs.runs⟩
    · exact hs.runner j h (running_of_set (fun h heq => by cases heq) heq).1
    · exact unfinished_set hpending fun h => by cases h
  · exact hs

theorem start_inv {s : DadState} (hs : Inv s) (i : ℕ) (order : KeyOrder) :
    Inv (step s (.start i order)) := by
  rw [step]
  split
  · rename_i hwaiting howner
    have hperm := order.perm s.failed.keys
    refine ⟨fun h => ?_, fun j h heq => ?_, fun _ => ?_, hs.readable, hs.target, hs.runs⟩
    · have hevent := hs.event h
      rw [howner] at hevent
      cases hevent
    · change (s.timers.set i _)[j]? = _ at heq
      by_cases hij : i = j
      · subst hij
        obtain ⟨hlt, -⟩ := List.getElem?_eq_some_iff.mp hwaiting
        rw [List.getElem?_set_self hlt] at heq
        cases heq
        refine ⟨rfl, hperm.symm, ⟨[], rfl, rfl⟩, hperm.nodup_iff.mpr s.failed.keys_nodup, ?_⟩
        exact fun key hkey => hs.readable key (hperm.mem_iff.mp hkey)
      · rw [List.getElem?_set_ne hij] at heq
        have hrunner := (hs.runner j h heq).1
        rw [howner] at hrunner
        cases hrunner
    · exact unfinished_set hwaiting fun h => by cases h
  · exact hs

/-- A turn of the loop. -/
theorem Handler.Good.retry {failed : Dict Str ℕ} {found rest : List Str} {key : Str}
    {prev : Option Str} {tried : List Attempt} (deleted : Bool)
    (h : Handler.Good failed ⟨found, key :: rest, prev, tried⟩) :
    Handler.Good (popKey prev failed)
      ⟨found, rest, some key, tried ++ [⟨keyTarget key, deleted⟩]⟩ := by
  obtain ⟨done, hfound, htried⟩ := h.tried
  refine ⟨popKey_keys h.keys, ⟨done ++ [key], ?_, ?_⟩, h.nodup, h.readable⟩
  · rw [List.append_assoc]
    exact hfound
  · rw [List.map_append, List.map_append, htried]
    rfl

theorem retry_inv {s : DadState} (hs : Inv s) (i : ℕ) (deleted : Bool) :
    Inv (step s (.retry i deleted)) := by
  rw [step]
  split
  · rename_i h hrunning
    obtain ⟨found, rest, prev, tried⟩ := h
    obtain ⟨howner, hgood⟩ := hs.runner i _ hrunning
    split
    · rename_i key rest hrest
      obtain rfl : _ = key :: rest := hrest
      refine ⟨hs.event, fun j h heq => ?_, fun _ => ?_, fun key hkey => ?_, hs.target, hs.runs⟩
      · change (s.timers.set i _)[j]? = _ at heq
        by_cases hij : i = j
        · subst hij
          obtain ⟨hlt, -⟩ := List.getElem?_eq_some_iff.mp hrunning
          rw [List.getElem?_set_self hlt] at heq
          cases heq
          exact ⟨howner, hgood.retry deleted⟩
        · rw [List.getElem?_set_ne hij] at heq
          exact absurd (hs.unique hrunning heq) hij
      · exact unfinished_set hrunning fun h => by cases h
      · exact hs.readable key (mem_of_mem_popKey hkey)
    · exact hs
  · exact hs

/-- The end of the loop. -/
theorem Handler.Good.finish {failed : Dict Str ℕ} {found : List Str} {prev : Option Str}
    {tried : List Attempt} (h : Handler.Good failed ⟨found, [], prev, tried⟩) :
    HandlerRun.Complete ⟨found, tried, (popKey prev failed).keys⟩ := by
  obtain ⟨done, hfound, htried⟩ := h.tried
  rw [List.append_nil] at hfound
  obtain rfl : found = done := hfound
  have hkeys : found = (found.map keyTarget).map Target.key := by
    rw [List.map_map]
    exact ((List.map_congr_left h.readable).trans (List.map_id found)).symm
  refine ⟨⟨found.map keyTarget, ?_, hkeys, htried⟩, List.perm_nil.mp (popKey_keys h.keys)⟩
  have hnodup := h.nodup
  change found.Nodup at hnodup
  rw [hkeys] at hnodup
  exact hnodup.of_map _

theorem finish_inv {s : DadState} (hs : Inv s) (i : ℕ) : Inv (step s (.finish i)) := by
  rw [step]
  split
  · rename_i found prev tried hrunning
    obtain ⟨howner, hgood⟩ := hs.runner i _ hrunning
    have hcomplete := hgood.finish
    refine ⟨fun h => ?_, fun j h heq => ?_, fun hne => absurd hcomplete.emptied hne,
      fun key hkey => hs.readable key (mem_of_mem_popKey hkey), hs.target, fun r hr => ?_⟩
    · have hevent := hs.event h
      rw [howner] at hevent
      cases hevent
    · obtain ⟨hj, hne⟩ := running_of_set (fun h heq => by cases heq) heq
      exact absurd (hs.unique hj hrunning) hne
    · rcases List.mem_append.mp hr with hr | hr
      · exact hs.runs r hr
      · rw [List.mem_singleton.mp hr]
        exact hcomplete
  · exact hs

/-! ## Runs -/

/-- An event that names no VRF and no interface with a star. -/
def Act.StarFree : Act → Prop
  | .receive e => ∀ t ∈ e.target, '*' ∉ t.vrf ∧ '*' ∉ t.name
  | _ => True

/-- The address of an event has no star. -/
theorem target_addr {e : AddrEvent} {t : Target} (h : e.target = some t) : '*' ∉ t.addr := by
  rw [AddrEvent.target] at h
  split at h
  · rename_i dadFailed vrf name ip len _ _ _ _ _
    split at h
    · cases h
    · cases h
      intro hstar
      rcases List.mem_append.mp hstar with hstar | hstar
      · exact ip.starFree hstar
      · rcases List.mem_cons.mp hstar with hstar | hstar
        · cases hstar
        · exact absurd (Nat.isDigit_of_mem_toDigits (by decide) (by decide) hstar) (by decide)
  · cases h

theorem step_inv (s : DadState) (act : Act) (hs : Inv s) (hact : act.StarFree) :
    Inv (step s act) := by
  cases act with
  | receive e => exact receive_inv hs fun t ht => ⟨(hact t ht).1, (hact t ht).2, target_addr ht⟩
  | lock => exact lock_inv hs
  | handle => exact handle_inv hs
  | unlock => exact unlock_inv hs
  | expire i => exact expire_inv hs i
  | start i order => exact start_inv hs i order
  | retry i deleted => exact retry_inv hs i deleted
  | finish i => exact finish_inv hs i

/-- No address waits for ever: an address in the list has a timer that has not
finished, and a call of the timer function has retried every address that it
found once and left none. -/
structure Served (s : DadState) : Prop where
  waits : s.failed.keys ≠ [] → ∃ timer ∈ s.timers, timer ≠ .finished
  complete : ∀ r ∈ s.runs, r.Complete

/-- In every run of the two threads whose events have names without stars, no
address waits for ever. -/
theorem dad_timer_run {acts : List Act} (hacts : ∀ act ∈ acts, act.StarFree) :
    Served (run step .init acts) := by
  have hinv : Inv (run step .init acts) :=
    run_preserves step_inv init_inv (along_of_forall _ hacts)
  exact ⟨hinv.waits, hinv.runs⟩

instance : DecidablePred Act.StarFree := fun act =>
  match act with
  | .receive e => inferInstanceAs (Decidable (∀ t ∈ e.target, '*' ∉ t.vrf ∧ '*' ∉ t.name))
  | .lock | .handle | .unlock | .expire _ | .start _ _ | .retry _ _ | .finish _ => isTrue trivial

/-- The event of a duplicate on an interface of the default VRF. -/
def duplicate (name : Str) (len : ℕ) : Act :=
  .receive ⟨some "create".toList, some 1, some defaultVrf, some name, some sampleIpv6, some len⟩

/-- Two duplicates, and a third one whose event waits while the timer of the first
one runs. -/
def threeDuplicates : List Act :=
  [duplicate "e101-001-0".toList 64, .lock, .handle, .unlock,
    duplicate "e101-002-0".toList 64, .lock, .handle, .unlock, .expire 0,
    .start 0 ⟨List.reverse, List.reverse_perm⟩, duplicate "e101-001-0".toList 96, .lock,
    .retry 0 true, .lock, .retry 0 false, .finish 0, .lock, .handle, .unlock]

theorem dad_timer_run_small :
    let s := run step .init threeDuplicates
    Served s ∧ s.runs.map HandlerRun.tried =
        [[⟨⟨defaultVrf, "e101-001-0".toList, "2001:db8::1/64".toList⟩, true⟩,
          ⟨⟨defaultVrf, "e101-002-0".toList, "2001:db8::1/64".toList⟩, false⟩]] ∧
      s.timers = [.finished, .pending] := by
  have hfree : ∀ act ∈ threeDuplicates, act.StarFree := by decide +kernel
  exact ⟨dad_timer_run hfree, by decide +kernel⟩

/-- A duplicate on an interface of the default VRF, and the timer that it
starts. -/
def oneDuplicate (name : Str) : List Act :=
  [duplicate name 64, .lock, .handle, .unlock, .expire 0,
    .start 0 ⟨fun keys => keys, fun keys => .refl keys⟩, .retry 0 true, .finish 0]

/-- With a star in the name of the interface, another address is retried on
another interface, and the duplicate is forgotten. -/
theorem star_retries_another :
    let s := run step .init (oneDuplicate "a*b".toList)
    s.runs = [⟨["*default*a*b*2001:db8::1/64*".toList],
      [⟨⟨defaultVrf, "a".toList, "b".toList⟩, true⟩], []⟩] ∧ ¬ Served s := by
  intro s
  have hruns : s.runs = [⟨["*default*a*b*2001:db8::1/64*".toList],
      [⟨⟨defaultVrf, "a".toList, "b".toList⟩, true⟩], []⟩] := by decide +kernel
  refine ⟨hruns, fun hserved => ?_⟩
  have hcomplete := hserved.complete _ (by rw [hruns]; exact List.mem_singleton_self _)
  obtain ⟨targets, -, hfound, htried⟩ := hcomplete.retried
  rw [← htried] at hfound
  exact absurd hfound (by decide +kernel)

end OpxNasLinux.DadTimer
