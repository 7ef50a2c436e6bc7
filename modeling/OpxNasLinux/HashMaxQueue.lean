import Mathlib.Algebra.Order.BigOperators.Group.List
import Mathlib.Algebra.Order.Ring.Nat
import OpxNasLinux.Lib.Run
import OpxNasLinux.SvcsRule

/-!
# The queue of the hash limits

When the snooping of a bridge is enabled, the limit of its multicast table has
to be set, which the kernel refuses for a while.  The handler of the request
puts a task into a queue, and the thread of `McastSnoopCacheMgr` takes the
tasks out of it one by one and puts back those whose file could not be written.

* `step` is the thread together with the handlers, which put tasks into the
  queue at any time, also between the two halves of a turn.
* `Accounted` says where the tasks are that were asked for, and what the
  counter of the queue stands at.
* `hash_max_accounted` is the run.
* `hash_max_drains` says how many turns leave nothing to do.
-/

namespace OpxNasLinux

open Run

namespace Mcast.HashMax

/-! ## The code -/

/-- `MAX_HASHMAX_CFG_TRY_COUNT`. -/
def maxHashmaxCfgTryCount : ℕ := 50

/-- A bridge, and the limit to set. -/
structure Job where
  brName : Str
  maxGrps : ℕ
deriving DecidableEq

/-- What the queue holds. -/
structure Task where
  job : Job
  tryCount : ℕ

/-- `Queue.Queue`, without a bound: its items, and `unfinished_tasks`. -/
structure Queue where
  items : List Task
  unfinishedTasks : ℕ

/-- `put_nowait`. -/
def Queue.putNowait (q : Queue) (task : Task) : Queue :=
  ⟨q.items ++ [task], q.unfinishedTasks + 1⟩

/-- `task_done`.  More calls than there were tasks raise a `ValueError`. -/
def Queue.taskDone (q : Queue) : Option Queue :=
  if q.unfinishedTasks = 0 then none else some ⟨q.items, q.unfinishedTasks - 1⟩

/-- `hashmax_cfg_to_queue`.  A queue without a bound is never full. -/
def hashmaxCfgToQueue (job : Job) (tryCount : ℕ) (q : Queue) : Queue × Bool :=
  (q.putNowait ⟨job, tryCount⟩, true)

/-- The thread, with what it shares with the handlers. -/
structure Mgr where
  hashmaxCfgQ : Queue
  /-- The task that was taken and whose file is still to be written. -/
  taken : Option Task
  /-- Cleared when an exception ends the thread. -/
  alive : Bool
  /-- The files written so far, and whether that worked. -/
  writes : List (Job × Bool)
  /-- The tasks `task_done` was called for, as they were taken, and whether the
  limit was set. -/
  finished : List (Task × Bool)

def Mgr.init : Mgr := ⟨⟨[], 0⟩, none, true, [], []⟩

/-- The end of a turn that does not put its task back. -/
def Mgr.taskDone (task : Task) (ok : Bool) (m : Mgr) : Mgr :=
  match m.hashmaxCfgQ.taskDone with
  | none => { m with alive := false }
  | some q => { m with hashmaxCfgQ := q, finished := m.finished ++ [(task, ok)] }

/-- A turn of `run` from the call of `_update_file_system` on. -/
def Mgr.update (task : Task) (ok : Bool) (m : Mgr) : Mgr :=
  let m := { m with taken := none, writes := m.writes ++ [(task.job, ok)] }
  if ok then m.taskDone task true
  else
    let tryCount := task.tryCount + 1
    if maxHashmaxCfgTryCount ≤ tryCount then m.taskDone task false
    else
      match hashmaxCfgToQueue task.job tryCount m.hashmaxCfgQ with
      -- The task goes on, and `task_done` is left out.
      | (q, true) => { m with hashmaxCfgQ := q }
      | (_, false) => m.taskDone task false

/-- The beginning of a turn: the first task is taken.  Without one the thread
waits in vain and polls. -/
def Mgr.get (m : Mgr) : Mgr :=
  match m.alive, m.taken, m.hashmaxCfgQ.items with
  | true, none, task :: items =>
    { m with hashmaxCfgQ := { m.hashmaxCfgQ with items := items }, taken := some task }
  | _, _, _ => m

/-- The rest of a turn. -/
def Mgr.write (ok : Bool) (m : Mgr) : Mgr :=
  match m.alive, m.taken with
  | true, some task => m.update task ok
  | _, _ => m

/-- What happens. -/
inductive Request where
  /-- A handler enables the snooping of a bridge. -/
  | put (job : Job)
  /-- The thread begins a turn. -/
  | get
  /-- The thread writes the file of its task. -/
  | write (ok : Bool)

def step (m : Mgr) : Request → Mgr
  | .put job => { m with hashmaxCfgQ := (hashmaxCfgToQueue job 0 m.hashmaxCfgQ).1 }
  | .get => m.get
  | .write ok => m.write ok

/-- The jobs that the handlers asked for. -/
def asked : List Request → List Job
  | [] => []
  | .put job :: rest => job :: asked rest
  | _ :: rest => asked rest

/-- The tasks that are not finished. -/
def Mgr.pending (m : Mgr) : List Task := m.taken.toList ++ m.hashmaxCfgQ.items

/-! ## Where the tasks are -/

/-- How often the tasks of a list were put back. -/
def retries (tasks : List Task) : ℕ := (tasks.map Task.tryCount).sum

/-- The tasks of one job. -/
def ofJob (job : Job) (tasks : List Task) : List Task := tasks.filter fun t => t.job = job

/-- Every job that was asked for is pending or finished, and the writes and the
counter are those of the tries. -/
structure Accounted (jobs : List Job) (m : Mgr) : Prop where
  alive : m.alive = true
  /-- No job is lost or done twice. -/
  jobs : ∀ job, jobs.count job =
    (ofJob job m.pending).length + (ofJob job (m.finished.map Prod.fst)).length
  tries : ∀ t ∈ m.pending, t.tryCount < maxHashmaxCfgTryCount
  /-- A task that is given up has had all its tries. -/
  givenUp : ∀ t, (t, false) ∈ m.finished → t.tryCount + 1 = maxHashmaxCfgTryCount
  writes : ∀ job, (m.writes.map Prod.fst).count job = retries (ofJob job m.pending) +
    retries (ofJob job (m.finished.map Prod.fst)) + (ofJob job (m.finished.map Prod.fst)).length
  succeeded : ∀ job, m.writes.count (job, true) =
    (m.finished.filter fun f => f.1.job = job ∧ f.2 = true).length
  /-- Every retry leaves a task behind that is never done. -/
  unfinished : m.hashmaxCfgQ.unfinishedTasks =
    m.pending.length + retries m.pending + retries (m.finished.map Prod.fst)

@[simp] theorem retries_nil : retries [] = 0 := rfl

@[simp] theorem retries_cons (t : Task) (rest : List Task) :
    retries (t :: rest) = t.tryCount + retries rest := rfl

@[simp] theorem retries_append (front back : List Task) :
    retries (front ++ back) = retries front + retries back := by
  simp [retries]

@[simp] theorem ofJob_nil (job : Job) : ofJob job [] = [] := rfl

@[simp] theorem ofJob_cons (job : Job) (t : Task) (rest : List Task) :
    ofJob job (t :: rest) = if t.job = job then t :: ofJob job rest else ofJob job rest := by
  simp [ofJob, List.filter_cons]

@[simp] theorem ofJob_append (job : Job) (front back : List Task) :
    ofJob job (front ++ back) = ofJob job front ++ ofJob job back :=
  List.filter_append ..

theorem accounted_init : Accounted [] Mgr.init where
  alive := rfl
  jobs := fun _ => rfl
  tries := fun _ ht => (List.not_mem_nil ht).elim
  givenUp := fun _ ht => (List.not_mem_nil ht).elim
  writes := fun _ => rfl
  succeeded := fun _ => rfl
  unfinished := rfl

section Step

variable {jobs : List Job} {m : Mgr}

/-- A task that is put into the queue has had no tries. -/
theorem Accounted.put (h : Accounted jobs m) (job : Job) :
    Accounted (jobs ++ [job]) (step m (.put job)) := by
  have hpending : (step m (.put job)).pending = m.pending ++ [⟨job, 0⟩] := by
    simp [step, Mgr.pending, hashmaxCfgToQueue, Queue.putNowait]
  refine ⟨h.alive, fun job' => ?_, fun t ht => ?_, h.givenUp, fun job' => ?_, h.succeeded, ?_⟩
  · have hjobs := h.jobs job'
    rw [hpending, List.count_append, hjobs]
    by_cases hj : job = job' <;> simp [step, hj]
    omega
  · rw [hpending, List.mem_append, List.mem_singleton] at ht
    rcases ht with ht | rfl
    · exact h.tries t ht
    · exact Nat.zero_lt_succ _
  · have hwrites := h.writes job'
    rw [hpending, ofJob_append, retries_append]
    by_cases hj : job = job' <;> simpa [step, hj] using hwrites
  · have hunfinished := h.unfinished
    rw [hpending]
    simp [step, hashmaxCfgToQueue, Queue.putNowait, hunfinished]
    omega

/-- The first item of the queue is taken, which changes its place only. -/
theorem pending_get (m : Mgr) : m.get.pending = m.pending := by
  unfold Mgr.get
  split
  · rename_i task items _ htaken hitems
    simp [Mgr.pending, htaken, hitems]
  · rfl

theorem Accounted.get (h : Accounted jobs m) : Accounted jobs m.get := by
  have hpending := pending_get m
  have hrest : m.get.alive = m.alive ∧ m.get.writes = m.writes ∧
      m.get.finished = m.finished ∧
      m.get.hashmaxCfgQ.unfinishedTasks = m.hashmaxCfgQ.unfinishedTasks := by
    unfold Mgr.get
    split <;> exact ⟨rfl, rfl, rfl, rfl⟩
  obtain ⟨halive, hwrites, hfinished, hunfinished⟩ := hrest
  constructor
  · rw [halive, h.alive]
  · rw [hpending, hfinished]
    exact h.jobs
  · rw [hpending]
    exact h.tries
  · rw [hfinished]
    exact h.givenUp
  · rw [hwrites, hpending, hfinished]
    exact h.writes
  · rw [hwrites, hfinished]
    exact h.succeeded
  · rw [hunfinished, hpending, hfinished]
    exact h.unfinished

/-- A turn that ends with its task: the limit was set, or it was the last
try. -/
theorem Accounted.finish (h : Accounted jobs m) {task : Task} {ok : Bool}
    (htaken : m.taken = some task)
    (hlast : ok = false → task.tryCount + 1 = maxHashmaxCfgTryCount) :
    Accounted jobs (Mgr.taskDone task ok
      { m with taken := none, writes := m.writes ++ [(task.job, ok)] }) := by
  have hpending : m.pending = task :: m.hashmaxCfgQ.items := by
    simp [Mgr.pending, htaken]
  have hunfinished := h.unfinished
  rw [hpending, List.length_cons, retries_cons] at hunfinished
  have hsome : m.hashmaxCfgQ.unfinishedTasks ≠ 0 := by omega
  simp only [Mgr.taskDone, Queue.taskDone, if_neg hsome]
  refine ⟨h.alive, fun job => ?_, fun t ht => ?_, fun t ht => ?_, fun job => ?_, fun job => ?_, ?_⟩
  · have hjobs := h.jobs job
    rw [hpending] at hjobs
    by_cases hj : task.job = job <;> simp [Mgr.pending, hj] at hjobs ⊢ <;> omega
  · exact h.tries t (hpending ▸ List.mem_cons_of_mem _ ht)
  · rcases List.mem_append.mp ht with ht | ht
    · exact h.givenUp t ht
    · obtain ⟨rfl, rfl⟩ := Prod.mk.inj (List.mem_singleton.mp ht)
      exact hlast rfl
  · have hwrites := h.writes job
    rw [hpending] at hwrites
    by_cases hj : task.job = job <;> simp [Mgr.pending, hj] at hwrites ⊢ <;> omega
  · have hsucceeded := h.succeeded job
    by_cases hj : task.job = job <;> cases ok <;> simp_all
  · simp [Mgr.pending]
    omega

/-- A turn whose file could not be written and whose task is put back. -/
theorem Accounted.requeue (h : Accounted jobs m) {task : Task} (htaken : m.taken = some task)
    (hmore : task.tryCount + 1 < maxHashmaxCfgTryCount) :
    Accounted jobs { m with
      taken := none, writes := m.writes ++ [(task.job, false)],
      hashmaxCfgQ := m.hashmaxCfgQ.putNowait ⟨task.job, task.tryCount + 1⟩ } := by
  have hpending : m.pending = task :: m.hashmaxCfgQ.items := by
    simp [Mgr.pending, htaken]
  refine ⟨h.alive, fun job => ?_, fun t ht => ?_, h.givenUp, fun job => ?_, fun job => ?_, ?_⟩
  · have hjobs := h.jobs job
    rw [hpending] at hjobs
    by_cases hj : task.job = job <;>
      simp [Mgr.pending, Queue.putNowait, hj] at hjobs ⊢ <;> omega
  · simp only [Mgr.pending, Queue.putNowait, Option.toList_none, List.nil_append, List.mem_append,
      List.mem_singleton] at ht
    rcases ht with ht | rfl
    · exact h.tries t (hpending ▸ List.mem_cons_of_mem _ ht)
    · exact hmore
  · have hwrites := h.writes job
    rw [hpending] at hwrites
    by_cases hj : task.job = job <;>
      simp [Mgr.pending, Queue.putNowait, hj] at hwrites ⊢ <;> omega
  · simpa using h.succeeded job
  · have hunfinished := h.unfinished
    rw [hpending] at hunfinished
    simp [Mgr.pending, Queue.putNowait] at hunfinished ⊢
    omega

theorem Accounted.update (h : Accounted jobs m) {task : Task} (htaken : m.taken = some task)
    (ok : Bool) : Accounted jobs (m.update task ok) := by
  have htries : task.tryCount < maxHashmaxCfgTryCount :=
    h.tries task (List.mem_append_left _ (htaken ▸ List.mem_singleton_self task))
  cases ok with
  | true => exact h.finish htaken fun hfalse => Bool.noConfusion hfalse
  | false =>
    by_cases hlast : maxHashmaxCfgTryCount ≤ task.tryCount + 1
    · have hfinish := h.finish htaken fun (_ : false = false) => le_antisymm htries hlast
      simpa [Mgr.update, hlast] using hfinish
    · have hrequeue := h.requeue htaken (Nat.lt_of_not_le hlast)
      simpa [Mgr.update, hashmaxCfgToQueue, hlast] using hrequeue

/-- What one step keeps. -/
theorem accounted_step (h : Accounted jobs m) (r : Request) :
    Accounted (jobs ++ asked [r]) (step m r) := by
  cases r with
  | put job => exact h.put job
  | get => simpa [asked, step] using h.get
  | write ok =>
    rw [show asked [Request.write ok] = [] from rfl, List.append_nil]
    change Accounted jobs (m.write ok)
    unfold Mgr.write
    split
    · rename_i task _ htaken
      exact h.update htaken ok
    · exact h

end Step

/-- What every run keeps. -/
theorem accounted_run {jobs : List Job} {m : Mgr} (h : Accounted jobs m)
    (requests : List Request) :
    Accounted (jobs ++ asked requests) (run step m requests) := by
  induction requests generalizing jobs m with
  | nil => simpa [asked] using h
  | cons r rest ih =>
    have hrest := ih (accounted_step h r)
    have hasked : asked (r :: rest) = asked [r] ++ asked rest := by
      cases r <;> rfl
    rw [hasked, ← List.append_assoc, run_cons]
    exact hrest

/-- However the handlers, the turns and the answers of the file system follow
on each other, every job that was asked for is pending or finished, a job is
given up after fifty writes and no other, and `task_done` never ends the
thread. -/
theorem hash_max_accounted (requests : List Request) :
    Accounted (asked requests) (run step Mgr.init requests) :=
  accounted_run accounted_init requests

/-! ## Turns without new tasks -/

/-- The tries that the pending tasks have left. -/
def work (m : Mgr) : ℕ := (m.pending.map fun t => maxHashmaxCfgTryCount - t.tryCount).sum

/-- A turn of the thread. -/
def turn (ok : Bool) : List Request := [.get, .write ok]

theorem asked_turns (answers : List Bool) : asked (answers.flatMap turn) = [] := by
  induction answers with
  | nil => rfl
  | cons ok rest ih => exact ih

section Drain

variable {jobs : List Job} {m : Mgr}

/-- A task that is pending has a try left. -/
theorem Accounted.pending_eq_nil (h : Accounted jobs m) (hwork : work m = 0) :
    m.pending = [] := by
  refine List.eq_nil_iff_forall_not_mem.mpr fun t ht => ?_
  have hzero := List.sum_eq_zero_iff_forall_eq_nat.mp hwork _ (List.mem_map_of_mem ht)
  have htries := h.tries t ht
  omega

/-- A write is one of the tries. -/
theorem Accounted.work_update (h : Accounted jobs m) {task : Task} (htaken : m.taken = some task)
    (ok : Bool) : work (m.update task ok) ≤ work m - 1 := by
  have hpending : m.pending = task :: m.hashmaxCfgQ.items := by
    simp [Mgr.pending, htaken]
  have htries : task.tryCount < maxHashmaxCfgTryCount := h.tries task (by simp [hpending])
  have hunfinished := h.unfinished
  rw [hpending, List.length_cons] at hunfinished
  have hsome : m.hashmaxCfgQ.unfinishedTasks ≠ 0 := by omega
  have hwork : work m = maxHashmaxCfgTryCount - task.tryCount +
      (m.hashmaxCfgQ.items.map fun t => maxHashmaxCfgTryCount - t.tryCount).sum := by
    simp [work, hpending]
  rw [hwork]
  have hdone (ok : Bool) : work (Mgr.taskDone task ok
      { m with taken := none, writes := m.writes ++ [(task.job, ok)] }) =
      (m.hashmaxCfgQ.items.map fun t => maxHashmaxCfgTryCount - t.tryCount).sum := by
    simp [Mgr.taskDone, Queue.taskDone, hsome, work, Mgr.pending]
  cases ok with
  | true =>
    have hupdate := hdone true
    simp only [Mgr.update, if_true, hupdate]
    omega
  | false =>
    by_cases hlast : maxHashmaxCfgTryCount ≤ task.tryCount + 1
    · have hupdate := hdone false
      simp only [Mgr.update, Bool.false_eq_true, if_false, if_pos hlast, hupdate]
      omega
    · have hupdate : work (m.update task false) =
          (m.hashmaxCfgQ.items.map fun t => maxHashmaxCfgTryCount - t.tryCount).sum +
            (maxHashmaxCfgTryCount - (task.tryCount + 1)) := by
        simp [Mgr.update, hlast, hashmaxCfgToQueue, Queue.putNowait, work, Mgr.pending]
      omega

/-- A turn tries a task if one is pending. -/
theorem Accounted.work_turn (h : Accounted jobs m) (ok : Bool) :
    work (run step m (turn ok)) ≤ work m - 1 := by
  have hget : work m.get = work m := by
    unfold work
    rw [pending_get]
  change work (m.get.write ok) ≤ _
  rw [← hget]
  cases htaken : m.get.taken with
  | some task =>
    have hwrite : m.get.write ok = m.get.update task ok := by
      simp [Mgr.write, h.get.alive, htaken]
    rw [hwrite]
    exact h.get.work_update htaken ok
  | none =>
    -- The thread waited in vain, so there is nothing to do.
    have hnone : m.pending = [] := by
      cases hm : m.taken with
      | some task => simp [Mgr.get, hm] at htaken
      | none =>
        cases hitems : m.hashmaxCfgQ.items with
        | nil => simp [Mgr.pending, hm, hitems]
        | cons task items => simp [Mgr.get, hm, hitems, h.alive] at htaken
    have hwrite : m.get.write ok = m.get := by
      simp [Mgr.write, htaken]
    rw [hwrite, hget, work, hnone]
    exact Nat.le_refl 0

/-- No task has more tries left than a new one. -/
theorem Accounted.work_le (h : Accounted jobs m) :
    work m ≤ maxHashmaxCfgTryCount * jobs.length := by
  have hpending : m.pending.length ≤ jobs.length := by
    have hperm : jobs.Perm ((m.pending ++ m.finished.map Prod.fst).map Task.job) := by
      refine List.perm_iff_count.mpr fun job => ?_
      rw [h.jobs job, ← List.length_append, ← ofJob_append, ofJob, ← List.countP_eq_length_filter,
        List.count, List.countP_map]
      rfl
    have hlength := hperm.length_eq
    simp only [List.length_map, List.length_append] at hlength
    omega
  have htries : work m ≤ m.pending.length * maxHashmaxCfgTryCount := by
    have hsum := List.sum_le_card_nsmul
      (m.pending.map fun t => maxHashmaxCfgTryCount - t.tryCount) maxHashmaxCfgTryCount
    simp only [List.mem_map, List.length_map, Nat.nsmul_eq_mul] at hsum
    refine hsum fun x hx => ?_
    obtain ⟨t, -, rfl⟩ := hx
    exact Nat.sub_le _ _
  calc work m ≤ m.pending.length * maxHashmaxCfgTryCount := htries
    _ ≤ jobs.length * maxHashmaxCfgTryCount := Nat.mul_le_mul_right _ hpending
    _ = maxHashmaxCfgTryCount * jobs.length := Nat.mul_comm _ _

end Drain

/-- A finished task was either set or given up. -/
theorem length_ofJob_finished (job : Job) (finished : List (Task × Bool)) :
    (ofJob job (finished.map Prod.fst)).length =
      (finished.filter fun f => f.1.job = job ∧ f.2 = true).length +
        (finished.filter fun f => f.1.job = job ∧ f.2 = false).length := by
  induction finished with
  | nil => rfl
  | cons f rest ih =>
    obtain ⟨t, ok⟩ := f
    by_cases hj : t.job = job <;> cases ok <;> simp [hj] <;> simp at ih <;> omega

/-- When no more tasks are put, fifty turns for every job that was asked for
leave none pending, whatever the file system answers: each was set or has had
its fifty tries. -/
theorem hash_max_drains (requests : List Request) (answers : List Bool)
    (henough : maxHashmaxCfgTryCount * (asked requests).length ≤ answers.length) :
    let m := run step Mgr.init (requests ++ answers.flatMap turn)
    m.pending = [] ∧
      (∀ job, (asked requests).count job = m.writes.count (job, true) +
        (m.finished.filter fun f => f.1.job = job ∧ f.2 = false).length) ∧
      ∀ t, (t, false) ∈ m.finished → t.tryCount + 1 = maxHashmaxCfgTryCount := by
  intro m
  have hrun : Accounted (asked requests) (run step Mgr.init requests) :=
    accounted_run accounted_init requests
  have hm : Accounted (asked requests) m := by
    have haccounted := accounted_run hrun (answers.flatMap turn)
    rwa [asked_turns, List.append_nil, ← run_append] at haccounted
  have hwork : work m = 0 := by
    have hdrain := turns_drain
      (fun s ok hs => List.append_nil (asked requests) ▸ accounted_run hs (turn ok))
      (fun s ok hs => hs.work_turn ok) hrun (hrun.work_le.trans henough)
    rwa [← run_append] at hdrain
  have hnone := hm.pending_eq_nil hwork
  refine ⟨hnone, fun job => ?_, hm.givenUp⟩
  rw [hm.jobs job, hnone, hm.succeeded job, length_ofJob_finished]
  exact Nat.zero_add _

/-- A bridge whose file is never written. -/
theorem hash_max_drains_refused :
    let job : Job := ⟨"br100".toList, 16384⟩
    let m := run step Mgr.init ([.put job] ++ (List.replicate 50 false).flatMap turn)
    m.pending = [] ∧
      (∀ job', (asked [.put job]).count job' = m.writes.count (job', true) +
        (m.finished.filter fun f => f.1.job = job' ∧ f.2 = false).length) ∧
      ∀ t, (t, false) ∈ m.finished → t.tryCount + 1 = maxHashmaxCfgTryCount :=
  hash_max_drains [.put ⟨"br100".toList, 16384⟩] (List.replicate 50 false) (by decide)

end Mcast.HashMax

end OpxNasLinux
