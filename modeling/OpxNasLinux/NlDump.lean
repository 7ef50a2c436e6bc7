import OpxNasLinux.Lib.Exit
import OpxNasLinux.Netlink
import OpxNasLinux.NlMsg

/-!
# Reading an answer from a socket

`netlink_tools_process_socket` reads datagrams from a socket and hands the
messages of one sequence number to a handler, until an answer is complete.  It
peeks at every datagram for its length first, cuts it to its scratch buffer,
and waits a millisecond for the next one.

* `Datagram` is what the socket hands out at once, and `visible` are the
  messages that the walk over a buffer comes to.
* `processMsg` is one turn of the walk, and `processSocket` the loop around it.
* `logged` is a handler that writes down its calls.  `processSocket_logged`
  says that this changes nothing else.
* `Progress` is the invariant over the messages of the answer so far.
* `processSocket_complete` is what it means that the function returns true.
-/

namespace OpxNasLinux.NlDump

open Netlink
open NlMsg (nlmsgHdrLen padded le_padded)

variable {α γ : Type*}

/-! ## The socket -/

/-- `EINTR`. -/
def eintr : BitVec 32 := 4

/-- A message: the fields of its header, and what the handler makes of it. -/
structure Msg (α : Type*) where
  /-- `nlmsg_len`. -/
  len : ℕ
  type : BitVec 16
  flags : BitVec 16
  seq : BitVec 32
  /-- `error` of the `struct nlmsgerr` behind the header. -/
  error : BitVec 32
  data : α
deriving DecidableEq

/-- `nlmsg_flags & NLM_F_MULTI`. -/
def Msg.multi (m : Msg α) : Bool := m.flags &&& nlmFMulti != 0

/-- `nlmsg_flags & NLM_F_DUMP_INTR`. -/
def Msg.dumpIntr (m : Msg α) : Bool := m.flags &&& nlmFDumpIntr != 0

/-- The messages lie in this many bytes one after the other, each padded.  The
last one need not be. -/
def Holds : ℕ → List (Msg α) → Prop
  | size, [] => size < nlmsgHdrLen
  | size, m :: msgs => nlmsgHdrLen ≤ m.len ∧ m.len ≤ size ∧ Holds (size - padded m.len) msgs

instance Holds.decidable : ∀ (size : ℕ) (msgs : List (Msg α)), Decidable (Holds size msgs)
  | size, [] => inferInstanceAs (Decidable (size < nlmsgHdrLen))
  | size, m :: msgs =>
    have := Holds.decidable (size - padded m.len) msgs
    inferInstanceAs (Decidable (nlmsgHdrLen ≤ m.len ∧ m.len ≤ size ∧
      Holds (size - padded m.len) msgs))

/-- What the socket hands out at once. -/
structure Datagram (α : Type*) where
  msgs : List (Msg α)
  size : ℕ
  /-- `nlmsg_len` in the scratch buffer after the peek. -/
  headLen : ℕ
  holds : Holds size msgs
  head : ∀ m ∈ msgs.head?, headLen = m.len

/-- What one turn of the loop meets. -/
inductive Turn (α : Type*) where
  /-- The peek fails with `EINTR` or `EAGAIN`. -/
  | peekInterrupted
  /-- The peek fails otherwise. -/
  | peekFailed
  /-- The read fails with `EINTR` or `EAGAIN`, and the datagram stays. -/
  | readInterrupted
  /-- The read fails otherwise, with this `errno`. -/
  | readFailed (errno : BitVec 32)
  /-- The datagram is read.  `ready` says that `select` sees another one in
  time. -/
  | received (d : Datagram α) (ready : Bool)

/-- The datagrams that turns read. -/
def received : List (Turn α) → List (Datagram α)
  | [] => []
  | .received d _ :: turns => d :: received turns
  | _ :: turns => received turns

/-! ## The length of a read -/

/-- The buffer of the caller, and whether the kernel returns the whole length
of a datagram that is peeked at. -/
structure Scratch where
  newKernel : Bool
  len : ℕ

/-- What the peek returns. -/
def Scratch.peekLen (b : Scratch) (d : Datagram α) : ℕ :=
  if b.newKernel then d.size else min d.size nlmsgHdrLen

/-- `iov.iov_len` of the read. -/
def Scratch.iovLen (b : Scratch) (d : Datagram α) : ℕ :=
  let iovLen :=
    if nlmsgHdrLen < d.size then
      if nlmsgHdrLen = b.peekLen d then d.headLen else b.peekLen d
    else nlmsgHdrLen
  if b.len < iovLen then (if d.headLen < b.len then d.headLen else b.len) else iovLen

/-- What the read returns. -/
def Scratch.readLen (b : Scratch) (d : Datagram α) : ℕ := min d.size (b.iovLen d)

/-- `MSG_TRUNC` is set by the read. -/
def Scratch.truncated (b : Scratch) (d : Datagram α) : Bool := decide (b.iovLen d < d.size)

/-- The messages that the walk with `NLMSG_OK` and `NLMSG_NEXT` comes to. -/
def visible : ℤ → List (Msg α) → List (Msg α)
  | _, [] => []
  | len, m :: msgs =>
    if (nlmsgHdrLen : ℤ) ≤ len ∧ nlmsgHdrLen ≤ m.len ∧ (m.len : ℤ) ≤ len then
      m :: visible (len - padded m.len) msgs
    else []

/-! ## The loop -/

/-- A handler, with the context it is given. -/
abbrev Handler (α γ : Type*) := Msg α → γ → Bool × γ

/-- The variables of the loop. -/
structure State (γ : Type*) where
  cont : Bool
  rc : Bool
  errorCode : BitVec 32
  ctx : γ

/-- The variables before the loop. -/
def State.initial (ctx : γ) : State γ := ⟨true, false, 0, ctx⟩

/-- What the function returns, and what it leaves behind. -/
structure Result (α γ : Type*) where
  rc : Bool
  errorCode : BitVec 32
  ctx : γ
  unread : List (Turn α)

/-- `return rc`. -/
def State.result (s : State γ) (unread : List (Turn α)) : Result α γ :=
  ⟨s.rc, s.errorCode, s.ctx, unread⟩

/-- `return false`. -/
def State.fail (s : State γ) (unread : List (Turn α)) : Result α γ :=
  ⟨false, s.errorCode, s.ctx, unread⟩

/-- One turn of the walk over the messages.  An error is `return false`. -/
def processMsg (func : Handler α γ) (seq : Option (BitVec 32)) (s : State γ) (m : Msg α) :
    Except (State γ) (State γ) :=
  if seq.isSome ∧ seq ≠ some m.seq then .ok s
  else
    let s := { s with cont := m.multi }
    if m.dumpIntr then .error { s with errorCode := eintr }
    else if m.type = nlmsgDone then .ok { s with cont := false, rc := true }
    else if m.type = nlmsgNoop then .ok s
    else if m.type = nlmsgError then
      if m.error = 0 then .ok { s with rc := true } else .error { s with errorCode := -m.error }
    else
      match func m s.ctx with
      | (false, ctx) => .error { s with ctx }
      | (true, ctx) => .ok { s with rc := true, ctx }

/-- The walk over the messages. -/
def processMsgs (func : Handler α γ) (seq : Option (BitVec 32)) (msgs : List (Msg α))
    (s : State γ) : Except (State γ) (State γ) :=
  msgs.foldlM (processMsg func seq) s

/-- `netlink_tools_process_socket`, from the loop on.  `none` is a call that
still waits for its peek. -/
def processSocket (func : Handler α γ) (b : Scratch) (seq : Option (BitVec 32)) (s : State γ) :
    List (Turn α) → Option (Result α γ)
  | [] => if s.cont then none else some (s.result [])
  | turn :: turns =>
    if s.cont then
      match turn with
      | .peekInterrupted => processSocket func b seq s turns
      | .peekFailed => some (s.fail turns)
      | .readInterrupted => processSocket func b seq s turns
      | .readFailed errno => some (({ s with errorCode := errno } : State γ).fail turns)
      | .received d ready =>
        match processMsgs func seq (visible (b.readLen d) d.msgs) s with
        | .error s => some (s.fail turns)
        | .ok s =>
          if b.truncated d then some (s.fail turns)
          else if s.cont && !ready then some (s.fail turns)
          else processSocket func b seq s turns
    else some (s.result (turn :: turns))

theorem processMsgs_cons (func : Handler α γ) (seq : Option (BitVec 32)) (m : Msg α)
    (msgs : List (Msg α)) (s : State γ) :
    processMsgs func seq (m :: msgs) s = processMsg func seq s m >>= processMsgs func seq msgs :=
  List.foldlM_cons

theorem processMsgs_append (func : Handler α γ) (seq : Option (BitVec 32))
    (msgs msgs' : List (Msg α)) (s : State γ) :
    processMsgs func seq (msgs ++ msgs') s =
      processMsgs func seq msgs s >>= processMsgs func seq msgs' :=
  List.foldlM_append

/-! ## What the walk comes to -/

/-- The walk over a whole datagram comes to all its messages. -/
theorem Holds.visible {size : ℕ} {msgs : List (Msg α)} (h : Holds size msgs) :
    visible (size : ℤ) msgs = msgs := by
  induction msgs generalizing size with
  | nil => rfl
  | cons m msgs ih =>
    obtain ⟨hmin, hin, hrest⟩ := h
    have hsize : nlmsgHdrLen ≤ size := hmin.trans hin
    rw [NlDump.visible, if_pos ⟨by exact_mod_cast hsize, hmin, by exact_mod_cast hin⟩]
    congr 1
    by_cases hpad : padded m.len ≤ size
    · rw [← Nat.cast_sub hpad]
      exact ih hrest
    · -- the last message has its padding outside
      cases msgs with
      | nil => rfl
      | cons m' msgs =>
        obtain ⟨hmin', hin', -⟩ := hrest
        have hpos : 0 < nlmsgHdrLen := by decide
        omega

/-- A datagram that is not truncated is walked over as a whole. -/
theorem visible_of_not_truncated {b : Scratch} {d : Datagram α} (h : b.truncated d = false) :
    visible (b.readLen d) d.msgs = d.msgs := by
  have hle : d.size ≤ b.iovLen d := not_lt.mp (of_decide_eq_false h)
  rw [Scratch.readLen, min_eq_left hle]
  exact d.holds.visible

/-- A turn that reads a whole datagram in time. -/
theorem processSocket_received (func : Handler α γ) {b : Scratch} (seq : Option (BitVec 32))
    {s : State γ} {d : Datagram α} (turns : List (Turn α)) (hcont : s.cont = true)
    (hwhole : b.truncated d = false) :
    processSocket func b seq s (.received d true :: turns) =
      match processMsgs func seq d.msgs s with
      | .error s => some (s.fail turns)
      | .ok s => processSocket func b seq s turns := by
  rw [processSocket.eq_def]
  dsimp only
  rw [if_pos hcont, visible_of_not_truncated hwhole]
  cases processMsgs func seq d.msgs s with
  | error s' => rfl
  | ok s' =>
    dsimp only
    rw [if_neg (Bool.eq_false_iff.mp hwhole), Bool.not_true, Bool.and_false,
      if_neg Bool.false_ne_true]

/-- The loop after the end. -/
theorem processSocket_ended (func : Handler α γ) (b : Scratch) (seq : Option (BitVec 32))
    {s : State γ} (turns : List (Turn α)) (hcont : s.cont = false) :
    processSocket func b seq s turns = some (s.result turns) := by
  rw [processSocket.eq_def]
  cases turns with
  | nil => exact if_neg (Bool.eq_false_iff.mp hcont)
  | cons turn turns => exact if_neg (Bool.eq_false_iff.mp hcont)

/-! ## A handler that writes down its calls -/

/-- The calls, with what the handler returned. -/
abbrev Calls (α : Type*) := List (Msg α × Bool)

def logged (func : Handler α γ) : Handler α (γ × Calls α) := fun m ctx =>
  let out := func m ctx.1
  (out.1, out.2, ctx.2 ++ [(m, out.1)])

def State.forget (s : State (γ × Calls α)) : State γ := { s with ctx := s.ctx.1 }

def Result.forget (r : Result α (γ × Calls α)) : Result α γ := { r with ctx := r.ctx.1 }

/-- `State.forget` on the outcome of a walk. -/
def forgetOut : Except (State (γ × Calls α)) (State (γ × Calls α)) →
    Except (State γ) (State γ)
  | .ok s => .ok s.forget
  | .error s => .error s.forget

theorem processMsg_logged (func : Handler α γ) (seq : Option (BitVec 32))
    (s : State (γ × Calls α)) (m : Msg α) :
    processMsg func seq s.forget m = forgetOut (processMsg (logged func) seq s m) := by
  unfold processMsg
  split_ifs
  any_goals rfl
  cases hout : func m s.ctx.1 with
  | mk accepted ctx =>
    simp only [State.forget, logged, hout]
    cases accepted <;> rfl

theorem processMsgs_logged (func : Handler α γ) (seq : Option (BitVec 32)) (msgs : List (Msg α))
    (s : State (γ × Calls α)) :
    processMsgs func seq msgs s.forget = forgetOut (processMsgs (logged func) seq msgs s) := by
  induction msgs generalizing s with
  | nil => rfl
  | cons m msgs ih =>
    rw [processMsgs_cons, processMsgs_cons, processMsg_logged]
    cases processMsg (logged func) seq s m with
    | error s' => rfl
    | ok s' => exact ih s'

/-- Writing down the calls changes nothing else. -/
theorem processSocket_logged (func : Handler α γ) (b : Scratch) (seq : Option (BitVec 32))
    (s : State (γ × Calls α)) (turns : List (Turn α)) :
    processSocket func b seq s.forget turns =
      (processSocket (logged func) b seq s turns).map Result.forget := by
  induction turns generalizing s with
  | nil =>
    unfold processSocket
    show (if s.cont then none else _) = _
    cases s.cont <;> rfl
  | cons turn turns ih =>
    unfold processSocket
    show (if s.cont then _ else _) = _
    cases s.cont with
    | false => rfl
    | true =>
      cases turn with
      | peekInterrupted => exact ih s
      | peekFailed => rfl
      | readInterrupted => exact ih s
      | readFailed errno => rfl
      | received d ready =>
        simp only [if_true, processMsgs_logged]
        cases processMsgs (logged func) seq (visible (b.readLen d) d.msgs) s with
        | error s' => rfl
        | ok s' =>
          rw [forgetOut]
          dsimp only
          show (if b.truncated d then _ else if s'.cont && !ready then _ else _) = _
          split_ifs
          · rfl
          · rfl
          · exact ih s'

/-! ## Two handlers that go together -/

section Together

variable {δ : Type*} {R : γ → δ → Prop} {func : Handler α γ} {func' : Handler α δ}

/-- The handlers return the same and keep the relation of their contexts. -/
def Together (R : γ → δ → Prop) (func : Handler α γ) (func' : Handler α δ) : Prop :=
  ∀ m c c', R c c' → (func m c).1 = (func' m c').1 ∧ R (func m c).2 (func' m c').2

/-- The variables of two walks are equal but for the contexts. -/
structure Alike (R : γ → δ → Prop) (s : State γ) (s' : State δ) : Prop where
  cont : s.cont = s'.cont
  rc : s.rc = s'.rc
  errorCode : s.errorCode = s'.errorCode
  ctx : R s.ctx s'.ctx

/-- The same of what two turns leave. -/
def AlikeOut (R : γ → δ → Prop) :
    Except (State γ) (State γ) → Except (State δ) (State δ) → Prop
  | .ok s, .ok s' => Alike R s s'
  | .error s, .error s' => Alike R s s'
  | _, _ => False

/-- The same of what two calls return. -/
def AlikeEnd (R : γ → δ → Prop) :
    Option (Result α γ) → Option (Result α δ) → Prop
  | none, none => True
  | some r, some r' => r.rc = r'.rc ∧ r.errorCode = r'.errorCode ∧ R r.ctx r'.ctx
  | _, _ => False

theorem Together.processMsg (h : Together R func func') (seq : Option (BitVec 32))
    {s : State γ} {s' : State δ} (hs : Alike R s s') (m : Msg α) :
    AlikeOut R (processMsg func seq s m) (processMsg func' seq s' m) := by
  obtain ⟨hcont, hrc, herror, hctx⟩ := hs
  unfold NlDump.processMsg
  split_ifs
  · exact ⟨hcont, hrc, herror, hctx⟩
  · exact ⟨rfl, hrc, rfl, hctx⟩
  · exact ⟨rfl, rfl, herror, hctx⟩
  · exact ⟨rfl, hrc, herror, hctx⟩
  · exact ⟨rfl, rfl, herror, hctx⟩
  · exact ⟨rfl, hrc, rfl, hctx⟩
  · obtain ⟨hsame, hrel⟩ := h m _ _ hctx
    dsimp only
    generalize func m s.ctx = out at hsame hrel ⊢
    generalize func' m s'.ctx = out' at hsame hrel ⊢
    obtain ⟨accepted, ctx⟩ := out
    obtain ⟨accepted', ctx'⟩ := out'
    obtain rfl : accepted = accepted' := hsame
    cases accepted with
    | false => exact ⟨rfl, hrc, herror, hrel⟩
    | true => exact ⟨rfl, rfl, herror, hrel⟩

theorem Together.processMsgs (h : Together R func func') (seq : Option (BitVec 32))
    (msgs : List (Msg α)) {s : State γ} {s' : State δ} (hs : Alike R s s') :
    AlikeOut R (processMsgs func seq msgs s) (processMsgs func' seq msgs s') := by
  induction msgs generalizing s s' with
  | nil => exact hs
  | cons m msgs ih =>
    rw [NlDump.processMsgs_cons, NlDump.processMsgs_cons]
    have hone := h.processMsg seq hs m
    generalize NlDump.processMsg func seq s m = out at hone ⊢
    generalize NlDump.processMsg func' seq s' m = out' at hone ⊢
    cases out <;> cases out'
    · exact hone
    · exact hone.elim
    · exact hone.elim
    · exact ih hone

theorem Together.processSocket (h : Together R func func') (b : Scratch)
    (seq : Option (BitVec 32)) {s : State γ} {s' : State δ} (turns : List (Turn α))
    (hs : Alike R s s') :
    AlikeEnd R (processSocket func b seq s turns) (processSocket func' b seq s' turns) := by
  induction turns generalizing s s' with
  | nil =>
    unfold NlDump.processSocket
    rw [hs.cont]
    cases s'.cont with
    | false => exact ⟨hs.rc, hs.errorCode, hs.ctx⟩
    | true => trivial
  | cons turn turns ih =>
    unfold NlDump.processSocket
    rw [hs.cont]
    cases s'.cont with
    | false => exact ⟨hs.rc, hs.errorCode, hs.ctx⟩
    | true =>
      cases turn with
      | peekInterrupted => exact ih hs
      | peekFailed => exact ⟨rfl, hs.errorCode, hs.ctx⟩
      | readInterrupted => exact ih hs
      | readFailed errno => exact ⟨rfl, rfl, hs.ctx⟩
      | received d ready =>
        have hmsgs := h.processMsgs seq (visible (b.readLen d) d.msgs) hs
        simp only [if_true]
        generalize NlDump.processMsgs func seq (visible (b.readLen d) d.msgs) s = out
          at hmsgs ⊢
        generalize NlDump.processMsgs func' seq (visible (b.readLen d) d.msgs) s' = out'
          at hmsgs ⊢
        cases out <;> cases out'
        · exact ⟨rfl, hmsgs.errorCode, hmsgs.ctx⟩
        · exact hmsgs.elim
        · exact hmsgs.elim
        · dsimp only
          rw [hmsgs.cont]
          split_ifs
          · exact ⟨rfl, hmsgs.errorCode, hmsgs.ctx⟩
          · exact ⟨rfl, hmsgs.errorCode, hmsgs.ctx⟩
          · exact ih hmsgs

/-- The messages that get to a handler which answers like this. -/
def handedTo (accept : Msg α → Bool) (b : Scratch) (seq : Option (BitVec 32))
    (turns : List (Turn α)) : Option (List (Msg α)) :=
  (processSocket (logged fun m (ctx : Unit) => (accept m, ctx)) b seq (.initial ((), []))
    turns).map fun r => r.ctx.2.map Prod.fst

/-- A handler whose answer does not depend on the context gets the messages one
after the other, whatever it makes of them. -/
theorem processSocket_fold {accept : Msg α → Bool} (haccept : ∀ m ctx, (func m ctx).1 = accept m)
    (b : Scratch) (seq : Option (BitVec 32)) (ctx : γ) (turns : List (Turn α)) :
    (processSocket func b seq (.initial ctx) turns).map Result.ctx =
      (handedTo accept b seq turns).map fun msgs =>
        msgs.foldl (fun ctx m => (func m ctx).2) ctx := by
  let after (c : γ) (calls : Unit × Calls α) : Prop :=
    c = (calls.2.map Prod.fst).foldl (fun ctx m => (func m ctx).2) ctx
  have htogether : Together after func (logged fun m (ctx : Unit) => (accept m, ctx)) := by
    rintro m c calls rfl
    refine ⟨haccept m _, ?_⟩
    simp [after, logged]
  have hstart : Alike after (.initial ctx) (.initial ((), [])) := ⟨rfl, rfl, rfl, rfl⟩
  have hend := htogether.processSocket b seq turns hstart
  rw [handedTo, Option.map_map]
  generalize processSocket func b seq (.initial ctx) turns = out at hend ⊢
  generalize processSocket (logged fun m (ctx : Unit) => (accept m, ctx)) b seq
    (.initial ((), [])) turns = out' at hend ⊢
  cases out <;> cases out'
  · rfl
  · exact hend.elim
  · exact hend.elim
  · exact congrArg some hend.2.2

end Together

/-! ## The messages of one answer -/

/-- A message that is for the handler. -/
def Msg.isData (m : Msg α) : Bool :=
  m.type != nlmsgDone && m.type != nlmsgNoop && m.type != nlmsgError

theorem filter_concat_pos {β : Type*} {p : β → Bool} {b : β} (l : List β) (h : p b = true) :
    (l ++ [b]).filter p = l.filter p ++ [b] := by
  rw [List.filter_append, List.filter_cons_of_pos h, List.filter_nil]

theorem filter_concat_neg {β : Type*} {p : β → Bool} {b : β} (l : List β) (h : p b = false) :
    (l ++ [b]).filter p = l.filter p := by
  rw [List.filter_append, List.filter_cons_of_neg (Bool.eq_false_iff.mp h), List.filter_nil,
    List.append_nil]

/-- The messages with a sequence number. -/
def ofSeq (seq : BitVec 32) (msgs : List (Msg α)) : List (Msg α) :=
  msgs.filter fun m => m.seq == seq

theorem ofSeq_append (seq : BitVec 32) (msgs msgs' : List (Msg α)) :
    ofSeq seq (msgs ++ msgs') = ofSeq seq msgs ++ ofSeq seq msgs' := List.filter_append ..

theorem mem_ofSeq {seq : BitVec 32} {msgs : List (Msg α)} {m : Msg α} :
    m ∈ ofSeq seq msgs ↔ m ∈ msgs ∧ m.seq = seq := by
  rw [ofSeq, List.mem_filter, beq_iff_eq]

/-- The messages of datagrams. -/
def msgsOf (ds : List (Datagram α)) : List (Msg α) := ds.flatMap Datagram.msgs

/-- What holds of the variables after these messages of the walk. -/
structure Progress (seq : BitVec 32) (s : State (γ × Calls α)) (seen : List (Msg α)) : Prop where
  calls : s.ctx.2 = ((ofSeq seq seen).filter Msg.isData).map (·, true)
  errorCode : s.errorCode = 0
  cont : s.cont = false → ∃ m ∈ ofSeq seq seen, m.type = nlmsgDone

/-- A message of another answer. -/
theorem processMsg_foreign {func : Handler α γ} {seq : BitVec 32} {s : State γ} {m : Msg α}
    (h : m.seq ≠ seq) : processMsg func (some seq) s m = .ok s :=
  if_pos ⟨rfl, fun heq => h (Option.some_inj.mp heq).symm⟩

/-- One turn of the walk. -/
theorem Progress.msg {func : Handler α γ} {seq : BitVec 32} {s s' : State (γ × Calls α)}
    {seen : List (Msg α)} {m : Msg α} (h : Progress seq s seen)
    (hmulti : m.seq = seq → m.type ≠ nlmsgDone → m.multi = true)
    (hstep : processMsg (logged func) (some seq) s m = .ok s') : Progress seq s' (seen ++ [m]) := by
  obtain ⟨hcalls, herror, hcont⟩ := h
  by_cases hseq : m.seq = seq
  · have hseen : ofSeq seq (seen ++ [m]) = ofSeq seq seen ++ [m] :=
      filter_concat_pos seen (beq_iff_eq.mpr hseq)
    have hnotData : m.isData = false →
        (ofSeq seq (seen ++ [m])).filter Msg.isData = (ofSeq seq seen).filter Msg.isData := by
      intro hdata
      rw [hseen, filter_concat_neg _ hdata]
    have hgoes : m.type ≠ nlmsgDone → m.multi = false →
        ∃ m' ∈ ofSeq seq (seen ++ [m]), m'.type = nlmsgDone := by
      intro hne hfalse
      rw [hmulti hseq hne] at hfalse
      cases hfalse
    rw [processMsg, if_neg (fun hforeign => hforeign.2 (congrArg some hseq.symm))] at hstep
    dsimp only at hstep
    split_ifs at hstep with hintr hdone hnoop herr hzero
    · obtain rfl := Except.ok.inj hstep
      refine ⟨?_, herror, fun _ => ⟨m, ?_, hdone⟩⟩
      · rw [hnotData (by rw [Msg.isData, hdone]; rfl)]
        exact hcalls
      · rw [hseen]
        exact List.mem_append_right _ (List.mem_singleton_self m)
    · obtain rfl := Except.ok.inj hstep
      refine ⟨?_, herror, hgoes hdone⟩
      rw [hnotData (by rw [Msg.isData, hnoop]; rfl)]
      exact hcalls
    · obtain rfl := Except.ok.inj hstep
      refine ⟨?_, herror, hgoes hdone⟩
      rw [hnotData (by rw [Msg.isData, herr]; rfl)]
      exact hcalls
    · have hdata : m.isData = true := by
        rw [Msg.isData, Bool.and_eq_true, Bool.and_eq_true, bne_iff_ne, bne_iff_ne, bne_iff_ne]
        exact ⟨⟨hdone, hnoop⟩, herr⟩
      rw [logged] at hstep
      cases hout : func m s.ctx.1 with
      | mk accepted ctx =>
        rw [hout] at hstep
        cases accepted with
        | false => cases hstep
        | true =>
          obtain rfl := Except.ok.inj hstep
          refine ⟨?_, herror, hgoes hdone⟩
          rw [hseen, filter_concat_pos _ hdata, List.map_append, ← hcalls]
          rfl
  · have hseen : ofSeq seq (seen ++ [m]) = ofSeq seq seen :=
      filter_concat_neg seen (beq_eq_false_iff_ne.mpr hseq)
    rw [processMsg_foreign hseq] at hstep
    obtain rfl := Except.ok.inj hstep
    exact ⟨by rw [hseen, hcalls], herror, by rwa [hseen]⟩

/-- The parts of an answer that come before its end say that more follow. -/
def AllMulti (seq : BitVec 32) (msgs : List (Msg α)) : Prop :=
  ∀ m ∈ ofSeq seq msgs, m.type ≠ nlmsgDone → m.multi = true

/-- The walk over a datagram. -/
theorem Progress.msgs {func : Handler α γ} {seq : BitVec 32} {s s' : State (γ × Calls α)}
    {seen msgs : List (Msg α)} (h : Progress seq s seen) (hmulti : AllMulti seq msgs)
    (hrun : processMsgs (logged func) (some seq) msgs s = .ok s') :
    Progress seq s' (seen ++ msgs) := by
  refine Exit.foldlM_history (fun s seen m s' hm hs hstep => ?_) h hrun
  exact hs.msg (fun hseq => hmulti m (mem_ofSeq.mpr ⟨hm, hseq⟩)) hstep

/-- A run over the turns `used` that returned true. -/
structure Complete (b : Scratch) (seq : BitVec 32) (seen : List (Msg α))
    (out : Result α (γ × Calls α)) (used : List (Turn α)) : Prop where
  whole : ∀ d ∈ received used, b.truncated d = false
  errorCode : out.errorCode = 0
  calls : out.ctx.2 =
    ((ofSeq seq (seen ++ msgsOf (received used))).filter Msg.isData).map (·, true)
  done : ∃ m ∈ ofSeq seq (seen ++ msgsOf (received used)), m.type = nlmsgDone

theorem Progress.complete {b : Scratch} {seq : BitVec 32} {s : State (γ × Calls α)}
    {seen : List (Msg α)} (h : Progress seq s seen) (hcont : s.cont = false)
    (unread : List (Turn α)) : Complete b seq seen (s.result unread) [] := by
  have hnil : seen ++ msgsOf (received ([] : List (Turn α))) = seen := List.append_nil seen
  refine ⟨nofun, h.errorCode, ?_, ?_⟩
  · rw [hnil]
    exact h.calls
  · rw [hnil]
    exact h.cont hcont

/-- A datagram that is read before. -/
theorem Complete.received {b : Scratch} {seq : BitVec 32} {seen : List (Msg α)}
    {d : Datagram α} {out : Result α (γ × Calls α)} {used : List (Turn α)} (ready : Bool)
    (h : Complete b seq (seen ++ d.msgs) out used) (hwhole : b.truncated d = false) :
    Complete b seq seen out (.received d ready :: used) := by
  have hseen : seen ++ msgsOf (NlDump.received (.received d ready :: used)) =
      seen ++ d.msgs ++ msgsOf (NlDump.received used) := (List.append_assoc ..).symm
  refine ⟨List.forall_mem_cons.mpr ⟨hwhole, h.whole⟩, h.errorCode, ?_, ?_⟩
  · rw [hseen]
    exact h.calls
  · rw [hseen]
    exact h.done

/-- The loop, when it returns true. -/
theorem Progress.socket {func : Handler α γ} {b : Scratch} {seq : BitVec 32}
    {s : State (γ × Calls α)} {seen : List (Msg α)} {turns : List (Turn α)}
    {out : Result α (γ × Calls α)} (h : Progress seq s seen)
    (hmulti : AllMulti seq (msgsOf (received turns)))
    (hrun : processSocket (logged func) b (some seq) s turns = some out) (hrc : out.rc = true) :
    ∃ used, turns = used ++ out.unread ∧ Complete b seq seen out used := by
  induction turns generalizing s seen with
  | nil =>
    unfold processSocket at hrun
    split_ifs at hrun with hcont
    obtain rfl := Option.some_inj.mp hrun
    exact ⟨[], rfl, h.complete (Bool.eq_false_iff.mpr hcont) []⟩
  | cons turn turns ih =>
    unfold processSocket at hrun
    split_ifs at hrun with hcont
    · cases turn with
      | peekInterrupted =>
        obtain ⟨used, hused, hcomplete⟩ := ih h hmulti hrun
        exact ⟨.peekInterrupted :: used, congrArg _ hused, hcomplete.whole, hcomplete.errorCode,
          hcomplete.calls, hcomplete.done⟩
      | readInterrupted =>
        obtain ⟨used, hused, hcomplete⟩ := ih h hmulti hrun
        exact ⟨.readInterrupted :: used, congrArg _ hused, hcomplete.whole, hcomplete.errorCode,
          hcomplete.calls, hcomplete.done⟩
      | peekFailed =>
        obtain rfl := Option.some_inj.mp hrun
        cases hrc
      | readFailed errno =>
        obtain rfl := Option.some_inj.mp hrun
        cases hrc
      | received d ready =>
        dsimp only at hrun
        cases hmsgs : processMsgs (logged func) (some seq) (visible (b.readLen d) d.msgs) s with
        | error s' =>
          rw [hmsgs] at hrun
          obtain rfl := Option.some_inj.mp hrun
          cases hrc
        | ok s' =>
          rw [hmsgs] at hrun
          dsimp only at hrun
          split_ifs at hrun with htrunc hwait
          · obtain rfl := Option.some_inj.mp hrun
            cases hrc
          · obtain rfl := Option.some_inj.mp hrun
            cases hrc
          · have hwhole := Bool.eq_false_iff.mpr htrunc
            rw [visible_of_not_truncated hwhole] at hmsgs
            have hfirst : AllMulti seq d.msgs := by
              intro m hm
              refine hmulti m ?_
              obtain ⟨hin, hseq⟩ := mem_ofSeq.mp hm
              exact mem_ofSeq.mpr ⟨List.mem_append_left _ hin, hseq⟩
            have hrest : AllMulti seq (msgsOf (NlDump.received turns)) := by
              intro m hm
              refine hmulti m ?_
              obtain ⟨hin, hseq⟩ := mem_ofSeq.mp hm
              exact mem_ofSeq.mpr ⟨List.mem_append_right _ hin, hseq⟩
            obtain ⟨used, hused, hcomplete⟩ := ih (h.msgs hfirst hmsgs) hrest hrun
            exact ⟨.received d ready :: used, congrArg _ hused, hcomplete.received ready hwhole⟩
    · obtain rfl := Option.some_inj.mp hrun
      exact ⟨[], rfl, h.complete (Bool.eq_false_iff.mpr hcont) _⟩

/-! ## What it means that the function returns true -/

theorem received_append (turns turns' : List (Turn α)) :
    received (turns ++ turns') = received turns ++ received turns' := by
  induction turns with
  | nil => rfl
  | cons turn turns ih => cases turn <;> simp only [List.cons_append, received, ih]

/-- When the function returns true for an answer whose parts all say that more
follow, the handler was called on every data part of it, in order, and on
nothing else; it accepted every one, no datagram was truncated and there is no
error. -/
theorem processSocket_complete (func : Handler α γ) (ctx : γ) (b : Scratch) {seq : BitVec 32}
    {turns : List (Turn α)} {body : List (Msg α)} {done : Msg α} {out : Result α γ}
    (hreply : ofSeq seq (msgsOf (received turns)) = body ++ [done])
    (hmulti : ∀ m ∈ body, m.multi = true) (hbody : ∀ m ∈ body, m.type ≠ nlmsgDone)
    (hdone : done.type = nlmsgDone)
    (hrun : processSocket func b (some seq) (.initial ctx) turns = some out)
    (hrc : out.rc = true) :
    ∃ calls used,
      processSocket (logged func) b (some seq) (.initial (ctx, [])) turns =
        some ⟨true, 0, (out.ctx, calls), out.unread⟩ ∧
      calls = (body.filter Msg.isData).map (·, true) ∧ (∀ c ∈ calls, c.1.seq = seq) ∧
      turns = used ++ out.unread ∧ (∀ d ∈ received used, b.truncated d = false) ∧
      out.errorCode = 0 := by
  have hlogged := processSocket_logged func b (some seq) (.initial (ctx, [])) turns
  change processSocket func b (some seq) (.initial ctx) turns = _ at hlogged
  rw [hrun] at hlogged
  obtain ⟨out', hrun', rfl⟩ := Option.map_eq_some_iff.mp hlogged.symm
  have hall : AllMulti seq (msgsOf (received turns)) := by
    intro m hm hne
    rw [hreply] at hm
    rcases List.mem_append.mp hm with hm | hm
    · exact hmulti m hm
    · rw [List.mem_singleton.mp hm] at hne
      exact absurd hdone hne
  have hstart : Progress seq (State.initial (ctx, ([] : Calls α))) [] := ⟨rfl, rfl, nofun⟩
  obtain ⟨used, hused, hwhole, herror, hcalls, m, hm, htype⟩ := hstart.socket hall hrun' hrc
  rw [List.nil_append] at hcalls hm
  -- the messages that were read end with the end of the answer
  have hseen : ofSeq seq (msgsOf (received used)) = body ++ [done] := by
    have hfront : ofSeq seq (msgsOf (received used)) <+: body ++ [done] := by
      rw [← hreply, hused, received_append, msgsOf, msgsOf, List.flatMap_append, ofSeq_append]
      exact List.prefix_append _ _
    rcases List.prefix_concat_iff.mp hfront with heq | hshort
    · exact heq
    · exact absurd htype (hbody m (hshort.subset hm))
  have hdata : out'.ctx.2 = (body.filter Msg.isData).map (·, true) := by
    have hnot : done.isData = false := by rw [Msg.isData, hdone]; rfl
    rw [hcalls, hseen, filter_concat_neg body hnot]
  refine ⟨out'.ctx.2, used, ?_, hdata, ?_, hused, hwhole, herror⟩
  · rw [hrun']
    obtain ⟨rc, errorCode, ctx', unread⟩ := out'
    obtain rfl : rc = true := hrc
    obtain rfl : errorCode = 0 := herror
    rfl
  · intro c hc
    rw [hcalls] at hc
    obtain ⟨m', hm', rfl⟩ := List.mem_map.mp hc
    exact (mem_ofSeq.mp (List.mem_filter.mp hm').1).2

/-- A part with four bytes of data. -/
def part (type : BitVec 16) (seq : BitVec 32) (data : ℕ) : Msg ℕ :=
  ⟨20, type, nlmFMulti, seq, 0, data⟩

/-- Two data parts of an answer, with a message of another one between them. -/
def firstDatagram : Datagram ℕ where
  msgs := [part 24 21323 1, part 24 5 9, part 24 21323 2]
  size := 60
  headLen := 20
  holds := by decide
  head := fun _ h => Option.some_inj.mp h ▸ rfl

/-- The end of the answer. -/
def lastDatagram : Datagram ℕ where
  msgs := [part nlmsgDone 21323 0]
  size := 20
  headLen := 20
  holds := by decide
  head := fun _ h => Option.some_inj.mp h ▸ rfl

theorem processSocket_complete_small :
    ∃ calls used,
      processSocket (logged fun m l => (true, l ++ [m.data])) ⟨true, 1024⟩ (some 21323)
          (.initial ([], []))
          [.peekInterrupted, .received firstDatagram true, .received lastDatagram false] =
        some ⟨true, 0, ([1, 2], calls), []⟩ ∧
      calls = [(part 24 21323 1, true), (part 24 21323 2, true)] ∧
      (∀ c ∈ calls, c.1.seq = 21323) ∧
      [.peekInterrupted, .received firstDatagram true, .received lastDatagram false] =
        used ++ [] ∧
      (∀ d ∈ received used, Scratch.truncated ⟨true, 1024⟩ d = false) ∧ (0 : BitVec 32) = 0 :=
  @processSocket_complete ℕ (List ℕ) (fun m l => (true, l ++ [m.data])) [] ⟨true, 1024⟩ 21323
    [.peekInterrupted, .received firstDatagram true, .received lastDatagram false]
    [part 24 21323 1, part 24 21323 2] (part nlmsgDone 21323 0) ⟨true, 0, [1, 2], []⟩ rfl
    (by decide) (by decide) rfl rfl rfl

end OpxNasLinux.NlDump
