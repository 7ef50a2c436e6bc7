import OpxNasLinux.NlDump
import OpxNasLinux.AttrTables

/-!
# Lists of all routes and all neighbours

`read_all_routes` and `read_all_neighbours` ask the kernel for a dump, and make
a list of objects of the messages of the answer.  The object of a message is
put in the list before it is decoded, and what the decoder returns is what the
handler returns to `netlink_tools_process_socket`.

* `Answer` is a socket that hands out the whole answer to a request.
* `verdicts` is what the decoder makes of the messages one after the other.
* `processMsgs_spec` and `processSocket_spec` are the run: it ends early at the
  first message that is rejected.
* `read_all_iff` is when the two functions do what they are for.
-/

namespace OpxNasLinux.DumpLists

open NlDump NlMsg Netlink

variable {α ω κ : Type*}

/-! ## The code -/

/-- A decoder: whether it accepts a message, and what it makes of the new
object.  It can change what it works with. -/
abbrev Decoder (α ω κ : Type*) := Msg α → κ → (Bool × ω) × κ

/-- `process_route_and_add_to_list` and `process_neigh_and_add_to_list`.
`room` says whether `cps_api_object_list_append` succeeds, by the length of the
list. -/
def processAndAddToList (room : ℕ → Bool) (decode : Decoder α ω κ) :
    NlDump.Handler α (List ω × κ) := fun m ctx =>
  if room ctx.1.length then
    let out := decode m ctx.2
    (out.1.1, ctx.1 ++ [out.1.2], out.2)
  else (false, ctx)

/-- The scratch buffers. -/
def scratch (newKernel : Bool) : Scratch := ⟨newKernel, 1024⟩

/-- The random request ids. -/
def routeReqId : BitVec 32 := 0x101
def neighReqId : BitVec 32 := 21323
def neighReqId6 : BitVec 32 := 21324

/-- `read_all_routes`: what it returns, and the list.  `created` and
`requested` say whether there is a socket, and whether the request is sent. -/
def readAllRoutes (newKernel created requested : Bool) (room : ℕ → Bool)
    (decode : Decoder α ω κ) (list : List ω) (env : κ) (turns : List (Turn α)) :
    Option (Bool × List ω) :=
  if created && requested then
    (processSocket (processAndAddToList room decode) (scratch newKernel) (some routeReqId)
      (.initial (list, env)) turns).map fun out => (out.rc, out.ctx.1)
  else some (false, list)

/-- `read_all_neighbours`.  The second request is sent when the first dump was
read, and what is left of the first is read first. -/
def readAllNeighbours (newKernel created requested requested6 : Bool) (room : ℕ → Bool)
    (decode : Decoder α ω κ) (list : List ω) (env : κ) (turns turns6 : List (Turn α)) :
    Option (Bool × List ω) :=
  if created && requested then
    (processSocket (processAndAddToList room decode) (scratch newKernel) (some neighReqId)
        (.initial (list, env)) turns).bind fun out =>
      if out.rc && requested6 then
        (processSocket (processAndAddToList room decode) (scratch newKernel) (some neighReqId6)
          (.initial out.ctx) (out.unread ++ turns6)).map fun out => (out.rc, out.ctx.1)
      else some (out.rc, out.ctx.1)
  else some (false, list)

/-! ## The answer to a request -/

/-- A part of an answer before its end: the dump goes on, and has no error. -/
structure IsPart (m : Msg α) : Prop where
  multi : m.multi = true
  intact : m.dumpIntr = false
  notDone : m.type ≠ nlmsgDone
  noError : m.type = nlmsgError → m.error = 0

/-- The end of an answer. -/
structure IsEnd (m : Msg α) : Prop where
  intact : m.dumpIntr = false
  done : m.type = nlmsgDone

/-- The turns read whole datagrams, all in time. -/
def NoError (b : Scratch) (turns : List (Turn α)) : Prop :=
  ∀ turn ∈ turns, ∃ d, turn = .received d true ∧ b.truncated d = false

/-- The turns hand out the whole answer to the request `seq`, with the parts
`body`, without errors and with nothing truncated. -/
structure Answer (b : Scratch) (seq : BitVec 32) (turns : List (Turn α)) (body : List (Msg α)) :
    Prop where
  noError : NoError b turns
  parts : ∀ m ∈ body, IsPart m
  reply : ∃ done, IsEnd done ∧ ofSeq seq (msgsOf (received turns)) = body ++ [done]

/-! ## What the decoder makes of messages -/

/-- The verdicts on messages, and the objects. -/
def verdicts (decode : Decoder α ω κ) : κ → List (Msg α) → List (Bool × ω)
  | _, [] => []
  | env, m :: msgs => (decode m env).1 :: verdicts decode (decode m env).2 msgs

/-- The objects of the messages that are accepted. -/
def accepted (decode : Decoder α ω κ) (env : κ) (msgs : List (Msg α)) : List ω :=
  ((verdicts decode env msgs).filter Prod.fst).map Prod.snd

/-- What the decoder works with after messages. -/
def envAfter (decode : Decoder α ω κ) (env : κ) (msgs : List (Msg α)) : κ :=
  msgs.foldl (fun env m => (decode m env).2) env

/-- No message is rejected, and there is room for every object in a list that
has `n` already. -/
def AllAccepted (room : ℕ → Bool) (decode : Decoder α ω κ) (n : ℕ) (env : κ)
    (msgs : List (Msg α)) : Prop :=
  (∀ v ∈ verdicts decode env msgs, v.1 = true) ∧ ∀ i < msgs.length, room (n + i) = true

variable {room : ℕ → Bool} {decode : Decoder α ω κ}

theorem verdicts_append (env : κ) (msgs msgs' : List (Msg α)) :
    verdicts decode env (msgs ++ msgs') =
      verdicts decode env msgs ++ verdicts decode (envAfter decode env msgs) msgs' := by
  induction msgs generalizing env with
  | nil => rfl
  | cons m msgs ih =>
    rw [List.cons_append, verdicts, ih, verdicts]
    rfl

theorem accepted_append (env : κ) (msgs msgs' : List (Msg α)) :
    accepted decode env (msgs ++ msgs') =
      accepted decode env msgs ++ accepted decode (envAfter decode env msgs) msgs' := by
  rw [accepted, verdicts_append, List.filter_append, List.map_append]
  rfl

theorem length_verdicts (env : κ) (msgs : List (Msg α)) :
    (verdicts decode env msgs).length = msgs.length := by
  induction msgs generalizing env with
  | nil => rfl
  | cons m msgs ih => rw [verdicts, List.length_cons, ih, List.length_cons]

theorem AllAccepted.length {n : ℕ} {env : κ} {msgs : List (Msg α)}
    (h : AllAccepted room decode n env msgs) : (accepted decode env msgs).length = msgs.length := by
  rw [accepted, List.length_map, List.filter_eq_self.mpr h.1, length_verdicts]

theorem allAccepted_append {n : ℕ} {env : κ} {msgs msgs' : List (Msg α)} :
    AllAccepted room decode n env (msgs ++ msgs') ↔
      AllAccepted room decode n env msgs ∧
        AllAccepted room decode (n + msgs.length) (envAfter decode env msgs) msgs' := by
  unfold AllAccepted
  rw [verdicts_append, List.forall_mem_append, List.length_append]
  constructor
  · rintro ⟨⟨hmsgs, hmsgs'⟩, hroom⟩
    refine ⟨⟨hmsgs, fun i hi => hroom i (by omega)⟩, hmsgs', fun i hi => ?_⟩
    rw [add_assoc]
    exact hroom _ (by omega)
  · rintro ⟨⟨hmsgs, hroom⟩, hmsgs', hroom'⟩
    refine ⟨⟨hmsgs, hmsgs'⟩, fun i hi => ?_⟩
    by_cases hlt : i < msgs.length
    · exact hroom i hlt
    · have hrest := hroom' (i - msgs.length) (by omega)
      rwa [add_assoc, Nat.add_sub_cancel' (not_lt.mp hlt)] at hrest

/-- One message. -/
theorem allAccepted_singleton {n : ℕ} {env : κ} {m : Msg α} :
    AllAccepted room decode n env [m] ↔ (decode m env).1.1 = true ∧ room n = true := by
  unfold AllAccepted
  rw [verdicts, verdicts, List.forall_mem_singleton, List.length_singleton]
  constructor
  · rintro ⟨hverdict, hroom⟩
    exact ⟨hverdict, hroom 0 Nat.zero_lt_one⟩
  · rintro ⟨hverdict, hroom⟩
    refine ⟨hverdict, fun i hi => ?_⟩
    rwa [Nat.lt_one_iff.mp hi]

/-! ## The walk over a datagram -/

/-- The messages of an answer that are decoded. -/
def dataOf (msgs : List (Msg α)) : List (Msg α) := msgs.filter Msg.isData

/-- The variables of the loop after parts of an answer whose messages `data`
were all accepted. -/
structure Walked (decode : Decoder α ω κ) (ctx : List ω × κ) (data : List (Msg α))
    (s : State (List ω × κ)) : Prop where
  ctx_eq : s.ctx = (ctx.1 ++ accepted decode ctx.2 data, envAfter decode ctx.2 data)
  cont : s.cont = true

theorem Walked.trans {ctx : List ω × κ} {data data' : List (Msg α)} {s s' : State (List ω × κ)}
    (h : Walked decode ctx data s) (h' : Walked decode s.ctx data' s') :
    Walked decode ctx (data ++ data') s' := by
  refine ⟨?_, h'.cont⟩
  rw [h'.ctx_eq, h.ctx_eq, accepted_append, List.append_assoc]
  exact Prod.ext rfl (List.foldl_append ..).symm

variable (room decode) in
/-- A part of the answer. -/
theorem processMsg_part {seq : BitVec 32} {s : State (List ω × κ)} {m : Msg α}
    (hseq : m.seq = seq) (hpart : IsPart m) :
    (AllAccepted room decode s.ctx.1.length s.ctx.2 (dataOf [m]) ∧
        ∃ s', processMsg (processAndAddToList room decode) (some seq) s m = .ok s' ∧
          Walked decode s.ctx (dataOf [m]) s') ∨
      ¬ AllAccepted room decode s.ctx.1.length s.ctx.2 (dataOf [m]) ∧
        ∃ s', processMsg (processAndAddToList room decode) (some seq) s m = .error s' := by
  have hskip : m.isData = false → dataOf [m] = [] := fun hdata =>
    List.filter_cons_of_neg (Bool.eq_false_iff.mp hdata)
  have hnil : AllAccepted room decode s.ctx.1.length s.ctx.2 [] := ⟨nofun, nofun⟩
  have hctx : s.ctx = (s.ctx.1 ++ accepted decode s.ctx.2 [], envAfter decode s.ctx.2 []) :=
    Prod.ext (List.append_nil _).symm rfl
  rw [processMsg, if_neg fun h => h.2 (congrArg some hseq.symm), hpart.intact, hpart.multi]
  dsimp only
  rw [if_neg Bool.false_ne_true, if_neg hpart.notDone]
  by_cases hnoop : m.type = nlmsgNoop
  · rw [if_pos hnoop, hskip (by rw [Msg.isData, hnoop]; rfl)]
    exact Or.inl ⟨hnil, _, rfl, hctx, rfl⟩
  rw [if_neg hnoop]
  by_cases herr : m.type = nlmsgError
  · rw [if_pos herr, if_pos (hpart.noError herr), hskip (by rw [Msg.isData, herr]; rfl)]
    exact Or.inl ⟨hnil, _, rfl, hctx, rfl⟩
  rw [if_neg herr]
  have hdata : dataOf [m] = [m] := by
    refine List.filter_cons_of_pos ?_
    rw [Msg.isData, Bool.and_eq_true, Bool.and_eq_true, bne_iff_ne, bne_iff_ne, bne_iff_ne]
    exact ⟨⟨hpart.notDone, hnoop⟩, herr⟩
  rw [hdata, allAccepted_singleton, processAndAddToList]
  by_cases hroom : room s.ctx.1.length = true
  · rw [if_pos hroom]
    cases hout : decode m s.ctx.2 with
    | mk out env =>
      obtain ⟨verdict, obj⟩ := out
      cases verdict with
      | false => exact Or.inr ⟨fun h => Bool.false_ne_true h.1, _, rfl⟩
      | true =>
        have hobjs : accepted decode s.ctx.2 [m] = [obj] := by
          rw [accepted, verdicts, verdicts, hout]
          rfl
        have henv : envAfter decode s.ctx.2 [m] = env := congrArg Prod.snd hout
        exact Or.inl ⟨⟨rfl, hroom⟩, _, rfl, by rw [hobjs, henv], rfl⟩
  · rw [if_neg hroom]
    exact Or.inr ⟨fun h => hroom h.2, _, rfl⟩

/-- Messages of other answers. -/
theorem processMsgs_foreign {func : NlDump.Handler α ω} {seq : BitVec 32} {msgs : List (Msg α)}
    (h : ofSeq seq msgs = []) (s : State ω) : processMsgs func (some seq) msgs s = .ok s := by
  induction msgs with
  | nil => rfl
  | cons m msgs ih =>
    have hnone : ∀ m' ∈ m :: msgs, m'.seq ≠ seq := fun m' hm' hseq =>
      List.not_mem_nil (h ▸ mem_ofSeq.mpr ⟨hm', hseq⟩)
    rw [processMsgs_cons, processMsg_foreign (hnone m List.mem_cons_self)]
    refine ih (List.eq_nil_iff_forall_not_mem.mpr fun m' hm' => ?_)
    obtain ⟨hin, hseq⟩ := mem_ofSeq.mp hm'
    exact hnone m' (List.mem_cons_of_mem _ hin) hseq

variable (room decode) in
/-- The walk over a datagram with parts of the answer. -/
theorem processMsgs_parts {seq : BitVec 32} {s : State (List ω × κ)} {msgs body : List (Msg α)}
    (hbody : ofSeq seq msgs = body) (hparts : ∀ m ∈ body, IsPart m) (hcont : s.cont = true) :
    (AllAccepted room decode s.ctx.1.length s.ctx.2 (dataOf body) ∧
        ∃ s', processMsgs (processAndAddToList room decode) (some seq) msgs s = .ok s' ∧
          Walked decode s.ctx (dataOf body) s') ∨
      ¬ AllAccepted room decode s.ctx.1.length s.ctx.2 (dataOf body) ∧
        ∃ s', processMsgs (processAndAddToList room decode) (some seq) msgs s = .error s' := by
  induction msgs generalizing s body with
  | nil =>
    obtain rfl : [] = body := hbody
    exact Or.inl ⟨⟨nofun, nofun⟩, s, rfl, Prod.ext (List.append_nil _).symm rfl, hcont⟩
  | cons m msgs ih =>
    rw [processMsgs_cons]
    by_cases hseq : m.seq = seq
    · have hcons : ofSeq seq (m :: msgs) = m :: ofSeq seq msgs :=
        List.filter_cons_of_pos (beq_iff_eq.mpr hseq)
      rw [hcons] at hbody
      subst hbody
      obtain ⟨hpart, hrest⟩ := List.forall_mem_cons.mp hparts
      have hdata : dataOf (m :: ofSeq seq msgs) = dataOf [m] ++ dataOf (ofSeq seq msgs) :=
        List.filter_append [m] (ofSeq seq msgs)
      rw [hdata, allAccepted_append]
      obtain ⟨hall, s₁, hs₁, hwalked⟩ | ⟨hnot, s₁, hs₁⟩ :=
        processMsg_part room decode (s := s) hseq hpart
      · have hlen : s₁.ctx.1.length = s.ctx.1.length + (dataOf [m]).length := by
          rw [hwalked.ctx_eq, List.length_append, hall.length]
        have henv : s₁.ctx.2 = envAfter decode s.ctx.2 (dataOf [m]) := by rw [hwalked.ctx_eq]
        rw [hs₁]
        obtain ⟨hall', s₂, hs₂, hwalked'⟩ | ⟨hnot', s₂, hs₂⟩ := ih rfl hrest hwalked.cont
        · rw [hlen, henv] at hall'
          exact Or.inl ⟨⟨hall, hall'⟩, s₂, hs₂, hwalked.trans hwalked'⟩
        · rw [hlen, henv] at hnot'
          exact Or.inr ⟨fun h => hnot' h.2, s₂, hs₂⟩
      · rw [hs₁]
        exact Or.inr ⟨fun h => hnot h.1, s₁, rfl⟩
    · have hskip : ofSeq seq (m :: msgs) = ofSeq seq msgs :=
        List.filter_cons_of_neg (Bool.eq_false_iff.mp (beq_eq_false_iff_ne.mpr hseq))
      rw [hskip] at hbody
      rw [processMsg_foreign hseq]
      exact ih hbody hparts hcont

/-- The variables of the loop after the end of an answer whose messages `data`
were all accepted. -/
structure Ended (decode : Decoder α ω κ) (ctx : List ω × κ) (data : List (Msg α))
    (s : State (List ω × κ)) : Prop where
  ctx_eq : s.ctx = (ctx.1 ++ accepted decode ctx.2 data, envAfter decode ctx.2 data)
  cont : s.cont = false
  rc : s.rc = true

variable (room decode) in
/-- The walk over the datagram with the end of the answer. -/
theorem processMsgs_end {seq : BitVec 32} {s : State (List ω × κ)} {msgs body : List (Msg α)}
    {done : Msg α} (hbody : ofSeq seq msgs = body ++ [done]) (hparts : ∀ m ∈ body, IsPart m)
    (hdone : IsEnd done) (hcont : s.cont = true) :
    (AllAccepted room decode s.ctx.1.length s.ctx.2 (dataOf body) ∧
        ∃ s', processMsgs (processAndAddToList room decode) (some seq) msgs s = .ok s' ∧
          Ended decode s.ctx (dataOf body) s') ∨
      ¬ AllAccepted room decode s.ctx.1.length s.ctx.2 (dataOf body) ∧
        ∃ s', processMsgs (processAndAddToList room decode) (some seq) msgs s = .error s' := by
  obtain ⟨first, rest, rfl, hfirst, hrest⟩ := List.filter_eq_append_iff.mp hbody
  obtain ⟨between, after, rfl, hbetween, hseq, hafter⟩ := List.filter_eq_cons_iff.mp hrest
  have hforeign : ofSeq seq between = [] := List.filter_eq_nil_iff.mpr hbetween
  rw [processMsgs_append]
  obtain ⟨hall, s₁, hs₁, hwalked⟩ | ⟨hnot, s₁, hs₁⟩ :=
    processMsgs_parts room decode (s := s) hfirst hparts hcont
  · refine Or.inl ⟨hall, { s₁ with cont := false, rc := true }, ?_, hwalked.ctx_eq, rfl, rfl⟩
    have hlast : processMsg (processAndAddToList room decode) (some seq) s₁ done =
        .ok { s₁ with cont := false, rc := true } := by
      rw [processMsg, if_neg fun h => h.2 (congrArg some (beq_iff_eq.mp hseq).symm), hdone.intact]
      exact if_pos hdone.done
    rw [hs₁]
    change processMsgs _ _ (between ++ done :: after) s₁ = _
    rw [processMsgs_append, processMsgs_foreign hforeign]
    change processMsgs _ _ (done :: after) s₁ = _
    rw [processMsgs_cons, hlast]
    exact processMsgs_foreign hafter _
  · rw [hs₁]
    exact Or.inr ⟨hnot, s₁, rfl⟩

/-! ## The loop -/

variable (room decode) in
/-- The dump ends with true when every message was accepted, and else with
false. -/
theorem processSocket_spec {b : Scratch} {seq : BitVec 32} {turns : List (Turn α)}
    {body : List (Msg α)} {done : Msg α} {s : State (List ω × κ)} (hturns : NoError b turns)
    (hreply : ofSeq seq (msgsOf (received turns)) = body ++ [done])
    (hparts : ∀ m ∈ body, IsPart m) (hdone : IsEnd done) (hcont : s.cont = true) :
    ∃ out, processSocket (processAndAddToList room decode) b (some seq) s turns = some out ∧
      out.unread <:+ turns ∧
      ((AllAccepted room decode s.ctx.1.length s.ctx.2 (dataOf body) ∧ out.rc = true ∧
          out.ctx = (s.ctx.1 ++ accepted decode s.ctx.2 (dataOf body),
            envAfter decode s.ctx.2 (dataOf body))) ∨
        ¬ AllAccepted room decode s.ctx.1.length s.ctx.2 (dataOf body) ∧ out.rc = false) := by
  induction turns generalizing body s with
  | nil => exact absurd hreply (List.append_ne_nil_of_right_ne_nil _ (List.cons_ne_nil _ _)).symm
  | cons turn turns ih =>
    obtain ⟨⟨d, rfl, hwhole⟩, hrest⟩ := List.forall_mem_cons.mp hturns
    rw [processSocket_received _ _ turns hcont hwhole]
    have hsplit : ofSeq seq d.msgs ++ ofSeq seq (msgsOf (received turns)) = body ++ [done] := by
      rw [← ofSeq_append]
      exact hreply
    rcases List.prefix_concat_iff.mp ⟨_, hsplit⟩ with hend | ⟨body', rfl⟩
    · obtain ⟨hall, s₁, hs₁, hended⟩ | ⟨hnot, s₁, hs₁⟩ :=
        processMsgs_end room decode (s := s) hend hparts hdone hcont
      · rw [hs₁]
        dsimp only
        rw [processSocket_ended _ _ _ _ hended.cont]
        exact ⟨_, rfl, List.suffix_cons _ _, Or.inl ⟨hall, hended.rc, hended.ctx_eq⟩⟩
      · rw [hs₁]
        exact ⟨_, rfl, List.suffix_cons _ _, Or.inr ⟨hnot, rfl⟩⟩
    · have hreply' : ofSeq seq (msgsOf (received turns)) = body' ++ [done] := by
        rw [List.append_assoc] at hsplit
        exact List.append_cancel_left hsplit
      have hpart := List.forall_mem_append.mp hparts
      have hdata : dataOf (ofSeq seq d.msgs ++ body') =
          dataOf (ofSeq seq d.msgs) ++ dataOf body' := List.filter_append ..
      rw [hdata, allAccepted_append]
      obtain ⟨hall, s₁, hs₁, hwalked⟩ | ⟨hnot, s₁, hs₁⟩ :=
        processMsgs_parts room decode (s := s) rfl hpart.1 hcont
      · have hlen : s₁.ctx.1.length = s.ctx.1.length + (dataOf (ofSeq seq d.msgs)).length := by
          rw [hwalked.ctx_eq, List.length_append, hall.length]
        have henv : s₁.ctx.2 = envAfter decode s.ctx.2 (dataOf (ofSeq seq d.msgs)) := by
          rw [hwalked.ctx_eq]
        rw [hs₁]
        dsimp only
        obtain ⟨out, hout, hunread, hresult⟩ := ih (s := s₁) hrest hreply' hpart.2 hwalked.cont
        refine ⟨out, hout, hunread.trans (List.suffix_cons _ _), ?_⟩
        rw [hlen, henv] at hresult
        obtain ⟨hall', hrc, hctx⟩ | ⟨hnot', hrc⟩ := hresult
        · refine Or.inl ⟨⟨hall, hall'⟩, hrc, ?_⟩
          rw [hctx, hwalked.ctx_eq, accepted_append, List.append_assoc]
          exact Prod.ext rfl (List.foldl_append ..).symm
        · exact Or.inr ⟨fun h => hnot' h.2, hrc⟩
      · rw [hs₁]
        exact ⟨_, rfl, List.suffix_cons _ _, Or.inr ⟨fun h => hnot h.1, rfl⟩⟩

/-! ## The two functions -/

theorem NoError.append {b : Scratch} {turns turns' : List (Turn α)} (h : NoError b turns)
    (h' : NoError b turns') : NoError b (turns ++ turns') :=
  List.forall_mem_append.mpr ⟨h, h'⟩

theorem dataOf_append (msgs msgs' : List (Msg α)) :
    dataOf (msgs ++ msgs') = dataOf msgs ++ dataOf msgs' := List.filter_append ..

section ReadAll

variable (newKernel : Bool) (room : ℕ → Bool) (decode : Decoder α ω κ) (list : List ω) (env : κ)

theorem readAllRoutes_iff {turns : List (Turn α)} {body : List (Msg α)}
    (h : Answer (scratch newKernel) routeReqId turns body) :
    readAllRoutes newKernel true true room decode list env turns =
        some (true, list ++ accepted decode env (dataOf body)) ↔
      AllAccepted room decode list.length env (dataOf body) := by
  obtain ⟨hturns, hparts, done, hdone, hreply⟩ := h
  obtain ⟨out, hout, -, ⟨hall, hrc, hctx⟩ | ⟨hnot, hrc⟩⟩ :=
    processSocket_spec room decode (s := .initial (list, env)) hturns hreply hparts hdone rfl
  · refine iff_of_true ?_ hall
    rw [readAllRoutes, hout]
    change some (out.rc, out.ctx.1) = _
    rw [hrc, hctx]
    rfl
  · refine iff_of_false (fun heq => ?_) hnot
    rw [readAllRoutes, hout] at heq
    change some (out.rc, out.ctx.1) = _ at heq
    rw [hrc] at heq
    cases heq

theorem readAllNeighbours_iff {turns turns6 : List (Turn α)} {body body6 : List (Msg α)}
    (h : Answer (scratch newKernel) neighReqId turns body)
    (h6 : Answer (scratch newKernel) neighReqId6 turns6 body6)
    (hfirst : ofSeq neighReqId6 (msgsOf (received turns)) = []) :
    readAllNeighbours newKernel true true true room decode list env turns turns6 =
        some (true, list ++ accepted decode env (dataOf (body ++ body6))) ↔
      AllAccepted room decode list.length env (dataOf (body ++ body6)) := by
  obtain ⟨hturns, hparts, done, hdone, hreply⟩ := h
  obtain ⟨hturns6, hparts6, done6, hdone6, hreply6⟩ := h6
  rw [dataOf_append, accepted_append, allAccepted_append]
  obtain ⟨out, hout, ⟨used, hunread⟩, ⟨hall, hrc, hctx⟩ | ⟨hnot, hrc⟩⟩ :=
    processSocket_spec room decode (s := .initial (list, env)) hturns hreply hparts hdone rfl
  · -- what is left of the first answer has nothing of the second
    have hleft : ofSeq neighReqId6 (msgsOf (received out.unread)) = [] := by
      rw [← hunread, received_append, msgsOf, List.flatMap_append] at hfirst
      rw [ofSeq_append] at hfirst
      exact (List.append_eq_nil_iff.mp hfirst).2
    have hreply' : ofSeq neighReqId6 (msgsOf (received (out.unread ++ turns6))) =
        body6 ++ [done6] := by
      rw [received_append, msgsOf, List.flatMap_append, ofSeq_append]
      rw [msgsOf] at hleft
      rw [hleft]
      exact hreply6
    have hturns' : NoError (scratch newKernel) (out.unread ++ turns6) := by
      refine NoError.append (fun turn hturn => hturns turn ?_) hturns6
      rw [← hunread]
      exact List.mem_append_right _ hturn
    have hlen : out.ctx.1.length = list.length + (dataOf body).length := by
      rw [hctx, List.length_append]
      exact congrArg _ hall.length
    have henv : out.ctx.2 = envAfter decode env (dataOf body) := by rw [hctx]; rfl
    have hlist : out.ctx.1 = list ++ accepted decode env (dataOf body) := by rw [hctx]; rfl
    have hrun : readAllNeighbours newKernel true true true room decode list env turns turns6 =
        (processSocket (processAndAddToList room decode) (scratch newKernel) (some neighReqId6)
          (.initial out.ctx) (out.unread ++ turns6)).map fun out => (out.rc, out.ctx.1) := by
      rw [readAllNeighbours, hout]
      change (if out.rc && true then _ else _) = _
      rw [hrc]
      rfl
    obtain ⟨out6, hout6, -, ⟨hall6, hrc6, hctx6⟩ | ⟨hnot6, hrc6⟩⟩ :=
      processSocket_spec room decode (s := .initial out.ctx) hturns' hreply' hparts6 hdone6 rfl
    · have hall6' : AllAccepted room decode out.ctx.1.length out.ctx.2 (dataOf body6) := hall6
      rw [hlen, henv] at hall6'
      refine iff_of_true ?_ ⟨hall, hall6'⟩
      have hlist6 : out6.ctx.1 = out.ctx.1 ++ accepted decode out.ctx.2 (dataOf body6) := by
        rw [hctx6]
        rfl
      rw [hrun, hout6]
      change some (out6.rc, out6.ctx.1) = _
      rw [hrc6, hlist6, hlist, henv, List.append_assoc]
    · have hnot6' : ¬ AllAccepted room decode out.ctx.1.length out.ctx.2 (dataOf body6) := hnot6
      rw [hlen, henv] at hnot6'
      refine iff_of_false (fun heq => ?_) fun h => hnot6' h.2
      rw [hrun, hout6] at heq
      change some (out6.rc, out6.ctx.1) = _ at heq
      rw [hrc6] at heq
      cases heq
  · refine iff_of_false (fun heq => ?_) fun h => hnot h.1
    rw [readAllNeighbours, hout] at heq
    change (if out.rc && true then _ else _) = _ at heq
    rw [hrc] at heq
    cases heq

end ReadAll

/-- Both functions return true with one object for each message that is
accepted, and no others, exactly when no message is rejected and there is room
in the list. -/
theorem read_all_iff (newKernel : Bool) (room : ℕ → Bool) (routeInfo neighInfo : Decoder α ω κ)
    (list : List ω) (env : κ) :
    (∀ turns body, Answer (scratch newKernel) routeReqId turns body →
      (readAllRoutes newKernel true true room routeInfo list env turns =
          some (true, list ++ accepted routeInfo env (dataOf body)) ↔
        AllAccepted room routeInfo list.length env (dataOf body))) ∧
    ∀ turns turns6 body body6, Answer (scratch newKernel) neighReqId turns body →
      Answer (scratch newKernel) neighReqId6 turns6 body6 →
      ofSeq neighReqId6 (msgsOf (received turns)) = [] →
      (readAllNeighbours newKernel true true true room neighInfo list env turns turns6 =
          some (true, list ++ accepted neighInfo env (dataOf (body ++ body6))) ↔
        AllAccepted room neighInfo list.length env (dataOf (body ++ body6))) :=
  ⟨fun _ _ h => readAllRoutes_iff newKernel room routeInfo list env h,
    fun _ _ _ _ h h6 hfirst => readAllNeighbours_iff newKernel room neighInfo list env h h6 hfirst⟩

theorem holds_parts (type type' : BitVec 16) (seq : BitVec 32) (data data' : ℕ) :
    Holds 40 [part type seq data, part type' seq data'] := by
  change 16 ≤ 20 ∧ 20 ≤ 40 ∧ 16 ≤ 20 ∧ 20 ≤ 40 - padded 20 ∧ 40 - padded 20 - padded 20 < 16
  decide

/-- The two datagrams of an answer with three parts. -/
def firstParts (seq : BitVec 32) : Datagram ℕ where
  msgs := [part 24 seq 1, part 24 seq 2]
  size := 40
  headLen := 20
  holds := holds_parts _ _ _ _ _
  head := fun _ h => Option.some_inj.mp h ▸ rfl

def lastParts (seq : BitVec 32) : Datagram ℕ where
  msgs := [part 24 seq 3, part nlmsgDone seq 0]
  size := 40
  headLen := 20
  holds := holds_parts _ _ _ _ _
  head := fun _ h => Option.some_inj.mp h ▸ rfl

def threeParts (seq : BitVec 32) : List (Msg ℕ) := [part 24 seq 1, part 24 seq 2, part 24 seq 3]

def twoDatagrams (seq : BitVec 32) : List (Turn ℕ) :=
  [.received (firstParts seq) true, .received (lastParts seq) true]

theorem part_intact (type : BitVec 16) (seq : BitVec 32) (data : ℕ) :
    (part type seq data).dumpIntr = false := by
  change (nlmFMulti &&& nlmFDumpIntr != 0) = false
  decide

theorem part_isPart (seq : BitVec 32) (data : ℕ) : IsPart (part 24 seq data) := by
  have hneq : (24 : BitVec 16) ≠ nlmsgDone ∧ (24 : BitVec 16) ≠ nlmsgError := by decide
  exact ⟨by change (nlmFMulti &&& nlmFMulti != 0) = true; decide, part_intact _ _ _, hneq.1,
    fun h => absurd h hneq.2⟩

theorem twoDatagrams_answer (seq : BitVec 32) :
    Answer (scratch true) seq (twoDatagrams seq) (threeParts seq) := by
  refine ⟨fun turn hturn => ?_, fun m hm => ?_, part nlmsgDone seq 0,
    ⟨part_intact _ _ _, rfl⟩, ?_⟩
  · obtain rfl | rfl := List.mem_pair.mp hturn
    · exact ⟨_, rfl, rfl⟩
    · exact ⟨_, rfl, rfl⟩
  · obtain ⟨data, rfl⟩ : ∃ data, m = part 24 seq data := by
      rcases List.mem_cons.mp hm with rfl | hm
      · exact ⟨_, rfl⟩
      · obtain rfl | rfl := List.mem_pair.mp hm
        · exact ⟨_, rfl⟩
        · exact ⟨_, rfl⟩
    exact part_isPart seq data
  · refine List.filter_eq_self.mpr fun m hm => ?_
    have hmem : m ∈ threeParts seq ++ [part nlmsgDone seq 0] := hm
    simp only [threeParts, List.cons_append, List.nil_append, List.mem_cons, List.not_mem_nil,
      or_false] at hmem
    obtain rfl | rfl | rfl | rfl := hmem <;> exact beq_self_eq_true seq

theorem read_all_small :
    (readAllRoutes true true true (fun _ => true) (fun m _ => ((m.data < 4, m.data), ())) [] ()
        (twoDatagrams routeReqId) = some (true, [1, 2, 3]) ↔
      AllAccepted (fun _ => true) (fun m _ => ((m.data < 4, m.data), ())) 0 ()
        (threeParts routeReqId)) ∧
    (readAllNeighbours true true true true (fun _ => true)
        (fun m _ => ((m.data ≠ 2, m.data), ())) [] () (twoDatagrams neighReqId)
        (twoDatagrams neighReqId6) = some (true, [1, 3, 1, 3]) ↔
      AllAccepted (fun _ => true) (fun m _ => ((m.data ≠ 2, m.data), ())) 0 ()
        (threeParts neighReqId ++ threeParts neighReqId6)) :=
  ⟨(read_all_iff true (fun _ => true) (fun m _ => ((m.data < 4, m.data), ()))
      (fun m _ => ((m.data ≠ 2, m.data), ())) [] ()).1 _ _ (twoDatagrams_answer routeReqId),
    (read_all_iff true (fun _ => true) (fun m _ => ((m.data < 4, m.data), ()))
      (fun m _ => ((m.data ≠ 2, m.data), ())) [] ()).2 _ _ _ _ (twoDatagrams_answer neighReqId)
      (twoDatagrams_answer neighReqId6) rfl⟩

/-! ## A route that is not for the hardware -/

open RouteInfo

/-- A message, from its bytes. -/
def ofMem (mem : Memory) : Msg Memory :=
  ⟨(load32 mem 0).toNat, load16 mem 4, load16 mem 6, load32 mem 8, load32 mem 16, mem⟩

/-- `nl_to_route_info` as the decoder of a dump. -/
def routeInfo (z : Sizes) (env : RouteInfo.Env) : Decoder Memory Info Unit := fun m _ =>
  let out := nlToRouteInfo z env env.defaultVrfId m.data
  ((match out with | .ok _ => true | .error _ => false, infoOf out), ())

/-- The local route to 127.0.0.0/8, which every dump of IPv4 routes has. -/
def loopbackRoute : Memory :=
  memOf ([44, 0, 0, 0, 24, 0, 2, 0, 1, 1, 0, 0, 0, 0, 0, 0] ++
    [2, 8, 0, 0, 255, 2, 254, 2, 0, 0, 0, 0] ++ [8, 0, 1, 0, 127, 0, 0, 0] ++
    [8, 0, 4, 0, 1, 0, 0, 0])

/-- The end of a dump. -/
def dumpDone : Memory := memOf [20, 0, 0, 0, 3, 0, 2, 0, 1, 1, 0, 0, 0, 0, 0, 0, 0, 0, 0, 0]

def loopbackDump : Datagram Memory where
  msgs := [ofMem loopbackRoute, ofMem twoGateways, ofMem dumpDone]
  size := 128
  headLen := 44
  holds := by decide +kernel
  head := fun _ h => Option.some_inj.mp h ▸ (by decide +kernel)

/-- The dump ends at the first route: the function returns false, with an
object that is not for the hardware, and without the next route. -/
theorem loopbackDump_ends_early :
    Answer (scratch true) routeReqId [.received loopbackDump true]
        [ofMem loopbackRoute, ofMem twoGateways] ∧
      readAllRoutes true true true (fun _ => true) (routeInfo kernelSizes noNames) [] ()
          [.received loopbackDump true] =
        some (false, [infoOf (nlToRouteInfo kernelSizes noNames 0 loopbackRoute)]) ∧
      accepted (routeInfo kernelSizes noNames) () [ofMem loopbackRoute, ofMem twoGateways] =
        [infoOf (nlToRouteInfo kernelSizes noNames 0 twoGateways)] := by
  have hparts : ∀ m ∈ [ofMem loopbackRoute, ofMem twoGateways], IsPart m := by
    intro m hm
    obtain rfl | rfl := List.mem_pair.mp hm
    · exact ⟨by decide +kernel, by decide +kernel, by decide +kernel,
        fun h => absurd h (by decide +kernel)⟩
    · exact ⟨by decide +kernel, by decide +kernel, by decide +kernel,
        fun h => absurd h (by decide +kernel)⟩
  have hreply : ofSeq routeReqId loopbackDump.msgs =
      [ofMem loopbackRoute, ofMem twoGateways] ++ [ofMem dumpDone] := by
    refine List.filter_eq_self.mpr (List.forall_mem_cons.mpr ⟨by decide +kernel,
      List.forall_mem_cons.mpr ⟨by decide +kernel, List.forall_mem_singleton.mpr ?_⟩⟩)
    decide +kernel
  refine ⟨⟨fun turn hturn => ⟨_, List.mem_singleton.mp hturn, by decide +kernel⟩, hparts,
    ofMem dumpDone, ⟨by decide +kernel, by decide +kernel⟩, hreply⟩, ?_, ?_⟩
  · decide +kernel
  · decide +kernel

end OpxNasLinux.DumpLists
