import OpxNasLinux.McastNetlink

/-!
# NFLOG messages

`nas_nl_process_nflog_msg` takes a packet out of an NFLOG message, and
`nas_os_nl_get_nflog_params` goes over the messages of a buffer.  The length of
an attribute counts its header, and the copy of the packet takes it for the
length of the data.

* `processNflogMsg` is the first function, with the bytes that it reads, and
  `getNflogParams` the second one, with the messages that it comes to.
* `attrLoop_reads` says when the loop stays in its message, and
  `attrLoop_payload` what it leaves in the parameters.
* `nflog_payload_iff` says when the packet is the one of the message.
-/

namespace OpxNasLinux.Nflog

open NlMsg Netlink
open RouteInfo (visits)
open McastNetlink (attrLen nlaNext_eq nlaOk_attrLen visits_cons visits_nil)
open Rta (span span_inMsg mem_span InMsg)

/-! ## The code -/

def nlNflogPayloadLen : ℕ := 200
def nfulaPacketHdr : ℕ := 1
def nfulaIfindexOutdev : ℕ := 5
def nfulaPayload : ℕ := 9

/-- `nas_nflog_params_t`. -/
structure Params where
  hwProtocol : BitVec 16
  outIfindex : BitVec 32
  payload : Fin nlNflogPayloadLen → UInt8
  payloadLen : ℤ

/-- `NFA_TYPE`. -/
def nfaType (mem : Memory) (p : ℤ) : ℕ := (load16 mem (p + 2) &&& 0x7fff#16).toNat

/-- `NFA_OK`. -/
def nfaOk (mem : Memory) (c : Cursor) : Bool :=
  decide (0 < c.rem.toInt) && (decide (4 ≤ attrLen mem c.pos) &&
    decide ((attrLen mem c.pos : ℤ) ≤ c.rem.toInt))

/-- The bytes that `NFA_OK` reads.  One byte is enough for it to read the
length. -/
def nfaOkReads (c : Cursor) : List ℤ := if 0 < c.rem.toInt then span c.pos 2 else []

/-- `ntohl` of a field. -/
def loadBe32 (mem : Memory) (p : ℤ) : BitVec 32 :=
  (mem p).toBitVec ++ (mem (p + 1)).toBitVec ++ ((mem (p + 2)).toBitVec ++ (mem (p + 3)).toBitVec)

/-- The parameters, and the bytes of the message that are read. -/
structure St where
  params : Params
  reads : List ℤ

def St.read (s : St) (bs : List ℤ) : St := { s with reads := s.reads ++ bs }

/-- An `NFULA_PAYLOAD` that the function returns at. -/
def tooLong (mem : Memory) (p : ℤ) : Bool :=
  nfaType mem p == nfulaPayload && decide (nlNflogPayloadLen < attrLen mem p)

/-- The `memcpy` and the length. -/
def Params.copy (r : Params) (mem : Memory) (p : ℤ) : Params :=
  { r with
    payload := fun i => if i.val < attrLen mem p then mem (nlaData p + i) else r.payload i
    payloadLen := attrLen mem p }

/-- The body of the loop.  An error is `return`. -/
def attrBody (mem : Memory) (p : ℤ) (s : St) : Except St St :=
  let s := s.read (span (p + 2) 2)
  if nfaType mem p = nfulaPacketHdr then
    .ok { (s.read (span (nlaData p) 2)) with
      params := { s.params with hwProtocol := load16 mem (nlaData p) } }
  else if nfaType mem p = nfulaIfindexOutdev then
    .ok { (s.read (span (nlaData p) 4)) with
      params := { s.params with outIfindex := loadBe32 mem (nlaData p) } }
  else if nfaType mem p = nfulaPayload then
    if nlNflogPayloadLen < attrLen mem p then .error s
    else
      .ok { (s.read (span (nlaData p) (attrLen mem p))) with params := s.params.copy mem p }
  else .ok s

/-- The loop, in so many turns at most. -/
def attrLoop (mem : Memory) : ℕ → Cursor → St → St
  | 0, _, s => s
  | turns + 1, c, s =>
    let s := s.read (nfaOkReads c)
    if nfaOk mem c then
      match attrBody mem c.pos s with
      | .error s => s
      | .ok s => attrLoop mem turns (nlaNext mem c) s
    else s

/-- `nlmsg_len`. -/
def len (mem : Memory) : ℕ := msgLen mem 0

/-- The first attribute, behind `NLMSG_SPACE(sizeof(struct nfgenmsg))`. -/
def start (mem : Memory) : Cursor := ⟨20, load32 mem 0 - 20#32⟩

/-- `nas_nl_process_nflog_msg`, for the message at `0`. -/
def processNflogMsg (mem : Memory) (params : Params) : St :=
  attrLoop mem ((start mem).rem.toInt.toNat + 1) (start mem) ⟨params, span 0 4⟩

/-- What lies in a buffer from here on. -/
def behind (mem : Memory) (p : ℤ) : Memory := fun b => mem (p + b)

/-- `NLMSG_OK`, with the size in an `int`. -/
def msgOk (mem : Memory) (c : Cursor) : Bool :=
  decide ((nlmsgHdrLen : ℤ) ≤ c.rem.toInt) && (decide (nlmsgHdrLen ≤ len (behind mem c.pos)) &&
    decide (len (behind mem c.pos) ≤ c.rem.toNat))

/-- `NLMSG_NEXT`. -/
def msgNext (mem : Memory) (c : Cursor) : Cursor :=
  let totlen := align (load32 mem c.pos)
  ⟨c.pos + totlen.toNat, c.rem - totlen⟩

/-- An acknowledgement, an error or the end of a dump. -/
def ends (mem : Memory) (p : ℤ) : Bool :=
  load16 mem (p + 4) == nlmsgError || load16 mem (p + 4) == nlmsgDone

def multi (mem : Memory) (p : ℤ) : Bool := load16 mem (p + 6) &&& nlmFMulti != 0

/-- A message of the buffer, the parameters that it finds and what it makes of
them. -/
structure Turn where
  pos : ℤ
  before : Params
  after : St

/-- The loop over the messages, in so many turns at most. -/
def msgLoop (mem : Memory) : ℕ → Cursor → Params → List Turn
  | 0, _, _ => []
  | turns + 1, c, params =>
    if msgOk mem c = false ∨ ends mem c.pos = true then []
    else
      let after := processNflogMsg (behind mem c.pos) params
      ⟨c.pos, params, after⟩ ::
        if multi mem c.pos then msgLoop mem turns (msgNext mem c) after.params else []

/-- `nas_os_nl_get_nflog_params`: the parameters and the messages that it took
them from. -/
def getNflogParams (mem : Memory) (size : BitVec 32) (params : Params) : Params × List Turn :=
  let turns := msgLoop mem size.toInt.toNat ⟨0, size⟩ params
  ((turns.getLast?.map fun t => t.after.params).getD params, turns)

/-! ## What it has to do -/

/-- A netlink message, as far as `NLMSG_OK` goes. -/
def IsMsg (mem : Memory) : Prop := nlmsgHdrLen ≤ len mem ∧ len mem < 2 ^ 31

instance (mem : Memory) : Decidable (IsMsg mem) := inferInstanceAs (Decidable (_ ∧ _))

/-- The attributes of the message. -/
def attrs (mem : Memory) : List ℤ := visits mem (start mem)

/-- The data messages of a buffer, from the loop variables on.  A message
without `NLM_F_MULTI` is the last one. -/
inductive DataMsgs (mem : Memory) : Cursor → List ℤ → Prop where
  | stop {c : Cursor} : msgOk mem c = false → DataMsgs mem c []
  | ends {c : Cursor} : msgOk mem c = true → ends mem c.pos = true → DataMsgs mem c []
  | single {c : Cursor} : msgOk mem c = true → Nflog.ends mem c.pos = false →
      multi mem c.pos = false → DataMsgs mem c [c.pos]
  | more {c : Cursor} {ms : List ℤ} : msgOk mem c = true → Nflog.ends mem c.pos = false →
      multi mem c.pos = true → DataMsgs mem (msgNext mem c) ms → DataMsgs mem c (c.pos :: ms)

/-- The last `NFULA_PAYLOAD` with data that has room in the parameters. -/
def target (mem : Memory) : Option ℤ :=
  ((attrs mem).filter fun p =>
    nfaType mem p == nfulaPayload && decide (attrLen mem p ≤ nlNflogPayloadLen + 4)).getLast?

/-- The parameters hold the data of the attribute. -/
def Delivers (mem : Memory) (t : ℤ) (r : Params) : Prop :=
  r.payloadLen = (attrLen mem t : ℤ) - 4 ∧
    ∀ i : Fin nlNflogPayloadLen, (i : ℤ) < r.payloadLen → r.payload i = mem (nlaData t + i)

/-- The bytes that are read are those of the message, and its packet is
delivered. -/
def Right (mem : Memory) (reads : List ℤ) (r : Params) : Prop :=
  (∀ b ∈ reads, InMsg (len mem) b) ∧ ∀ t, target mem = some t → Delivers mem t r

/-! ## When it does -/

/-- The attributes that the loop goes over before it returns. -/
def handledOf (mem : Memory) (ps : List ℤ) : List ℤ := ps.takeWhile fun p => !tooLong mem p

/-- The bytes behind its header that the loop reads of an attribute. -/
def dataSize (mem : Memory) (p : ℤ) : ℕ :=
  if nfaType mem p = nfulaPacketHdr then 2
  else if nfaType mem p = nfulaIfindexOutdev then 4
  else if nfaType mem p = nfulaPayload then attrLen mem p
  else 0

/-- The end of attributes that lie one behind the other. -/
def endOf (mem : Memory) : ℤ → List ℤ → ℤ
  | lo, [] => lo
  | _, p :: ps => endOf mem (p + padded (attrLen mem p)) ps

/-- What the loop reads has room before `n`.  A single byte behind the last
attribute does not have a length. -/
def ReadsFit (mem : Memory) (n lo : ℤ) (ps : List ℤ) : Prop :=
  (∀ p ∈ handledOf mem ps, nlaData p + dataSize mem p ≤ n) ∧
    (handledOf mem ps = ps → endOf mem lo ps + 1 ≠ n)

/-- The last packet that is copied. -/
def storedOf (mem : Memory) (ps : List ℤ) : Option ℤ :=
  ((handledOf mem ps).filter fun p => nfaType mem p == nfulaPayload).getLast?

/-- `t` is not copied, and what is there instead is as long and the same. -/
def ByChance (mem : Memory) (before : Params) (t : ℤ) : Prop :=
  match storedOf mem (attrs mem) with
  | some q => attrLen mem q + 4 = attrLen mem t ∧
      ∀ i : Fin nlNflogPayloadLen, i.val < attrLen mem q →
        mem (nlaData q + i) = mem (nlaData t + i)
  | none => Delivers mem t before

/-- When the function does what it has to.  An attribute that is copied leaves
four bytes too many. -/
def Meets (mem : Memory) (before : Params) : Prop :=
  ReadsFit mem (len mem) 20 (attrs mem) ∧ ∀ t, target mem = some t → ByChance mem before t

/-! ## A turn of the loop -/

section Turn

variable {mem : Memory} {p : ℤ}

@[simp] theorem St.read_params (s : St) (bs : List ℤ) : (s.read bs).params = s.params := rfl

@[simp] theorem St.read_reads (s : St) (bs : List ℤ) : (s.read bs).reads = s.reads ++ bs := rfl

/-- The packet in the parameters. -/
def Params.SamePacket (r r' : Params) : Prop :=
  r.payload = r'.payload ∧ r.payloadLen = r'.payloadLen

theorem tooLong_iff :
    tooLong mem p = true ↔ nfaType mem p = nfulaPayload ∧ nlNflogPayloadLen < attrLen mem p := by
  unfold tooLong
  rw [Bool.and_eq_true, beq_iff_eq, decide_eq_true_iff]

theorem attrBody_tooLong (s : St) (h : tooLong mem p = true) :
    attrBody mem p s = .error (s.read (span (p + 2) 2)) := by
  obtain ⟨htype, hlen⟩ := tooLong_iff.mp h
  unfold attrBody
  rw [htype, if_neg (by decide), if_neg (by decide), if_pos rfl, if_pos hlen]

/-- What a turn reads, and that only a packet changes the packet. -/
theorem attrBody_ok (s : St) (h : tooLong mem p = false) :
    ∃ s', attrBody mem p s = .ok s' ∧
      s'.reads = s.reads ++ span (p + 2) 2 ++ span (nlaData p) (dataSize mem p) ∧
      (nfaType mem p = nfulaPayload → s'.params.SamePacket (s.params.copy mem p)) ∧
      (nfaType mem p ≠ nfulaPayload → s'.params.SamePacket s.params) := by
  have hshort : nfaType mem p = nfulaPayload → ¬ nlNflogPayloadLen < attrLen mem p :=
    fun htype hlen => by simp [tooLong_iff.mpr ⟨htype, hlen⟩] at h
  unfold attrBody dataSize
  split_ifs with hhdr hdev hpayload hlong
  · exact ⟨_, rfl, rfl, fun htype => absurd (hhdr.symm.trans htype) (by decide),
      fun _ => ⟨rfl, rfl⟩⟩
  · exact ⟨_, rfl, rfl, fun htype => absurd (hdev.symm.trans htype) (by decide),
      fun _ => ⟨rfl, rfl⟩⟩
  · exact absurd hlong (hshort hpayload)
  · exact ⟨_, rfl, rfl, fun _ => ⟨rfl, rfl⟩, fun htype => absurd hpayload htype⟩
  · exact ⟨_, rfl, by simp [span], fun htype => absurd htype hpayload, fun _ => ⟨rfl, rfl⟩⟩

/-- The order of the tests of `NFA_OK` does not matter for its result. -/
theorem nfaOk_eq (mem : Memory) (c : Cursor) : nfaOk mem c = nlaOk mem c := by
  rw [Bool.eq_iff_iff, nlaOk_attrLen]
  unfold nfaOk
  rw [Bool.and_eq_true, Bool.and_eq_true, decide_eq_true_iff, decide_eq_true_iff,
    decide_eq_true_iff]
  omega

/-- The loop ends here. -/
theorem attrLoop_end {c : Cursor} (turns : ℕ) (s : St) (h : nlaOk mem c = false) :
    attrLoop mem (turns + 1) c s = s.read (nfaOkReads c) := by
  rw [attrLoop, nfaOk_eq, h]
  rfl

theorem nfaOkReads_of_ok {c : Cursor} (h : nlaOk mem c = true) : nfaOkReads c = span c.pos 2 := by
  obtain ⟨hmin, hin⟩ := nlaOk_attrLen.mp h
  unfold nfaOkReads
  rw [if_pos (by omega)]

/-- The function returns at this attribute. -/
theorem attrLoop_return {c : Cursor} (turns : ℕ) (s : St) (h : nlaOk mem c = true)
    (hlong : tooLong mem c.pos = true) :
    attrLoop mem (turns + 1) c s = (s.read (span c.pos 2)).read (span (c.pos + 2) 2) := by
  rw [attrLoop, nfaOk_eq, h, nfaOkReads_of_ok h, attrBody_tooLong _ hlong]
  rfl

/-- The loop goes on to the next attribute. -/
theorem attrLoop_turn {c : Cursor} (turns : ℕ) (s : St) (h : nlaOk mem c = true)
    (hlong : tooLong mem c.pos = false) :
    ∃ s', attrLoop mem (turns + 1) c s = attrLoop mem turns (nlaNext mem c) s' ∧
      s'.reads = s.reads ++ span c.pos 2 ++ span (c.pos + 2) 2 ++
        span (nlaData c.pos) (dataSize mem c.pos) ∧
      (nfaType mem c.pos = nfulaPayload → s'.params.SamePacket (s.params.copy mem c.pos)) ∧
      (nfaType mem c.pos ≠ nfulaPayload → s'.params.SamePacket s.params) := by
  obtain ⟨s', hbody, hreads, hpacket, hother⟩ := attrBody_ok (s.read (span c.pos 2)) hlong
  refine ⟨s', ?_, hreads, hpacket, hother⟩
  rw [attrLoop, nfaOk_eq, h, nfaOkReads_of_ok h, hbody]
  rfl

/-! ## The loop -/

theorem attrLoop_grows (turns : ℕ) (c : Cursor) (s : St) :
    ∀ b ∈ s.reads, b ∈ (attrLoop mem turns c s).reads := by
  induction turns generalizing c s with
  | zero => exact fun _ => id
  | succ turns ih =>
    intro b hb
    cases hok : nlaOk mem c with
    | false =>
      rw [attrLoop_end turns s hok]
      exact List.mem_append_left _ hb
    | true =>
      cases hlong : tooLong mem c.pos with
      | true =>
        rw [attrLoop_return turns s hok hlong]
        simp [hb]
      | false =>
        obtain ⟨s', hturn, hreads, -, -⟩ := attrLoop_turn turns s hok hlong
        rw [hturn]
        exact ih _ s' b (by simp [hreads, hb])

theorem handledOf_long {ps : List ℤ} (h : tooLong mem p = true) : handledOf mem (p :: ps) = [] := by
  unfold handledOf
  rw [List.takeWhile_cons, h]
  rfl

theorem handledOf_cons {ps : List ℤ} (h : tooLong mem p = false) :
    handledOf mem (p :: ps) = p :: handledOf mem ps := by
  unfold handledOf
  rw [List.takeWhile_cons, h]
  rfl

theorem readsFit_long {n lo : ℤ} {ps : List ℤ} (h : tooLong mem p = true) :
    ReadsFit mem n lo (p :: ps) := by
  unfold ReadsFit
  rw [handledOf_long h]
  exact ⟨by simp, by simp⟩

theorem readsFit_cons {n lo : ℤ} {ps : List ℤ} (h : tooLong mem p = false) :
    ReadsFit mem n lo (p :: ps) ↔
      nlaData p + dataSize mem p ≤ n ∧ ReadsFit mem n (p + padded (attrLen mem p)) ps := by
  unfold ReadsFit
  rw [handledOf_cons h, List.forall_mem_cons, List.cons.injEq, endOf]
  tauto

/-- The last test of the loop. -/
theorem nfaOkReads_inMsg {c : Cursor} {n : ℕ} (hpos : 0 ≤ c.pos)
    (hsum : c.pos + c.rem.toInt = n) :
    (∀ b ∈ nfaOkReads c, InMsg n b) ↔ c.pos + 1 ≠ n := by
  unfold nfaOkReads
  split_ifs with hrem
  · rw [span_inMsg hpos (by omega)]
    omega
  · refine iff_of_true (by simp) (by omega)

/-- When the loop stays in its message. -/
theorem attrLoop_reads {n : ℕ} (turns : ℕ) {c : Cursor} {s : St}
    (hturns : c.rem.toInt.toNat < turns) (hpos : 0 ≤ c.pos) (hsum : c.pos + c.rem.toInt = n)
    (hrem : -65536 ≤ c.rem.toInt) (hs : ∀ b ∈ s.reads, InMsg n b) :
    (∀ b ∈ (attrLoop mem turns c s).reads, InMsg n b) ↔
      ReadsFit mem n c.pos (visits mem c) := by
  induction turns generalizing c s with
  | zero => omega
  | succ turns ih =>
    cases hok : nlaOk mem c with
    | false =>
      rw [attrLoop_end turns s hok, visits_nil hok, St.read_reads, List.forall_mem_append,
        nfaOkReads_inMsg hpos hsum]
      show _ ↔ (∀ p ∈ ([] : List ℤ), _) ∧ (([] : List ℤ) = [] → c.pos + 1 ≠ n)
      exact ⟨fun h => ⟨by simp, fun _ => h.2⟩, fun h => ⟨hs, h.2 rfl⟩⟩
    | true =>
      obtain ⟨hmin, hin⟩ := nlaOk_attrLen.mp hok
      obtain ⟨hpos', hrem'⟩ := nlaNext_eq mem hrem
      have hle := le_padded (attrLen mem c.pos)
      have hclose := padded_lt (attrLen mem c.pos)
      have hhead : ∀ b ∈ s.reads ++ span c.pos 2 ++ span (c.pos + 2) 2, InMsg n b := by
        rw [List.forall_mem_append, List.forall_mem_append, span_inMsg hpos (by omega),
          span_inMsg (by omega) (by omega)]
        exact ⟨⟨hs, by omega⟩, by omega⟩
      rw [visits_cons hok]
      cases hlong : tooLong mem c.pos with
      | true =>
        rw [attrLoop_return turns s hok hlong]
        exact iff_of_true hhead (readsFit_long hlong)
      | false =>
        obtain ⟨s', hturn, hreads, -, -⟩ := attrLoop_turn turns s hok hlong
        have hdata : (∀ b ∈ s'.reads, InMsg n b) ↔
            nlaData c.pos + dataSize mem c.pos ≤ n := by
          rw [hreads, List.forall_mem_append]
          unfold nlaData
          rw [span_inMsg (by omega) (by omega)]
          exact and_iff_right hhead
        rw [hturn, readsFit_cons hlong, ← hdata, ← hpos']
        constructor
        · intro hall
          have hs' : ∀ b ∈ s'.reads, InMsg n b := fun b hb => hall b (attrLoop_grows _ _ _ b hb)
          exact ⟨hs', (ih (by omega) (by omega) (by omega) (by omega) hs').mp hall⟩
        · rintro ⟨hs', hrest⟩
          exact (ih (by omega) (by omega) (by omega) (by omega) hs').mpr hrest

theorem storedOf_long {ps : List ℤ} (h : tooLong mem p = true) : storedOf mem (p :: ps) = none := by
  unfold storedOf
  rw [handledOf_long h]
  rfl

theorem storedOf_packet {ps : List ℤ} (h : tooLong mem p = false)
    (htype : nfaType mem p = nfulaPayload) :
    storedOf mem (p :: ps) = some ((storedOf mem ps).getD p) := by
  unfold storedOf
  rw [handledOf_cons h, List.filter_cons_of_pos (by simpa using htype), List.getLast?_cons]

theorem storedOf_other {ps : List ℤ} (h : tooLong mem p = false)
    (htype : nfaType mem p ≠ nfulaPayload) : storedOf mem (p :: ps) = storedOf mem ps := by
  unfold storedOf
  rw [handledOf_cons h, List.filter_cons_of_neg (by simpa using htype)]

/-- What the loop leaves in the parameters. -/
theorem attrLoop_payload (turns : ℕ) {c : Cursor} {s : St} (hturns : c.rem.toInt.toNat < turns)
    (hrem : -65536 ≤ c.rem.toInt) :
    match storedOf mem (visits mem c) with
    | some q => ∃ r : Params, (attrLoop mem turns c s).params.SamePacket (r.copy mem q)
    | none => (attrLoop mem turns c s).params.SamePacket s.params := by
  induction turns generalizing c s with
  | zero => omega
  | succ turns ih =>
    cases hok : nlaOk mem c with
    | false =>
      rw [attrLoop_end turns s hok, visits_nil hok]
      exact ⟨rfl, rfl⟩
    | true =>
      obtain ⟨hmin, hin⟩ := nlaOk_attrLen.mp hok
      obtain ⟨-, hrem'⟩ := nlaNext_eq mem hrem
      have hle := le_padded (attrLen mem c.pos)
      have hclose := padded_lt (attrLen mem c.pos)
      rw [visits_cons hok]
      cases hlong : tooLong mem c.pos with
      | true =>
        rw [attrLoop_return turns s hok hlong, storedOf_long hlong]
        exact ⟨rfl, rfl⟩
      | false =>
        obtain ⟨s', hturn, -, hpacket, hother⟩ := attrLoop_turn turns s hok hlong
        have hrest := ih (c := nlaNext mem c) (s := s') (by omega) (by omega)
        rw [hturn]
        by_cases htype : nfaType mem c.pos = nfulaPayload
        · rw [storedOf_packet hlong htype]
          cases hstored : storedOf mem (visits mem (nlaNext mem c)) with
          | some q =>
            rw [hstored] at hrest
            exact hrest
          | none =>
            rw [hstored] at hrest
            obtain ⟨hbytes, hlen⟩ := hpacket htype
            exact ⟨s.params, hrest.1.trans hbytes, hrest.2.trans hlen⟩
        · rw [storedOf_other hlong htype]
          cases hstored : storedOf mem (visits mem (nlaNext mem c)) with
          | some q =>
            rw [hstored] at hrest
            exact hrest
          | none =>
            rw [hstored] at hrest
            obtain ⟨hbytes, hlen⟩ := hother htype
            exact ⟨hrest.1.trans hbytes, hrest.2.trans hlen⟩

end Turn

/-! ## The functions -/

section Functions

variable {mem : Memory}

theorem start_rem (h : IsMsg mem) : (start mem).rem.toInt = (len mem : ℤ) - 20 := by
  obtain ⟨hmin, hmax⟩ := h
  have hlen : (load32 mem 0).toNat = len mem := rfl
  unfold nlmsgHdrLen at hmin
  unfold start
  rw [BitVec.toInt_eq_toNat_cond, BitVec.toNat_sub, hlen, BitVec.toNat_ofNat]
  split_ifs with htop
  · omega
  · omega

/-- A copied packet is four bytes longer than its data. -/
theorem delivers_copied {r before : Params} {q t : ℤ} (h : r.SamePacket (before.copy mem q)) :
    Delivers mem t r ↔ attrLen mem q + 4 = attrLen mem t ∧
      ∀ i : Fin nlNflogPayloadLen, i.val < attrLen mem q →
        mem (nlaData q + i) = mem (nlaData t + i) := by
  obtain ⟨hbytes, hlen⟩ := h
  have hcopy : ∀ i : Fin nlNflogPayloadLen, i.val < attrLen mem q →
      r.payload i = mem (nlaData q + i) := by
    intro i hi
    rw [hbytes]
    exact if_pos hi
  have hsize : r.payloadLen = attrLen mem q := hlen
  unfold Delivers
  rw [hsize]
  constructor
  · rintro ⟨hsame, hdata⟩
    exact ⟨by omega, fun i hi => (hcopy i hi).symm.trans (hdata i (by exact_mod_cast hi))⟩
  · rintro ⟨hsame, hdata⟩
    refine ⟨by omega, fun i hi => ?_⟩
    have hi' : i.val < attrLen mem q := by exact_mod_cast hi
    exact (hcopy i hi').trans (hdata i hi')

theorem delivers_kept {r before : Params} {t : ℤ} (h : r.SamePacket before) :
    Delivers mem t r ↔ Delivers mem t before := by
  unfold Delivers
  rw [h.1, h.2]

theorem processNflogMsg_iff (before : Params) (h : IsMsg mem) :
    Right mem (processNflogMsg mem before).reads (processNflogMsg mem before).params ↔
      Meets mem before := by
  have hrem := start_rem h
  obtain ⟨hmin, -⟩ := h
  unfold nlmsgHdrLen at hmin
  have hpos : (start mem).pos = 20 := rfl
  have hreads : (∀ b ∈ (processNflogMsg mem before).reads, InMsg (len mem) b) ↔
      ReadsFit mem (len mem) 20 (attrs mem) :=
    attrLoop_reads _ (by omega) (by omega) (by omega) (by omega)
      ((span_inMsg le_rfl (by omega)).mpr (by omega))
  have hpayload := @attrLoop_payload mem ((start mem).rem.toInt.toNat + 1) (start mem)
    ⟨before, span 0 4⟩ (by omega) (by omega)
  refine and_congr hreads (forall_congr' fun t => imp_congr_right fun _ => ?_)
  unfold ByChance attrs processNflogMsg
  cases hstored : storedOf mem (visits mem (start mem)) with
  | some q =>
    rw [hstored] at hpayload
    obtain ⟨r, hcopied⟩ := hpayload
    exact delivers_copied hcopied
  | none =>
    rw [hstored] at hpayload
    exact delivers_kept hpayload

theorem msgOk_iff {c : Cursor} :
    msgOk mem c = true ↔ (nlmsgHdrLen : ℤ) ≤ c.rem.toInt ∧
      nlmsgHdrLen ≤ len (behind mem c.pos) ∧ len (behind mem c.pos) ≤ c.rem.toNat := by
  unfold msgOk
  rw [Bool.and_eq_true, Bool.and_eq_true, decide_eq_true_iff, decide_eq_true_iff,
    decide_eq_true_iff]

theorem isMsg_of_msgOk {c : Cursor} (h : msgOk mem c = true) : IsMsg (behind mem c.pos) := by
  obtain ⟨hrem, hmin, hin⟩ := msgOk_iff.mp h
  rw [BitVec.toInt_eq_toNat_cond] at hrem
  unfold nlmsgHdrLen at hrem
  refine ⟨hmin, ?_⟩
  split_ifs at hrem with htop
  · omega
  · omega

/-- A turn lowers the count. -/
theorem msgNext_rem {c : Cursor} (h : msgOk mem c = true) :
    (msgNext mem c).rem.toInt < c.rem.toInt := by
  obtain ⟨hrem, hmin, hin⟩ := msgOk_iff.mp h
  have hbound := (isMsg_of_msgOk h).2
  have hlen : (load32 mem c.pos).toNat = len (behind mem c.pos) := by
    unfold len msgLen behind load32 load16
    simp [add_assoc]
  have hpad : (align (load32 mem c.pos)).toNat = padded (len (behind mem c.pos)) := by
    rw [align_toNat, hlen]
    rw [hlen]
    omega
  have hle := le_padded (len (behind mem c.pos))
  have hclose := padded_lt (len (behind mem c.pos))
  have htop : c.rem.toInt < 2 ^ 31 := BitVec.toInt_lt
  unfold nlmsgHdrLen at hrem hmin
  have hnat : c.rem.toInt = c.rem.toNat := by
    rw [BitVec.toInt_eq_toNat_cond] at hrem ⊢
    split_ifs at hrem ⊢ with hsmall
    · rfl
    · omega
  unfold msgNext
  rw [hnat, BitVec.toInt_eq_toNat_cond, BitVec.toNat_sub, hpad]
  split_ifs with hsmall
  · omega
  · omega

/-- The loop comes to the data messages of the buffer, and makes of each what
the first function makes of it. -/
theorem msgLoop_spec (turns : ℕ) {c : Cursor} (params : Params)
    (hturns : c.rem.toInt.toNat ≤ turns) :
    DataMsgs mem c ((msgLoop mem turns c params).map Turn.pos) ∧
      ∀ t ∈ msgLoop mem turns c params, IsMsg (behind mem t.pos) ∧
        t.after = processNflogMsg (behind mem t.pos) t.before := by
  induction turns generalizing c params with
  | zero =>
    refine ⟨.stop (Bool.eq_false_iff.mpr fun hok => ?_), by simp [msgLoop]⟩
    have hrem := (msgOk_iff.mp hok).1
    unfold nlmsgHdrLen at hrem
    omega
  | succ turns ih =>
    rw [msgLoop]
    cases hok : msgOk mem c with
    | false =>
      rw [if_pos (Or.inl rfl)]
      exact ⟨.stop hok, by simp⟩
    | true =>
      cases hends : ends mem c.pos with
      | true =>
        rw [if_pos (Or.inr rfl)]
        exact ⟨.ends hok hends, by simp⟩
      | false =>
        rw [if_neg (by simp)]
        have hhead : IsMsg (behind mem c.pos) := isMsg_of_msgOk hok
        cases hmulti : multi mem c.pos with
        | false => exact ⟨.single hok hends hmulti, by simp [hhead]⟩
        | true =>
          have hless := msgNext_rem hok
          have hrem := (msgOk_iff.mp hok).1
          unfold nlmsgHdrLen at hrem
          obtain ⟨hmsgs, hall⟩ := ih (c := msgNext mem c)
            (processNflogMsg (behind mem c.pos) params).params (by omega)
          refine ⟨.more hok hends hmulti hmsgs, ?_⟩
          exact List.forall_mem_cons.mpr ⟨⟨hhead, rfl⟩, hall⟩

end Functions

/-- Both functions, the second one for the last data message of a buffer. -/
theorem nflog_payload_iff (mem : Memory) (before : Params) :
    (IsMsg mem →
      (Right mem (processNflogMsg mem before).reads (processNflogMsg mem before).params ↔
        Meets mem before)) ∧
    ∀ size, ∃ params turns, getNflogParams mem size before = (params, turns) ∧
      DataMsgs mem ⟨0, size⟩ (turns.map Turn.pos) ∧
      ∀ t, turns.getLast? = some t →
        (Right (behind mem t.pos) t.after.reads params ↔ Meets (behind mem t.pos) t.before) := by
  refine ⟨processNflogMsg_iff before, fun size => ?_⟩
  refine ⟨_, _, rfl, ?_⟩
  obtain ⟨hmsgs, hall⟩ := @msgLoop_spec mem size.toInt.toNat ⟨0, size⟩ before le_rfl
  refine ⟨hmsgs, fun t hlast => ?_⟩
  obtain ⟨hmsg, hafter⟩ := hall t (List.mem_of_getLast? hlast)
  rw [hlast]
  show Right _ t.after.reads t.after.params ↔ _
  rw [hafter]
  exact processNflogMsg_iff t.before hmsg

/-- An `NFULA_PAYLOAD` with four bytes of data, at the end of its message. -/
def fourBytes : Memory := fun b =>
  if b = 0 then 28 else if b = 20 then 8 else if b = 22 then 9 else 0

def noParams : Params := ⟨0, 0, fun _ => 0, 0⟩

/-- Eight bytes are copied. -/
theorem fourBytes_not_right :
    ¬ ∀ mem before, IsMsg mem →
      Right mem (processNflogMsg mem before).reads (processNflogMsg mem before).params := by
  intro h
  have hlen := (h fourBytes noParams (by decide +kernel)).2 20 (by decide +kernel)
  exact absurd hlen.1 (by decide +kernel)

/-- A buffer with one message, which has two packets of the same bytes.  The second
is too long to be copied, and four bytes of the first are the start of the second. -/
def samePacket : Memory := fun b =>
  if b = 0 then 168 else if b = 1 then 1 else if b = 20 then 200
  else if b = 220 ∨ b = 420 then 204 else if b = 22 ∨ b = 222 ∨ b = 422 then 9 else 0

theorem samePacket_meets : Meets samePacket noParams := by
  have htarget : target samePacket = some 220 := by decide +kernel
  have hstored : storedOf samePacket (attrs samePacket) = some 20 := by decide +kernel
  refine ⟨⟨by decide +kernel, fun _ => by decide +kernel⟩, fun t ht => ?_⟩
  obtain rfl := Option.some.inj (htarget.symm.trans ht)
  unfold ByChance
  rw [hstored]
  exact ⟨by decide +kernel, by decide +kernel⟩

theorem samePacket_turns : (getNflogParams samePacket 424#32 noParams).2 =
    [⟨0, noParams, processNflogMsg (behind samePacket 0) noParams⟩] := by
  have hok : ¬ (msgOk samePacket ⟨0, 424#32⟩ = false ∨ ends samePacket 0 = true) := by
    decide +kernel
  have hmulti : ¬ multi samePacket 0 = true := by decide +kernel
  show msgLoop samePacket (423 + 1) ⟨0, 424#32⟩ noParams = _
  rw [msgLoop, if_neg hok]
  dsimp only
  rw [if_neg hmulti]

theorem samePacket_right :
    Right samePacket (processNflogMsg samePacket noParams).reads
        (processNflogMsg samePacket noParams).params ∧
      Right (behind samePacket 0) (processNflogMsg (behind samePacket 0) noParams).reads
        (getNflogParams samePacket 424#32 noParams).1 := by
  refine ⟨((nflog_payload_iff samePacket noParams).1 (by decide +kernel)).mpr samePacket_meets, ?_⟩
  obtain ⟨params, turns, hget, -, hlast⟩ := (nflog_payload_iff samePacket noParams).2 424#32
  have hturns : turns = [_] := (congrArg Prod.snd hget).symm.trans samePacket_turns
  have hbehind : behind samePacket 0 = samePacket := funext fun b => by
    unfold behind
    rw [zero_add]
  rw [hget]
  refine (hlast _ (by rw [hturns]; rfl)).mpr ?_
  show Meets (behind samePacket 0) noParams
  rw [hbehind]
  exact samePacket_meets

end OpxNasLinux.Nflog
