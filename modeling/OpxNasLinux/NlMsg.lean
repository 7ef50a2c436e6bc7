import Mathlib.Tactic.Ring
import OpxNasLinux.Lib.Loop

/-!
# The walks over netlink messages and attributes

`nlmsg_for_each_msg` and `nla_for_each_attr` go over a buffer that a socket
filled.  Both take the length of every header from the header, round it up to
four bytes and subtract it from an `int` that counts the bytes left.

* `nlaForEachAttr_safe` is the walk over the attributes.  `nla_ok` compares the
  count as it is, so a count below zero ends the walk.
* `nlmsgForEachMsg_safe` is the walk over the messages.  `nlmsg_ok` takes the
  count as an `unsigned int`, so the walk stays in the buffer when no message
  leaves its padding outside.
* `padded_of_nlmsgForEachMsg_safe` is the converse.
* `nlmsg_walks_safe_iff` puts the three together.
-/

namespace OpxNasLinux.NlMsg

open Loop

/-! ## The loops -/

/-- The bytes before, in and after the buffer.  The buffer starts at `0`. -/
abbrev Memory := ℤ → UInt8

/-- The loop variables `pos` and `rem`.  `rem` is an `int`. -/
structure Cursor where
  pos : ℤ
  rem : BitVec 32
deriving DecidableEq

/-- A `__u16` field. -/
def load16 (mem : Memory) (p : ℤ) : BitVec 16 :=
  (mem (p + 1)).toBitVec ++ (mem p).toBitVec

/-- A `__u32` field. -/
def load32 (mem : Memory) (p : ℤ) : BitVec 32 :=
  load16 mem (p + 2) ++ load16 mem p

/-- `NLMSG_ALIGN` and `NLA_ALIGN`. -/
def align (len : BitVec 32) : BitVec 32 := (len + 3#32) &&& ~~~3#32

/-- `sizeof(struct nlmsghdr)`. -/
def nlmsgHdrLen : ℕ := 16

/-- `sizeof(struct nlattr)`. -/
def nlaHdrLen : ℕ := 4

/-- `nlh->nlmsg_len`, the first field of the header. -/
def nlmsgLen (mem : Memory) (c : Cursor) : BitVec 32 := load32 mem c.pos

/-- `nla->nla_len`, the first field of the header. -/
def nlaLen (mem : Memory) (c : Cursor) : BitVec 16 := load16 mem c.pos

/-- `nlmsg_ok`.  The count is passed as an `unsigned int`. -/
def nlmsgOk (mem : Memory) (c : Cursor) : Bool :=
  decide (nlmsgHdrLen ≤ c.rem.toNat) &&
    (decide (nlmsgHdrLen ≤ (nlmsgLen mem c).toNat) &&
      decide ((nlmsgLen mem c).toNat ≤ c.rem.toNat))

/-- The bytes of the header that `nlmsg_ok` reads. -/
def nlmsgOkReads (c : Cursor) : List ℤ :=
  if nlmsgHdrLen ≤ c.rem.toNat then [c.pos, c.pos + 1, c.pos + 2, c.pos + 3] else []

/-- `nlmsg_next`. -/
def nlmsgNext (mem : Memory) (c : Cursor) : Cursor :=
  let totlen := align (nlmsgLen mem c)
  ⟨c.pos + totlen.toInt, c.rem - totlen⟩

/-- `nla_ok`.  The comparisons with the count are those of an `int`. -/
def nlaOk (mem : Memory) (c : Cursor) : Bool :=
  decide ((nlaHdrLen : ℤ) ≤ c.rem.toInt) &&
    (decide (nlaHdrLen ≤ (nlaLen mem c).toNat) &&
      decide (((nlaLen mem c).toNat : ℤ) ≤ c.rem.toInt))

/-- The bytes of the header that `nla_ok` reads. -/
def nlaOkReads (c : Cursor) : List ℤ :=
  if (nlaHdrLen : ℤ) ≤ c.rem.toInt then [c.pos, c.pos + 1] else []

/-- `nla_next`. -/
def nlaNext (mem : Memory) (c : Cursor) : Cursor :=
  let totlen := align ((nlaLen mem c).setWidth 32)
  ⟨c.pos + totlen.toInt, c.rem - totlen⟩

/-- A loop over the headers of a buffer: its test, the bytes the test reads, its
update and the length of a header that the loop hands out. -/
structure Walk where
  ok : Memory → Cursor → Bool
  reads : Cursor → List ℤ
  next : Memory → Cursor → Cursor
  extent : Memory → Cursor → ℕ

/-- `nlmsg_for_each_msg`. -/
def nlmsgForEachMsg : Walk :=
  ⟨nlmsgOk, nlmsgOkReads, nlmsgNext, fun mem c => (nlmsgLen mem c).toNat⟩

/-- `nla_for_each_attr`. -/
def nlaForEachAttr : Walk :=
  ⟨nlaOk, nlaOkReads, nlaNext, fun mem c => (nlaLen mem c).toNat⟩

/-- The loop variables before the first turn. -/
def atHead (len : ℕ) : Cursor := ⟨0, BitVec.ofNat 32 len⟩

/-- The walk ends, every header it hands out lies in the buffer, and so does
every byte that a test of the loop reads. -/
structure Walk.Safe (w : Walk) (mem : Memory) (len : ℕ) : Prop where
  stops : Stops (w.ok mem) (w.next mem) (atHead len)
  visits : ∀ c, Tests (w.ok mem) (w.next mem) (atHead len) c → w.ok mem c = true →
    0 ≤ c.pos ∧ c.pos + w.extent mem c ≤ len
  reads : ∀ c, Tests (w.ok mem) (w.next mem) (atHead len) c →
    ∀ b ∈ w.reads c, 0 ≤ b ∧ b < len

/-- A test of the walk over the messages depends on the bytes it reads. -/
theorem nlmsgOk_congr {mem mem' : Memory} {c : Cursor}
    (h : ∀ b ∈ nlmsgOkReads c, mem b = mem' b) : nlmsgOk mem c = nlmsgOk mem' c := by
  rw [nlmsgOkReads] at h
  split at h
  · have hlen : nlmsgLen mem c = nlmsgLen mem' c := by
      simp only [List.mem_cons, List.not_mem_nil, or_false, forall_eq_or_imp, forall_eq] at h
      obtain ⟨h0, h1, h2, h3⟩ := h
      have e : c.pos + 2 + 1 = c.pos + 3 := by omega
      rw [nlmsgLen, nlmsgLen, load32, load32, load16, load16, load16, load16, e, h0, h1, h2, h3]
    rw [nlmsgOk, nlmsgOk, hlen]
  · rename_i hshort
    rw [nlmsgOk, nlmsgOk, decide_eq_false hshort, Bool.false_and, Bool.false_and]

/-- A test of the walk over the attributes depends on the bytes it reads. -/
theorem nlaOk_congr {mem mem' : Memory} {c : Cursor}
    (h : ∀ b ∈ nlaOkReads c, mem b = mem' b) : nlaOk mem c = nlaOk mem' c := by
  rw [nlaOkReads] at h
  split at h
  · have hlen : nlaLen mem c = nlaLen mem' c := by
      simp only [List.mem_cons, List.not_mem_nil, or_false, forall_eq_or_imp, forall_eq] at h
      obtain ⟨h0, h1⟩ := h
      rw [nlaLen, nlaLen, load16, load16, h0, h1]
    rw [nlaOk, nlaOk, hlen]
  · rename_i hshort
    rw [nlaOk, nlaOk, decide_eq_false hshort, Bool.false_and, Bool.false_and]

/-! ## The arithmetic of the count -/

/-- `n` rounded up to a multiple of four. -/
def padded (n : ℕ) : ℕ := (n + 3) / 4 * 4

theorem le_padded (n : ℕ) : n ≤ padded n := by
  unfold padded
  omega

theorem padded_lt (n : ℕ) : padded n < n + 4 := by
  unfold padded
  omega

/-- Clearing the two lowest bits is a division by four and a multiplication. -/
theorem and_not_three (x : BitVec 32) : x &&& ~~~3#32 = (x >>> 2) <<< 2 := by
  apply BitVec.eq_of_getLsbD_eq
  intro i hi
  have hbit : (~~~3#32).getLsbD i = decide (2 ≤ i) := by
    have hall : ∀ j : Fin 32, (~~~3#32).getLsbD j = decide (2 ≤ j.val) := by decide
    exact hall ⟨i, hi⟩
  rw [BitVec.getLsbD_and, hbit, BitVec.getLsbD_shiftLeft, BitVec.getLsbD_ushiftRight]
  by_cases h2 : 2 ≤ i
  · have hback : 2 + (i - 2) = i := by omega
    have hnlt : ¬ i < 2 := by omega
    rw [hback]
    simp [h2, hi, hnlt]
  · have hlt : i < 2 := by omega
    simp [h2, hlt]

/-- The length of a header that is not near the end of the integers is rounded
up. -/
theorem align_toNat {len : BitVec 32} (h : len.toNat + 3 < 2 ^ 32) :
    (align len).toNat = padded len.toNat := by
  rw [align, and_not_three, BitVec.toNat_shiftLeft, BitVec.toNat_ushiftRight, BitVec.toNat_add,
    BitVec.toNat_ofNat, Nat.shiftRight_eq_div_pow, Nat.shiftLeft_eq]
  unfold padded
  omega

/-- The same as an `int`. -/
theorem align_toInt {len : BitVec 32} (h : len.toNat + 3 < 2 ^ 31) :
    (align len).toInt = (padded len.toNat : ℤ) := by
  have hnat : (align len).toNat = padded len.toNat := align_toNat (by omega)
  rw [BitVec.toInt_eq_toNat_of_lt, hnat]
  rw [hnat]
  have := padded_lt len.toNat
  unfold padded at this ⊢
  omega

/-! ## The walk over the messages -/

/-- The length field of the header at an offset of the buffer. -/
def msgLen (mem : Memory) (o : ℕ) : ℕ := (load32 mem o).toNat

/-- The header at `o` lies in the buffer and so does its message. -/
def Fits (mem : Memory) (len o : ℕ) : Prop :=
  o + nlmsgHdrLen ≤ len ∧ nlmsgHdrLen ≤ msgLen mem o ∧ o + msgLen mem o ≤ len

/-- A message of the buffer starts at this offset: the first one at the head,
every other one where the padding of the one before ends. -/
inductive MessageAt (mem : Memory) (len : ℕ) : ℕ → Prop where
  | head : MessageAt mem len 0
  | after {o : ℕ} : MessageAt mem len o → Fits mem len o →
      o + padded (msgLen mem o) ≤ len → MessageAt mem len (o + padded (msgLen mem o))

/-- No message of the buffer leaves its padding outside. -/
def Padded (mem : Memory) (len : ℕ) : Prop :=
  ∀ o, MessageAt mem len o → Fits mem len o → o + padded (msgLen mem o) ≤ len

/-- A buffer whose length is a multiple of four has room for every padding. -/
theorem padded_of_dvd {mem : Memory} {len : ℕ} (h : 4 ∣ len) : Padded mem len := by
  intro o ho hfits
  have hdvd : 4 ∣ o := by
    induction ho with
    | head => exact Nat.dvd_zero 4
    | after _ hfits' _ ih => exact Nat.dvd_add (ih hfits') (Nat.dvd_mul_left 4 _)
  obtain ⟨-, -, hin⟩ := hfits
  unfold padded
  omega

/-- The loop variables at the message that starts at `o`. -/
def cursorAt (len o : ℕ) : Cursor := ⟨o, BitVec.ofNat 32 (len - o)⟩

theorem cursorAt_rem {len o : ℕ} (hlen : len < 2 ^ 31) :
    (cursorAt len o).rem.toNat = len - o := by
  rw [cursorAt, BitVec.toNat_ofNat]
  omega

/-- The test of the walk, at a message of the buffer. -/
theorem nlmsgOk_cursorAt {mem : Memory} {len o : ℕ} (hlen : len < 2 ^ 31) (ho : o ≤ len) :
    nlmsgOk mem (cursorAt len o) = true ↔ Fits mem len o := by
  have hfield : (nlmsgLen mem (cursorAt len o)).toNat = msgLen mem o := rfl
  rw [nlmsgOk, hfield, cursorAt_rem hlen, Bool.and_eq_true, Bool.and_eq_true, decide_eq_true_iff,
    decide_eq_true_iff, decide_eq_true_iff]
  unfold Fits
  omega

/-- A message that fits has a length that is not near the end of the integers. -/
theorem Fits.align {mem : Memory} {len o : ℕ} (h : Fits mem len o) (hlen : len < 2 ^ 31) :
    (align (nlmsgLen mem (cursorAt len o))).toNat = padded (msgLen mem o) := by
  obtain ⟨-, -, hin⟩ := h
  have hfield : (nlmsgLen mem (cursorAt len o)).toNat = msgLen mem o := rfl
  rw [align_toNat, hfield]
  rw [hfield]
  omega

/-- The walk goes from a message to the end of its padding. -/
theorem nlmsgNext_cursorAt {mem : Memory} {len o : ℕ} (hlen : len < 2 ^ 31)
    (hfits : Fits mem len o) (hpad : o + padded (msgLen mem o) ≤ len) :
    nlmsgNext mem (cursorAt len o) = cursorAt len (o + padded (msgLen mem o)) := by
  have ho : o ≤ len := by omega
  have hnat := hfits.align hlen
  have hint : (NlMsg.align (nlmsgLen mem (cursorAt len o))).toInt
      = (padded (msgLen mem o) : ℤ) := by
    rw [BitVec.toInt_eq_toNat_of_lt, hnat]
    rw [hnat]
    omega
  rw [nlmsgNext, hint, Cursor.mk.injEq]
  refine ⟨by rw [cursorAt, cursorAt]; push_cast; ring, ?_⟩
  apply BitVec.eq_of_toNat_eq
  rw [BitVec.toNat_sub, hnat, cursorAt_rem hlen, cursorAt_rem hlen]
  omega

/-- Past a message whose padding is outside, the loop variable points outside
too, and the count below zero passes for a large one. -/
theorem nlmsgNext_overrun {mem : Memory} {len o : ℕ} (hlen : len < 2 ^ 31)
    (hfits : Fits mem len o) (hpad : len < o + padded (msgLen mem o)) :
    ¬ (0 ≤ (nlmsgNext mem (cursorAt len o)).pos ∧ (nlmsgNext mem (cursorAt len o)).pos < len) ∧
      nlmsgHdrLen ≤ (nlmsgNext mem (cursorAt len o)).rem.toNat := by
  have hnat := hfits.align hlen
  obtain ⟨hhdr, -, hin⟩ := hfits
  have hclose := padded_lt (msgLen mem o)
  refine ⟨?_, ?_⟩
  · rw [nlmsgNext, BitVec.toInt_eq_toNat_cond, hnat, cursorAt]
    dsimp only
    -- rounding up the largest length gives the smallest `int`
    split
    · omega
    · omega
  · rw [nlmsgNext, BitVec.toNat_sub, hnat, cursorAt_rem hlen]
    unfold nlmsgHdrLen
    omega

/-- The walk comes to every message of the buffer. -/
theorem MessageAt.tests {mem : Memory} {len o : ℕ} (hlen : len < 2 ^ 31)
    (h : MessageAt mem len o) :
    Tests (nlmsgOk mem) (nlmsgNext mem) (atHead len) (cursorAt len o) := by
  induction h with
  | head => exact Tests.start
  | after _ hfits hpad ih =>
    rw [← nlmsgNext_cursorAt hlen hfits hpad]
    have hok := (nlmsgOk_cursorAt hlen (le_trans (Nat.le_add_right _ _) hfits.1)).mpr hfits
    exact ih.again hok

/-- A walk that stays in the buffer never meets a padding that does not. -/
theorem padded_of_nlmsgForEachMsg_safe {mem : Memory} {len : ℕ} (hlen : len < 2 ^ 31)
    (h : nlmsgForEachMsg.Safe mem len) : Padded mem len := by
  intro o ho hfits
  by_contra hpad
  have hok := (nlmsgOk_cursorAt hlen (le_trans (Nat.le_add_right _ _) hfits.1)).mpr hfits
  obtain ⟨hout, hread⟩ := nlmsgNext_overrun hlen hfits (not_le.mp hpad)
  refine hout (h.reads _ ((ho.tests hlen).again hok) _ ?_)
  show _ ∈ nlmsgOkReads _
  rw [nlmsgOkReads, if_pos hread]
  exact List.mem_cons_self

/-- The loop variables are at a message of the buffer. -/
def AtMessage (mem : Memory) (len : ℕ) (c : Cursor) : Prop :=
  ∃ o ≤ len, MessageAt mem len o ∧ c = cursorAt len o

/-- A turn of the walk goes to the next message and lowers the count. -/
theorem AtMessage.next {mem : Memory} {len : ℕ} (hlen : len < 2 ^ 31) (hpadded : Padded mem len)
    {c : Cursor} (h : AtMessage mem len c) (hok : nlmsgOk mem c = true) :
    AtMessage mem len (nlmsgNext mem c) ∧ (nlmsgNext mem c).rem.toNat < c.rem.toNat := by
  obtain ⟨o, ho, hmsg, rfl⟩ := h
  have hfits := (nlmsgOk_cursorAt hlen ho).mp hok
  have hpad := hpadded o hmsg hfits
  rw [nlmsgNext_cursorAt hlen hfits hpad]
  refine ⟨⟨_, hpad, hmsg.after hfits hpad, rfl⟩, ?_⟩
  obtain ⟨hhdr, hmin, -⟩ := hfits
  have hge := le_padded (msgLen mem o)
  rw [cursorAt_rem hlen, cursorAt_rem hlen]
  unfold nlmsgHdrLen at hhdr hmin
  omega

/-- The walk over the messages of a buffer that holds every padding. -/
theorem nlmsgForEachMsg_safe {mem : Memory} {len : ℕ} (hlen : len < 2 ^ 31)
    (hpadded : Padded mem len) : nlmsgForEachMsg.Safe mem len := by
  have hhead : AtMessage mem len (atHead len) := ⟨0, Nat.zero_le len, MessageAt.head, rfl⟩
  have hinv : ∀ c, Tests (nlmsgOk mem) (nlmsgNext mem) (atHead len) c → AtMessage mem len c :=
    fun c hc => hc.invariant hhead fun t ht hok => (ht.next hlen hpadded hok).1
  refine ⟨?_, ?_, ?_⟩
  · exact stops_of_measure (fun c => c.rem.toNat) hhead fun t ht hok => ht.next hlen hpadded hok
  · intro c hc hok
    obtain ⟨o, ho, -, rfl⟩ := hinv c hc
    obtain ⟨-, -, hin⟩ := (nlmsgOk_cursorAt hlen ho).mp hok
    refine ⟨Int.natCast_nonneg o, ?_⟩
    show (o : ℤ) + (msgLen mem o : ℤ) ≤ len
    exact_mod_cast hin
  · intro c hc b hb
    obtain ⟨o, ho, -, rfl⟩ := hinv c hc
    replace hb : b ∈ nlmsgOkReads (cursorAt len o) := hb
    rw [nlmsgOkReads, cursorAt_rem hlen] at hb
    split at hb
    · rename_i hhdr
      unfold nlmsgHdrLen at hhdr
      simp only [cursorAt, List.mem_cons, List.not_mem_nil, or_false] at hb
      omega
    · cases hb

/-! ## The walk over the attributes -/

/-- The position and the count add up to the length, and the count is at most
the length. -/
def InStep (len : ℕ) (c : Cursor) : Prop :=
  0 ≤ c.pos ∧ c.pos + c.rem.toInt = len

/-- What the test of the walk says. -/
theorem nlaOk_iff {mem : Memory} {c : Cursor} :
    nlaOk mem c = true ↔ (nlaHdrLen : ℤ) ≤ c.rem.toInt ∧ nlaHdrLen ≤ (nlaLen mem c).toNat ∧
      ((nlaLen mem c).toNat : ℤ) ≤ c.rem.toInt := by
  rw [nlaOk, Bool.and_eq_true, Bool.and_eq_true, decide_eq_true_iff, decide_eq_true_iff,
    decide_eq_true_iff]

/-- A turn of the walk moves both loop variables by the padded length. -/
theorem InStep.next {mem : Memory} {len : ℕ} (hlen : len < 2 ^ 31) {c : Cursor}
    (h : InStep len c) (hok : nlaOk mem c = true) :
    InStep len (nlaNext mem c) ∧ (nlaNext mem c).rem.toInt + nlaHdrLen ≤ c.rem.toInt := by
  obtain ⟨hpos, hsum⟩ := h
  obtain ⟨-, hmin, hin⟩ := nlaOk_iff.mp hok
  have hwide : ((nlaLen mem c).setWidth 32).toNat = (nlaLen mem c).toNat := by
    rw [BitVec.toNat_setWidth]
    have := (nlaLen mem c).isLt
    omega
  have hshort := (nlaLen mem c).isLt
  have hge := le_padded (nlaLen mem c).toNat
  have hclose := padded_lt (nlaLen mem c).toNat
  have htot : (align ((nlaLen mem c).setWidth 32)).toInt = (padded (nlaLen mem c).toNat : ℤ) := by
    rw [align_toInt, hwide]
    rw [hwide]
    omega
  have hrem : (nlaNext mem c).rem.toInt = c.rem.toInt - padded (nlaLen mem c).toNat := by
    rw [nlaNext, BitVec.toInt_sub, htot, Int.bmod_eq_of_le]
    · omega
    · omega
  refine ⟨⟨?_, ?_⟩, ?_⟩
  · rw [nlaNext, htot]
    dsimp only
    omega
  · rw [hrem, nlaNext, htot]
    dsimp only
    omega
  · rw [hrem]
    omega

/-- The walk over the attributes of any buffer. -/
theorem nlaForEachAttr_safe {mem : Memory} {len : ℕ} (hlen : len < 2 ^ 31) :
    nlaForEachAttr.Safe mem len := by
  have hhead : InStep len (atHead len) := by
    have hint : (BitVec.ofNat 32 len).toInt = (len : ℤ) := by
      rw [BitVec.toInt_eq_toNat_cond, BitVec.toNat_ofNat]
      omega
    refine ⟨le_refl 0, ?_⟩
    show (0 : ℤ) + (BitVec.ofNat 32 len).toInt = len
    rw [hint, zero_add]
  have hinv : ∀ c, Tests (nlaOk mem) (nlaNext mem) (atHead len) c → InStep len c :=
    fun c hc => hc.invariant hhead fun t ht hok => (ht.next hlen hok).1
  refine ⟨?_, ?_, ?_⟩
  · refine stops_of_measure (fun c => c.rem.toInt.toNat) hhead fun t ht hok => ?_
    obtain ⟨hstep, hless⟩ := ht.next hlen hok
    obtain ⟨hhdr, -⟩ := nlaOk_iff.mp hok
    refine ⟨hstep, ?_⟩
    show (nlaNext mem t).rem.toInt.toNat < t.rem.toInt.toNat
    unfold nlaHdrLen at hless hhdr
    omega
  · intro c hc hok
    obtain ⟨hpos, hsum⟩ := hinv c hc
    obtain ⟨-, -, hin⟩ := nlaOk_iff.mp hok
    refine ⟨hpos, ?_⟩
    show c.pos + ((nlaLen mem c).toNat : ℤ) ≤ len
    omega
  · intro c hc b hb
    obtain ⟨hpos, hsum⟩ := hinv c hc
    replace hb : b ∈ nlaOkReads c := hb
    rw [nlaOkReads] at hb
    split at hb
    · rename_i hhdr
      unfold nlaHdrLen at hhdr
      simp only [List.mem_cons, List.not_mem_nil, or_false] at hb
      omega
    · cases hb

/-! ## The two walks -/

/-- Both walks stay in the buffer exactly when no message of the buffer leaves
its padding outside. -/
theorem nlmsg_walks_safe_iff (mem : Memory) (len : ℕ) (hlen : len < 2 ^ 31) :
    (nlmsgForEachMsg.Safe mem len ∧ nlaForEachAttr.Safe mem len) ↔ Padded mem len := by
  constructor
  · rintro ⟨hmsg, -⟩
    exact padded_of_nlmsgForEachMsg_safe hlen hmsg
  · intro hpadded
    exact ⟨nlmsgForEachMsg_safe hlen hpadded, nlaForEachAttr_safe hlen⟩

/-- One message of seventeen bytes and nothing after it. -/
def oneMessage : Memory := fun p => if p = 0 then 17 else 0

/-- A buffer of twenty bytes has room for the message and its padding. -/
theorem nlmsg_walks_safe_twenty :
    20 < 2 ^ 31 ∧ nlmsgForEachMsg.Safe oneMessage 20 ∧ nlaForEachAttr.Safe oneMessage 20 :=
  ⟨by decide, (nlmsg_walks_safe_iff oneMessage 20 (by decide)).mpr (padded_of_dvd (by decide))⟩

/-- A buffer of seventeen bytes has not. -/
theorem nlmsg_walk_leaves_the_buffer :
    ¬ ∀ (mem : Memory) (len : ℕ), len < 2 ^ 31 →
      nlmsgForEachMsg.Safe mem len ∧ nlaForEachAttr.Safe mem len := by
  intro h
  have hpadded := padded_of_nlmsgForEachMsg_safe (by decide) (h oneMessage 17 (by decide)).1
  have hpad := hpadded 0 MessageAt.head (by unfold Fits; decide)
  exact absurd hpad (by decide)

end OpxNasLinux.NlMsg
