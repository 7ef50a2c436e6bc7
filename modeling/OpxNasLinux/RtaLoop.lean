import OpxNasLinux.NlMsg

/-!
# Loops over attributes with an unsigned count

`RTA_OK` and `RTA_NEXT` keep the bytes that are left in an `unsigned int`, so
that a count below zero is a large one.

* `Body` is the body of such a loop, with the bytes that a turn reads.
* `Body.Safe` says that the loop ends and stays in the message.  What such a
  loop computes depends on the message alone (`Body.Safe.leaves_congr`).
* `Contained` says how the attributes have to lie in the message, and
  `Body.safe_iff` that this is what the loop needs.
-/

namespace OpxNasLinux.Rta

open Loop NlMsg

/-! ## The loop -/

/-- `rta->rta_len`. -/
def rtaLen (mem : Memory) (p : ℤ) : BitVec 16 := load16 mem p

/-- `rta->rta_type`. -/
def rtaType (mem : Memory) (p : ℤ) : BitVec 16 := load16 mem (p + 2)

/-- `RTA_OK`.  All comparisons are unsigned. -/
def rtaOk (mem : Memory) (c : Cursor) : Bool :=
  decide (4 ≤ c.rem.toNat) &&
    (decide (4 ≤ (rtaLen mem c.pos).toNat) &&
      decide ((rtaLen mem c.pos).toNat ≤ c.rem.toNat))

/-- The bytes that `RTA_OK` reads. -/
def rtaOkReads (c : Cursor) : List ℤ := if 4 ≤ c.rem.toNat then [c.pos, c.pos + 1] else []

/-- `RTA_NEXT`. -/
def rtaNext (mem : Memory) (c : Cursor) : Cursor :=
  let totlen := align ((rtaLen mem c.pos).setWidth 32)
  ⟨c.pos + totlen.toNat, c.rem - totlen⟩

/-- The body of a loop: what a turn makes of the variables of the function, and
the bytes that it reads. -/
structure Body (σ : Type*) where
  turn : Memory → ℤ → σ → σ
  reads : Memory → ℤ → List ℤ
  turn_congr {mem mem' : Memory} {p : ℤ} :
    (∀ b ∈ reads mem p, mem b = mem' b) → ∀ s, turn mem p s = turn mem' p s

/-- A byte of a message of this length. -/
def InMsg (len : ℕ) (b : ℤ) : Prop := 0 ≤ b ∧ b < len

variable {σ : Type*}

/-- The test of the loop. -/
def ok (mem : Memory) (t : Cursor × σ) : Bool := rtaOk mem t.1

/-- A turn of the loop, with its update. -/
def Body.next (b : Body σ) (mem : Memory) (t : Cursor × σ) : Cursor × σ :=
  (rtaNext mem t.1, b.turn mem t.1.pos t.2)

/-- The loop ends, and reads bytes of the message only. -/
structure Body.Safe (b : Body σ) (mem : Memory) (len : ℕ) (start : Cursor × σ) : Prop where
  stops : Stops (ok mem) (b.next mem) start
  tests (t : Cursor × σ) : Tests (ok mem) (b.next mem) start t →
    ∀ p ∈ rtaOkReads t.1, InMsg len p
  turns (t : Cursor × σ) : Tests (ok mem) (b.next mem) start t → ok mem t = true →
    ∀ p ∈ b.reads mem t.1.pos, InMsg len p

/-- The loop ends and leaves the variables like this. -/
def Body.Leaves (b : Body σ) (mem : Memory) (start : Cursor × σ) (s : σ) : Prop :=
  ∃ c, Tests (ok mem) (b.next mem) start (c, s) ∧ rtaOk mem c = false

/-! ## What is read -/

theorem rtaLen_congr {mem mem' : Memory} {p : ℤ} (h0 : mem p = mem' p)
    (h1 : mem (p + 1) = mem' (p + 1)) : rtaLen mem p = rtaLen mem' p := by
  rw [rtaLen, rtaLen, load16, load16, h0, h1]

/-- The test depends on the bytes it reads. -/
theorem rtaOk_congr {mem mem' : Memory} {c : Cursor}
    (h : ∀ p ∈ rtaOkReads c, mem p = mem' p) : rtaOk mem c = rtaOk mem' c := by
  unfold rtaOkReads at h
  split at h
  · have hlen : rtaLen mem c.pos = rtaLen mem' c.pos :=
      rtaLen_congr (h _ (by simp)) (h _ (by simp))
    unfold rtaOk
    rw [hlen]
  · rename_i hshort
    rw [rtaOk, rtaOk, decide_eq_false hshort, Bool.false_and, Bool.false_and]

theorem rtaOk_iff {mem : Memory} {c : Cursor} :
    rtaOk mem c = true ↔ 4 ≤ c.rem.toNat ∧ 4 ≤ (rtaLen mem c.pos).toNat ∧
      (rtaLen mem c.pos).toNat ≤ c.rem.toNat := by
  rw [rtaOk, Bool.and_eq_true, Bool.and_eq_true, decide_eq_true_iff, decide_eq_true_iff,
    decide_eq_true_iff]

/-- A loop that stays in the message makes the same tests whatever is around
the message. -/
theorem Body.Safe.tests_congr {b : Body σ} {mem mem' : Memory} {len : ℕ} {start : Cursor × σ}
    (h : b.Safe mem len start) (heq : ∀ p, InMsg len p → mem p = mem' p) {t : Cursor × σ}
    (ht : Tests (ok mem) (b.next mem) start t) :
    Tests (ok mem') (b.next mem') start t ∧ ok mem t = ok mem' t := by
  have htest : ∀ t, Tests (ok mem) (b.next mem) start t → ok mem t = ok mem' t :=
    fun t ht => rtaOk_congr fun p hp => heq p (h.tests t ht p hp)
  refine ⟨?_, htest t ht⟩
  induction ht with
  | start => exact .start
  | again ht hok ih =>
    rename_i t
    have hturn := b.turn_congr (fun p hp => heq p (h.turns t ht hok p hp)) t.2
    have hlen : rtaLen mem t.1.pos = rtaLen mem' t.1.pos := by
      have hreads := h.tests t ht
      rw [rtaOkReads, if_pos (rtaOk_iff.mp hok).1] at hreads
      exact rtaLen_congr (heq _ (hreads _ (by simp))) (heq _ (hreads _ (by simp)))
    have hnext : b.next mem t = b.next mem' t := by
      rw [Body.next, Body.next, hturn, rtaNext, rtaNext, hlen]
    rw [hnext]
    exact ih.again ((htest t ht).symm.trans hok)

/-- So it leaves the same variables. -/
theorem Body.Safe.leaves_congr {b : Body σ} {mem mem' : Memory} {len : ℕ} {start : Cursor × σ}
    (h : b.Safe mem len start) (heq : ∀ p, InMsg len p → mem p = mem' p) {s : σ}
    (hs : b.Leaves mem start s) : b.Leaves mem' start s := by
  obtain ⟨c, ht, hend⟩ := hs
  obtain ⟨ht', hok⟩ := h.tests_congr heq ht
  exact ⟨c, ht', hok.symm.trans hend⟩

/-! ## Where the attributes lie -/

/-- The count of the loop says that an attribute lies at `o`. -/
def Fits (mem : Memory) (stop o : ℕ) : Prop :=
  o + 4 ≤ stop ∧ 4 ≤ (rtaLen mem o).toNat ∧ o + (rtaLen mem o).toNat ≤ stop

/-- The places that a loop comes to when no padding crosses its end. -/
inductive AttrAt (mem : Memory) (first stop : ℕ) : ℕ → Prop where
  | head : AttrAt mem first stop first
  | after {o : ℕ} : AttrAt mem first stop o → Fits mem stop o →
      o + padded (rtaLen mem o).toNat ≤ stop →
      AttrAt mem first stop (o + padded (rtaLen mem o).toNat)

/-- Every attribute ends in the message with its padding.  `stop` is where the
count of the loop ends, and `reads` are the bytes that a turn reads. -/
def Contained (reads : Memory → ℤ → List ℤ) (mem : Memory) (first stop len : ℕ) : Prop :=
  ∀ o, AttrAt mem first stop o → o + 4 ≤ stop →
    o + 2 ≤ len ∧
      (Fits mem stop o →
        o + padded (rtaLen mem o).toNat ≤ stop ∧ ∀ p ∈ reads mem o, InMsg len p)

theorem AttrAt.bounds {mem : Memory} {first stop o : ℕ} (hstop : first ≤ stop)
    (h : AttrAt mem first stop o) : first ≤ o ∧ o ≤ stop := by
  induction h with
  | head => exact ⟨le_rfl, hstop⟩
  | after _ _ hpad ih => exact ⟨by omega, hpad⟩

section Cursors

variable {mem : Memory} {first stop o : ℕ}

theorem cursorAt_count (hsize : stop < first + 2 ^ 32) (hfirst : first ≤ o) :
    (cursorAt stop o).rem.toNat = stop - o := by
  rw [cursorAt, BitVec.toNat_ofNat]
  omega

theorem rtaOk_cursorAt (hsize : stop < first + 2 ^ 32) (hfirst : first ≤ o) (ho : o ≤ stop) :
    rtaOk mem (cursorAt stop o) = true ↔ Fits mem stop o := by
  rw [rtaOk_iff, cursorAt_count hsize hfirst]
  show _ ∧ 4 ≤ (rtaLen mem o).toNat ∧ (rtaLen mem o).toNat ≤ _ ↔ _
  unfold Fits
  omega

theorem align_rtaLen (mem : Memory) (p : ℤ) :
    (align ((rtaLen mem p).setWidth 32)).toNat = padded (rtaLen mem p).toNat := by
  have hlt := (rtaLen mem p).isLt
  have hwide : ((rtaLen mem p).setWidth 32).toNat = (rtaLen mem p).toNat := by
    rw [BitVec.toNat_setWidth]
    omega
  rw [align_toNat, hwide]
  rw [hwide]
  omega

theorem rtaNext_pos (mem : Memory) (c : Cursor) :
    (rtaNext mem c).pos = c.pos + padded (rtaLen mem c.pos).toNat := by
  rw [rtaNext, align_rtaLen]

theorem rtaNext_rem (mem : Memory) (c : Cursor) :
    (rtaNext mem c).rem.toNat =
      (2 ^ 32 - padded (rtaLen mem c.pos).toNat + c.rem.toNat) % 2 ^ 32 := by
  rw [rtaNext, BitVec.toNat_sub, align_rtaLen]

/-- The loop goes from an attribute to the end of its padding. -/
theorem rtaNext_cursorAt (hsize : stop < first + 2 ^ 32) (hfirst : first ≤ o)
    (hpad : o + padded (rtaLen mem o).toNat ≤ stop) :
    rtaNext mem (cursorAt stop o) = cursorAt stop (o + padded (rtaLen mem o).toNat) := by
  have hrem := rtaNext_rem mem (cursorAt stop o)
  have hpos := rtaNext_pos mem (cursorAt stop o)
  have hlt := (rtaLen mem o).isLt
  have hclose := padded_lt (rtaLen mem o).toNat
  rw [cursorAt_count hsize hfirst] at hrem
  replace hrem : _ = (2 ^ 32 - padded (rtaLen mem o).toNat + (stop - o)) % 2 ^ 32 := hrem
  replace hpos : _ = (o : ℤ) + padded (rtaLen mem o).toNat := hpos
  generalize rtaNext mem (cursorAt stop o) = c at hrem hpos ⊢
  obtain ⟨pos, rem⟩ := c
  rw [cursorAt, Cursor.mk.injEq]
  refine ⟨?_, BitVec.eq_of_toNat_eq ?_⟩
  · show pos = _
    push_cast
    exact hpos
  · rw [BitVec.toNat_ofNat]
    show rem.toNat = _
    replace hrem : rem.toNat = _ := hrem
    omega

/-- Past a padding that crosses the end, the count is a large one. -/
theorem rtaNext_overrun (hsize : stop < first + 2 ^ 32) (hfirst : first ≤ o)
    (hfits : Fits mem stop o) (hpad : stop < o + padded (rtaLen mem o).toNat) :
    (stop : ℤ) < (rtaNext mem (cursorAt stop o)).pos ∧
      4 ≤ (rtaNext mem (cursorAt stop o)).rem.toNat := by
  have hrem := rtaNext_rem mem (cursorAt stop o)
  have hpos := rtaNext_pos mem (cursorAt stop o)
  have hlt := (rtaLen mem o).isLt
  have hclose := padded_lt (rtaLen mem o).toNat
  obtain ⟨hhdr, hmin, hin⟩ := hfits
  rw [cursorAt_count hsize hfirst] at hrem
  replace hrem : _ = (2 ^ 32 - padded (rtaLen mem o).toNat + (stop - o)) % 2 ^ 32 := hrem
  replace hpos : _ = (o : ℤ) + padded (rtaLen mem o).toNat := hpos
  omega

end Cursors

/-! ## The loop and the message -/

section Loop

variable {b : Body σ} {mem : Memory} {first stop len : ℕ} {s : σ}

/-- The loop comes to every place. -/
theorem AttrAt.tests (hsize : stop < first + 2 ^ 32) (hstop : first ≤ stop) {o : ℕ}
    (h : AttrAt mem first stop o) :
    ∃ s', Tests (ok mem) (b.next mem) (cursorAt stop first, s) (cursorAt stop o, s') := by
  induction h with
  | head => exact ⟨s, .start⟩
  | @after o ho hfits hpad ih =>
    obtain ⟨s', ht⟩ := ih
    obtain ⟨hfirst, hle⟩ := ho.bounds hstop
    have hok := (rtaOk_cursorAt hsize hfirst hle).mpr hfits
    refine ⟨b.turn mem o s', ?_⟩
    rw [← rtaNext_cursorAt hsize hfirst hpad]
    exact ht.again hok

/-- A loop that stays in the message finds its attributes there. -/
theorem Body.Safe.contained (hsize : stop < first + 2 ^ 32) (hstop : first ≤ stop)
    (hlen : len ≤ stop) (h : b.Safe mem len (cursorAt stop first, s)) :
    Contained b.reads mem first stop len := by
  intro o ho hhdr
  obtain ⟨s', ht⟩ := ho.tests (b := b) (s := s) hsize hstop
  obtain ⟨hfirst, hle⟩ := ho.bounds hstop
  refine ⟨?_, fun hfits => ?_⟩
  · have hreads := h.tests _ ht
    rw [rtaOkReads, cursorAt_count hsize hfirst, if_pos (by omega)] at hreads
    have hsecond : InMsg len (o + 1) := hreads _ (by simp [cursorAt])
    unfold InMsg at hsecond
    omega
  · have hok : ok mem (cursorAt stop o, s') = true := (rtaOk_cursorAt hsize hfirst hle).mpr hfits
    refine ⟨?_, h.turns _ ht hok⟩
    by_contra hpad
    obtain ⟨hpos, hrem⟩ := rtaNext_overrun hsize hfirst hfits (not_le.mp hpad)
    have hreads := h.tests _ (ht.again hok)
    replace hreads : ∀ p ∈ rtaOkReads (rtaNext mem (cursorAt stop o)), InMsg len p := hreads
    rw [rtaOkReads, if_pos hrem] at hreads
    have hout := (hreads _ List.mem_cons_self).2
    omega

/-- The loop variables are at a place of the message. -/
def AtAttr (mem : Memory) (first stop : ℕ) (t : Cursor × σ) : Prop :=
  ∃ o, AttrAt mem first stop o ∧ t.1 = cursorAt stop o

/-- A turn goes to the next place and lowers the count. -/
theorem AtAttr.next (hsize : stop < first + 2 ^ 32) (hstop : first ≤ stop)
    (hin : Contained b.reads mem first stop len) {t : Cursor × σ} (h : AtAttr mem first stop t)
    (hok : ok mem t = true) :
    AtAttr mem first stop (b.next mem t) ∧ (b.next mem t).1.rem.toNat < t.1.rem.toNat := by
  obtain ⟨o, ho, hc⟩ := h
  obtain ⟨hfirst, hle⟩ := ho.bounds hstop
  rw [ok, hc, rtaOk_cursorAt hsize hfirst hle] at hok
  obtain ⟨-, hturn⟩ := hin o ho hok.1
  obtain ⟨hpad, -⟩ := hturn hok
  have hnext : (b.next mem t).1 = cursorAt stop (o + padded (rtaLen mem o).toNat) := by
    rw [Body.next, hc, rtaNext_cursorAt hsize hfirst hpad]
  refine ⟨⟨_, ho.after hok hpad, hnext⟩, ?_⟩
  obtain ⟨hhdr, hmin, -⟩ := hok
  have hge := le_padded (rtaLen mem o).toNat
  rw [hnext, hc, cursorAt_count hsize hfirst, cursorAt_count hsize (by omega)]
  omega

/-- The loop ends and stays in the message exactly when the attributes lie in
it. -/
theorem Body.safe_iff (hsize : stop < first + 2 ^ 32) (hstop : first ≤ stop) (hlen : len ≤ stop) :
    b.Safe mem len (cursorAt stop first, s) ↔ Contained b.reads mem first stop len := by
  refine ⟨Body.Safe.contained hsize hstop hlen, fun hin => ?_⟩
  have hstart : AtAttr mem first stop (cursorAt stop first, s) := ⟨first, .head, rfl⟩
  have hinv : ∀ t, Tests (ok mem) (b.next mem) (cursorAt stop first, s) t →
      AtAttr mem first stop t :=
    fun t ht => ht.invariant hstart fun t hat hok => (hat.next hsize hstop hin hok).1
  refine ⟨?_, ?_, ?_⟩
  · exact stops_of_measure (fun t => t.1.rem.toNat) hstart
      fun t hat hok => hat.next hsize hstop hin hok
  · intro t ht p hp
    obtain ⟨o, ho, hc⟩ := hinv t ht
    obtain ⟨hfirst, hle⟩ := ho.bounds hstop
    rw [hc, rtaOkReads, cursorAt_count hsize hfirst] at hp
    split at hp
    · have hhdr := (hin o ho (by omega)).1
      simp only [cursorAt, List.mem_cons, List.not_mem_nil, or_false] at hp
      unfold InMsg
      omega
    · cases hp
  · intro t ht hok p hp
    obtain ⟨o, ho, hc⟩ := hinv t ht
    obtain ⟨hfirst, hle⟩ := ho.bounds hstop
    rw [ok, hc, rtaOk_cursorAt hsize hfirst hle] at hok
    rw [hc] at hp
    exact ((hin o ho hok.1).2 hok).2 p hp

end Loop

end OpxNasLinux.Rta
