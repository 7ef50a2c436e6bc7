import OpxNasLinux.Lib.ByteStore
import OpxNasLinux.NlMsg
import OpxNasLinux.SvcsRule

/-!
# Building netlink messages

`nlmsg_reserve` makes room at the tail of a message, `nlmsg_add_attr` puts an
attribute there, `nlmsg_nested_start` opens one that holds others and
`nlmsg_nested_end` closes it.  The length of the message is the first field of
its header, so it lies in the same buffer as the attributes.

* `Attrs` are the attributes of a message, as a forest.
* `Attrs.Written` says how they lie in the buffer.
* `runCalls_written` is what the calls for a forest write.
* `runCalls_ready` is what any calls keep, and `nlmsgAddAttr_fails` a call that
  fails.
-/

namespace OpxNasLinux.NlMsg

open ByteStore

/-! ## Fields -/

/-- A store to a `__u16` field. -/
def store16 (p : ℤ) (v : BitVec 16) (mem : Memory) : Memory :=
  store p [⟨v.extractLsb' 0 8⟩, ⟨v.extractLsb' 8 8⟩] mem

/-- A store to a `__u32` field. -/
def store32 (p : ℤ) (v : BitVec 32) (mem : Memory) : Memory :=
  store16 (p + 2) (v.extractLsb' 16 16) (store16 p (v.extractLsb' 0 16) mem)

theorem load16_agree {mem mem' : Memory} {p : ℤ} (h : Agree p (p + 2) mem mem') :
    load16 mem' p = load16 mem p := by
  rw [load16, load16, h p (by omega) (by omega), h (p + 1) (by omega) (by omega)]

theorem load32_agree {mem mem' : Memory} {p : ℤ} (h : Agree p (p + 4) mem mem') :
    load32 mem' p = load32 mem p := by
  rw [load32, load32, load16_agree (h.mono (by omega) (by omega)),
    load16_agree (h.mono (by omega) (by omega))]

/-- The bytes of a field can be read off. -/
theorem agree_of_load16 {mem mem' : Memory} {p : ℤ} (h : load16 mem' p = load16 mem p) :
    Agree p (p + 2) mem mem' := by
  have hlo := congrArg (BitVec.extractLsb' 0 8) h
  have hhi := congrArg (BitVec.extractLsb' 8 8) h
  rw [load16, load16, BitVec.extractLsb'_append_eq_right, BitVec.extractLsb'_append_eq_right]
    at hlo
  rw [load16, load16, BitVec.extractLsb'_append_eq_left, BitVec.extractLsb'_append_eq_left] at hhi
  intro a hle hlt
  obtain rfl | rfl : a = p ∨ a = p + 1 := by omega
  · exact UInt8.toBitVec_inj.mp hlo
  · exact UInt8.toBitVec_inj.mp hhi

theorem agree_of_load32 {mem mem' : Memory} {p : ℤ} (h : load32 mem' p = load32 mem p) :
    Agree p (p + 4) mem mem' := by
  have hlo := congrArg (BitVec.extractLsb' 0 16) h
  have hhi := congrArg (BitVec.extractLsb' 16 16) h
  rw [load32, load32, BitVec.extractLsb'_append_eq_right, BitVec.extractLsb'_append_eq_right]
    at hlo
  rw [load32, load32, BitVec.extractLsb'_append_eq_left, BitVec.extractLsb'_append_eq_left] at hhi
  exact (agree_of_load16 hlo).append ((agree_of_load16 hhi).mono le_rfl (by omega))

theorem load32_zero {mem : Memory} {p : ℤ} (h : ∀ i : ℕ, i < 4 → mem (p + i) = 0) :
    load32 mem p = 0 := by
  have h0 := h 0 (by decide)
  have h1 := h 1 (by decide)
  have h2 := h 2 (by decide)
  have h3 := h 3 (by decide)
  push_cast at h0 h1 h2 h3
  have e3 : p + 2 + 1 = p + 3 := by omega
  rw [add_zero] at h0
  rw [load32, load16, load16, e3, h0, h1, h2, h3]
  rfl

@[simp] theorem load16_store16 (p : ℤ) (v : BitVec 16) (mem : Memory) :
    load16 (store16 p v mem) p = v := by
  have hbytes := holds_store p [(⟨v.extractLsb' 0 8⟩ : UInt8), ⟨v.extractLsb' 8 8⟩] mem
  have hlo := hbytes 0 Nat.zero_lt_two
  have hhi := hbytes 1 Nat.one_lt_two
  rw [Nat.cast_zero, add_zero] at hlo
  rw [Nat.cast_one] at hhi
  rw [load16, store16, hlo, hhi]
  exact BitVec.extractLsb'_append_extractLsb'

theorem store16_agree {p lo hi : ℤ} (v : BitVec 16) (mem : Memory) (h : hi ≤ p ∨ p + 2 ≤ lo) :
    Agree lo hi mem (store16 p v mem) :=
  store_agree mem h

theorem store32_agree {p lo hi : ℤ} (v : BitVec 32) (mem : Memory) (h : hi ≤ p ∨ p + 4 ≤ lo) :
    Agree lo hi mem (store32 p v mem) :=
  (store16_agree _ mem (by omega)).trans (store16_agree _ _ (by omega))

@[simp] theorem load32_store32 (p : ℤ) (v : BitVec 32) (mem : Memory) :
    load32 (store32 p v mem) p = v := by
  have hlow : load16 (store32 p v mem) p = v.extractLsb' 0 16 := by
    rw [store32, load16_agree (store16_agree _ _ (by omega)), load16_store16]
  have hhigh : load16 (store32 p v mem) (p + 2) = v.extractLsb' 16 16 := load16_store16 _ _ _
  rw [load32, hlow, hhigh]
  exact BitVec.extractLsb'_append_extractLsb'

/-! ## The code -/

/-- `nlmsg_tail`. -/
def nlmsgTail (mem : Memory) : ℤ := (align (load32 mem 0)).toNat

/-- `nlmsg_reserve`.  The message starts the buffer, and the sum is compared
with `maxlen` as an unsigned number. -/
def nlmsgReserve (maxlen len : BitVec 32) (mem : Memory) : Option ℤ × Memory :=
  let p := nlmsgTail mem
  if maxlen < align (load32 mem 0) + align len then (none, mem)
  else (some p, store32 0 (align (load32 mem 0) + align len) mem)

/-- `RTA_LENGTH`. -/
def rtaLength (len : BitVec 32) : BitVec 32 := 4#32 + len

/-- `nlmsg_add_attr`, with the returned number. -/
def nlmsgAddAttr (maxlen type : BitVec 32) (data : Bytes) (mem : Memory) : BitVec 32 × Memory :=
  let attrLen := BitVec.ofNat 32 data.length
  match nlmsgReserve maxlen (rtaLength attrLen) mem with
  | (none, mem) => (-1#32, mem)
  | (some rta, mem) =>
    let mem := store16 (rta + 2) (type.setWidth 16) mem
    let mem := store16 rta ((rtaLength attrLen).setWidth 16) mem
    let mem := store (rta + 4) data mem
    (load32 mem 0, mem)

/-- `nlmsg_nested_start`. -/
def nlmsgNestedStart (maxlen : BitVec 32) (mem : Memory) : Option ℤ × Memory :=
  nlmsgReserve maxlen 4#32 mem

/-- `nlmsg_nested_end`. -/
def nlmsgNestedEnd (attr : ℤ) (mem : Memory) : Memory :=
  store16 attr (BitVec.ofInt 16 (nlmsgTail mem - attr)) mem

/-- A call while the attributes of a message are added. -/
inductive Call where
  | addAttr (type : ℕ) (data : Bytes)
  /-- `nlmsg_nested_start`, and the store of the type by the caller. -/
  | nestedStart (type : ℕ)
  | nestedEnd

/-- The buffer, and the attributes that are open. -/
structure Builder where
  mem : Memory
  opened : List ℤ

/-- A call, `none` when it fails. -/
def Builder.call (maxlen : BitVec 32) (b : Builder) : Call → Option Builder
  | .addAttr type data =>
    let out := nlmsgAddAttr maxlen (BitVec.ofNat 32 type) data b.mem
    if out.1 = -1#32 then none else some { b with mem := out.2 }
  | .nestedStart type =>
    match nlmsgNestedStart maxlen b.mem with
    | (none, _) => none
    | (some attr, mem) =>
      some ⟨store16 (attr + 2) (BitVec.ofNat 16 type) mem, attr :: b.opened⟩
  | .nestedEnd =>
    match b.opened with
    | [] => none
    | attr :: opened => some ⟨nlmsgNestedEnd attr b.mem, opened⟩

/-- The calls one after the other, `none` when one of them fails. -/
def runCalls (maxlen : BitVec 32) (calls : List Call) (b : Builder) : Option Builder :=
  calls.foldlM (Builder.call maxlen) b

/-- The attributes of a message.  The calls that add them are well-bracketed. -/
inductive Attrs where
  | nil
  | attr (type : ℕ) (data : Bytes) (rest : Attrs)
  | nested (type : ℕ) (inner rest : Attrs)

/-- The calls that add the attributes. -/
def Attrs.calls : Attrs → List Call
  | nil => []
  | attr type data rest => .addAttr type data :: rest.calls
  | nested type inner rest => .nestedStart type :: (inner.calls ++ .nestedEnd :: rest.calls)

/-- The types leave the two flags of `nla_type` alone, and the lengths are those
of an `int`. -/
def Attrs.Valid : Attrs → Prop
  | nil => True
  | attr type data rest => type < 2 ^ 14 ∧ data.length < 2 ^ 31 ∧ rest.Valid
  | nested type inner rest => type < 2 ^ 14 ∧ inner.Valid ∧ rest.Valid

/-! ## How attributes lie in the buffer -/

namespace Attrs

/-- The bytes that the attributes take. -/
def size : Attrs → ℕ
  | nil => 0
  | attr _ data rest => padded (4 + data.length) + rest.size
  | nested _ inner rest => 4 + inner.size + rest.size

/-- The attributes are in the buffer at `p`, each padded to four bytes. -/
def Written (mem : Memory) : Attrs → ℤ → Prop
  | nil, _ => True
  | attr type data rest, p =>
    (load16 mem p).toNat = 4 + data.length ∧ (load16 mem (p + 2)).toNat = type ∧
      Holds mem (p + 4) data ∧ rest.Written mem (p + padded (4 + data.length))
  | nested type inner rest, p =>
    (load16 mem p).toNat = 4 + inner.size ∧ (load16 mem (p + 2)).toNat = type ∧
      inner.Written mem (p + 4) ∧ rest.Written mem (p + 4 + inner.size)

theorem four_dvd_size (attrs : Attrs) : 4 ∣ attrs.size := by
  induction attrs with
  | nil => exact Nat.dvd_zero 4
  | attr type data rest ih =>
    rw [size, padded]
    omega
  | nested type inner rest ihi ih =>
    rw [size]
    omega

/-- What is written depends on the bytes that it takes. -/
theorem Written.agree {mem mem' : Memory} {attrs : Attrs} {p : ℤ} (h : attrs.Written mem p)
    (hagree : Agree p (p + attrs.size) mem mem') : attrs.Written mem' p := by
  induction attrs generalizing p with
  | nil => trivial
  | attr type data rest ih =>
    obtain ⟨hlen, htype, hdata, hrest⟩ := h
    have hpad := le_padded (4 + data.length)
    rw [size] at hagree
    push_cast at hagree
    refine ⟨?_, ?_, hdata.agree (hagree.mono (by omega) (by omega)),
      ih hrest (hagree.mono (by omega) (by omega))⟩
    · rw [load16_agree (hagree.mono (by omega) (by omega)), hlen]
    · rw [load16_agree (hagree.mono (by omega) (by omega)), htype]
  | nested type inner rest ihi ih =>
    obtain ⟨hlen, htype, hinner, hrest⟩ := h
    rw [size] at hagree
    push_cast at hagree
    refine ⟨?_, ?_, ihi hinner (hagree.mono (by omega) (by omega)),
      ih hrest (hagree.mono (by omega) (by omega))⟩
    · rw [load16_agree (hagree.mono (by omega) (by omega)), hlen]
    · rw [load16_agree (hagree.mono (by omega) (by omega)), htype]

end Attrs

/-! ## What the calls write -/

theorem padded_of_four_dvd {n : ℕ} (h : 4 ∣ n) : padded n = n := by
  unfold padded
  omega

/-- The message has the length `t`, which is padded and fits. -/
structure Tail (maxlen : BitVec 32) (mem : Memory) (t : ℕ) : Prop where
  len : (load32 mem 0).toNat = t
  aligned : 4 ∣ t
  fits : t ≤ maxlen.toNat

theorem Tail.align {maxlen : BitVec 32} {mem : Memory} {t : ℕ} (h : Tail maxlen mem t)
    (hmax : maxlen.toNat ≤ 65535) : (align (load32 mem 0)).toNat = t := by
  have hfits := h.fits
  rw [align_toNat (by rw [h.len]; omega), h.len, padded_of_four_dvd h.aligned]

theorem Tail.agree {maxlen : BitVec 32} {mem mem' : Memory} {t : ℕ} (h : Tail maxlen mem t)
    (hagree : Agree 0 4 mem mem') : Tail maxlen mem' t :=
  ⟨by rw [load32_agree hagree, h.len], h.aligned, h.fits⟩

/-- The length that a reservation leads to. -/
theorem Tail.sum {maxlen len : BitVec 32} {mem : Memory} {t : ℕ} (h : Tail maxlen mem t)
    (hmax : maxlen.toNat ≤ 65535) (hlen : len.toNat < 2 ^ 31 + 4) :
    (NlMsg.align (load32 mem 0) + NlMsg.align len).toNat = t + padded len.toNat := by
  have hfits := h.fits
  have hclose := padded_lt len.toNat
  rw [BitVec.toNat_add, h.align hmax, align_toNat (by omega)]
  omega

/-- A reservation fails exactly when there is no room. -/
theorem nlmsgReserve_none_iff {maxlen : BitVec 32} (len : BitVec 32) {mem : Memory} {t : ℕ}
    (hmax : maxlen.toNat ≤ 65535) (h : Tail maxlen mem t) (hlen : len.toNat < 2 ^ 31 + 4) :
    (nlmsgReserve maxlen len mem).1 = none ↔ maxlen.toNat < t + padded len.toNat := by
  rw [← h.sum hmax hlen, ← BitVec.lt_def, nlmsgReserve]
  split_ifs with hroom
  · exact iff_of_true rfl hroom
  · exact iff_of_false nofun hroom

/-- A reservation that succeeds. -/
theorem nlmsgReserve_some {maxlen len : BitVec 32} {mem mem' : Memory} {t : ℕ} {p : ℤ}
    (hmax : maxlen.toNat ≤ 65535) (h : Tail maxlen mem t) (hlen : len.toNat < 2 ^ 31 + 4)
    (hout : nlmsgReserve maxlen len mem = (some p, mem')) :
    p = t ∧ Tail maxlen mem' (t + padded len.toNat) ∧ ∀ hi, Agree 4 hi mem mem' := by
  have hal := h.aligned
  have hroom : ¬ maxlen.toNat < t + padded len.toNat := by
    rw [← nlmsgReserve_none_iff len hmax h hlen, hout]
    exact nofun
  rw [nlmsgReserve] at hout
  split_ifs at hout
  · cases (Prod.mk.inj hout).1
  obtain ⟨hp, rfl⟩ := Prod.mk.inj hout
  obtain rfl := Option.some_inj.mp hp
  refine ⟨by rw [nlmsgTail, h.align hmax], ⟨?_, ?_, not_lt.mp hroom⟩,
    fun hi => store32_agree _ _ (by omega)⟩
  · rw [load32_store32, h.sum hmax hlen]
  · unfold padded
    omega

/-- A reservation that fails changes nothing. -/
theorem nlmsgReserve_none {maxlen len : BitVec 32} {mem : Memory}
    (h : (nlmsgReserve maxlen len mem).1 = none) : nlmsgReserve maxlen len mem = (none, mem) := by
  rw [nlmsgReserve] at h ⊢
  split_ifs at h ⊢
  rfl

theorem rtaLength_ofNat {n : ℕ} (h : n < 2 ^ 31) :
    (rtaLength (BitVec.ofNat 32 n)).toNat = 4 + n := by
  rw [rtaLength, BitVec.toNat_add, BitVec.toNat_ofNat, BitVec.toNat_ofNat]
  omega

/-- An attribute without room. -/
theorem nlmsgAddAttr_none {maxlen type : BitVec 32} {data : Bytes} {mem : Memory}
    (h : (nlmsgReserve maxlen (rtaLength (BitVec.ofNat 32 data.length)) mem).1 = none) :
    nlmsgAddAttr maxlen type data mem = (-1#32, mem) := by
  rw [nlmsgAddAttr, nlmsgReserve_none h]

/-- An attribute that is added. -/
theorem nlmsgAddAttr_some {maxlen : BitVec 32} {type : ℕ} {data : Bytes} {mem : Memory} {t : ℕ}
    (hmax : maxlen.toNat ≤ 65535) (h : Tail maxlen mem t) (h4 : 4 ≤ t) (htype : type < 2 ^ 14)
    (hlen : data.length < 2 ^ 31)
    (hroom : (nlmsgReserve maxlen (rtaLength (BitVec.ofNat 32 data.length)) mem).1 ≠ none) :
    let mem' := (nlmsgAddAttr maxlen (BitVec.ofNat 32 type) data mem).2
    (nlmsgAddAttr maxlen (BitVec.ofNat 32 type) data mem).1 = load32 mem' 0 ∧
      Tail maxlen mem' (t + padded (4 + data.length)) ∧ Agree 4 t mem mem' ∧
      (load16 mem' t).toNat = 4 + data.length ∧ (load16 mem' (t + 2)).toNat = type ∧
      Holds mem' (t + 4) data := by
  have hn := rtaLength_ofNat hlen
  rw [nlmsgAddAttr]
  cases hres : nlmsgReserve maxlen (rtaLength (BitVec.ofNat 32 data.length)) mem with
  | mk out mem₁ =>
    cases out with
    | none => exact absurd (congrArg Prod.fst hres) hroom
    | some p =>
      obtain ⟨rfl, htail, hframe⟩ := nlmsgReserve_some hmax h (by omega) hres
      rw [hn] at htail
      have hfits := htail.fits
      have hpad := le_padded (4 + data.length)
      dsimp only
      generalize hm2 : store16 ((t : ℤ) + 2) _ mem₁ = mem₂
      generalize hm3 : store16 (t : ℤ) _ mem₂ = mem₃
      have hag2 : ∀ lo hi : ℤ, hi ≤ t + 2 ∨ t + 4 ≤ lo → Agree lo hi mem₁ mem₂ := by
        intro lo hi hout
        rw [← hm2]
        exact store16_agree _ _ (by omega)
      have hag3 : ∀ lo hi : ℤ, hi ≤ t ∨ t + 2 ≤ lo → Agree lo hi mem₂ mem₃ := by
        intro lo hi hout
        rw [← hm3]
        exact store16_agree _ _ (by omega)
      have hag4 : ∀ lo hi : ℤ, hi ≤ t + 4 → Agree lo hi mem₃ (store (t + 4) data mem₃) :=
        fun lo hi hhi => store_agree _ (Or.inl hhi)
      refine ⟨rfl, ?_, ?_, ?_, ?_, holds_store _ _ _⟩
      · refine htail.agree ?_
        exact ((hag2 0 4 (by omega)).trans (hag3 0 4 (by omega))).trans (hag4 0 4 (by omega))
      · exact (((hframe t).trans (hag2 4 t (by omega))).trans (hag3 4 t (by omega))).trans
          (hag4 4 t (by omega))
      · rw [load16_agree (hag4 t (t + 2) (by omega)), ← hm3, load16_store16, BitVec.toNat_setWidth,
          hn]
        omega
      · have hag : Agree ((t : ℤ) + 2) (t + 2 + 2) mem₂ (store (t + 4) data mem₃) :=
          (hag3 _ _ (by omega)).trans (hag4 _ _ (by omega))
        rw [load16_agree hag, ← hm2, load16_store16, BitVec.toNat_setWidth, BitVec.toNat_ofNat]
        omega

/-- There was room for an attribute that was added. -/
theorem room_of_nlmsgAddAttr {maxlen type : BitVec 32} {data : Bytes} {mem : Memory}
    (h : (nlmsgAddAttr maxlen type data mem).1 ≠ -1#32) :
    (nlmsgReserve maxlen (rtaLength (BitVec.ofNat 32 data.length)) mem).1 ≠ none := by
  intro hnone
  rw [nlmsgAddAttr_none hnone] at h
  exact h rfl

/-- An attribute that is opened. -/
theorem nestedStart_some {maxlen : BitVec 32} {type : ℕ} {b b' : Builder} {t : ℕ}
    (hmax : maxlen.toNat ≤ 65535) (h : Tail maxlen b.mem t) (h4 : 4 ≤ t) (htype : type < 2 ^ 14)
    (hcall : b.call maxlen (.nestedStart type) = some b') :
    Tail maxlen b'.mem (t + 4) ∧ b'.opened = (t : ℤ) :: b.opened ∧ Agree 4 t b.mem b'.mem ∧
      (load16 b'.mem (t + 2)).toNat = type := by
  rw [Builder.call] at hcall
  cases hres : nlmsgNestedStart maxlen b.mem with
  | mk out mem₁ =>
    rw [hres] at hcall
    cases out with
    | none => cases hcall
    | some p =>
      obtain rfl := Option.some_inj.mp hcall
      obtain ⟨rfl, htail, hframe⟩ := nlmsgReserve_some hmax h (by decide) hres
      refine ⟨htail.agree (store16_agree _ _ (by omega)), rfl,
        (hframe t).trans (store16_agree _ _ (by omega)), ?_⟩
      rw [load16_store16, BitVec.toNat_ofNat]
      omega

/-- An attribute that is closed. -/
theorem nestedEnd_some {maxlen : BitVec 32} {b b' : Builder} {t p : ℕ} {opened : List ℤ}
    (hmax : maxlen.toNat ≤ 65535) (h : Tail maxlen b.mem t) (hopened : b.opened = (p : ℤ) :: opened)
    (h4 : 4 ≤ p) (hle : p ≤ t) (hcall : b.call maxlen .nestedEnd = some b') :
    Tail maxlen b'.mem t ∧ b'.opened = opened ∧ (load16 b'.mem p).toNat = t - p ∧
      (∀ lo hi : ℤ, hi ≤ p ∨ p + 2 ≤ lo → Agree lo hi b.mem b'.mem) := by
  rw [Builder.call, hopened] at hcall
  obtain rfl := Option.some_inj.mp hcall
  have hag : ∀ lo hi : ℤ, hi ≤ p ∨ p + 2 ≤ lo →
      Agree lo hi b.mem (nlmsgNestedEnd p b.mem) := by
    intro lo hi hout
    exact store16_agree _ _ (by omega)
  refine ⟨h.agree (hag 0 4 (by omega)), rfl, ?_, hag⟩
  have hfits := h.fits
  have hdiff : ((nlmsgTail b.mem) - p : ℤ) = ((t - p : ℕ) : ℤ) := by
    rw [nlmsgTail, h.align hmax]
    omega
  rw [nlmsgNestedEnd, load16_store16, hdiff, BitVec.ofInt_natCast, BitVec.toNat_ofNat]
  omega

/-- The calls for a forest write it at the tail, and nothing before. -/
theorem runCalls_written {maxlen : BitVec 32} (hmax : maxlen.toNat ≤ 65535) {attrs : Attrs}
    (hv : attrs.Valid) {b b' : Builder} {t : ℕ} (h : Tail maxlen b.mem t) (h4 : 4 ≤ t)
    (hrun : runCalls maxlen attrs.calls b = some b') :
    Tail maxlen b'.mem (t + attrs.size) ∧ b'.opened = b.opened ∧ Agree 4 t b.mem b'.mem ∧
      attrs.Written b'.mem t := by
  induction attrs generalizing b b' t with
  | nil =>
    obtain rfl := Option.some_inj.mp hrun
    exact ⟨h, rfl, Agree.refl _ _ _, trivial⟩
  | attr type data rest ih =>
    obtain ⟨htype, hlen, hv⟩ := hv
    rw [Attrs.calls, runCalls, List.foldlM_cons, Option.bind_eq_bind] at hrun
    obtain ⟨b₁, hcall, hrun⟩ := Option.bind_eq_some_iff.mp hrun
    rw [Builder.call] at hcall
    split_ifs at hcall with hfail
    obtain rfl := Option.some_inj.mp hcall
    obtain ⟨-, htail, hframe, hnla, hty, hdata⟩ :=
      nlmsgAddAttr_some hmax h h4 htype hlen (room_of_nlmsgAddAttr hfail)
    obtain ⟨htail', hop, hframe', hrest⟩ := ih hv htail (by omega) hrun
    have hpad := le_padded (4 + data.length)
    push_cast at hframe'
    refine ⟨by rwa [Attrs.size, ← add_assoc], hop, hframe.trans (hframe'.mono le_rfl (by omega)),
      ?_, ?_, hdata.agree (hframe'.mono (by omega) (by omega)), by exact_mod_cast hrest⟩
    · rw [load16_agree (hframe'.mono (by omega) (by omega)), hnla]
    · rw [load16_agree (hframe'.mono (by omega) (by omega)), hty]
  | nested type inner rest ihi ih =>
    obtain ⟨htype, hvi, hv⟩ := hv
    rw [Attrs.calls, runCalls, List.foldlM_cons, Option.bind_eq_bind] at hrun
    obtain ⟨b₁, hstart, hrun⟩ := Option.bind_eq_some_iff.mp hrun
    rw [List.foldlM_append, Option.bind_eq_bind] at hrun
    obtain ⟨b₂, hinner, hrun⟩ := Option.bind_eq_some_iff.mp hrun
    rw [List.foldlM_cons, Option.bind_eq_bind] at hrun
    obtain ⟨b₃, hend, hrun⟩ := Option.bind_eq_some_iff.mp hrun
    obtain ⟨htail₁, hop₁, hframe₁, hty⟩ := nestedStart_some hmax h h4 htype hstart
    obtain ⟨htail₂, hop₂, hframe₂, hin⟩ := ihi hvi htail₁ (by omega) hinner
    have hlt := h.fits
    obtain ⟨htail₃, hop₃, hnla, hframe₃⟩ :=
      nestedEnd_some hmax htail₂ (hop₂.trans hop₁) h4 (by omega) hend
    obtain ⟨htail₄, hop₄, hframe₄, hrest⟩ := ih hv htail₃ (by omega) hrun
    push_cast at hframe₂ hframe₄ hin hrest
    have hsize : t + (Attrs.nested type inner rest).size = t + 4 + inner.size + rest.size := by
      rw [Attrs.size]
      omega
    refine ⟨by rwa [hsize], hop₄.trans hop₃, ?_, ?_, ?_, ?_, hrest⟩
    · exact ((hframe₁.trans (hframe₂.mono le_rfl (by omega))).trans
        (hframe₃ 4 t (by omega))).trans (hframe₄.mono le_rfl (by omega))
    · rw [load16_agree (hframe₄.mono (by omega) (by omega)), hnla]
      omega
    · rw [load16_agree (hframe₄.mono (by omega) (by omega)),
        load16_agree (hframe₃ _ _ (by omega)),
        load16_agree (hframe₂.mono (by omega) (by omega)), hty]
    · refine (hin.agree (hframe₃ _ _ (by omega))).agree (hframe₄.mono (by omega) (by omega))

/-! ## Any sequence of calls -/

/-- The length of the data of a call is that of an `int`. -/
def Call.Valid : Call → Prop
  | .addAttr type data => type < 2 ^ 14 ∧ data.length < 2 ^ 31
  | .nestedStart type => type < 2 ^ 14
  | .nestedEnd => True

/-- The headers are in the message, and so is what is open. -/
def Builder.Ready (maxlen : BitVec 32) (b : Builder) : Prop :=
  ∃ t, 4 ≤ t ∧ Tail maxlen b.mem t ∧ ∀ q ∈ b.opened, ∃ p : ℕ, q = p ∧ 4 ≤ p ∧ p ≤ t

/-- The length of a message that is ready does not exceed the buffer. -/
theorem Builder.Ready.fits {maxlen : BitVec 32} {b : Builder} (h : b.Ready maxlen) :
    (load32 b.mem 0).toNat ≤ maxlen.toNat := by
  obtain ⟨t, -, htail, -⟩ := h
  rw [htail.len]
  exact htail.fits

/-- One call. -/
theorem Builder.Ready.call {maxlen : BitVec 32} (hmax : maxlen.toNat ≤ 65535) {b b' : Builder}
    (h : b.Ready maxlen) {c : Call} (hv : c.Valid) (hcall : b.call maxlen c = some b') :
    b'.Ready maxlen := by
  obtain ⟨t, h4, htail, hopened⟩ := h
  cases c with
  | addAttr type data =>
    rw [Builder.call] at hcall
    split_ifs at hcall with hfail
    obtain rfl := Option.some_inj.mp hcall
    obtain ⟨-, htail', -⟩ :=
      nlmsgAddAttr_some hmax htail h4 hv.1 hv.2 (room_of_nlmsgAddAttr hfail)
    refine ⟨_, Nat.le_add_right_of_le h4, htail', fun q hq => ?_⟩
    obtain ⟨p, rfl, hp, hle⟩ := hopened q hq
    exact ⟨p, rfl, hp, Nat.le_add_right_of_le hle⟩
  | nestedStart type =>
    obtain ⟨htail', hop, -⟩ := nestedStart_some hmax htail h4 hv hcall
    refine ⟨_, Nat.le_add_right_of_le h4, htail', fun q hq => ?_⟩
    rw [hop] at hq
    rcases List.mem_cons.mp hq with rfl | hq
    · exact ⟨t, rfl, h4, Nat.le_add_right t 4⟩
    · obtain ⟨p, rfl, hp, hle⟩ := hopened q hq
      exact ⟨p, rfl, hp, Nat.le_add_right_of_le hle⟩
  | nestedEnd =>
    cases hop : b.opened with
    | nil =>
      rw [Builder.call, hop] at hcall
      cases hcall
    | cons q opened =>
      rw [hop] at hopened
      obtain ⟨p, rfl, hp, hle⟩ := hopened q List.mem_cons_self
      obtain ⟨htail', hop', -⟩ := nestedEnd_some hmax htail hop hp hle hcall
      exact ⟨t, h4, htail', hop' ▸ fun q hq => hopened q (List.mem_cons_of_mem _ hq)⟩

/-- Any calls that succeed. -/
theorem runCalls_ready {maxlen : BitVec 32} (hmax : maxlen.toNat ≤ 65535) {calls : List Call}
    (hv : ∀ c ∈ calls, c.Valid) {b b' : Builder} (h : b.Ready maxlen)
    (hrun : runCalls maxlen calls b = some b') : b'.Ready maxlen := by
  induction calls generalizing b with
  | nil =>
    obtain rfl := Option.some_inj.mp hrun
    exact h
  | cons c calls ih =>
    rw [runCalls, List.foldlM_cons, Option.bind_eq_bind] at hrun
    obtain ⟨b₁, hcall, hrun⟩ := Option.bind_eq_some_iff.mp hrun
    exact ih (fun c' hc' => hv c' (List.mem_cons_of_mem _ hc'))
      (h.call hmax (hv c List.mem_cons_self) hcall) hrun

/-- An attribute that is not added changes nothing. -/
theorem nlmsgAddAttr_fails {maxlen : BitVec 32} (hmax : maxlen.toNat ≤ 65535) {b : Builder}
    (h : b.Ready maxlen) {type : ℕ} {data : Bytes} (htype : type < 2 ^ 14)
    (hlen : data.length < 2 ^ 31)
    (hfail : (nlmsgAddAttr maxlen (BitVec.ofNat 32 type) data b.mem).1 = -1#32) :
    (nlmsgAddAttr maxlen (BitVec.ofNat 32 type) data b.mem).2 = b.mem := by
  by_cases hnone : (nlmsgReserve maxlen (rtaLength (BitVec.ofNat 32 data.length)) b.mem).1 = none
  · rw [nlmsgAddAttr_none hnone]
  · obtain ⟨t, h4, htail, -⟩ := h
    obtain ⟨hret, htail', -⟩ := nlmsgAddAttr_some hmax htail h4 htype hlen hnone
    have hfits := htail'.fits
    -- what is returned is the length, which is not near the end of the integers
    rw [← htail'.len, ← hret, hfail] at hfits
    exact absurd (hfits.trans hmax) (by decide)

end OpxNasLinux.NlMsg
