import Mathlib.Data.List.Induction
import OpxNasLinux.NlBuild

/-!
# Reading attributes back

`nla_for_each_attr` hands every attribute of a message to a function,
`nla_for_each_emb_attr` does so with the attributes inside one, and `nla_parse`
keeps the last attribute of each type.

* `Visits` are the attributes that a walk hands out.
* `Attrs.Written.walk` is the walk over attributes that lie in the buffer.
* `nlaParse_eq` is what `nla_parse` finds.
* `built_read_back` is the walk over a message that was built.
-/

namespace OpxNasLinux.NlMsg

open ByteStore

/-! ## The code -/

/-- `nla_type`. -/
def nlaType (mem : Memory) (p : ℤ) : ℕ := (load16 mem (p + 2) &&& 0x3fff#16).toNat

/-- `nla_data`. -/
def nlaData (p : ℤ) : ℤ := p + 4

/-- `nla_len`. -/
def nlaDataLen (mem : Memory) (p : ℤ) : BitVec 32 := (load16 mem p).setWidth 32 - 4#32

/-- The attributes that `nla_for_each_attr` hands out, starting with these loop
variables. -/
inductive Visits (mem : Memory) : Cursor → List ℤ → Prop where
  | stop {c : Cursor} : nlaOk mem c = false → Visits mem c []
  | turn {c : Cursor} {ps : List ℤ} :
      nlaOk mem c = true → Visits mem (nlaNext mem c) ps → Visits mem c (c.pos :: ps)

/-- The loop variables of `nla_for_each_emb_attr`. -/
def embedded (mem : Memory) (p : ℤ) : Cursor := ⟨nlaData p, nlaDataLen mem p⟩

/-- `nlmsg_attrdata` and `nlmsg_attrlen`. -/
def attrCursor (mem : Memory) (hdrLen : BitVec 32) : Cursor where
  pos := 16 + (align hdrLen).toNat
  rem := load32 mem 0 - 16#32 - align hdrLen

/-- `nla_parse` of the attributes that the walk hands out.  The table is
`memset` first. -/
def nlaParse (mem : Memory) (maxType : ℕ) (ps : List ℤ) : ℕ → Option ℤ :=
  ps.foldl (fun tb p =>
    let type := nlaType mem p
    if type = 0 ∨ type < maxType then Function.update tb type (some p) else tb) fun _ => none

/-- The netlink header and the family header of a new message. -/
def startMsg (maxlen hdrLen : BitVec 32) (buf : Memory) : Option Memory :=
  match nlmsgReserve maxlen 16#32 buf with
  | (none, _) => none
  | (some _, mem) =>
    match nlmsgReserve maxlen hdrLen mem with
    | (none, _) => none
    | (some _, mem) => some mem

/-! ## What a walk is to find -/

namespace Attrs

/-- The types of the attributes, without the ones inside. -/
def types : Attrs → List ℕ
  | nil => []
  | attr type _ rest => type :: rest.types
  | nested type _ rest => type :: rest.types

/-- The position of the last attribute of a type. -/
def last (type : ℕ) (attrs : Attrs) (ps : List ℤ) : Option ℤ :=
  (((attrs.types.zip ps).filter fun a => a.1 = type).getLast?).map Prod.snd

/-- The attributes at these positions are the ones of the list.  The walk and
`nla_parse` find those inside of them too. -/
def Visited (mem : Memory) : Attrs → List ℤ → Prop
  | nil, ps => ps = []
  | attr type data rest, ps =>
    ∃ p ps', ps = p :: ps' ∧ nlaType mem p = type ∧ (nlaDataLen mem p).toInt = data.length ∧
      Holds mem (nlaData p) data ∧ rest.Visited mem ps'
  | nested type inner rest, ps =>
    ∃ p ps', ps = p :: ps' ∧ nlaType mem p = type ∧ (nlaDataLen mem p).toInt = inner.size ∧
      (∃ qs, Visits mem (embedded mem p) qs ∧ inner.Visited mem qs ∧
        ∀ maxType, ∀ t < maxType, nlaParse mem maxType qs t = inner.last t qs) ∧
      rest.Visited mem ps'

end Attrs

/-! ## `nla_parse` -/

theorem Attrs.Visited.types {mem : Memory} {attrs : Attrs} {ps : List ℤ}
    (h : attrs.Visited mem ps) : attrs.types = ps.map (nlaType mem) := by
  induction attrs generalizing ps with
  | nil =>
    obtain rfl : ps = [] := h
    rfl
  | attr type data rest ih =>
    obtain ⟨p, ps', rfl, hty, -, -, hrest⟩ := h
    rw [Attrs.types, List.map_cons, hty, ih hrest]
  | nested type inner rest ihi ih =>
    obtain ⟨p, ps', rfl, hty, -, -, hrest⟩ := h
    rw [Attrs.types, List.map_cons, hty, ih hrest]

/-- The table has the last attribute of every type below its size. -/
theorem nlaParse_eq (mem : Memory) {maxType type : ℕ} (htype : type < maxType) (ps : List ℤ) :
    nlaParse mem maxType ps type = (ps.filter fun p => nlaType mem p = type).getLast? := by
  induction ps using List.reverseRecOn with
  | nil => rfl
  | append_singleton ps p ih =>
    rw [nlaParse] at ih
    rw [nlaParse, List.foldl_concat, List.filter_append]
    dsimp only
    by_cases hp : nlaType mem p = type
    · have hone : [p].filter (fun p => decide (nlaType mem p = type)) = [p] := by
        simp [hp]
      rw [hp, if_pos (Or.inr htype), Function.update_self, hone, List.getLast?_concat]
    · have hone : [p].filter (fun p => decide (nlaType mem p = type)) = [] := by
        simp [hp]
      rw [hone, List.append_nil, ← ih]
      split_ifs
      · exact Function.update_of_ne (Ne.symm hp) _ _
      · rfl

/-- What `nla_parse` finds among the attributes that were visited. -/
theorem Attrs.Visited.parse {mem : Memory} {attrs : Attrs} {ps : List ℤ}
    (h : attrs.Visited mem ps) {maxType type : ℕ} (htype : type < maxType) :
    nlaParse mem maxType ps type = attrs.last type ps := by
  have hzip : ∀ ps : List ℤ,
      (ps.map (nlaType mem)).zip ps = ps.map fun p => (nlaType mem p, p) := by
    intro ps
    induction ps with
    | nil => rfl
    | cons p ps ih => rw [List.map_cons, List.zip_cons_cons, List.map_cons, ih]
  rw [nlaParse_eq mem htype, Attrs.last, h.types, hzip, List.filter_map, List.getLast?_map,
    Option.map_map]
  exact (congrFun Option.map_id _).symm

/-! ## The walk -/

/-- A type that leaves the two flags alone is read as it is. -/
theorem nlaType_eq {mem : Memory} {p : ℤ} {type : ℕ} (htype : type < 2 ^ 14)
    (h : (load16 mem (p + 2)).toNat = type) : nlaType mem p = type := by
  have hmask : (0x3fff#16).toNat = 2 ^ 14 - 1 := rfl
  rw [nlaType, BitVec.toNat_and, h, hmask, Nat.and_two_pow_sub_one_eq_mod, Nat.mod_eq_of_lt htype]

theorem nlaDataLen_eq {mem : Memory} {p : ℤ} {n : ℕ} (h : (load16 mem p).toNat = 4 + n) :
    nlaDataLen mem p = BitVec.ofNat 32 n := by
  have hlt := (load16 mem p).isLt
  apply BitVec.eq_of_toNat_eq
  rw [nlaDataLen, BitVec.toNat_sub, BitVec.toNat_setWidth, h, BitVec.toNat_ofNat,
    BitVec.toNat_ofNat]
  omega

theorem toInt_ofNat {n : ℕ} (h : n < 2 ^ 31) : (BitVec.ofNat 32 n).toInt = n := by
  rw [BitVec.toInt_eq_toNat_cond, BitVec.toNat_ofNat]
  omega

/-- A turn of the walk at an attribute that lies in what is left. -/
theorem nlaOk_of_fits {mem : Memory} {p : ℤ} {len n : ℕ} (hn : n < 2 ^ 31)
    (h : (load16 mem p).toNat = len) (hmin : 4 ≤ len) (hpad : padded len ≤ n) :
    nlaOk mem ⟨p, BitVec.ofNat 32 n⟩ = true ∧
      nlaNext mem ⟨p, BitVec.ofNat 32 n⟩ = ⟨p + padded len, BitVec.ofNat 32 (n - padded len)⟩ := by
  have hle := le_padded len
  have hlt := (load16 mem p).isLt
  have hlen : (nlaLen mem ⟨p, BitVec.ofNat 32 n⟩).toNat = len := h
  have hwide : ((nlaLen mem ⟨p, BitVec.ofNat 32 n⟩).setWidth 32).toNat = len := by
    rw [BitVec.toNat_setWidth, hlen]
    omega
  constructor
  · rw [nlaOk_iff, hlen, toInt_ofNat hn]
    unfold nlaHdrLen
    omega
  · have hnat : (align ((nlaLen mem ⟨p, BitVec.ofNat 32 n⟩).setWidth 32)).toNat = padded len := by
      rw [align_toNat (by omega), hwide]
    have hint : (align ((nlaLen mem ⟨p, BitVec.ofNat 32 n⟩).setWidth 32)).toInt =
        (padded len : ℤ) := by
      rw [align_toInt (by omega), hwide]
    rw [nlaNext, hint, Cursor.mk.injEq]
    refine ⟨rfl, ?_⟩
    apply BitVec.eq_of_toNat_eq
    rw [BitVec.toNat_sub, hnat, BitVec.toNat_ofNat, BitVec.toNat_ofNat]
    omega

/-- The walk over attributes that lie in the buffer visits them in order, and
the walks inside visit what they hold. -/
theorem Attrs.Written.walk {mem : Memory} {attrs : Attrs} (hv : attrs.Valid) {p : ℤ}
    (h : attrs.Written mem p) (hsize : attrs.size < 2 ^ 31) :
    ∃ ps, Visits mem ⟨p, BitVec.ofNat 32 attrs.size⟩ ps ∧ attrs.Visited mem ps := by
  induction attrs generalizing p with
  | nil => exact ⟨[], .stop rfl, rfl⟩
  | attr type data rest ih =>
    obtain ⟨htype, hlt, hv⟩ := hv
    obtain ⟨hlen, hty, hdata, hrest⟩ := h
    rw [Attrs.size] at hsize
    obtain ⟨ps, hwalk, hvis⟩ := ih hv hrest (by omega)
    obtain ⟨hok, hnext⟩ := nlaOk_of_fits hsize hlen (by omega) (Nat.le_add_right _ _)
    rw [Nat.add_sub_cancel_left] at hnext
    refine ⟨p :: ps, .turn hok (hnext ▸ hwalk), p, ps, rfl, nlaType_eq htype hty, ?_, hdata, hvis⟩
    rw [nlaDataLen_eq hlen, toInt_ofNat hlt]
  | nested type inner rest ihi ih =>
    obtain ⟨htype, hvi, hv⟩ := hv
    obtain ⟨hlen, hty, hinner, hrest⟩ := h
    rw [Attrs.size] at hsize
    have hpad : padded (4 + inner.size) = 4 + inner.size :=
      padded_of_four_dvd (Nat.dvd_add (Nat.dvd_refl 4) inner.four_dvd_size)
    obtain ⟨qs, hwalki, hvisi⟩ := ihi hvi hinner (by omega)
    obtain ⟨ps, hwalk, hvis⟩ := ih hv hrest (by omega)
    obtain ⟨hok, hnext⟩ := nlaOk_of_fits hsize hlen (by omega) (by omega)
    rw [hpad, Nat.add_sub_cancel_left] at hnext
    have hnext' : nlaNext mem ⟨p, BitVec.ofNat 32 (4 + inner.size + rest.size)⟩ =
        ⟨p + 4 + inner.size, BitVec.ofNat 32 rest.size⟩ := by
      rw [hnext]
      push_cast
      rw [add_assoc]
    refine ⟨p :: ps, .turn hok (hnext' ▸ hwalk), p, ps, rfl, nlaType_eq htype hty, ?_,
      ⟨qs, ?_, hvisi, fun maxType t ht => hvisi.parse ht⟩, hvis⟩
    · rw [nlaDataLen_eq hlen, toInt_ofNat (by omega)]
    · rw [embedded, nlaDataLen_eq hlen]
      exact hwalki

/-! ## The round trip -/

/-- A message with its two headers is ready for attributes. -/
theorem startMsg_tail {maxlen hdrLen : BitVec 32} (hmax : maxlen.toNat ≤ 65535)
    (hhdr : hdrLen.toNat < 2 ^ 31) {buf mem : Memory} (hbuf : load32 buf 0 = 0#32)
    (hstart : startMsg maxlen hdrLen buf = some mem) :
    Tail maxlen mem (16 + padded hdrLen.toNat) := by
  have hzero : Tail maxlen buf 0 := ⟨by rw [hbuf]; rfl, Nat.dvd_zero 4, Nat.zero_le _⟩
  rw [startMsg] at hstart
  cases hres : nlmsgReserve maxlen 16#32 buf with
  | mk out mem₁ =>
    rw [hres] at hstart
    cases out with
    | none => cases hstart
    | some p =>
      obtain ⟨-, htail, -⟩ := nlmsgReserve_some hmax hzero (by decide) hres
      dsimp only at hstart
      cases hres' : nlmsgReserve maxlen hdrLen mem₁ with
      | mk out' mem₂ =>
        rw [hres'] at hstart
        cases out' with
        | none => cases hstart
        | some p' =>
          obtain rfl := Option.some_inj.mp hstart
          obtain ⟨-, htail', -⟩ := nlmsgReserve_some hmax htail (by omega) hres'
          exact htail'

/-- There is room for the headers. -/
theorem startMsg_room {maxlen hdrLen : BitVec 32} (hmax : maxlen.toNat ≤ 65535)
    (hhdr : hdrLen.toNat < 2 ^ 31) {buf : Memory} (hbuf : load32 buf 0 = 0#32)
    (hroom : 16 + padded hdrLen.toNat ≤ maxlen.toNat) :
    ∃ mem, startMsg maxlen hdrLen buf = some mem := by
  have hzero : Tail maxlen buf 0 := ⟨by rw [hbuf]; rfl, Nat.dvd_zero 4, Nat.zero_le _⟩
  have hpad : padded (16#32).toNat = 16 := rfl
  have hnone := nlmsgReserve_none_iff 16#32 hmax hzero (by decide)
  rw [startMsg]
  cases hres : nlmsgReserve maxlen 16#32 buf with
  | mk out mem₁ =>
    cases out with
    | none =>
      rw [hres, hpad] at hnone
      have hfull := hnone.mp rfl
      omega
    | some p =>
      obtain ⟨-, htail, -⟩ := nlmsgReserve_some hmax hzero (by decide) hres
      rw [hpad] at htail
      have hnone' := nlmsgReserve_none_iff hdrLen hmax htail (by omega)
      dsimp only
      cases hres' : nlmsgReserve maxlen hdrLen mem₁ with
      | mk out' mem₂ =>
        cases out' with
        | none =>
          rw [hres'] at hnone'
          have hfull := hnone'.mp rfl
          omega
        | some p' => exact ⟨mem₂, rfl⟩

/-- A message that was built is read back: the walks visit the attributes that
were added, in order and with those inside, and `nla_parse` finds the last of
each type.  Whatever calls succeed, the message does not outgrow the buffer,
and a call that fails leaves it alone.  The caller fills the headers in, but
for the length of the message. -/
theorem built_read_back (maxlen hdrLen : BitVec 32) (hmax : maxlen.toNat ≤ 65535)
    (hhdr : hdrLen.toNat < 2 ^ 31) (buf mem filled : Memory) (hbuf : load32 buf 0 = 0#32)
    (hstart : startMsg maxlen hdrLen buf = some mem) (hfill : Agree 0 4 mem filled) :
    (∀ (attrs : Attrs) (b : Builder), attrs.Valid →
      runCalls maxlen attrs.calls ⟨filled, []⟩ = some b →
        ∃ ps, Visits b.mem (attrCursor b.mem hdrLen) ps ∧ attrs.Visited b.mem ps ∧
          ∀ maxType, ∀ type < maxType, nlaParse b.mem maxType ps type = attrs.last type ps) ∧
    (∀ (calls : List Call) (b : Builder), (∀ c ∈ calls, c.Valid) →
      runCalls maxlen calls ⟨filled, []⟩ = some b →
        (load32 b.mem 0).toNat ≤ maxlen.toNat ∧
        (∀ len, (nlmsgReserve maxlen len b.mem).1 = none →
          (nlmsgReserve maxlen len b.mem).2 = b.mem) ∧
        ∀ type data, (Call.addAttr type data).Valid →
          (nlmsgAddAttr maxlen (BitVec.ofNat 32 type) data b.mem).1 = -1#32 →
            (nlmsgAddAttr maxlen (BitVec.ofNat 32 type) data b.mem).2 = b.mem) := by
  have htail := (startMsg_tail hmax hhdr hbuf hstart).agree hfill
  have hpad : (align hdrLen).toNat = padded hdrLen.toNat := align_toNat (by omega)
  constructor
  · intro attrs b hv hrun
    obtain ⟨hend, -, -, hwritten⟩ := runCalls_written hmax hv htail (by omega) hrun
    have hfits := hend.fits
    have hcursor : attrCursor b.mem hdrLen =
        ⟨((16 + padded hdrLen.toNat : ℕ) : ℤ), BitVec.ofNat 32 attrs.size⟩ := by
      rw [attrCursor, Cursor.mk.injEq, hpad]
      refine ⟨by push_cast; rfl, ?_⟩
      apply BitVec.eq_of_toNat_eq
      have hclose := padded_lt hdrLen.toNat
      rw [BitVec.toNat_sub, BitVec.toNat_sub, hend.len, hpad, BitVec.toNat_ofNat,
        BitVec.toNat_ofNat]
      omega
    obtain ⟨ps, hwalk, hvis⟩ := hwritten.walk hv (by omega)
    exact ⟨ps, hcursor ▸ hwalk, hvis, fun maxType type htype => hvis.parse htype⟩
  · intro calls b hv hrun
    have hready : Builder.Ready maxlen ⟨filled, []⟩ := ⟨_, by omega, htail, nofun⟩
    have hready' := runCalls_ready hmax hv hready hrun
    refine ⟨hready'.fits, fun len hnone => by rw [nlmsgReserve_none hnone], ?_⟩
    exact fun type data hvalid hfail => nlmsgAddAttr_fails hmax hready' hvalid.1 hvalid.2 hfail

/-- A destination, and a nested attribute with a gateway. -/
def routeAttrs : Attrs := .attr 1 [10, 0, 0, 0] (.nested 9 (.attr 5 [192, 168, 0, 1] .nil) .nil)

/-- An empty route message in a buffer of 64 bytes. -/
def routeBuf : Memory := (startMsg 64#32 12#32 fun _ => 0).get (by decide +kernel)

/-- The message with the attributes. -/
def routeMsg : Builder := (runCalls 64#32 routeAttrs.calls ⟨routeBuf, []⟩).get (by decide +kernel)

theorem built_read_back_small :
    ∃ ps, Visits routeMsg.mem (attrCursor routeMsg.mem 12#32) ps ∧
      routeAttrs.Visited routeMsg.mem ps := by
  obtain ⟨ps, hwalk, hvis, -⟩ :=
    (built_read_back 64#32 12#32 (by decide) (by decide) (fun _ => 0) routeBuf routeBuf rfl
      (Option.some_get _).symm (Agree.refl _ _ _)).1 routeAttrs routeMsg
      ⟨by decide, by decide, by decide, ⟨by decide, by decide, trivial⟩, trivial⟩
      (Option.some_get _).symm
  exact ⟨ps, hwalk, hvis⟩

end OpxNasLinux.NlMsg
