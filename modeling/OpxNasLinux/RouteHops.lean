import Mathlib.Algebra.BigOperators.Ring.List
import OpxNasLinux.RouteMsg

/-!
# The next hops of a multipath route

Both functions put a `struct rtnexthop` for every next hop into an
`RTA_MULTIPATH` attribute.

* `HopRec` is what a next hop becomes, and `HopRec.Written` says how it lies in
  the buffer.
* `packNexthop_ok` is one turn of the loop, `packNexthops_spec` the loop and
  `multipath_spec` the attribute around it.
* `startRoute_ok` is the message before the next hops.
* `RouteData` is what the two functions are given.
-/

namespace OpxNasLinux.Route

open NlMsg Netlink ByteStore

/-! ## Next hops in the buffer -/

/-- What a next hop becomes.  The gateway is left out when there is no room for
it. -/
@[ext]
structure HopRec where
  gateway : Option Bytes
  flags : UInt8
  hops : UInt8
  ifindex : BitVec 32
deriving DecidableEq

namespace HopRec

def attrs (r : HopRec) : Attrs :=
  match r.gateway with
  | none => .nil
  | some gw => .attr rtaGateway gw .nil

def size (r : HopRec) : ℕ := 8 + r.attrs.size

/-- The next hop is in the buffer at `p`. -/
structure Written (mem : Memory) (r : HopRec) (p : ℤ) : Prop where
  len : (load16 mem p).toNat = r.size
  flags : mem (p + 2) = r.flags
  hops : mem (p + 3) = r.hops
  ifindex : load32 mem (p + 4) = r.ifindex
  attrs : r.attrs.Written mem (p + 8)

theorem Written.agree {mem mem' : Memory} {r : HopRec} {p : ℤ} (h : r.Written mem p)
    (hagree : Agree p (p + r.size) mem mem') : r.Written mem' p := by
  rw [size] at hagree
  push_cast at hagree
  constructor
  · rw [load16_agree (hagree.mono (by omega) (by omega)), h.len]
  · rw [hagree (p + 2) (by omega) (by omega), h.flags]
  · rw [hagree (p + 3) (by omega) (by omega), h.hops]
  · rw [load32_agree (hagree.mono (by omega) (by omega)), h.ifindex]
  · exact h.attrs.agree (hagree.mono (by omega) (by omega))

theorem four_dvd_size (r : HopRec) : 4 ∣ r.size :=
  Nat.dvd_add (by decide) r.attrs.four_dvd_size

end HopRec

/-- The bytes that next hops take. -/
def hopsSize (recs : List HopRec) : ℕ := (recs.map HopRec.size).sum

theorem hopsSize_cons (r : HopRec) (recs : List HopRec) :
    hopsSize (r :: recs) = r.size + hopsSize recs := by
  rw [hopsSize, List.map_cons, List.sum_cons, hopsSize]

theorem four_dvd_hopsSize (recs : List HopRec) : 4 ∣ hopsSize recs := by
  refine List.dvd_sum fun n hn => ?_
  obtain ⟨r, -, rfl⟩ := List.mem_map.mp hn
  exact r.four_dvd_size

/-- The next hops are in the buffer one after the other. -/
def HopsWritten (mem : Memory) : List HopRec → ℤ → Prop
  | [], _ => True
  | r :: recs, p => r.Written mem p ∧ HopsWritten mem recs (p + r.size)

theorem HopsWritten.agree {mem mem' : Memory} {recs : List HopRec} {p : ℤ}
    (h : HopsWritten mem recs p) (hagree : Agree p (p + hopsSize recs) mem mem') :
    HopsWritten mem' recs p := by
  induction recs generalizing p with
  | nil => trivial
  | cons r recs ih =>
    obtain ⟨hr, hrest⟩ := h
    rw [hopsSize_cons] at hagree
    push_cast at hagree
    exact ⟨hr.agree (hagree.mono le_rfl (by omega)), ih hrest (hagree.mono (by omega) (by omega))⟩

/-! ## One turn of the loop that builds them -/

/-- What a next hop becomes at `t`, `none` when it is refused. -/
def hopRec (sys : Sys) (lookup : Str → Option (BitVec 32)) (n t : ℕ) (nh : NextHop) :
    Option HopRec :=
  match nh.addr, outIf lookup nh with
  | some gw, some oif =>
    some
      { gateway := if t + 8 + padded (4 + n) ≤ bufLen.toNat then some (gw.read n) else none
        flags := if nh.flags = some sys.nhFlagsOnlink then ⟨rtnhFOnlink.setWidth 8⟩ else 0
        hops := (nh.weight.map fun w => (⟨w.setWidth 8⟩ : UInt8)).getD 0
        ifindex := oif.getD 0 }
  | _, _ => none

theorem bufLen_le : bufLen.toNat ≤ 65535 := by decide

/-- An attribute at the tail, when there is room for it. -/
theorem addAttr_tail (type : ℕ) {data : Bytes} {m : RouteMsg} {t : ℕ} (h : Tail bufLen m.mem t)
    (h4 : 4 ≤ t) (htype : type < 2 ^ 14) (hlen : data.length < 2 ^ 31) :
    let attrs := if t + padded (4 + data.length) ≤ bufLen.toNat then Attrs.attr type data .nil
      else .nil
    Tail bufLen (addAttr type data m).mem (t + attrs.size) ∧
      attrs.Written (addAttr type data m).mem t ∧ Agree 4 t m.mem (addAttr type data m).mem := by
  have hroom := nlmsgReserve_none_iff (rtaLength (BitVec.ofNat 32 data.length)) bufLen_le h
    (by rw [rtaLength_ofNat hlen]; omega)
  rw [rtaLength_ofNat hlen] at hroom
  dsimp only
  split_ifs with hfit
  · obtain ⟨-, htail, hframe, hnla, hty, hdata⟩ := nlmsgAddAttr_some bufLen_le h h4 htype hlen
      (fun hnone => absurd (hroom.mp hnone) (not_lt.mpr hfit))
    exact ⟨htail, ⟨hnla, hty, hdata, trivial⟩, hframe⟩
  · have hmem : (addAttr type data m).mem = m.mem := by
      rw [addAttr, nlmsgAddAttr_none (hroom.mpr (not_le.mp hfit))]
    rw [hmem]
    exact ⟨h, trivial, Agree.refl _ _ _⟩

theorem store_one (p : ℤ) (b : UInt8) (mem : Memory) : store p [b] mem p = b := by
  have h := holds_store p [b] mem 0 Nat.zero_lt_one
  rwa [Nat.cast_zero, add_zero] at h

theorem store_one_agree {p lo hi : ℤ} (b : UInt8) (mem : Memory) (h : hi ≤ p ∨ p + 1 ≤ lo) :
    Agree lo hi mem (store p [b] mem) :=
  store_agree mem h

/-- The flags of a next hop. -/
theorem flags_stored (c : Prop) [Decidable c] {t : ℕ} {mem : Memory} (hzero : mem (t + 2) = 0) :
    ∃ mem', (if c then store (t + 2) [mem (t + 2) ||| ⟨rtnhFOnlink.setWidth 8⟩] mem
        else mem) = mem' ∧
      mem' (t + 2) = (if c then ⟨rtnhFOnlink.setWidth 8⟩ else 0) ∧
      ∀ lo hi : ℤ, hi ≤ t + 2 ∨ t + 3 ≤ lo → Agree lo hi mem mem' := by
  refine ⟨_, rfl, ?_, ?_⟩
  · split_ifs
    · rw [store_one, hzero]
      rfl
    · exact hzero
  · intro lo hi hout
    split_ifs
    · exact store_one_agree _ _ (by omega)
    · exact Agree.refl _ _ _

/-- The interface of a next hop. -/
theorem ifindex_stored (oif : Option (BitVec 32)) {t : ℕ} {mem : Memory}
    (hzero : load32 mem (t + 4) = 0) :
    ∃ mem', (match oif with
        | none => mem
        | some ifindex => store32 (t + 4) ifindex mem) = mem' ∧
      load32 mem' (t + 4) = oif.getD 0 ∧
      ∀ lo hi : ℤ, hi ≤ t + 4 ∨ t + 8 ≤ lo → Agree lo hi mem mem' := by
  refine ⟨_, rfl, ?_, ?_⟩
  · cases oif with
    | none => exact hzero
    | some ifindex => exact load32_store32 _ _ _
  · intro lo hi hout
    cases oif with
    | none => exact Agree.refl _ _ _
    | some ifindex => exact store32_agree _ _ (by omega)

/-- The weight of a next hop. -/
theorem weight_stored (weight : Option (BitVec 32)) {t : ℕ} {mem : Memory}
    (hzero : mem (t + 3) = 0) :
    ∃ mem', (match weight with
        | none => mem
        | some weight => store (t + 3) [⟨weight.setWidth 8⟩] mem) = mem' ∧
      mem' (t + 3) = (weight.map fun w => (⟨w.setWidth 8⟩ : UInt8)).getD 0 ∧
      ∀ lo hi : ℤ, hi ≤ t + 3 ∨ t + 4 ≤ lo → Agree lo hi mem mem' := by
  refine ⟨_, rfl, ?_, ?_⟩
  · cases weight with
    | none => exact hzero
    | some weight => exact store_one _ _ _
  · intro lo hi hout
    cases weight with
    | none => exact Agree.refl _ _ _
    | some weight => exact store_one_agree _ _ (by omega)

/-- A `struct rtnexthop` of zeros. -/
theorem zeros_stored (t : ℕ) (mem : Memory) :
    let mem' := store (t : ℤ) (List.replicate 8 0) mem
    mem' (t + 2) = 0 ∧ mem' (t + 3) = 0 ∧ load32 mem' (t + 4) = 0 ∧
      ∀ lo hi : ℤ, hi ≤ t ∨ t + 8 ≤ lo → Agree lo hi mem mem' := by
  intro mem'
  have hzero : ∀ i : ℕ, i < 8 → mem' (t + i) = 0 := by
    intro i hi
    have h := holds_store (t : ℤ) (List.replicate 8 (0 : UInt8)) mem i
      (by rwa [List.length_replicate])
    rwa [List.getElem_replicate] at h
  have h2 := hzero 2 (by decide)
  have h3 := hzero 3 (by decide)
  push_cast at h2 h3
  refine ⟨h2, h3, load32_zero fun i hi => ?_, ?_⟩
  · have h := hzero (4 + i) (by omega)
    rwa [Nat.cast_add, ← add_assoc] at h
  · intro lo hi hout
    refine store_agree mem ?_
    rw [List.length_replicate]
    exact_mod_cast hout

/-- The flags, the interface and the weight, one after the other. -/
theorem fields_stored (sys : Sys) (nh : NextHop) (oif : Option (BitVec 32)) {t : ℕ}
    {mem : Memory} (hz2 : mem (t + 2) = 0) (hz3 : mem (t + 3) = 0)
    (hz4 : load32 mem (t + 4) = 0) :
    ∃ mem₁ mem₂ mem₃,
      (if nh.flags = some sys.nhFlagsOnlink then
        store (t + 2) [mem (t + 2) ||| ⟨rtnhFOnlink.setWidth 8⟩] mem else mem) = mem₁ ∧
      (match oif with
        | none => mem₁
        | some ifindex => store32 (t + 4) ifindex mem₁) = mem₂ ∧
      (match nh.weight with
        | none => mem₂
        | some weight => store (t + 3) [⟨weight.setWidth 8⟩] mem₂) = mem₃ ∧
      mem₃ (t + 2) = (if nh.flags = some sys.nhFlagsOnlink then ⟨rtnhFOnlink.setWidth 8⟩ else 0) ∧
      mem₃ (t + 3) = (nh.weight.map fun w => (⟨w.setWidth 8⟩ : UInt8)).getD 0 ∧
      load32 mem₃ (t + 4) = oif.getD 0 ∧
      ∀ lo hi : ℤ, hi ≤ t + 2 ∨ t + 8 ≤ lo → Agree lo hi mem mem₃ := by
  obtain ⟨mem₁, hm1, hflags, hag₁⟩ := flags_stored (nh.flags = some sys.nhFlagsOnlink) hz2
  have hz4' : load32 mem₁ (t + 4) = 0 := by
    rw [load32_agree (hag₁ (t + 4) (t + 4 + 4) (by omega)), hz4]
  obtain ⟨mem₂, hm2, hifindex, hag₂⟩ := ifindex_stored oif hz4'
  have hz3' : mem₂ (t + 3) = 0 := by
    rw [(hag₂ (t + 3) (t + 3 + 1) (by omega)).cell, (hag₁ (t + 3) (t + 3 + 1) (by omega)).cell, hz3]
  obtain ⟨mem₃, hm3, hhops, hag₃⟩ := weight_stored nh.weight hz3'
  refine ⟨mem₁, mem₂, mem₃, hm1, hm2, hm3, ?_, hhops, ?_, ?_⟩
  · rw [(hag₃ (t + 2) (t + 2 + 1) (by omega)).cell, (hag₂ (t + 2) (t + 2 + 1) (by omega)).cell,
      hflags]
  · rw [load32_agree (hag₃ (t + 4) (t + 4 + 4) (by omega)), hifindex]
  · intro lo hi hout
    exact ((hag₁ lo hi (by omega)).trans (hag₂ lo hi (by omega))).trans (hag₃ lo hi (by omega))

/-- The length, which is that of what stands between the struct and the tail. -/
theorem len_stored {mem : Memory} {t size : ℕ} (h : Tail bufLen mem (t + size)) :
    let mem' := store16 t (BitVec.ofInt 16 (nlmsgTail mem - t)) mem
    (load16 mem' t).toNat = size ∧
      ∀ lo hi : ℤ, hi ≤ t ∨ t + 2 ≤ lo → Agree lo hi mem mem' := by
  have hfits := h.fits
  have hbuf := bufLen_le
  have hdiff : nlmsgTail mem - t = (size : ℤ) := by
    rw [nlmsgTail, h.align bufLen_le]
    omega
  refine ⟨?_, fun lo hi hout => store16_agree _ _ hout⟩
  rw [load16_store16, hdiff, BitVec.ofInt_natCast, BitVec.toNat_ofNat]
  omega

/-- One turn of the loop. -/
theorem packNexthop_ok {sys : Sys} {lookup : Str → Option (BitVec 32)} {nh : NextHop}
    {m : RouteMsg} {t : ℕ} {r : HopRec} (h : Tail bufLen m.mem t) (h4 : 4 ≤ t)
    (hroom : t + 8 ≤ bufLen.toNat) (hr : hopRec sys lookup (addrLen m.rm.family) t nh = some r) :
    ∃ mem', packNexthop sys lookup nh m =
        .ok { setScope rtScopeUniverse m with mem := mem' } ∧
      Tail bufLen mem' (t + r.size) ∧ r.Written mem' t ∧ Agree 4 t m.mem mem' := by
  rw [hopRec] at hr
  split at hr
  case h_2 => cases hr
  rename_i gw oif hgw hoif
  obtain rfl := Option.some_inj.mp hr
  have hnone := nlmsgReserve_none_iff 8#32 bufLen_le h (by decide)
  have hpad : padded (8#32).toNat = 8 := rfl
  rw [hpad] at hnone
  cases hres : nlmsgReserve bufLen 8#32 m.mem with
  | mk out mem₁ =>
    cases out with
    | none =>
      rw [hres] at hnone
      exact absurd (hnone.mp rfl) (not_lt.mpr hroom)
    | some p =>
      obtain ⟨rfl, htail₁, hframe₁⟩ := nlmsgReserve_some bufLen_le h (by decide) hres
      rw [hpad] at htail₁
      obtain ⟨hz2, hz3, hz4, hag₂⟩ := zeros_stored t mem₁
      generalize hm2 : store (t : ℤ) (List.replicate 8 0) mem₁ = mem₂ at hz2 hz3 hz4 hag₂
      have htail₂ : Tail bufLen mem₂ (t + 8) := htail₁.agree (hag₂ 0 4 (by omega))
      have hlen : (gw.read (addrLen m.rm.family)).length < 2 ^ 31 := by
        rw [AttrBin.length_read, addrLen]
        split_ifs <;> decide
      obtain ⟨htail₃, hwritten, hag₃⟩ := addAttr_tail (m := { m with mem := mem₂ }) rtaGateway
        htail₂ (by omega) (by decide) hlen
      rw [AttrBin.length_read] at htail₃ hwritten
      generalize hm3 : (addAttr rtaGateway (gw.read (addrLen m.rm.family))
        { m with mem := mem₂ }).mem = mem₃ at htail₃ hwritten hag₃
      generalize hrec : HopRec.mk _ _ _ _ = r
      have hattrs : r.attrs = if t + 8 + padded (4 + addrLen m.rm.family) ≤ bufLen.toNat then
          .attr rtaGateway (gw.read (addrLen m.rm.family)) .nil else .nil := by
        rw [← hrec, HopRec.attrs]
        split_ifs <;> rfl
      rw [← hattrs] at htail₃ hwritten
      have hsize : t + 8 + r.attrs.size = t + r.size := by
        rw [HopRec.size]
        omega
      rw [hsize] at htail₃
      change Agree 4 ((t + 8 : ℕ) : ℤ) mem₂ mem₃ at hag₃
      push_cast at hag₃ hwritten
      -- the attribute has left the zeros of the struct
      have hcell₃ : ∀ a : ℤ, 4 ≤ a → a < t + 8 → mem₃ a = mem₂ a := hag₃
      rw [← hcell₃ _ (by omega) (by omega)] at hz2 hz3
      rw [← load32_agree (hag₃.mono (by omega) (by omega))] at hz4
      obtain ⟨mem₄, mem₅, mem₆, hm4, hm5, hm6, hflags, hhops, hifindex, hag₆⟩ :=
        fields_stored sys nh oif hz2 hz3 hz4
      have htail₆ : Tail bufLen mem₆ (t + r.size) := htail₃.agree (hag₆ 0 4 (by omega))
      obtain ⟨hlen₇, hag₇⟩ := len_stored htail₆
      generalize hm7 : store16 t (BitVec.ofInt 16 (nlmsgTail mem₆ - t)) mem₆ = mem₇ at hlen₇ hag₇
      refine ⟨mem₇, ?_, htail₆.agree (hag₇ 0 4 (by omega)), ⟨hlen₇, ?_, ?_, ?_, ?_⟩, ?_⟩
      · subst hm2 hm3 hm4 hm5 hm6 hm7
        rw [packNexthop, hres]
        dsimp only
        rw [hgw, hoif]
        rfl
      · rw [(hag₇ (t + 2) (t + 2 + 1) (by omega)).cell, hflags, ← hrec]
      · rw [(hag₇ (t + 3) (t + 3 + 1) (by omega)).cell, hhops, ← hrec]
      · rw [load32_agree (hag₇ (t + 4) (t + 4 + 4) (by omega)), hifindex, ← hrec]
      · exact hwritten.agree ((hag₆ _ _ (by omega)).trans (hag₇ _ _ (by omega)))
      · have hbelow : Agree 4 t mem₃ mem₇ := (hag₆ _ _ (by omega)).trans (hag₇ _ _ (by omega))
        exact (((hframe₁ t).trans (hag₂ 4 t (by omega))).trans
          (hag₃.mono le_rfl (by omega))).trans hbelow

/-- A turn without room for the struct. -/
theorem packNexthop_full {sys : Sys} {lookup : Str → Option (BitVec 32)} {nh : NextHop}
    {m : RouteMsg} {t : ℕ} (h : Tail bufLen m.mem t) (hfull : bufLen.toNat < t + 8) :
    packNexthop sys lookup nh m = .error .nullPointer := by
  have hnone := (nlmsgReserve_none_iff 8#32 bufLen_le h (by decide)).mpr hfull
  rw [packNexthop, nlmsgReserve_none hnone]

/-- A next hop that is refused. -/
def Refused (lookup : Str → Option (BitVec 32)) (nh : NextHop) : Prop :=
  nh.addr = none ∨ outIf lookup nh = none

theorem packNexthop_refused {sys : Sys} {lookup : Str → Option (BitVec 32)} {nh : NextHop}
    {m : RouteMsg} {t : ℕ} (h : Tail bufLen m.mem t) (hroom : t + 8 ≤ bufLen.toNat)
    (hrefused : Refused lookup nh) : packNexthop sys lookup nh m = .error .rejected := by
  have hnone := nlmsgReserve_none_iff 8#32 bufLen_le h (by decide)
  rw [packNexthop]
  cases hres : nlmsgReserve bufLen 8#32 m.mem with
  | mk out mem =>
    cases out with
    | none =>
      rw [hres] at hnone
      exact absurd (hnone.mp rfl) (not_lt.mpr hroom)
    | some p =>
      dsimp only
      rcases hrefused with haddr | hoif
      · rw [haddr]
      · rw [hoif]
        cases nh.addr <;> rfl

/-! ## The loop that builds them -/

/-- The tail after a next hop with addresses of `n` bytes. -/
def afterHop (n t : ℕ) : ℕ :=
  if t + 8 + padded (4 + n) ≤ bufLen.toNat then t + 8 + padded (4 + n) else t + 8

/-- The next hops that there is room for from `t` on. -/
def fitting (n : ℕ) : ℕ → List NextHop → List NextHop
  | _, [] => []
  | t, nh :: nhs => if t + 8 ≤ bufLen.toNat then nh :: fitting n (afterHop n t) nhs else []

/-- What the next hops become from `t` on. -/
def hopRecs (sys : Sys) (lookup : Str → Option (BitVec 32)) (n : ℕ) : ℕ → List NextHop →
    List HopRec
  | _, [] => []
  | t, nh :: nhs => (hopRec sys lookup n t nh).toList ++ hopRecs sys lookup n (afterHop n t) nhs

theorem hopRec_some (sys : Sys) {lookup : Str → Option (BitVec 32)} (n t : ℕ) {nh : NextHop}
    (h : ¬ Refused lookup nh) :
    ∃ r, hopRec sys lookup n t nh = some r ∧ t + r.size = afterHop n t := by
  rw [Refused, not_or] at h
  obtain ⟨gw, hgw⟩ := Option.ne_none_iff_exists'.mp h.1
  obtain ⟨oif, hoif⟩ := Option.ne_none_iff_exists'.mp h.2
  rw [hopRec, hgw, hoif]
  refine ⟨_, rfl, ?_⟩
  rw [HopRec.size, HopRec.attrs, afterHop]
  by_cases hfit : t + 8 + padded (4 + n) ≤ bufLen.toNat
  · rw [if_pos hfit, if_pos hfit]
    dsimp only
    rw [Attrs.size, AttrBin.length_read, Attrs.size]
    omega
  · rw [if_neg hfit, if_neg hfit]
    rfl

/-- The headers after the loop. -/
def afterLoop (nhs : List NextHop) (m : RouteMsg) : RouteMsg :=
  if nhs = [] then m else setScope rtScopeUniverse m

/-- The loop: it ends early when a next hop is refused or there is no room. -/
theorem packNexthops_spec (sys : Sys) (lookup : Str → Option (BitVec 32)) (nhs : List NextHop)
    {m : RouteMsg} {n t : ℕ} (hn : n = addrLen m.rm.family) (h : Tail bufLen m.mem t)
    (h4 : 4 ≤ t) :
    (∃ nh ∈ fitting n t nhs, Refused lookup nh) ∧
      packNexthops sys lookup nhs m = .error .rejected ∨
    (∀ nh ∈ fitting n t nhs, ¬ Refused lookup nh) ∧ fitting n t nhs ≠ nhs ∧
      packNexthops sys lookup nhs m = .error .nullPointer ∨
    (∀ nh ∈ nhs, ¬ Refused lookup nh) ∧ fitting n t nhs = nhs ∧
      ∃ mem', packNexthops sys lookup nhs m = .ok { afterLoop nhs m with mem := mem' } ∧
        Tail bufLen mem' (t + hopsSize (hopRecs sys lookup n t nhs)) ∧
        HopsWritten mem' (hopRecs sys lookup n t nhs) t ∧ Agree 4 t m.mem mem' := by
  induction nhs generalizing m t with
  | nil => exact Or.inr (Or.inr ⟨nofun, rfl, m.mem, rfl, h, trivial, Agree.refl _ _ _⟩)
  | cons nh nhs ih =>
    rw [fitting, packNexthops, List.foldlM_cons]
    by_cases hroom : t + 8 ≤ bufLen.toNat
    · rw [if_pos hroom]
      by_cases hrefused : Refused lookup nh
      · rw [packNexthop_refused h hroom hrefused]
        exact Or.inl ⟨⟨nh, List.mem_cons_self, hrefused⟩, rfl⟩
      · obtain ⟨r, hr, hsize⟩ := hopRec_some sys n t hrefused
        obtain ⟨mem₁, hpack, htail, hwritten, hframe⟩ := packNexthop_ok h h4 hroom (hn ▸ hr)
        have h4' : 4 ≤ afterHop n t := by omega
        rw [hsize] at htail
        rw [hpack]
        have hrest := ih (m := { setScope rtScopeUniverse m with mem := mem₁ }) hn htail h4'
        have hrecs : hopRecs sys lookup n t (nh :: nhs) =
            r :: hopRecs sys lookup n (afterHop n t) nhs := by
          rw [hopRecs, hr]
          rfl
        obtain ⟨⟨nh', hnh', href⟩, herr⟩ | ⟨hnone, hfit, herr⟩ |
          ⟨hnone, hfit, mem', hok, htail', hwritten', hframe'⟩ := hrest
        · exact Or.inl ⟨⟨nh', List.mem_cons_of_mem _ hnh', href⟩, herr⟩
        · refine Or.inr (Or.inl ⟨List.forall_mem_cons.mpr ⟨hrefused, hnone⟩, ?_, herr⟩)
          exact fun heq => hfit (List.cons.inj heq).2
        · refine Or.inr (Or.inr ⟨List.forall_mem_cons.mpr ⟨hrefused, hnone⟩, congrArg _ hfit,
            mem', ?_, ?_, ?_, ?_⟩)
          · refine hok.trans ?_
            rw [afterLoop, afterLoop, if_neg (List.cons_ne_nil nh nhs)]
            split_ifs <;> rfl
          · rw [hrecs, hopsSize_cons, ← add_assoc, hsize]
            exact htail'
          · have hstart : ((afterHop n t : ℕ) : ℤ) = t + r.size := by exact_mod_cast hsize.symm
            rw [hrecs]
            refine ⟨hwritten.agree (hframe'.mono (by omega) (by rw [hstart])), ?_⟩
            rw [← hstart]
            exact hwritten'
          · exact hframe.trans (hframe'.mono le_rfl (by omega))
    · rw [if_neg hroom, packNexthop_full h (not_le.mp hroom)]
      exact Or.inr (Or.inl ⟨nofun, (List.cons_ne_nil nh nhs).symm, rfl⟩)

/-! ## The attribute -/

theorem padded_addrLen (family : BitVec 8) :
    padded (4 + addrLen family) = 4 + addrLen family ∧ addrLen family ≤ 16 := by
  rw [addrLen]
  split_ifs <;> decide

/-- The length of a message that is cleared. -/
theorem load32_cleared (left : Memory) : load32 (store 0 (List.replicate 16 0) left) 0 = 0#32 := by
  refine load32_zero fun i hi => ?_
  have h := holds_store 0 (List.replicate 16 (0 : UInt8)) left i
    (by rw [List.length_replicate]; omega)
  rwa [List.getElem_replicate] at h

/-- The message before the next hops. -/
theorem startRoute_ok (type flags : BitVec 16) (rm : RtMsg) (routePrefix : AttrBin)
    (left : Memory) :
    ∃ m, startRoute type flags rm routePrefix left = .ok m ∧ m.nlmsgType = type ∧
      m.nlmsgFlags = flags ∧ m.rm = rm ∧ Tail bufLen m.mem (32 + addrLen rm.family) ∧
      (Attrs.attr rtaDst (routePrefix.read (addrLen rm.family)) .nil).Written m.mem 28 := by
  have hzero := load32_cleared left
  have hroom : 16 + padded (12#32).toNat ≤ bufLen.toNat := by decide
  obtain ⟨mem, hstart⟩ := startMsg_room bufLen_le (by decide) hzero hroom
  have htail := startMsg_tail bufLen_le (by decide) hzero hstart
  have hpad : 16 + padded (12#32).toNat = 28 := rfl
  rw [hpad] at htail
  have hbuf : bufLen.toNat = 8192 := rfl
  have haddr := padded_addrLen rm.family
  have hlen := AttrBin.length_read routePrefix (addrLen rm.family)
  have hlt : (routePrefix.read (addrLen rm.family)).length < 2 ^ 31 := by omega
  obtain ⟨htail', hwritten, -⟩ := addAttr_tail (m := ⟨type, flags, rm, mem⟩) rtaDst htail
    (by decide) (by decide) hlt
  rw [hlen, if_pos (by omega)] at htail' hwritten
  refine ⟨_, ?_, rfl, rfl, rfl, ?_, hwritten⟩
  · rw [startRoute, hstart]
  · rw [Attrs.size, hlen, haddr.1, Attrs.size] at htail'
    have hsum : 28 + (4 + addrLen rm.family + 0) = 32 + addrLen rm.family := by omega
    rwa [hsum] at htail'

/-- There is room for these next hops. -/
theorem fitting_eq {n t : ℕ} {nhs : List NextHop} (hpad : padded (4 + n) = 4 + n)
    (hroom : t + nhs.length * (12 + n) ≤ bufLen.toNat) : fitting n t nhs = nhs := by
  induction nhs generalizing t with
  | nil => rfl
  | cons nh nhs ih =>
    rw [List.length_cons, Nat.succ_mul] at hroom
    have hafter : afterHop n t = t + (12 + n) := by
      rw [afterHop, hpad, if_pos (by omega)]
      omega
    rw [fitting, if_pos (by omega), hafter, ih (by omega)]

/-- The attribute with the next hops, at the tail of a message. -/
structure MultipathWritten (mem : Memory) (recs : List HopRec) (p : ℤ) : Prop where
  len : (load16 mem p).toNat = 4 + hopsSize recs
  type : (load16 mem (p + 2)).toNat = rtaMultipath
  hops : HopsWritten mem recs (p + 4)

/-- The branch for several next hops. -/
theorem multipath_spec (sys : Sys) (lookup : Str → Option (BitVec 32)) (nhs : List NextHop)
    {m : RouteMsg} {n t : ℕ} (hn : n = addrLen m.rm.family) (h : Tail bufLen m.mem t) (h4 : 4 ≤ t)
    (hroom : t + 4 ≤ bufLen.toNat) :
    (∃ nh ∈ fitting n (t + 4) nhs, Refused lookup nh) ∧
      multipath sys lookup nhs m = .error .rejected ∨
    (∀ nh ∈ fitting n (t + 4) nhs, ¬ Refused lookup nh) ∧ fitting n (t + 4) nhs ≠ nhs ∧
      multipath sys lookup nhs m = .error .nullPointer ∨
    (∀ nh ∈ nhs, ¬ Refused lookup nh) ∧ fitting n (t + 4) nhs = nhs ∧
      ∃ mem', multipath sys lookup nhs m = .ok { afterLoop nhs m with mem := mem' } ∧
        Tail bufLen mem' (t + 4 + hopsSize (hopRecs sys lookup n (t + 4) nhs)) ∧
        MultipathWritten mem' (hopRecs sys lookup n (t + 4) nhs) t ∧ Agree 4 t m.mem mem' := by
  have hpad : padded (4#32).toNat = 4 := rfl
  have hnone := nlmsgReserve_none_iff 4#32 bufLen_le h (by decide)
  rw [multipath, nlmsgNestedStart]
  cases hres : nlmsgReserve bufLen 4#32 m.mem with
  | mk out mem₁ =>
    cases out with
    | none =>
      rw [hres, hpad] at hnone
      exact absurd (hnone.mp rfl) (not_lt.mpr hroom)
    | some p =>
      obtain ⟨rfl, htail₁, hframe₁⟩ := nlmsgReserve_some bufLen_le h (by decide) hres
      rw [hpad] at htail₁
      dsimp only
      generalize hm2 : store16 ((t : ℤ) + 2) (BitVec.ofNat 16 rtaMultipath)
        (store16 t 0#16 mem₁) = mem₂
      have hag₂ : ∀ lo hi : ℤ, hi ≤ t ∨ t + 4 ≤ lo → Agree lo hi mem₁ mem₂ := by
        intro lo hi hout
        rw [← hm2]
        exact (store16_agree _ _ (by omega)).trans (store16_agree _ _ (by omega))
      have htype₂ : (load16 mem₂ (t + 2)).toNat = rtaMultipath := by
        rw [← hm2, load16_store16]
        rfl
      have htail₂ : Tail bufLen mem₂ (t + 4) := htail₁.agree (hag₂ 0 4 (by omega))
      obtain ⟨href, herr⟩ | ⟨hnone', hfit, herr⟩ |
        ⟨hnone', hfit, mem₃, hok, htail₃, hwritten, hframe₃⟩ :=
        packNexthops_spec sys lookup nhs (m := { m with mem := mem₂ }) hn htail₂ (by omega)
      · refine Or.inl ⟨href, ?_⟩
        rw [herr]
        rfl
      · refine Or.inr (Or.inl ⟨hnone', hfit, ?_⟩)
        rw [herr]
        rfl
      · have hag₄ : ∀ lo hi : ℤ, hi ≤ t ∨ t + 2 ≤ lo →
            Agree lo hi mem₃ (nlmsgNestedEnd t mem₃) :=
          fun lo hi hout => store16_agree _ _ hout
        push_cast at hframe₃
        refine Or.inr (Or.inr ⟨hnone', hfit, nlmsgNestedEnd t mem₃, ?_,
          htail₃.agree (hag₄ 0 4 (by omega)), ⟨?_, ?_, ?_⟩, ?_⟩)
        · rw [hok, afterLoop, afterLoop]
          split_ifs <;> rfl
        · -- the length of the attribute is what the loop has added to the tail
          have hfits := htail₃.fits
          have hbuf := bufLen_le
          have hdiff : nlmsgTail mem₃ - t =
              ((4 + hopsSize (hopRecs sys lookup n (t + 4) nhs) : ℕ) : ℤ) := by
            rw [nlmsgTail, htail₃.align bufLen_le]
            push_cast
            omega
          rw [nlmsgNestedEnd, load16_store16, hdiff, BitVec.ofInt_natCast, BitVec.toNat_ofNat]
          exact Nat.mod_eq_of_lt (by omega)
        · rw [load16_agree (hag₄ _ _ (by omega)), load16_agree (hframe₃.mono (by omega) (by omega)),
            htype₂]
        · exact hwritten.agree (hag₄ _ _ (by omega))
        · exact (((hframe₁ t).trans (hag₂ 4 t (by omega))).trans
            (hframe₃.mono le_rfl (by omega))).trans (hag₄ 4 t (by omega))

/-! ## The data of a request -/

/-- The data of a route, as it comes to one of the two functions. -/
structure RouteData where
  vrfName : Option Str
  routePrefix : AttrBin
  af : BitVec 32
  prefixLen : BitVec 32
  nhVrfName : Option Str
  nhs : List NextHop

namespace RouteData

/-- The next hop list of the object. -/
def nhList (d : RouteData) (i : ℕ) : NextHop := d.nhs.getD i ⟨none, none, none, none, none⟩

/-- The object for `nas_os_update_route`. -/
def obj (d : RouteData) : RouteObj where
  vrfName := d.vrfName
  routePrefix := some d.routePrefix
  af := some d.af
  nhCount := some (BitVec.ofNat 32 d.nhs.length)
  prefixLen := some d.prefixLen
  specialNextHop := none
  nhVrfName := d.nhVrfName
  nhList := d.nhList

/-- The header of the message before the next hops. -/
def header (d : RouteData) (type : BitVec 16) : RtMsg :=
  { routeHeader type d.af d.prefixLen with type := rtnUnicast }

/-- The length of the addresses. -/
def addrLen (d : RouteData) : ℕ := Route.addrLen (d.af.setWidth 8)

theorem map_nhList (d : RouteData) : (List.range d.nhs.length).map d.nhList = d.nhs := by
  refine List.ext_getElem (by rw [List.length_map, List.length_range]) fun i hi hi' => ?_
  rw [List.getElem_map, List.getElem_range, nhList, List.getD_eq_getElem?_getD,
    List.getElem?_eq_getElem hi', Option.getD_some]

/-- The message that `nas_os_update_route` goes on with. -/
theorem obj_eq (sys : Sys) (left : Memory) (mType : MsgType) {d : RouteData}
    (hleaked : leaked sys d.vrfName d.nhVrfName = false) (hlen : d.nhs.length < 2 ^ 32) :
    nasOsUpdateRoute sys left mType d.obj =
      startRoute (rtmType mType) (nasOsGetNlFlags mType) (d.header (rtmType mType)) d.routePrefix
          left >>=
        addNexthops sys (routeIfIndex sys d.vrfName) (routeLink mType) d.nhs.length d.nhList := by
  have hcount : (BitVec.ofNat 32 d.nhs.length).toNat = d.nhs.length := by
    rw [BitVec.toNat_ofNat, Nat.mod_eq_of_lt hlen]
  rw [nasOsUpdateRoute, obj]
  dsimp only
  rw [if_neg (fun h => nomatch h.2.1), hleaked, Option.getD_some, hcount]
  rfl

end RouteData

end OpxNasLinux.Route
