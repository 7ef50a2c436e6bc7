import OpxNasLinux.UpdateResult

/-!
# Normalized addresses

The constructor of an incoming rule leaves its addresses normalized: the host
bits are cleared, and the address of all zeros has the prefix length 0.

* What `maskBytes` does to an address that is masked already.
* `Normalized` is what `normalize_ip_prefix` leaves.
* `Built` collects what the constructor makes sure of.
-/

namespace OpxNasLinux

/-! ## Masks -/

@[simp] theorem length_maskBytes (n : ℕ) (ip : Bytes) : (maskBytes n ip).length = ip.length := by
  induction ip generalizing n with
  | nil => rfl
  | cons b ip ih => rw [maskBytes, List.length_cons, List.length_cons, ih]

@[simp] theorem maskBytes_zero (ip : Bytes) : maskBytes 0 ip = List.replicate ip.length 0 := by
  induction ip with
  | nil => rfl
  | cons b ip ih =>
    have hb : b &&& UInt8.ofNat (256 - 2 ^ (8 - 0)) = 0 := UInt8.and_zero
    rw [maskBytes, hb, Nat.zero_sub, ih]
    rfl

@[simp] theorem maskBytes_maskBytes (n : ℕ) (ip : Bytes) :
    maskBytes n (maskBytes n ip) = maskBytes n ip := by
  induction ip generalizing n with
  | nil => rfl
  | cons b ip ih => rw [maskBytes, maskBytes, ih, UInt8.and_assoc, UInt8.and_self]

/-! ## What `normalize_ip_prefix` leaves -/

/-- A normalized address with its prefix length. -/
inductive Normalized (af : Af) : Bytes → Option ℤ → Prop where
  /-- An address without a prefix length is left as it is. -/
  | whole {ip : Bytes} (h : ip ≠ List.replicate ip.length 0) : Normalized af ip none
  | anywhere (n : ℕ) : Normalized af (List.replicate n 0) (some 0)
  | network {ip : Bytes} {n : ℤ} (h : isNetwork af ip n = true) (hm : maskBytes n.toNat ip = ip) :
    Normalized af ip (some n)

theorem isNetwork_iff {af : Af} {ip : Bytes} {n : ℤ} :
    isNetwork af ip n = true ↔ ip.length = af.length ∧ 0 ≤ n ∧ n ≤ 8 * af.length := by
  rw [isNetwork, decide_eq_true_iff]

theorem normalized_of_normalize {af : Af} {ip : Option Bytes} {n : Option ℤ}
    {pair : Option Bytes × Option ℤ} (h : normalizeIpPrefix af ip n = some pair) :
    ∃ bs, pair.1 = some bs ∧ Normalized af bs pair.2 := by
  unfold normalizeIpPrefix at h
  split at h
  · next ip n =>
    split_ifs at h with hnet
    obtain rfl := Option.some_inj.mp h
    rw [isNetwork_iff] at hnet
    refine ⟨_, rfl, .network (isNetwork_iff.mpr ⟨?_, hnet.2⟩) (maskBytes_maskBytes _ _)⟩
    rw [length_maskBytes]
    exact hnet.1
  · obtain rfl := Option.some_inj.mp h
    exact ⟨_, rfl, .anywhere _⟩
  · next ip =>
    split_ifs at h with hzero
    · obtain rfl := Option.some_inj.mp h
      refine ⟨ip, rfl, ?_⟩
      rw [hzero]
      exact .anywhere _
    · obtain rfl := Option.some_inj.mp h
      exact ⟨ip, rfl, .whole hzero⟩

/-- The prefix length 0 is that of the address of all zeros. -/
theorem Normalized.eq_zero {af : Af} {ip : Bytes} (h : Normalized af ip (some 0)) :
    ip = List.replicate ip.length 0 := by
  generalize hn : (some 0 : Option ℤ) = n at h
  cases h with
  | whole h => cases hn
  | anywhere n => rw [List.length_replicate]
  | network h hm =>
    obtain rfl := Option.some_inj.mp hn
    rw [← maskBytes_zero]
    exact hm.symm

/-- An address without a prefix length has a bit set. -/
theorem Normalized.ne_zero {af : Af} {ip : Bytes} (h : Normalized af ip none) :
    ip ≠ List.replicate ip.length 0 := by
  cases h with
  | whole h => exact h

/-- The prefix length of an address of its family. -/
theorem Normalized.range {af : Af} {ip : Bytes} {n : ℤ} (h : Normalized af ip (some n)) :
    0 ≤ n ∧ n ≤ 8 * af.length := by
  generalize hn : some n = n' at h
  cases h with
  | whole h => cases hn
  | anywhere n =>
    obtain rfl := Option.some_inj.mp hn
    omega
  | network h hm =>
    obtain rfl := Option.some_inj.mp hn
    exact (isNetwork_iff.mp h).2

/-- Normalizing changes nothing the second time. -/
theorem Normalized.normal {af : Af} {ip : Bytes} {n : Option ℤ} (h : Normalized af ip n)
    (hlen : ip.length = af.length) : normalizeIpPrefix af (some ip) n = some (some ip, n) := by
  rw [normalizeIpPrefix.eq_def]
  cases h with
  | whole h => exact if_neg h
  | anywhere n =>
    rw [List.length_replicate] at hlen
    subst hlen
    have hnet : isNetwork af (List.replicate af.length 0) 0 = true :=
      isNetwork_iff.mpr ⟨List.length_replicate, le_rfl, by omega⟩
    simp only [hnet, if_true, Int.toNat_zero, maskBytes_zero, List.length_replicate]
  | network h hm => simp only [h, if_true, hm]

namespace VrfIncomingSvcsRule

/-! ## Rules of the constructor -/

/-- What the constructor makes sure of. -/
structure Built (r : VrfIncomingSvcsRule) : Prop where
  src : ∃ ip, r.srcIp = some ip ∧ Normalized r.af ip r.srcPrefixLen
  dst : ∃ ip, r.dstIp = some ip ∧ Normalized r.af ip r.dstPrefixLen
  action : ¬ (r.action = .deny ∧ r.ruleType = .acl)
  intf : ∃ arg, (r.inIntf, r.negative) = intfPair arg

theorem built_of_init {a : Args} {r : VrfIncomingSvcsRule} (h : init a = some r) : Built r := by
  obtain ⟨raw, src, dst, -, -, hsrc, hdst, rfl⟩ := init_cases h
  obtain ⟨htype, -, haf, hsrc', -, -, -, -, hdst', -, haction, -, hintf⟩ :=
    build_fields a raw src dst
  refine ⟨?_, ?_, ?_, ⟨_, hintf⟩⟩
  · have hs := normalized_of_normalize hsrc
    rw [← hsrc'] at hs
    rw [haf]
    exact hs
  · have hd := normalized_of_normalize hdst
    rw [← hdst'] at hd
    rw [haf]
    exact hd
  · rw [haction, htype, storedAction]
    rintro ⟨hdeny, hacl⟩
    split_ifs at hdeny with hc
    exact hc ⟨hdeny, hacl⟩

/-- A rule with an interface knows whether it is negated. -/
theorem Built.negative {r : VrfIncomingSvcsRule} (h : Built r) (hi : r.inIntf.isSome) :
    r.negative = some true ∨ r.negative = some false := by
  obtain ⟨arg, hpair⟩ := h.intf
  have hname : r.inIntf = (intfPair arg).1 := congrArg Prod.fst hpair
  have hneg : r.negative = (intfPair arg).2 := congrArg Prod.snd hpair
  rw [hneg]
  rw [hname] at hi
  unfold intfPair at hi ⊢
  split at hi
  · cases hi
  · exact Or.inl rfl
  · exact Or.inr rfl

end VrfIncomingSvcsRule

end OpxNasLinux
