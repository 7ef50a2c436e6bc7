import OpxNasLinux.RuleSelected

/-!
# The two spellings of an address

`normalize_ip_with_prefix` takes an address as its packed bytes or as their
hexadecimal string.  It finds out which by translating the string back.

* `NetworkOf` is an address with its host bits cleared (`maskBytes_networkOf`).
* `AllHex` addresses have bytes that read as hexadecimal digits.
* `findFamily_write` is the loop over the families.
* `normalize_write_iff` says which addresses are normalized in which spelling.
-/

namespace OpxNasLinux

open SvcsRule

/-! ## Networks -/

/-- A bit of an address, counted from the first one. -/
def addressBit (ip : Bytes) (i : ℕ) : Bool := (ip.getD (i / 8) 0).toNat.testBit (7 - i % 8)

/-- `net` is `ip` without the bits after the first `n`. -/
structure NetworkOf (n : ℕ) (ip net : Bytes) : Prop where
  length : net.length = ip.length
  bit (i : ℕ) : addressBit net i = (decide (i < n) && addressBit ip i)

theorem addressBit_head (b : UInt8) (ip : Bytes) {i : ℕ} (h : i < 8) :
    addressBit (b :: ip) i = b.toNat.testBit (7 - i) := by
  have hdiv : i / 8 = 0 := by omega
  have hmod : i % 8 = i := by omega
  rw [addressBit, hdiv, hmod, List.getD_cons_zero]

theorem addressBit_tail (b : UInt8) (ip : Bytes) (i : ℕ) :
    addressBit (b :: ip) (i + 8) = addressBit ip i := by
  have hdiv : (i + 8) / 8 = i / 8 + 1 := by omega
  have hmod : (i + 8) % 8 = i % 8 := by omega
  rw [addressBit, hdiv, hmod, List.getD_cons_succ, addressBit]

/-- The mask of a byte of which `8 - k` bits stay. -/
theorem testBit_byteMask {k i : ℕ} (hk : k ≤ 8) (hi : i < 8) :
    ((256 - 2 ^ k) % 256).testBit (7 - i) = decide (i < 8 - k) := by
  have hall : ∀ k ≤ 8, ∀ i < 8,
      ((256 - 2 ^ k) % 256).testBit (7 - i) = decide (i < 8 - k) := by decide
  exact hall k hk i hi

theorem addressBit_maskBytes (n : ℕ) (ip : Bytes) (i : ℕ) :
    addressBit (maskBytes n ip) i = (decide (i < n) && addressBit ip i) := by
  induction ip generalizing n i with
  | nil => simp [maskBytes, addressBit]
  | cons b ip ih =>
    rw [maskBytes]
    by_cases hi : i < 8
    · rw [addressBit_head _ _ hi, addressBit_head _ _ hi, UInt8.toNat_and, UInt8.toNat_ofNat',
        Nat.testBit_and, testBit_byteMask (by omega) hi, Bool.and_comm]
      have hiff : i < 8 - (8 - n) ↔ i < n := by omega
      simp only [hiff]
    · obtain ⟨j, rfl⟩ : ∃ j, i = j + 8 := ⟨i - 8, by omega⟩
      rw [addressBit_tail, addressBit_tail, ih]
      have hiff : j < n - 8 ↔ j + 8 < n := by omega
      simp only [hiff]

/-- Masking clears the host bits. -/
theorem maskBytes_networkOf (n : ℕ) (ip : Bytes) : NetworkOf n ip (maskBytes n ip) where
  length := length_maskBytes n ip
  bit := addressBit_maskBytes n ip

/-! ## Spellings -/

/-- The bytes of an address read as hexadecimal digits. -/
def AllHex (ip : Bytes) : Prop := ∀ b ∈ ip, (hexDigitVal b).isSome

instance (ip : Bytes) : Decidable (AllHex ip) := inferInstanceAs (Decidable (∀ b ∈ ip, _))

/-- An address is taken for a string when it has hexadecimal digits only. -/
theorem unhexlify_isSome_iff {ip : Bytes} (h : ip.length % 2 = 0) :
    (unhexlify ip).isSome ↔ AllHex ip := by
  induction ip using unhexlify.induct with
  | case1 => simp [unhexlify, AllHex]
  | case2 => simp at h
  | case3 hi lo rest ih =>
    have hrest : rest.length % 2 = 0 := by
      rw [List.length_cons, List.length_cons] at h
      omega
    have hih := ih hrest
    unfold AllHex at hih ⊢
    rw [unhexlify, List.forall_mem_cons, List.forall_mem_cons, ← hih]
    cases hexDigitVal hi <;> cases hexDigitVal lo <;> cases unhexlify rest <;> simp

/-- How an address is written. -/
inductive Spelling where
  | packed
  | hex
deriving DecidableEq

def Spelling.write : Spelling → Bytes → Bytes
  | .packed, ip => ip
  | .hex, ip => hexlify ip

/-- A spelling that is read as it was meant.  `given` is the family that comes
with it. -/
def Spelling.Plain (s : Spelling) (given : Option Af) (af : Af) (ip : Bytes) : Prop :=
  match s with
  | .packed => ¬ AllHex ip
  | .hex => given = none → af = .inet6 → ¬ AllHex ip

/-! ## The loop over the families -/

theorem Af.length_even (af : Af) : af.length % 2 = 0 := by cases af <;> rfl

/-- A round of the loop keeps the string, or halves it. -/
theorem unhexlified_length (ip : Bytes) :
    ((unhexlify ip).getD ip).length = ip.length ∨
      2 * ((unhexlify ip).getD ip).length = ip.length := by
  cases hu : unhexlify ip with
  | none => exact Or.inl rfl
  | some bs => exact Or.inr (unhexlify_length hu).symm

/-- An address that was halved is too short for every family that is tried. -/
theorem findFamily_halved {given : Option Af} {af : Af} {ip bs : Bytes}
    (hg : given = none ∨ given = some af) (hlen : ip.length = af.length)
    (hu : unhexlify ip = some bs) : findFamily (chkAfList given) ip = none := by
  have hhalf := unhexlify_length hu
  have hnext := unhexlified_length bs
  have hne : bs.length ≠ af.length := by
    have hpos : 0 < af.length := by cases af <;> decide
    omega
  obtain rfl | rfl := hg
  · simp only [chkAfList, findFamily, hu, Option.getD_some]
    have h4 : bs.length ≠ Af.inet.length := by
      cases af with
      | inet => exact hne
      | inet6 =>
        have h16 : ip.length = 16 := hlen
        show bs.length ≠ 4
        omega
    have h16 : ((unhexlify bs).getD bs).length ≠ Af.inet6.length := by
      have hle : ip.length ≤ 16 := by
        rw [hlen]
        cases af <;> decide
      show ((unhexlify bs).getD bs).length ≠ 16
      omega
    rw [if_neg h4, if_neg h16]
  · simp only [chkAfList, findFamily, hu, Option.getD_some]
    rw [if_neg hne]

theorem findFamily_kept {given : Option Af} {af : Af} {ip : Bytes}
    (hg : given = none ∨ given = some af) (hlen : ip.length = af.length)
    (hu : unhexlify ip = none) : findFamily (chkAfList given) ip = some (af, ip) := by
  obtain rfl | rfl := hg
  · simp only [chkAfList, findFamily, hu, Option.getD_none]
    cases af with
    | inet => rw [if_pos hlen]
    | inet6 =>
      have h16 : ip.length = 16 := hlen
      have h4 : ip.length ≠ Af.inet.length := by
        show ip.length ≠ 4
        omega
      rw [if_neg h4, if_pos hlen]
  · simp only [chkAfList, findFamily, hu, Option.getD_none]
    rw [if_pos hlen]

/-- The loop finds the address that is spelled, or it finds none. -/
theorem findFamily_write (s : Spelling) {given : Option Af} {af : Af} {ip : Bytes}
    (hg : given = none ∨ given = some af) (hlen : ip.length = af.length) :
    (s.Plain given af ip ∧ findFamily (chkAfList given) (s.write ip) = some (af, ip)) ∨
      (¬ s.Plain given af ip ∧ findFamily (chkAfList given) (s.write ip) = none) := by
  have hhex : (unhexlify ip).isSome ↔ AllHex ip :=
    unhexlify_isSome_iff (by rw [hlen, Af.length_even])
  cases s with
  | packed =>
    show (¬ AllHex ip ∧ _) ∨ (¬ ¬ AllHex ip ∧ _)
    rw [← hhex]
    cases hu : unhexlify ip with
    | none => exact Or.inl ⟨by simp, findFamily_kept hg hlen hu⟩
    | some bs => exact Or.inr ⟨by simp, findFamily_halved hg hlen hu⟩
  | hex =>
    have hfound : findFamily (chkAfList given) (hexlify ip) = some (af, ip) ↔ _ :=
      findFamily_hexlify_iff ip hg
    by_cases hplain : Spelling.hex.Plain given af ip
    · refine Or.inl ⟨hplain, hfound.mpr ⟨hlen, fun hnone haf => ?_⟩⟩
      rw [Option.isSome_eq_false_iff, Option.isNone_iff_eq_none] at hnone
      have hnot := hplain hnone haf
      rw [← hhex] at hnot
      exact Option.not_isSome_iff_eq_none.mp hnot
    · refine Or.inr ⟨hplain, ?_⟩
      -- Only a string of 16 bytes without a family is tried a second time.
      obtain ⟨rfl, rfl, hall⟩ : given = none ∧ af = .inet6 ∧ AllHex ip := by
        simpa [Spelling.Plain] using hplain
      obtain ⟨bs, hu⟩ := Option.isSome_iff_exists.mp (hhex.mpr hall)
      have h16 : ip.length = 16 := hlen
      have hhalf := unhexlify_length hu
      have h4 : ip.length ≠ Af.inet.length := by
        show ip.length ≠ 4
        omega
      have hbs : bs.length ≠ Af.inet6.length := by
        show bs.length ≠ 16
        omega
      simp only [Spelling.write, chkAfList, findFamily, unhexlify_hexlify, Option.getD_some, hu]
      rw [if_neg h4, if_neg hbs]

/-- An address is normalized exactly when its spelling is plain. -/
theorem normalize_write_iff (s : Spelling) (given : Option Af) (af : Af) (ip : Bytes)
    (pfx : Option ℤ) (hg : given = none ∨ given = some af) (hlen : ip.length = af.length)
    (hpfx : ∀ n, pfx = some n → 0 ≤ n ∧ n ≤ 8 * af.length) :
    (∃ net, normalizeIpWithPrefix given (s.write ip) pfx =
          some (af, net, pfx.getD (8 * af.length)) ∧
        NetworkOf (pfx.getD (8 * af.length)).toNat ip net) ↔
      s.Plain given af ip := by
  have hrange : 0 ≤ pfx.getD (8 * af.length) ∧ pfx.getD (8 * af.length) ≤ 8 * af.length := by
    cases pfx with
    | none =>
      rw [Option.getD_none]
      omega
    | some n => exact hpfx n rfl
  rw [normalizeIpWithPrefix]
  obtain ⟨hplain, hfound⟩ | ⟨hplain, hfound⟩ := findFamily_write s hg hlen
  · refine iff_of_true ⟨maskBytes (pfx.getD (8 * af.length)).toNat ip, ?_,
      maskBytes_networkOf _ _⟩ hplain
    rw [hfound]
    dsimp only
    rw [if_pos (isNetwork_iff.mpr ⟨hlen, hrange⟩)]
  · refine iff_of_false ?_ hplain
    rw [hfound]
    simp

/-- The packed address `49.50.51.0` with its family. -/
theorem normalize_write_digits :
    ((some Af.inet = none ∨ some Af.inet = some Af.inet) ∧
        ([49, 50, 51, 0] : Bytes).length = Af.inet.length) ∧
      ((∃ net, normalizeIpWithPrefix (some .inet) (Spelling.packed.write [49, 50, 51, 0]) none =
            some (.inet, net, (none : Option ℤ).getD (8 * Af.inet.length)) ∧
          NetworkOf ((none : Option ℤ).getD (8 * Af.inet.length)).toNat [49, 50, 51, 0] net) ↔
        Spelling.packed.Plain (some .inet) .inet [49, 50, 51, 0]) :=
  ⟨⟨Or.inr rfl, rfl⟩,
    normalize_write_iff .packed (some .inet) .inet [49, 50, 51, 0] none (Or.inr rfl) rfl
      fun _ h => by cases h⟩

/-- `49.50.51.52` in packed form is taken for the string `1234`. -/
theorem digits_not_normalized :
    ¬ ∀ (s : Spelling) (given : Option Af) (af : Af) (ip : Bytes) (pfx : Option ℤ),
      (given = none ∨ given = some af) → ip.length = af.length →
        (∀ n, pfx = some n → 0 ≤ n ∧ n ≤ 8 * af.length) →
          ∃ net, normalizeIpWithPrefix given (s.write ip) pfx =
              some (af, net, pfx.getD (8 * af.length)) ∧
            NetworkOf (pfx.getD (8 * af.length)).toNat ip net := by
  intro h
  obtain ⟨net, hnet, -⟩ := h .packed (some .inet) .inet [49, 50, 51, 52] none (Or.inr rfl) rfl
    fun _ h => by cases h
  have hnone : normalizeIpWithPrefix (some .inet) [49, 50, 51, 52] none = none := by decide
  rw [Spelling.write, hnone] at hnet
  cases hnet

end OpxNasLinux
