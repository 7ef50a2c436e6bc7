import OpxNasLinux.OutgoingHandlers

/-!
# Addresses as texts

The commands of the daemon and the listings that it reads have addresses as
texts, which `socket.inet_ntop` writes and `socket.inet_pton` reads.  The C
library prints a 128-bit address in a shortened form that the code never looks
into, so the pair is a parameter.

* `InetText` is such a pair, with the facts about it that the code relies on.
* `InetText.plain` is one that prints every group of an address.  It prints a
  32-bit address as the C library does.
-/

namespace OpxNasLinux

/-- A property of the characters of a text, by trying each of them. -/
theorem forall_mem_of_all {p : Char → Prop} [DecidablePred p] {t : Str}
    (h : t.all (fun c => decide (p c)) = true) : ∀ c ∈ t, p c :=
  fun c hc => of_decide_eq_true (List.all_eq_true.mp h c hc)

/-- `socket.inet_ntop` and `socket.inet_pton`. -/
structure InetText where
  ntop : Af → Bytes → Str
  pton : Af → Str → Option Bytes
  pton_ntop {af : Af} {ip : Bytes} (h : ip.length = af.length) : pton af (ntop af ip) = some ip
  ntop_ne_nil {af : Af} {ip : Bytes} (h : ip.length = af.length) : ntop af ip ≠ []
  /-- A text has hexadecimal digits, dots and colons, and no other characters. -/
  chars {af : Af} {ip : Bytes} (h : ip.length = af.length) :
    ∀ c ∈ ntop af ip, c ∈ "0123456789abcdef.:".toList

namespace InetText

/-! ## Digits -/

/-- The digits of a number to a base up to 16. -/
theorem mem_toDigits {b : ℕ} (hb : 1 < b) (hb' : b ≤ 16) (n : ℕ) :
    ∀ c ∈ Nat.toDigits b n, c ∈ "0123456789abcdef".toList := by
  have hdigit : ∀ m < 16, Nat.digitChar m ∈ "0123456789abcdef".toList := by decide
  induction n using Nat.strongRecOn with
  | ind n ih =>
    intro c hc
    rw [Nat.toDigits_eq_if hb] at hc
    split at hc
    · next hn =>
      obtain rfl := List.mem_singleton.mp hc
      exact hdigit n (hn.trans_le hb')
    · next hn =>
      rcases List.mem_append.mp hc with hc | hc
      · exact ih (n / b) (Nat.div_lt_self (by omega) hb) c hc
      · obtain rfl := List.mem_singleton.mp hc
        exact hdigit _ ((Nat.mod_lt n (by omega)).trans_le hb')

/-- Reading the hexadecimal digits of a number gives the number. -/
theorem hexVal_toDigits (n : ℕ) : hexVal (Nat.toDigits 16 n) = n := by
  have hdigit : ∀ m < 16, ∀ k, hexVal [Nat.digitChar m] = m ∧
      hexVal (k ++ [Nat.digitChar m]) = 16 * hexVal k + m := by
    intro m hm k
    have hone : (if (Nat.digitChar m).isDigit then (Nat.digitChar m).toNat - 48
        else (Nat.digitChar m).toNat - 87) = m := by
      revert m
      decide
    refine ⟨?_, ?_⟩
    · rw [hexVal, List.foldl_cons, List.foldl_nil, hone]
      omega
    · rw [hexVal, List.foldl_append, List.foldl_cons, List.foldl_nil, hone]
      rfl
  induction n using Nat.strongRecOn with
  | ind n ih =>
    rw [Nat.toDigits_eq_if (by decide)]
    split
    · next hn => exact (hdigit n hn []).1
    · next hn =>
      rw [(hdigit _ (Nat.mod_lt n (by decide)) _).2, ih (n / 16) (by omega)]
      omega

/-! ## Plain texts -/

/-- The groups of a 128-bit address. -/
def hextets : Bytes → List Str
  | hi :: lo :: rest => Nat.toDigits 16 (256 * hi.toNat + lo.toNat) :: hextets rest
  | _ => []

/-- The bytes of a group. -/
def hextetBytes (digits : Str) : Bytes :=
  [UInt8.ofNat (hexVal digits / 256), UInt8.ofNat (hexVal digits % 256)]

/-- The address with all of its groups. -/
def plainNtop : Af → Bytes → Str
  | .inet, ip => ['.'].intercalate (ip.map fun b => str b.toNat)
  | .inet6, ip => [':'].intercalate (hextets ip)

def plainPton : Af → Str → Option Bytes
  | .inet, t =>
    if (t.splitOn '.').length = 4 ∧ ∀ f ∈ t.splitOn '.',
        f ≠ [] ∧ f.all Char.isDigit ∧ Nat.ofDigitChars 10 f 0 < 256 then
      some ((t.splitOn '.').map fun f => UInt8.ofNat (Nat.ofDigitChars 10 f 0))
    else none
  | .inet6, t =>
    if (t.splitOn ':').length = 8 ∧ ∀ f ∈ t.splitOn ':', f ≠ [] then
      some ((t.splitOn ':').flatMap hextetBytes)
    else none

theorem intercalate_ne_nil {sep : Char} {t : Str} {ts : List Str} (h : t ≠ []) :
    [sep].intercalate (t :: ts) ≠ [] := by
  rw [List.intercalate]
  cases ts with
  | nil => simpa using h
  | cons t' ts =>
    rw [List.intersperse_cons_cons, List.flatten_cons]
    exact List.append_ne_nil_of_left_ne_nil h _

theorem mem_intercalate {sep c : Char} {ts : List Str} (h : c ∈ [sep].intercalate ts) :
    c = sep ∨ ∃ t ∈ ts, c ∈ t := by
  rw [List.intercalate] at h
  induction ts with
  | nil => cases h
  | cons t ts ih =>
    cases ts with
    | nil => exact Or.inr ⟨t, List.mem_cons_self, by simpa using h⟩
    | cons t' ts =>
      rw [List.intersperse_cons_cons, List.flatten_cons, List.flatten_cons] at h
      rcases List.mem_append.mp h with h | h
      · exact Or.inr ⟨t, List.mem_cons_self, h⟩
      rcases List.mem_append.mp h with h | h
      · exact Or.inl (List.mem_singleton.mp h)
      · rcases ih h with h | ⟨u, hu, hc⟩
        · exact Or.inl h
        · exact Or.inr ⟨u, List.mem_cons_of_mem t hu, hc⟩

/-- The groups are texts of hexadecimal digits, and they give back the
address. -/
theorem hextets_read (ip : Bytes) (n : ℕ) (h : ip.length = 2 * n) :
    (hextets ip).length = n ∧ (hextets ip).flatMap hextetBytes = ip ∧
      ∀ t ∈ hextets ip, t ≠ [] ∧ ∀ c ∈ t, c ∈ "0123456789abcdef".toList := by
  induction n generalizing ip with
  | zero =>
    obtain rfl := List.length_eq_zero_iff.mp h
    exact ⟨rfl, rfl, fun t ht => by cases ht⟩
  | succ n ih =>
    obtain _ | ⟨hi, _ | ⟨lo, rest⟩⟩ := ip
    · cases h
    · cases h
    obtain ⟨hlen, hbytes, htexts⟩ := ih rest (by simp only [List.length_cons] at h; omega)
    have hlo := lo.toNat_lt
    have hdiv : (256 * hi.toNat + lo.toNat) / 256 = hi.toNat := by omega
    have hmod : (256 * hi.toNat + lo.toNat) % 256 = lo.toNat := by omega
    refine ⟨?_, ?_, ?_⟩
    · rw [hextets, List.length_cons, hlen]
    · rw [hextets, List.flatMap_cons, hbytes, hextetBytes, hexVal_toDigits, hdiv, hmod,
        UInt8.ofNat_toNat, UInt8.ofNat_toNat]
      rfl
    · rintro t (_ | ⟨_, ht⟩)
      · exact ⟨Nat.toDigits_ne_nil, mem_toDigits (by decide) (by decide) _⟩
      · exact htexts t ht

/-- Every group of an address printed out. -/
def plain : InetText where
  ntop := plainNtop
  pton := plainPton
  pton_ntop := by
    rintro (_ | _) ip h
    · have hfields : ((['.'].intercalate (ip.map fun b => str b.toNat)).splitOn '.') =
          ip.map fun b => str b.toNat := by
        refine List.splitOn_intercalate _ ?_ ?_
        · rintro _ ht hmem
          obtain ⟨b, -, rfl⟩ := List.mem_map.mp ht
          exact absurd (mem_toDigits (by decide) (by decide) _ _ hmem) (by decide)
        · rintro hnil
          rw [List.map_eq_nil_iff.mp hnil] at h
          cases h
      have hdigits : ∀ f ∈ ip.map fun b => str b.toNat, f ≠ [] ∧ f.all Char.isDigit ∧
          Nat.ofDigitChars 10 f 0 < 256 := by
        rintro _ ht
        obtain ⟨b, -, rfl⟩ := List.mem_map.mp ht
        refine ⟨Nat.toDigits_ne_nil, List.all_eq_true.mpr fun c hc => ?_, ?_⟩
        · exact Nat.isDigit_of_mem_toDigits (by decide) (by decide) hc
        · rw [str, Nat.ofDigitChars_ten_toDigits]
          exact b.toNat_lt
      rw [plainNtop, plainPton, hfields, if_pos ⟨by rw [List.length_map]; exact h, hdigits⟩]
      simp [str, Function.comp_def]
    · obtain ⟨hlen, hbytes, htexts⟩ := hextets_read ip 8 h
      have hfields : ([':'].intercalate (hextets ip)).splitOn ':' = hextets ip := by
        refine List.splitOn_intercalate _ (fun t ht hmem => ?_) (fun hnil => ?_)
        · exact absurd ((htexts t ht).2 _ hmem) (by decide)
        · rw [hnil] at hlen
          cases hlen
      rw [plainNtop, plainPton, hfields, if_pos ⟨hlen, fun t ht => (htexts t ht).1⟩, hbytes]
  ntop_ne_nil := by
    rintro (_ | _) (_ | ⟨b, ip⟩) h
    · cases h
    · exact intercalate_ne_nil Nat.toDigits_ne_nil
    · cases h
    · obtain _ | ⟨lo, ip⟩ := ip
      · cases h
      · exact intercalate_ne_nil Nat.toDigits_ne_nil
  chars := by
    have hsub : ∀ c ∈ "0123456789abcdef".toList, c ∈ "0123456789abcdef.:".toList :=
      forall_mem_of_all (by decide)
    rintro (_ | _) ip h c hc
    · rcases mem_intercalate hc with rfl | ⟨t, ht, hc⟩
      · decide
      · obtain ⟨b, -, rfl⟩ := List.mem_map.mp ht
        exact hsub c (mem_toDigits (by decide) (by decide) _ c hc)
    · obtain ⟨-, -, htexts⟩ := hextets_read ip 8 h
      rcases mem_intercalate hc with rfl | ⟨t, ht, hc⟩
      · decide
      · exact hsub c ((htexts t ht).2 c hc)

example : plain.ntop .inet [192, 168, 0, 1] = "192.168.0.1".toList := by decide

end InetText

end OpxNasLinux
