import OpxNasLinux.InetText
import OpxNasLinux.Lib.Delimited

/-!
# IPv6 addresses in their standard form

The C library prints an address as groups of hexadecimal digits.  The first one
of the longest runs of zero groups, if it is longer than one group, is printed
as `::`, and an address that embeds an IPv4 address has it printed with dots.

* `Ipv6` is an address, and `inetNtop6` its text.
* `close_infix_inetNtop6_iff` says where groups that are each followed by a
  colon can be found in the text: the groups stand in a row in the address, not
  behind the seventh one.
-/

namespace OpxNasLinux

open Delimited

/-- A 128-bit address. -/
structure Ipv6 where
  groups : List ℕ
  length : groups.length = 8
  bound : ∀ g ∈ groups, g < 65536

namespace Ipv6

/-! ## The text -/

/-- The digits of a group. -/
def hex (g : ℕ) : Str := Nat.toDigits 16 g

/-- The number of zero groups in a row from the given one on. -/
def zeroRun (gs : List ℕ) (i : ℕ) : ℕ := ((gs.drop i).takeWhile (· = 0)).length

/-- The first one of the longest runs of zero groups, as its start and its
length. -/
def bestRun (gs : List ℕ) : ℕ × ℕ :=
  (List.range 8).foldl
    (fun best i => if best.2 < zeroRun gs i then (i, zeroRun gs i) else best) (0, 0)

/-- The address embeds an IPv4 address: its run takes the first six groups, or
five of them before `ffff`. -/
def dotted (a : Ipv6) : Bool :=
  (bestRun a.groups).1 = 0 &&
    ((bestRun a.groups).2 = 6 || ((bestRun a.groups).2 = 5 && a.groups.getD 5 0 = 0xffff))

/-- The embedded IPv4 address. -/
def dottedText (a : Ipv6) : Str :=
  ['.'].intercalate
    ((a.groups.drop 6).flatMap fun g => [Nat.toDigits 10 (g / 256), Nat.toDigits 10 (g % 256)])

/-- What is printed behind the run, which ends at the given group. -/
def afterRun (a : Ipv6) (stop : ℕ) : List Str :=
  if stop = 8 then [[]]
  else if a.dotted then ((a.groups.take 6).drop stop).map hex ++ [a.dottedText]
  else (a.groups.drop stop).map hex

/-- What is printed between the colons. -/
def fields (a : Ipv6) : List Str :=
  let run := bestRun a.groups
  if run.2 < 2 then a.groups.map hex
  else
    (if run.1 = 0 then [[]] else (a.groups.take run.1).map hex) ++
      [] :: a.afterRun (run.1 + run.2)

/-- `socket.inet_ntop` for an IPv6 address. -/
def inetNtop6 (a : Ipv6) : Str := [':'].intercalate a.fields

example : inetNtop6 ⟨[0x2001, 0xdb8, 0, 0, 0, 0, 0xfe80, 1], by decide, by decide⟩ =
    "2001:db8::fe80:1".toList := by decide +kernel

example : inetNtop6 ⟨[0, 0, 0, 0, 0, 0xffff, 0xc0a8, 1], by decide, by decide⟩ =
    "::ffff:192.168.0.1".toList := by decide +kernel

example : inetNtop6 ⟨[0, 0, 0, 0, 0, 0, 0, 0], by decide, by decide⟩ = "::".toList := by
  decide +kernel

example : inetNtop6 ⟨[1, 0, 0, 2, 0, 0, 0, 0], by decide, by decide⟩ = "1:0:0:2::".toList := by
  decide +kernel

/-! ## The run of zero groups -/

/-- A run that is found is not longer than the zero groups from its start on. -/
theorem bestRun_le (gs : List ℕ) : (bestRun gs).2 ≤ zeroRun gs (bestRun gs).1 := by
  have hfold : ∀ (is : List ℕ) (best : ℕ × ℕ), best.2 ≤ zeroRun gs best.1 →
      let r := is.foldl
        (fun best i => if best.2 < zeroRun gs i then (i, zeroRun gs i) else best) best
      r.2 ≤ zeroRun gs r.1 := by
    intro is
    induction is with
    | nil => exact fun best hbest => hbest
    | cons i is ih =>
      intro best hbest
      refine ih _ ?_
      dsimp only
      split
      · exact le_rfl
      · exact hbest
  exact hfold _ _ (Nat.zero_le _)

/-- The groups before a run, the run and the groups behind it. -/
theorem groups_eq (gs : List ℕ) :
    gs = gs.take (bestRun gs).1 ++ (List.replicate (bestRun gs).2 0 ++
      gs.drop ((bestRun gs).1 + (bestRun gs).2)) := by
  have hle := bestRun_le gs
  generalize bestRun gs = run at hle ⊢
  obtain ⟨start, len⟩ := run
  have hzeros : (gs.drop start).take len = List.replicate len 0 := by
    rw [List.eq_replicate_iff]
    have hrun : len ≤ ((gs.drop start).takeWhile (· = 0)).length := hle
    have hlen := (List.takeWhile_prefix (· = 0) (l := gs.drop start)).length_le
    refine ⟨by rw [List.length_take]; omega, fun g hg => ?_⟩
    have hpre : (gs.drop start).take len <+: (gs.drop start).takeWhile (· = 0) :=
      List.prefix_of_prefix_length_le (List.take_prefix _ _) (List.takeWhile_prefix _)
        (by rw [List.length_take]; omega)
    simpa using List.all_eq_true.mp List.all_takeWhile g (hpre.subset hg)
  dsimp only
  rw [← hzeros, ← List.drop_drop, List.take_append_drop, List.take_append_drop]

/-! ## Fields -/

theorem hex_injective : Function.Injective hex := by
  intro g g' h
  have hval := congrArg hexVal h
  rwa [hex, hex, InetText.hexVal_toDigits, InetText.hexVal_toDigits] at hval

theorem hex_ne_nil (g : ℕ) : hex g ≠ [] := Nat.toDigits_ne_nil

theorem mem_hex {g : ℕ} {c : Char} (hc : c ∈ hex g) : c ∈ "0123456789abcdef".toList :=
  InetText.mem_toDigits (by decide) (by decide) g c hc

/-- The fields of a run at the start of the address, or of the groups before
it. -/
def beforeRun (start : List ℕ) : List Str := if start = [] then [[]] else start.map hex

theorem afterRun_ne_nil (a : Ipv6) {stop : ℕ} (h : stop ≤ 8) : a.afterRun stop ≠ [] := by
  rw [afterRun]
  split
  · exact List.cons_ne_nil _ _
  · rename_i hstop
    split
    · simp
    · intro hnil
      have hlen := congrArg List.length hnil
      rw [List.length_map, List.length_drop, a.length, List.length_nil] at hlen
      omega

/-- What is printed behind the run of an embedded address. -/
theorem afterRun_dotted (a : Ipv6) (h : a.dotted = true) :
    (bestRun a.groups).1 = 0 ∧
      ((a.afterRun (bestRun a.groups).2).dropLast = [] ∨
        (a.afterRun (bestRun a.groups).2).dropLast = [hex 0xffff]) := by
  have hdotted := h
  simp only [dotted, Bool.and_eq_true, Bool.or_eq_true, decide_eq_true_eq] at h
  obtain ⟨hstart, hlen | ⟨hlen, hmapped⟩⟩ := h
  · refine ⟨hstart, Or.inl ?_⟩
    simp [afterRun, hlen, hdotted]
  · refine ⟨hstart, Or.inr ?_⟩
    have hgroup : (a.groups.take 6).drop 5 = [0xffff] := by
      have h5 : 5 < a.groups.length := by rw [a.length]; decide
      have h5' : a.groups[5] = 0xffff := by simpa [h5] using hmapped
      rw [List.drop_take, List.drop_eq_getElem_cons h5, h5']
      rfl
    simp [afterRun, hlen, hdotted, hgroup]

/-- What is printed behind the run of another address. -/
theorem afterRun_plain (a : Ipv6) (h : a.dotted = false) (stop : ℕ) :
    (a.afterRun stop).dropLast = (a.groups.drop stop).dropLast.map hex := by
  rw [afterRun, h, List.map_dropLast]
  split
  · rename_i hstop
    rw [hstop, List.drop_eq_nil_of_le a.length.le]
    rfl
  · rfl

/-- The fields of an address but for the last one. -/
theorem fields_dropLast (a : Ipv6) :
    a.dotted = false ∧ a.fields.dropLast = a.groups.dropLast.map hex ∨
      ∃ L n R, a.groups = L ++ (List.replicate (n + 2) 0 ++ R) ∧
        (a.dotted = false ∧ a.fields.dropLast = beforeRun L ++ [] :: R.dropLast.map hex ∨
          a.dotted = true ∧ (a.fields.dropLast = [[], []] ∨
            a.fields.dropLast = [[], [], hex 0xffff])) := by
  have hgroups := groups_eq a.groups
  have hbound : (bestRun a.groups).1 + (bestRun a.groups).2 ≤ 8 ∨ (bestRun a.groups).2 = 0 := by
    have hlen := congrArg List.length hgroups
    simp only [List.length_append, List.length_take, List.length_replicate, List.length_drop,
      a.length] at hlen
    omega
  by_cases hlen : (bestRun a.groups).2 < 2
  · refine Or.inl ⟨?_, ?_⟩
    · have h6 : (bestRun a.groups).2 ≠ 6 := by omega
      have h5 : (bestRun a.groups).2 ≠ 5 := by omega
      simp [dotted, h6, h5]
    · rw [fields, if_pos hlen, List.map_dropLast]
  · obtain ⟨n, hn⟩ : ∃ n, (bestRun a.groups).2 = n + 2 := ⟨(bestRun a.groups).2 - 2, by omega⟩
    refine Or.inr ⟨a.groups.take (bestRun a.groups).1, n,
      a.groups.drop ((bestRun a.groups).1 + (bestRun a.groups).2), hn ▸ hgroups, ?_⟩
    have hbefore : (if (bestRun a.groups).1 = 0 then [[]]
        else (a.groups.take (bestRun a.groups).1).map hex) =
          beforeRun (a.groups.take (bestRun a.groups).1) := by
      have hne : a.groups ≠ [] := List.ne_nil_of_length_pos (by rw [a.length]; decide)
      simp [beforeRun, List.take_eq_nil_iff, hne]
    have hdrop : a.fields.dropLast = beforeRun (a.groups.take (bestRun a.groups).1) ++
        [] :: (a.afterRun ((bestRun a.groups).1 + (bestRun a.groups).2)).dropLast := by
      have hne := a.afterRun_ne_nil (hbound.resolve_right (by omega))
      rw [fields, if_neg hlen, hbefore, List.dropLast_append_of_ne_nil (List.cons_ne_nil _ _),
        List.dropLast_cons_of_ne_nil hne]
    cases hdotted : a.dotted with
    | false =>
      refine Or.inl ⟨rfl, ?_⟩
      rw [hdrop, a.afterRun_plain hdotted]
    | true =>
      obtain ⟨hstart, hafter⟩ := a.afterRun_dotted hdotted
      refine Or.inr ⟨rfl, ?_⟩
      rw [hdrop, hstart, Nat.zero_add]
      exact hafter.imp (fun h => by rw [h]; rfl) (fun h => by rw [h]; rfl)

/-! ## Groups in a row -/

theorem map_hex_infix_iff {P L : List ℕ} : P.map hex <:+: L.map hex ↔ P <:+: L := by
  refine ⟨fun h => ?_, fun h => h.map hex⟩
  obtain ⟨l, hl, heq⟩ := List.infix_map_iff.mp h
  rwa [List.map_injective_iff.mpr hex_injective heq]

theorem nil_notMem_map_hex (P : List ℕ) : [] ∉ P.map hex := by
  intro hmem
  obtain ⟨g, -, hg⟩ := List.mem_map.mp hmem
  exact hex_ne_nil g hg

/-- Fields that are not empty are found in front of a run as groups are. -/
theorem map_hex_infix_beforeRun {P L : List ℕ} (hP : P ≠ []) :
    P.map hex <:+: beforeRun L ↔ P <:+: L := by
  rw [beforeRun]
  split
  · rename_i hL
    subst hL
    refine iff_of_false (fun h => ?_) (fun h => hP (List.infix_nil.mp h))
    obtain ⟨g, hg⟩ := List.exists_mem_of_ne_nil P hP
    have hmem := List.mem_singleton.mp (h.subset (List.mem_map_of_mem hg))
    exact hex_ne_nil g hmem
  · exact map_hex_infix_iff

/-- Groups that are not zero, in front of the last one, are found on one side of
a run. -/
theorem infix_dropLast_iff {P L R : List ℕ} (h0 : 0 ∉ P) (n : ℕ) :
    P <:+: (L ++ (List.replicate (n + 2) 0 ++ R)).dropLast ↔ P <:+: L ∨ P <:+: R.dropLast := by
  cases R with
  | nil =>
    have hdrop : (L ++ (List.replicate (n + 2) 0 ++ [])).dropLast =
        L ++ (List.replicate (n + 1) 0 ++ []) := by
      rw [List.append_nil, List.append_nil, List.replicate_succ', ← List.append_assoc,
        List.dropLast_concat]
    rw [hdrop, infix_replicate_iff h0, List.dropLast_nil]
  | cons g R =>
    rw [← List.append_assoc, List.dropLast_append_of_ne_nil (List.cons_ne_nil g R),
      List.append_assoc, infix_replicate_iff h0]

/-- Groups stand in a row in the text, before the last field, when they do so in
the address, before the last group. -/
theorem map_hex_infix_fields_iff (a : Ipv6) {p : ℕ} {ps : List ℕ} (h0 : 0 ∉ p :: ps)
    (hp : p ≠ 0xffff) :
    (p :: ps).map hex <:+: a.fields.dropLast ↔
      a.dotted = false ∧ (p :: ps) <:+: a.groups.dropLast := by
  rcases a.fields_dropLast with ⟨hdotted, hfields⟩ |
    ⟨L, n, R, hgroups, ⟨hdotted, hfields⟩ | ⟨hdotted, hfields⟩⟩
  · rw [hfields, map_hex_infix_iff]
    simp [hdotted]
  · rw [hfields, hgroups, infix_dropLast_iff h0, infix_cut_iff (nil_notMem_map_hex _),
      map_hex_infix_beforeRun (List.cons_ne_nil p ps), map_hex_infix_iff]
    simp [hdotted]
  · refine iff_of_false (fun h => ?_) (fun h => by rw [hdotted] at h; cases h.1)
    have hmem : hex p ∈ a.fields.dropLast := h.subset (List.mem_map_of_mem List.mem_cons_self)
    have hmem : hex p ∈ [[], [], hex 0xffff] := by
      rcases hfields with hfields | hfields <;> rw [hfields] at hmem
      · exact List.mem_append_left [hex 0xffff] hmem
      · exact hmem
    simp only [List.mem_cons, List.not_mem_nil, or_false] at hmem
    rcases hmem with hmem | hmem | hmem
    · exact hex_ne_nil p hmem
    · exact hex_ne_nil p hmem
    · exact hp (hex_injective hmem)

/-! ## Pieces of the text -/

theorem mem_fields {a : Ipv6} {f : Str} (hf : f ∈ a.fields) :
    f = [] ∨ (∃ g ∈ a.groups, f = hex g) ∨ f = a.dottedText := by
  have hgroups : ∀ gs : List ℕ, gs ⊆ a.groups → f ∈ gs.map hex →
      f = [] ∨ (∃ g ∈ a.groups, f = hex g) ∨ f = a.dottedText := by
    intro gs hsub hmem
    obtain ⟨g, hg, rfl⟩ := List.mem_map.mp hmem
    exact Or.inr (Or.inl ⟨g, hsub hg, rfl⟩)
  rw [fields] at hf
  split at hf
  · exact hgroups _ (List.Subset.refl _) hf
  rcases List.mem_append.mp hf with hf | hf
  · split at hf
    · exact Or.inl (List.mem_singleton.mp hf)
    · exact hgroups _ (List.take_subset _ _) hf
  rcases List.mem_cons.mp hf with hf | hf
  · exact Or.inl hf
  rw [afterRun] at hf
  split at hf
  · exact Or.inl (List.mem_singleton.mp hf)
  split at hf
  · rcases List.mem_append.mp hf with hf | hf
    · exact hgroups _ (fun g hg => List.take_subset _ _ (List.drop_subset _ _ hg)) hf
    · exact Or.inr (Or.inr (List.mem_singleton.mp hf))
  · exact hgroups _ (List.drop_subset _ _) hf

/-- A field has hexadecimal digits and dots. -/
theorem mem_field {a : Ipv6} {f : Str} (hf : f ∈ a.fields) {c : Char} (hc : c ∈ f) :
    c ∈ "0123456789abcdef.".toList := by
  have hsub : ∀ c ∈ "0123456789abcdef".toList, c ∈ "0123456789abcdef.".toList :=
    forall_mem_of_all (by decide)
  rcases mem_fields hf with rfl | ⟨g, -, rfl⟩ | rfl
  · cases hc
  · exact hsub c (mem_hex hc)
  · rcases InetText.mem_intercalate hc with rfl | ⟨t, ht, hc⟩
    · decide
    · obtain ⟨g, -, ht⟩ := List.mem_flatMap.mp ht
      rcases List.mem_pair.mp ht with rfl | rfl <;>
        exact hsub c (InetText.mem_toDigits (by decide) (by decide) _ c hc)

/-- The fields before the last one have at most four digits. -/
theorem length_le_of_mem_dropLast {a : Ipv6} {f : Str} (hf : f ∈ a.fields.dropLast) :
    f.length ≤ 4 := by
  have hhex : ∀ g < 65536, (hex g).length ≤ 4 := fun g hg =>
    (Nat.length_toDigits_le_iff (by decide) (by decide)).mpr (by omega)
  have hgroups : ∀ gs : List ℕ, gs ⊆ a.groups → f ∈ gs.map hex → f.length ≤ 4 := by
    intro gs hsub hmem
    obtain ⟨g, hg, rfl⟩ := List.mem_map.mp hmem
    exact hhex g (a.bound g (hsub hg))
  rcases a.fields_dropLast with ⟨-, hfields⟩ | ⟨L, n, R, heq, ⟨-, hfields⟩ | ⟨-, hfields⟩⟩
  · rw [hfields] at hf
    exact hgroups _ (List.dropLast_subset _) hf
  · rw [hfields] at hf
    rcases List.mem_append.mp hf with hf | hf
    · rw [beforeRun] at hf
      split at hf
      · rw [List.mem_singleton.mp hf]
        decide
      · exact hgroups L (by rw [heq]; exact List.subset_append_left _ _) hf
    · rcases List.mem_cons.mp hf with rfl | hf
      · decide
      · have hR : R ⊆ a.groups := by
          rw [heq, ← List.append_assoc]
          exact List.subset_append_right _ _
        exact hgroups R.dropLast (fun g hg => hR (List.dropLast_subset _ hg)) hf
  · have hf : f ∈ [[], [], hex 0xffff] := by
      rcases hfields with hfields | hfields <;> rw [hfields] at hf
      · exact List.mem_append_left [hex 0xffff] hf
      · exact hf
    simp only [List.mem_cons, List.not_mem_nil, or_false] at hf
    rcases hf with rfl | rfl | rfl
    · decide
    · decide
    · exact hhex _ (by decide)

theorem fields_ne_nil (a : Ipv6) : a.fields ≠ [] := by
  have hne : a.groups ≠ [] := List.ne_nil_of_length_pos (by rw [a.length]; decide)
  rw [fields]
  split
  · simpa using hne
  · simp

/-- The text has every field but the last one in front of a colon. -/
theorem inetNtop6_eq (a : Ipv6) :
    inetNtop6 a = close ':' a.fields.dropLast ++ a.fields.getLast a.fields_ne_nil := by
  rw [inetNtop6, ← intercalate_concat, List.dropLast_append_getLast]

theorem colon_notMem {a : Ipv6} {f : Str} (hf : f ∈ a.fields) : ':' ∉ f :=
  fun hc => absurd (mem_field hf hc) (by decide)

/-- The text has hexadecimal digits, dots and colons. -/
theorem inetNtop6_chars (a : Ipv6) {c : Char} (hc : c ∉ "0123456789abcdef.:".toList) :
    c ∉ inetNtop6 a := by
  have hsub : ∀ c ∈ "0123456789abcdef.".toList, c ∈ "0123456789abcdef.:".toList :=
    forall_mem_of_all (by decide)
  intro hmem
  rcases InetText.mem_intercalate hmem with rfl | ⟨f, hf, hcf⟩
  · exact hc (by decide)
  · exact hc (hsub c (mem_field hf hcf))

/-- There are several fields. -/
theorem colon_mem_inetNtop6 (a : Ipv6) : ':' ∈ inetNtop6 a := by
  have hinit : a.fields.dropLast ≠ [] := by
    have hgroups : a.groups.dropLast ≠ [] := by
      apply List.ne_nil_of_length_pos
      rw [List.length_dropLast, a.length]
      decide
    rcases a.fields_dropLast with ⟨-, h⟩ | ⟨L, n, R, -, ⟨-, h⟩ | ⟨-, h | h⟩⟩ <;> rw [h]
    · exact fun hnil => hgroups (List.map_eq_nil_iff.mp hnil)
    · simp
    · simp
    · simp
  obtain ⟨f, fs, hfs⟩ := List.exists_cons_of_ne_nil hinit
  rw [inetNtop6_eq, hfs, close]
  simp

/-- Groups that are each followed by a colon occur in the text when they stand
in a row in the address, before the last group, and the address embeds no IPv4
address.  The first one has four digits, so it cannot be the end of a group. -/
theorem close_infix_inetNtop6_iff (a : Ipv6) {p : ℕ} {ps : List ℕ} (h0 : 0 ∉ p :: ps)
    (hp : 4096 ≤ p) (hffff : p ≠ 0xffff) :
    close ':' ((p :: ps).map hex) <:+: inetNtop6 a ↔
      a.dotted = false ∧ (p :: ps) <:+: a.groups.dropLast := by
  have hhex : ∀ f ∈ (p :: ps).map hex, ':' ∉ f := by
    intro f hf hc
    obtain ⟨g, -, rfl⟩ := List.mem_map.mp hf
    exact absurd (mem_hex hc) (by decide)
  have hinit : ∀ f ∈ a.fields.dropLast, ':' ∉ f := fun f hf =>
    colon_notMem (List.dropLast_subset _ hf)
  rw [inetNtop6_eq, close_infix_append_iff (colon_notMem (List.getLast_mem _)), List.map_cons,
    close_infix_iff hhex hinit, ← a.map_hex_infix_fields_iff h0 hffff, List.map_cons]
  constructor
  · rintro ⟨as, u, bs, heq⟩
    have hlen : (u ++ hex p).length ≤ 4 :=
      length_le_of_mem_dropLast (a := a) (by rw [heq]; simp)
    have hfour : ¬ (hex p).length ≤ 3 := by
      rw [hex, Nat.length_toDigits_le_iff (by decide) (by decide)]
      omega
    rw [List.length_append] at hlen
    obtain rfl : u = [] := List.eq_nil_of_length_eq_zero (by omega)
    exact ⟨as, bs, by rw [heq]; simp⟩
  · rintro ⟨as, bs, heq⟩
    exact ⟨as, [], bs, by rw [← heq]; simp⟩

end Ipv6

end OpxNasLinux
