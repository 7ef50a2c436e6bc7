import Mathlib.Data.List.TakeWhile
import OpxNasLinux.McastCache

/-!
# The base name of a member port

The events of the kernel and the polled cache both name a member port by its
interface without the VLAN tag.

* `getIfname` and `nasOsSubIntfToPhyIntfName` are the C side, which cuts a name
  at its first dot.
* `Mcast.removeIfnameTag` is the Python side, which cuts at the last dot when
  digits follow.
* `base_names_agree_iff` says for which names the two agree.
-/

namespace OpxNasLinux.McastIfNames

open Mcast (removeIfnameTag)

/-! ## The C side -/

/-- The first call of `strtok_r` with the delimiter `.`. -/
def strtok (s : Str) : Option Str :=
  match s.dropWhile fun c => decide (c = '.') with
  | [] => none
  | tok => some (tok.takeWhile fun c => decide (c ≠ '.'))

/-- `safestrncpy` to an array of this size. -/
def safestrncpy (size : ℕ) (s : Str) : Str := s.take (size - 1)

inductive NameError where
  | notFound
  | nullPointer
deriving DecidableEq

/-- `_get_ifname`.  `osName` is `cps_api_interface_if_index_to_name`, and `size`
is `HAL_IF_NAME_SZ`. -/
def getIfname (size : ℕ) (osName : BitVec 32 → Option Str) (ifindex : BitVec 32) :
    Except NameError Str :=
  match osName ifindex with
  | none => .error .notFound
  | some name =>
    match strtok name with
    | none => .error .nullPointer
    | some convertedIntfName => .ok (safestrncpy size convertedIntfName)

/-- `nas_os_sub_intf_to_phy_intf_name`, with an array for the result. -/
def nasOsSubIntfToPhyIntfName (size : ℕ) (subIntfName : Option Str) : Option Str :=
  match subIntfName with
  | none => none
  | some name =>
    match strtok name with
    | none => none
    | some convertedIntfName => some (safestrncpy size convertedIntfName)

/-- The name up to its first dot. -/
theorem strtok_eq {name : Str} (hne : name ≠ []) (hdot : name.head? ≠ some '.') :
    strtok name = some (name.takeWhile fun c => decide (c ≠ '.')) := by
  cases name with
  | nil => exact absurd rfl hne
  | cons c name =>
    have hc : ¬ c = '.' := by simpa using hdot
    have hdrop : (c :: name).dropWhile (fun c => decide (c = '.')) = c :: name := by
      simp [hc]
    unfold strtok
    rw [hdrop]

theorem safestrncpy_of_lt {size : ℕ} {s : Str} (h : s.length < size) : safestrncpy size s = s := by
  unfold safestrncpy
  apply List.take_of_length_le
  omega

/-! ## Tags -/

/-- What follows the first dot of a name. -/
def afterDot (name : Str) : Str := (name.dropWhile fun c => decide (c ≠ '.')).tail

/-- What follows the first dot is a number, if there is a dot. -/
def NumericTag (name : Str) : Prop :=
  '.' ∈ name → afterDot name ≠ [] ∧ (afterDot name).all Char.isDigit = true

instance (name : Str) : Decidable (NumericTag name) :=
  inferInstanceAs (Decidable (_ → _))

/-- A name with a dot is its front, the dot, and what follows. -/
theorem eq_front_afterDot {name : Str} (h : '.' ∈ name) :
    name.takeWhile (fun c => decide (c ≠ '.')) ++ '.' :: afterDot name = name := by
  induction name with
  | nil => cases h
  | cons c name ih =>
    by_cases hc : c = '.'
    · simp [afterDot, hc]
    · have hmem : '.' ∈ name := (List.mem_cons.mp h).resolve_left fun heq => hc heq.symm
      have htail : afterDot (c :: name) = afterDot name := by simp [afterDot, hc]
      rw [htail, List.takeWhile_cons_of_pos (by simpa using hc), List.cons_append, ih hmem]

/-- A list of digits has no dot. -/
theorem not_dot_of_digits {t : Str} (h : t.all Char.isDigit = true) : '.' ∉ t := by
  intro hdot
  have hdigit := List.all_eq_true.mp h '.' hdot
  exact absurd hdigit (by decide)

/-- The characters behind the last dot, when the tag has none. -/
theorem lastTag_eq {p t : Str} (h : '.' ∉ t) :
    ((p ++ '.' :: t).reverse.takeWhile fun c => decide (c ≠ '.')).reverse = t := by
  have hall : ∀ c ∈ t.reverse, decide (c ≠ '.') = true := by
    intro c hc
    rw [decide_eq_true_iff]
    rintro rfl
    exact h (List.mem_reverse.mp hc)
  rw [List.reverse_append, List.reverse_cons, List.append_assoc,
    List.takeWhile_append_of_pos hall]
  simp

/-- The tag is taken off exactly when it is the only one, and a number. -/
theorem removeIfnameTag_eq_iff {p t : Str} (hp : p ≠ []) :
    removeIfnameTag (p ++ '.' :: t) = p ↔ t ≠ [] ∧ t.all Char.isDigit = true := by
  have hdot : '.' ∈ p ++ '.' :: t := by simp
  have hpos := List.length_pos_of_ne_nil hp
  have hlen : (p ++ '.' :: t).length = p.length + (t.length + 1) := by simp
  unfold removeIfnameTag
  dsimp only
  constructor
  · intro h
    split at h
    · rename_i hcond
      obtain ⟨-, hne, hdigits⟩ := hcond
      generalize htag : ((p ++ '.' :: t).reverse.takeWhile fun c => decide (c ≠ '.')).reverse = tag
        at h hne hdigits
      have hcut := congrArg List.length h
      rw [List.length_take, hlen] at hcut
      have hsame : tag.length = t.length := by omega
      -- Both are what the name ends with.
      have hsuffix : tag <:+ p ++ '.' :: t := by
        rw [← htag, ← List.reverse_prefix, List.reverse_reverse]
        exact List.takeWhile_prefix _
      have ht : t <:+ p ++ '.' :: t := ⟨p ++ ['.'], by simp⟩
      have heq : tag = t :=
        (List.suffix_of_suffix_length_le hsuffix ht hsame.le).eq_of_length hsame
      rw [← heq]
      exact ⟨hne, hdigits⟩
    · have hlong := congrArg List.length h
      omega
  · rintro ⟨hne, hdigits⟩
    rw [lastTag_eq (not_dot_of_digits hdigits), if_pos ⟨hdot, hne, hdigits⟩, hlen,
      Nat.add_sub_cancel]
    exact List.take_left' rfl

/-! ## Both sides -/

/-- The front of a name is what the Python side leaves, exactly when the name
has no dot or one that a number follows. -/
theorem front_eq_iff {name : Str} (hne : name ≠ []) (hdot : name.head? ≠ some '.') :
    name.takeWhile (fun c => decide (c ≠ '.')) = removeIfnameTag name ↔ NumericTag name := by
  by_cases h : '.' ∈ name
  · have hfront : name.takeWhile (fun c => decide (c ≠ '.')) ≠ [] := by
      cases name with
      | nil => exact absurd rfl hne
      | cons c name =>
        have hc : ¬ c = '.' := by simpa using hdot
        simp [hc]
    have hiff := removeIfnameTag_eq_iff (t := afterDot name) hfront
    rw [eq_front_afterDot h] at hiff
    rw [eq_comm, hiff, NumericTag, forall_prop_of_true h]
  · have hall : name.takeWhile (fun c => decide (c ≠ '.')) = name := by
      rw [List.takeWhile_eq_self_iff]
      intro c hc
      rw [decide_eq_true_iff]
      rintro rfl
      exact h hc
    have hkept : removeIfnameTag name = name := by
      unfold removeIfnameTag
      exact if_neg fun hcond => h hcond.1
    rw [hall, hkept]
    exact iff_of_true rfl fun hmem => absurd hmem h

/-- The two functions of the C side and the Python side make the same name. -/
theorem base_names_agree_iff (size : ℕ) (osName : BitVec 32 → Option Str) (ifindex : BitVec 32)
    (name : Str) (hname : osName ifindex = some name) (hne : name ≠ [])
    (hdot : name.head? ≠ some '.') (hsize : name.length < size) :
    (getIfname size osName ifindex = .ok (removeIfnameTag name) ∧
        nasOsSubIntfToPhyIntfName size (some name) = some (removeIfnameTag name)) ↔
      NumericTag name := by
  have hfront : (name.takeWhile fun c => decide (c ≠ '.')).length < size :=
    lt_of_le_of_lt (List.takeWhile_prefix _).length_le hsize
  have hget : getIfname size osName ifindex =
      .ok (name.takeWhile fun c => decide (c ≠ '.')) := by
    unfold getIfname
    rw [hname]
    dsimp only
    rw [strtok_eq hne hdot]
    dsimp only
    rw [safestrncpy_of_lt hfront]
  have hsub : nasOsSubIntfToPhyIntfName size (some name) =
      some (name.takeWhile fun c => decide (c ≠ '.')) := by
    unfold nasOsSubIntfToPhyIntfName
    dsimp only
    rw [strtok_eq hne hdot]
    dsimp only
    rw [safestrncpy_of_lt hfront]
  rw [hget, hsub, Except.ok.injEq, Option.some_inj, and_self]
  exact front_eq_iff hne hdot

/-- A port with a VLAN tag. -/
theorem base_names_agree_tagged :
    (getIfname 32 (fun _ => some ['e', '1', '.', '2', '0']) 7 = .ok ['e', '1'] ∧
      nasOsSubIntfToPhyIntfName 32 (some ['e', '1', '.', '2', '0']) = some ['e', '1']) ∧
      removeIfnameTag ['e', '1', '.', '2', '0'] = ['e', '1'] := by
  have htag : removeIfnameTag ['e', '1', '.', '2', '0'] = ['e', '1'] := by decide
  have hboth := (base_names_agree_iff 32 (fun _ => some ['e', '1', '.', '2', '0']) 7
    ['e', '1', '.', '2', '0'] rfl (by decide) (by decide) (by decide)).mpr (by decide)
  rw [htag] at hboth
  exact ⟨hboth, htag⟩

/-- A port with a tag on a name that has a dot itself. -/
theorem two_dots_not_agree :
    ¬ ∀ (size : ℕ) (osName : BitVec 32 → Option Str) (ifindex : BitVec 32) (name : Str),
      osName ifindex = some name → name ≠ [] → name.head? ≠ some '.' → name.length < size →
        getIfname size osName ifindex = .ok (removeIfnameTag name) ∧
          nasOsSubIntfToPhyIntfName size (some name) = some (removeIfnameTag name) := by
  intro h
  have hboth := h 32 (fun _ => some ['a', '.', 'b', '.', '9']) 7 ['a', '.', 'b', '.', '9'] rfl
    (by decide) (by decide) (by decide)
  exact absurd hboth.2 (by decide)

end OpxNasLinux.McastIfNames
