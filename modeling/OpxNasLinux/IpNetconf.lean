import OpxNasLinux.Lib.Run
import OpxNasLinux.NeighNetconf

/-!
# Forwarding messages

`nl_get_ip_netconf_info` keeps the forwarding value for all interfaces, one for
each family.  A message for one interface that has the same value is not
published.

* `nlGetIpNetconfInfo` is the function behind its loop, and `Msg` a message with
  what the loop leaves.
* `get_step` says what a message does to the values, and `get_after` what they are
  after a run.
* `suppressed_iff` says which messages are left out for the right reason.  The
  value of IPv4 is compared with both families.
-/

namespace OpxNasLinux.IpNetconf

open NlMsg (Memory)
open Netlink
open Rta.Netconf (ncmFamily Vars start cursor body)
open Run (run run_nil)

/-! ## The code -/

/-- `is_global_ipv4_fwd_enable` and `is_global_ipv6_fwd_enable`. -/
structure Globals where
  ipv4 : Bool
  ipv6 : Bool

/-- What the loop leaves, `none` where the function returns before it. -/
inductive Leaves (vrfName : Option Str) (mem : Memory) : Option Vars → Prop where
  | early : start vrfName mem = none → Leaves vrfName mem none
  | loop {v v' : Vars} : start vrfName mem = some v → body.Leaves mem (cursor mem, v) v' →
      Leaves vrfName mem (some v')

/-- A message that the function is called with.  The names of the interfaces are
those at that time. -/
structure Msg where
  env : Rta.Neigh.Env
  vrfId : BitVec 32
  mem : Memory
  left : Option Vars
  leaves : Leaves (env.vrfName vrfId) mem left

/-- `ncm_family`. -/
def Msg.family (m : Msg) : UInt8 := ncmFamily m.mem

/-- The object that is published. -/
structure Obj where
  family : UInt8
  vrfName : Str
  ifIndex : BitVec 32
  forward : BitVec 32

/-- A `bool` as an `int`. -/
def boolInt (b : Bool) : BitVec 32 := if b then 1 else 0

/-- The branch for all interfaces.  `none` is a duplicate. -/
def updateGlobal (g : Globals) (family : UInt8) (forward : BitVec 32) : Option Globals :=
  if family = afInet then
    if boolInt g.ipv4 = forward then none else some { g with ipv4 := forward != 0 }
  else if family = afInet6 then
    if boolInt g.ipv6 = forward then none else some { g with ipv6 := forward != 0 }
  else some g

/-- The test in the branch for one interface. -/
def sameAsGlobal (g : Globals) (forward : BitVec 32) : Bool :=
  (g.ipv4 && forward != 0) || (g.ipv4 == false && forward == 0)

/-- A sub interface or a reserved one. -/
def ignoredIntf (env : Rta.Neigh.Env) (ifIndex : BitVec 32) : Bool :=
  (env.osName ifIndex).any fun name => name.contains '.' || Rta.Neigh.nasRtIsReservedIntf env name

/-- `nl_get_ip_netconf_info`.  `none` is `return false`. -/
def nlGetIpNetconfInfo (g : Globals) (m : Msg) : Globals × Option Obj :=
  match m.left with
  | none => (g, none)
  | some v =>
    let obj : Obj := ⟨m.family, v.vrfName, v.ifIndex, v.forward⟩
    if v.isIfIndexSet = false ∨ v.isFwdSet = false then (g, none)
    else if v.ifIndex = 0 then
      match updateGlobal g m.family v.forward with
      | none => (g, none)
      | some g' => (g', some obj)
    else if sameAsGlobal g v.forward then (g, none)
    else if ignoredIntf m.env v.ifIndex then (g, none)
    else (g, some obj)

/-- The values after the messages. -/
def after (hist : List Msg) : Globals :=
  run (fun g m => (nlGetIpNetconfInfo g m).1) ⟨true, true⟩ hist

/-! ## What it has to do -/

/-- The value for all interfaces in a message of the family. -/
def Msg.globalValue (m : Msg) (family : UInt8) : Option (BitVec 32) :=
  m.left.bind fun v =>
    if m.family = family ∧ v.isIfIndexSet = true ∧ v.isFwdSet = true ∧ v.ifIndex = 0 then
      some v.forward
    else none

/-- The last value for all interfaces.  Forwarding is on at first. -/
def lastGlobal (family : UInt8) (hist : List Msg) : BitVec 32 :=
  hist.foldl (fun value m => (m.globalValue family).getD value) 1

/-- The message is about one interface, which is not ignored. -/
structure PerIntf (m : Msg) (v : Vars) : Prop where
  left : m.left = some v
  isIfIndexSet : v.isIfIndexSet = true
  isFwdSet : v.isFwdSet = true
  ifIndex : v.ifIndex ≠ 0
  name : ignoredIntf m.env v.ifIndex = false

/-! ## Runs -/

def Globals.get (g : Globals) (family : UInt8) : Bool := if family = afInet then g.ipv4 else g.ipv6

theorem updateGlobal_none {g : Globals} {family : UInt8} {forward : BitVec 32}
    (h : updateGlobal g family forward = none) : (forward != 0) = g.get family := by
  have hint : ∀ b, boolInt b = forward → (forward != 0) = b := by
    rintro b rfl
    cases b <;> rfl
  unfold updateGlobal at h
  unfold Globals.get
  split_ifs at h ⊢ with hv4 hdup hv6 hdup
  · exact hint _ hdup
  · exact hint _ hdup

theorem updateGlobal_some {g g' : Globals} {family : UInt8} {forward : BitVec 32}
    (hfamily : family = afInet ∨ family = afInet6) (h : updateGlobal g family forward = some g') :
    (∀ other, other = afInet ∨ other = afInet6 →
      g'.get other = if family = other then forward != 0 else g.get other) := by
  have hne : (afInet6 : UInt8) ≠ afInet := by decide
  unfold updateGlobal at h
  rintro other (rfl | rfl)
  · obtain rfl | rfl := hfamily
    · rw [if_pos rfl] at h
      split_ifs at h with hdup
      obtain rfl := Option.some.inj h
      simp [Globals.get]
    · rw [if_neg hne, if_pos rfl] at h
      split_ifs at h with hdup
      obtain rfl := Option.some.inj h
      simp [Globals.get, hne]
  · obtain rfl | rfl := hfamily
    · rw [if_pos rfl] at h
      split_ifs at h with hdup
      obtain rfl := Option.some.inj h
      simp [Globals.get, hne, hne.symm]
    · rw [if_neg hne, if_pos rfl] at h
      split_ifs at h with hdup
      obtain rfl := Option.some.inj h
      simp [Globals.get, hne]

/-- A message that comes to the loop is of one of the two families. -/
theorem family_of_left {m : Msg} {v : Vars} (h : m.left = some v) :
    m.family = afInet ∨ m.family = afInet6 := by
  have hleaves := m.leaves
  rw [h] at hleaves
  cases hleaves with
  | loop hstart _ =>
    unfold start at hstart
    split_ifs at hstart with hother
    unfold Msg.family
    tauto

/-- What a message does to the value of a family. -/
theorem get_step (g : Globals) (m : Msg) {family : UInt8}
    (h : family = afInet ∨ family = afInet6) :
    (nlGetIpNetconfInfo g m).1.get family =
      ((m.globalValue family).map (· != 0)).getD (g.get family) := by
  unfold nlGetIpNetconfInfo Msg.globalValue
  cases hleft : m.left with
  | none => rfl
  | some v =>
    have hfamily := family_of_left hleft
    dsimp only [Option.bind_some]
    by_cases hset : v.isIfIndexSet = false ∨ v.isFwdSet = false
    · have hunset : ¬ (m.family = family ∧ v.isIfIndexSet = true ∧ v.isFwdSet = true ∧
          v.ifIndex = 0) := by
        rintro ⟨-, hindex, hfwd, -⟩
        simp [hindex, hfwd] at hset
      rw [if_pos hset, if_neg hunset]
      rfl
    rw [if_neg hset]
    rw [not_or, Bool.not_eq_false, Bool.not_eq_false] at hset
    by_cases hglobal : v.ifIndex = 0
    · rw [if_pos hglobal]
      cases hupdate : updateGlobal g m.family v.forward with
      | none =>
        by_cases hsame : m.family = family
        · rw [if_pos ⟨hsame, hset.1, hset.2, hglobal⟩]
          subst hsame
          exact (updateGlobal_none hupdate).symm
        · rw [if_neg fun hall => hsame hall.1]
          rfl
      | some g' =>
        have hget := updateGlobal_some hfamily hupdate family h
        by_cases hsame : m.family = family
        · rw [if_pos ⟨hsame, hset.1, hset.2, hglobal⟩]
          rw [if_pos hsame] at hget
          exact hget
        · rw [if_neg fun hall => hsame hall.1]
          rw [if_neg hsame] at hget
          exact hget
    · have hone : ¬ (m.family = family ∧ v.isIfIndexSet = true ∧ v.isFwdSet = true ∧
          v.ifIndex = 0) := fun hall => hglobal hall.2.2.2
      rw [if_neg hglobal, if_neg hone]
      split_ifs
      · rfl
      · rfl
      · rfl

/-- The values are the last ones for all interfaces, on or off. -/
theorem get_after (hist : List Msg) {family : UInt8} (h : family = afInet ∨ family = afInet6) :
    (after hist).get family = (lastGlobal family hist != 0) := by
  induction hist using List.reverseRecOn with
  | nil => obtain rfl | rfl := h <;> rfl
  | append_singleton hist m ih =>
    unfold after run lastGlobal at ih ⊢
    rw [List.foldl_append, List.foldl_append]
    show (nlGetIpNetconfInfo _ m).1.get family = ((m.globalValue family).getD _ != 0)
    rw [get_step _ m h, ih]
    cases m.globalValue family with
    | none => rfl
    | some value => rfl

/-- A message about one interface is left out for the value of IPv4. -/
theorem suppressed_of_perIntf (g : Globals) {m : Msg} {v : Vars} (h : PerIntf m v) :
    (nlGetIpNetconfInfo g m).2 = none ↔ (g.ipv4 = true ↔ v.forward ≠ 0) := by
  obtain ⟨hleft, hindex, hfwd, hone, hname⟩ := h
  unfold nlGetIpNetconfInfo
  rw [hleft]
  dsimp only
  rw [if_neg (by simp [hindex, hfwd]), if_neg hone]
  have hsame : sameAsGlobal g v.forward = true ↔ (g.ipv4 = true ↔ v.forward ≠ 0) := by
    unfold sameAsGlobal
    cases g.ipv4 with
    | true => simp
    | false => simp
  rw [← hsame, hname]
  cases sameAsGlobal g v.forward with
  | true => simp
  | false => simp

/-- The messages for one interface, after any other messages, that are left out
exactly when they have the last value of their family. -/
theorem suppressed_iff (hist : List Msg) {m : Msg} {v : Vars} (h : PerIntf m v) :
    ((nlGetIpNetconfInfo (after hist) m).2 = none ↔ v.forward = lastGlobal m.family hist) ↔
      ((lastGlobal afInet hist ≠ 0 ↔ lastGlobal m.family hist ≠ 0) ↔
        (v.forward ≠ 0 → lastGlobal m.family hist ≠ 0 →
          v.forward = lastGlobal m.family hist)) := by
  have hipv4 : (after hist).ipv4 = true ↔ lastGlobal afInet hist ≠ 0 := by
    have hget : (after hist).ipv4 = (lastGlobal afInet hist != 0) := get_after hist (.inl rfl)
    rw [hget, bne_iff_ne]
  rw [suppressed_of_perIntf _ h, hipv4]
  generalize lastGlobal m.family hist = value
  have hsame : v.forward = value → (v.forward ≠ 0 ↔ value ≠ 0) := fun heq => by rw [heq]
  have hzero : ¬ v.forward ≠ 0 → ¬ value ≠ 0 → v.forward = value := fun hoff hvalue =>
    (not_not.mp hoff).trans (not_not.mp hvalue).symm
  generalize (v.forward ≠ 0) = on at hsame hzero ⊢
  generalize (value ≠ 0) = lastOn at hsame hzero ⊢
  by_cases hon : on
  · by_cases hlast : lastOn
    · simp [hon, hlast]
    · have hdiff : v.forward ≠ value := fun heq => hlast ((hsame heq).mp hon)
      simp [hon, hlast, hdiff]
  · by_cases hlast : lastOn
    · have hdiff : v.forward ≠ value := fun heq => hon ((hsame heq).mpr hlast)
      simp [hon, hlast, hdiff]
    · simp [hon, hlast, hzero hon hlast]

/-! ## An example -/

/-- A message with the two attributes. -/
def twoAttrs (family : UInt8) (ifIndex forward : BitVec 32) : Memory := fun p =>
  if p = 0 then 36
  else if p = 16 then family
  else if p = 20 ∨ p = 28 then 8
  else if p = 22 then 1
  else if p = 30 then 2
  else if 24 ≤ p ∧ p < 28 then ⟨ifIndex.extractLsb' (8 * (p - 24).toNat) 8⟩
  else if 32 ≤ p ∧ p < 36 then ⟨forward.extractLsb' (8 * (p - 32).toNat) 8⟩
  else 0

/-- The variables before the loop. -/
def noVars : Vars := ⟨[], 0, 0, false, false⟩

/-- The variables after two turns. -/
def twoTurns (mem : Memory) : Vars := (body.next mem (body.next mem (cursor mem, noVars))).2

theorem leaves_twoTurns {mem : Memory} (hstart : start (some []) mem = some noVars)
    (hfirst : Rta.ok mem (cursor mem, noVars) = true)
    (hsecond : Rta.ok mem (body.next mem (cursor mem, noVars)) = true)
    (hend : Rta.ok mem (body.next mem (body.next mem (cursor mem, noVars))) = false) :
    Leaves (some []) mem (some (twoTurns mem)) :=
  .loop hstart ⟨_, (Loop.Tests.start.again hfirst).again hsecond, hend⟩

/-- Forwarding is switched off for IPv4. -/
def ipv4Off : Msg where
  env := Rta.plainEnv
  vrfId := 0
  mem := twoAttrs afInet (-1) 0
  left := some (twoTurns (twoAttrs afInet (-1) 0))
  leaves := leaves_twoTurns rfl (by decide +kernel) (by decide +kernel) (by decide +kernel)

/-- It is off for an interface. -/
def oneOff (family : UInt8) (h : family = afInet ∨ family = afInet6) : Msg where
  env := Rta.plainEnv
  vrfId := 0
  mem := twoAttrs family 3 0
  left := some (twoTurns (twoAttrs family 3 0))
  leaves := by
    obtain rfl | rfl := h
    · exact leaves_twoTurns rfl (by decide +kernel) (by decide +kernel) (by decide +kernel)
    · exact leaves_twoTurns rfl (by decide +kernel) (by decide +kernel) (by decide +kernel)

theorem oneOff_perIntf (family : UInt8) (h : family = afInet ∨ family = afInet6) :
    PerIntf (oneOff family h) (twoTurns (twoAttrs family 3 0)) := by
  obtain rfl | rfl := h
  · exact ⟨rfl, by decide +kernel, by decide +kernel, by decide +kernel, by decide +kernel⟩
  · exact ⟨rfl, by decide +kernel, by decide +kernel, by decide +kernel, by decide +kernel⟩

/-- An IPv4 interface is compared with the value for IPv4. -/
theorem oneOff_suppressed :
    (nlGetIpNetconfInfo (after [ipv4Off]) (oneOff afInet (.inl rfl))).2 = none ↔
      (twoTurns (twoAttrs afInet 3 0)).forward = lastGlobal afInet [ipv4Off] :=
  (suppressed_iff [ipv4Off] (oneOff_perIntf afInet (.inl rfl))).mpr (by decide +kernel)

/-- An IPv6 interface is too: its message is left out while forwarding is on for
IPv6. -/
theorem oneOff_ipv6_lost :
    ¬ ∀ (hist : List Msg) (m : Msg) (v : Vars), PerIntf m v →
      ((nlGetIpNetconfInfo (after hist) m).2 = none ↔
        v.forward = lastGlobal m.family hist) := by
  intro h
  have hm := oneOff_perIntf afInet6 (.inr rfl)
  have hlost : (nlGetIpNetconfInfo (after [ipv4Off]) (oneOff afInet6 (.inr rfl))).2 = none := by
    rw [suppressed_of_perIntf _ hm]
    decide +kernel
  have hequal := (h [ipv4Off] _ _ hm).mp hlost
  exact absurd hequal (by decide +kernel)

end OpxNasLinux.IpNetconf
