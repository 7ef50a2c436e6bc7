import OpxNasLinux.IfAccess
import OpxNasLinux.Lib.Oblivious

/-!
# What was left on the stack

`os_interface_to_object` sets the MTU, the MAC address and the master of its
record from attributes, and leaves them alone when the message lacks the
attribute.  The record goes into the cache as it is.

* `StackHidden` is the exact condition under which a message leads to the same
  whatever is on the stack.
* `full_free_iff` is one message.
* `same_whatever_stack_iff` is a run.
-/

namespace OpxNasLinux.IfObject

open Oblivious

/-! ## The condition -/

/-- The update of a known interface that is then taken out reports the same
changes.  A new master sets the bit of the MAC address as well, and a new
administrative state and a new MAC address together set the bits of the
master. -/
structure ReportsSame (m : LinkMsg) (old : IfRecord) : Prop where
  mtu : m.mtu.isSome = true
  address : m.address.isSome = true ∨ m.master ≠ none ∧ m.master ≠ some old.masterIdx
  master : m.master.isSome = true ∨ old.admin ≠ m.up ∧ m.address ≠ none ∧
    m.address ≠ some IfTables.zeroMac ∧ m.address ≠ some old.phyAddr

/-- Nothing of the stack shows.  A message that does not reach the cache is free
of it; one that does carries the three attributes, or it takes its interface out
of the cache again and reports the same changes. -/
def StackHidden (t : IfTables) (i : FullInput) : Prop :=
  reachesCache t.db (i.1.toLinkMsg, i.2) = true → ¬ Unguarded t i →
    match t.ifMap.lookup i.1.ifindex with
    | none => takesOut t.db (i.1.toLinkMsg, i.2) = true ∨ Carried i.1.toLinkMsg
    | some old =>
      if takesOut t.db (i.1.toLinkMsg, i.2) then ReportsSame i.1.toLinkMsg old
      else Carried i.1.toLinkMsg

/-! ## The changes that are reported -/

/-- The changes from what changed. -/
def changeBits (admin oper mtu master phy : Bool) : IfChange :=
  (if admin then osIfAdmChange else osIfChangeNone) |||
  (if oper then osIfOperChange else osIfChangeNone) |||
  (if mtu then osIfMtuChange else osIfChangeNone) |||
  (if master then osIfMasterChange else osIfChangeNone) |||
  (if phy then osIfPhyChange else osIfChangeNone)

theorem trackChange_eq (old r : IfRecord) :
    IfTables.trackChange old r =
      changeBits (decide (old.admin ≠ r.admin)) (decide (old.oper ≠ r.oper))
        (decide (old.mtu ≠ r.mtu)) (decide (old.masterIdx ≠ r.masterIdx))
        (decide (r.phyAddr ≠ IfTables.zeroMac ∧ old.phyAddr ≠ r.phyAddr)) := by
  have hflip : ∀ (p : Prop) [Decidable p] (c : IfChange),
      (if p then osIfChangeNone else c) = if decide (¬ p) then c else osIfChangeNone := by
    intro p hp c
    by_cases h : p <;> simp [h]
  rw [IfTables.trackChange, changeBits, hflip, hflip, hflip, hflip, hflip]
  simp only [ne_eq, not_or]

theorem changeBits_mtu {a o s p : Bool} :
    changeBits a o true s p ≠ changeBits a o false s p := by
  revert a o s p
  decide

theorem changeBits_master {a o u p : Bool} :
    changeBits a o u true p = changeBits a o u false p ↔ a = true ∧ p = true := by
  revert a o u p
  decide

theorem changeBits_phy {a o u s : Bool} :
    changeBits a o u s true = changeBits a o u s false ↔ s = true := by
  revert a o u s
  decide

/-- The bits of the master come from the other two. -/
theorem changeBits_any_master {o u s s' : Bool} :
    changeBits true o u s true = changeBits true o u s' true := by
  revert o u s s'
  decide

theorem changeBits_any_phy {a o u p p' : Bool} :
    changeBits a o u true p = changeBits a o u true p' := by
  revert a o u p p'
  decide

theorem changeBits_both {a o u : Bool} :
    changeBits a o u true true ≠ changeBits a o u false false := by
  revert a o u
  decide

/-- The stack may hold a MAC address that counts as a change. -/
theorem exists_phy (phyAddr : List UInt8) :
    ∃ phy : Fin 6 → UInt8, List.ofFn phy ≠ IfTables.zeroMac ∧ phyAddr ≠ List.ofFn phy := by
  by_cases h : phyAddr = List.ofFn fun _ : Fin 6 => 1
  · exact ⟨fun _ => 2, by decide, h ▸ by decide⟩
  · exact ⟨fun _ => 1, by decide, h⟩

section

variable {m : LinkMsg} {old : IfRecord}

/-- The MTU, the master and the MAC address change. -/
def mtuChanges (m : LinkMsg) (old : IfRecord) (fill : StackFill) : Bool :=
  decide (old.mtu ≠ m.mtu.getD fill.mtu)

def masterChanges (m : LinkMsg) (old : IfRecord) (fill : StackFill) : Bool :=
  decide (old.masterIdx ≠ m.master.getD fill.masterIdx)

def phyChanges (m : LinkMsg) (old : IfRecord) (fill : StackFill) : Bool :=
  decide (m.address.getD (List.ofFn fill.phyAddr) ≠ IfTables.zeroMac ∧
    old.phyAddr ≠ m.address.getD (List.ofFn fill.phyAddr))

theorem trackChange_stack (m : LinkMsg) (old : IfRecord) (d : IfDetails) (fill : StackFill) :
    IfTables.trackChange old (stackRecord fill m d) =
      changeBits (decide (old.admin ≠ m.up)) (decide (old.oper ≠ m.running))
        (mtuChanges m old fill) (masterChanges m old fill) (phyChanges m old fill) :=
  trackChange_eq old (stackRecord fill m d)

/-- The stack decides every change whose attribute is absent. -/
theorem exists_fills (m : LinkMsg) (old : IfRecord) :
    ∃ (mtuOf : Bool → ℤ) (phyOf : Bool → Fin 6 → UInt8) (masterOf : Bool → IfIndex),
      (m.mtu = none → ∀ u phy master, mtuChanges m old ⟨mtuOf u, phy, master⟩ = u) ∧
      (m.address = none → ∀ p mtu master, phyChanges m old ⟨mtu, phyOf p, master⟩ = p) ∧
      (m.master = none → ∀ s mtu phy, masterChanges m old ⟨mtu, phy, masterOf s⟩ = s) := by
  obtain ⟨phyAddr, hzero, hold⟩ := exists_phy old.phyAddr
  have hzeros : List.ofFn (fun _ : Fin 6 => (0 : UInt8)) = IfTables.zeroMac := by decide
  have hmtu : old.mtu ≠ old.mtu + 1 := by omega
  have hmaster : old.masterIdx ≠ old.masterIdx + 1 := (Int.lt_succ old.masterIdx).ne
  refine ⟨fun u => if u then old.mtu + 1 else old.mtu, fun p => if p then phyAddr else fun _ => 0,
    fun s => if s then old.masterIdx + 1 else old.masterIdx, fun hno u phy master => ?_,
    fun hno p mtu master => ?_, fun hno s mtu phy => ?_⟩
  · rw [mtuChanges, hno]
    cases u with
    | true => exact decide_eq_true hmtu
    | false => exact decide_eq_false (not_not.mpr rfl)
  · rw [phyChanges, hno]
    cases p with
    | true => exact decide_eq_true ⟨hzero, hold⟩
    | false => exact decide_eq_false fun h => h.1 hzeros
  · rw [masterChanges, hno]
    cases s with
    | true => exact decide_eq_true hmaster
    | false => exact decide_eq_false (not_not.mpr rfl)

/-- A change whose attribute is there does not depend on the stack. -/
theorem mtuChanges_congr (h : m.mtu.isSome = true) (fill fill' : StackFill) :
    mtuChanges m old fill = mtuChanges m old fill' := by
  obtain ⟨mtu, h⟩ := Option.isSome_iff_exists.mp h
  rw [mtuChanges, mtuChanges, h]
  rfl

theorem masterChanges_congr (h : m.master.isSome = true) (fill fill' : StackFill) :
    masterChanges m old fill = masterChanges m old fill' := by
  obtain ⟨masterIdx, h⟩ := Option.isSome_iff_exists.mp h
  rw [masterChanges, masterChanges, h]
  rfl

theorem phyChanges_congr (h : m.address.isSome = true) (fill fill' : StackFill) :
    phyChanges m old fill = phyChanges m old fill' := by
  obtain ⟨address, h⟩ := Option.isSome_iff_exists.mp h
  rw [phyChanges, phyChanges, h]
  rfl

theorem masterChanges_iff (h : m.master.isSome = true) (fill : StackFill) :
    masterChanges m old fill = true ↔ m.master ≠ none ∧ m.master ≠ some old.masterIdx := by
  obtain ⟨masterIdx, h⟩ := Option.isSome_iff_exists.mp h
  rw [masterChanges, decide_eq_true_iff, h]
  simp [eq_comm]

theorem phyChanges_iff (h : m.address.isSome = true) (fill : StackFill) :
    phyChanges m old fill = true ↔ m.address ≠ none ∧ m.address ≠ some IfTables.zeroMac ∧
      m.address ≠ some old.phyAddr := by
  obtain ⟨address, h⟩ := Option.isSome_iff_exists.mp h
  rw [phyChanges, decide_eq_true_iff, h]
  simp [eq_comm]

/-- The update reports the same changes whatever is on the stack. -/
theorem reportsSame_iff (m : LinkMsg) (d : IfDetails) (old : IfRecord) :
    (∀ fill fill', IfTables.trackChange old (stackRecord fill m d) =
      IfTables.trackChange old (stackRecord fill' m d)) ↔ ReportsSame m old := by
  simp only [trackChange_stack]
  constructor
  · intro h
    obtain ⟨mtuOf, phyOf, masterOf, hmtu, hphy, hmaster⟩ := exists_fills m old
    have haddress : m.address.isSome = true ∨ m.master ≠ none ∧ m.master ≠ some old.masterIdx := by
      by_contra hnot
      obtain ⟨hno, hsame⟩ := not_or.mp hnot
      have hno : m.address = none := Option.not_isSome_iff_eq_none.mp hno
      by_cases hm : m.master = none
      · have hboth := h ⟨0, phyOf true, masterOf true⟩ ⟨0, phyOf false, masterOf false⟩
        rw [hphy hno, hphy hno, hmaster hm, hmaster hm] at hboth
        exact changeBits_both hboth
      · have hone := h ⟨0, phyOf true, 0⟩ ⟨0, phyOf false, 0⟩
        rw [hphy hno, hphy hno] at hone
        exact hsame ((masterChanges_iff (Option.isSome_iff_ne_none.mpr hm) _).mp
          (changeBits_phy.mp hone))
    refine ⟨?_, haddress, ?_⟩
    · refine Option.isSome_iff_ne_none.mpr fun hno => ?_
      have hone := h ⟨mtuOf true, phyOf true, 0⟩ ⟨mtuOf false, phyOf true, 0⟩
      rw [hmtu hno, hmtu hno] at hone
      exact changeBits_mtu hone
    · by_cases hno : m.master = none
      swap
      · exact Or.inl (Option.isSome_iff_ne_none.mpr hno)
      have hone := h ⟨0, phyOf true, masterOf true⟩ ⟨0, phyOf true, masterOf false⟩
      rw [hmaster hno, hmaster hno] at hone
      obtain ⟨hadmin, hphyBit⟩ := changeBits_master.mp hone
      have hsome := haddress.resolve_right fun h => h.1 hno
      exact Or.inr ⟨of_decide_eq_true hadmin, (phyChanges_iff hsome _).mp hphyBit⟩
  · intro h fill fill'
    rw [mtuChanges_congr h.mtu fill fill']
    rcases h.address with haddress | hmaster
    · rw [phyChanges_congr haddress fill fill']
      rcases h.master with hmaster | ⟨hadmin, hphyBit⟩
      · rw [masterChanges_congr hmaster fill fill']
      · rw [(phyChanges_iff haddress fill').mpr hphyBit, decide_eq_true hadmin]
        exact changeBits_any_master
    · have hsome : m.master.isSome = true := Option.isSome_iff_ne_none.mpr hmaster.1
      rw [(masterChanges_iff hsome fill).mpr hmaster, (masterChanges_iff hsome fill').mpr hmaster]
      exact changeBits_any_phy

end

/-! ## The update -/

section

variable {m : LinkMsg} {op : IfOp} {d : IfDetails} {t : IfTables}

theorem Carried.stack (h : Carried m) (fill fill' : StackFill) (d : IfDetails) :
    stackRecord fill m d = stackRecord fill' m d := by
  obtain ⟨mtu, hmtu⟩ := Option.isSome_iff_exists.mp h.mtu
  obtain ⟨address, haddress⟩ := Option.isSome_iff_exists.mp h.address
  obtain ⟨masterIdx, hmaster⟩ := Option.isSome_iff_exists.mp h.master
  rw [stackRecord, stackRecord, hmtu, haddress, hmaster]
  rfl

/-- What is in the cache behind an update. -/
theorem ifInfoUpdate_lookup (ix : IfIndex) (r : IfRecord) (t : IfTables) :
    ∃ r', (t.ifInfoUpdate ix r).2.ifMap.lookup ix = some r' ∧ r'.mtu = r.mtu ∧
      r'.phyAddr = r.phyAddr ∧ r'.masterIdx = r.masterIdx := by
  rw [IfTables.ifInfoUpdate]
  split
  · exact ⟨_, AList.lookup_insert _, rfl, rfl, rfl⟩
  · exact ⟨_, AList.lookup_insert _, rfl, rfl, rfl⟩

/-- An interface that is taken out leaves nothing of its last update. -/
theorem ifInfoDelete_update (ix : IfIndex) {r r' : IfRecord} (hname : r.ifName = r'.ifName)
    (name : Str) (t : IfTables) :
    (t.ifInfoUpdate ix r).2.ifInfoDelete ix name =
      (t.ifInfoUpdate ix r').2.ifInfoDelete ix name := by
  rw [IfTables.ifInfoUpdate, IfTables.ifInfoUpdate]
  cases t.ifMap.lookup ix with
  | none =>
    rw [IfTables.ifInfoDelete, IfTables.ifInfoDelete]
    dsimp only
    rw [hname, Dict.erase_insert, Dict.erase_insert]
  | some old =>
    rw [IfTables.ifInfoDelete, IfTables.ifInfoDelete]
    dsimp only
    rw [Dict.erase_insert, Dict.erase_insert]

/-- The tables and the changes when nothing absent is read. -/
theorem updateTables_exists {fill : StackFill} (h : (updateTables fill m op d t).isOk = true) :
    ∃ t', updateTables fill m op d t =
        .ok (t', ⟨some (t.ifInfoUpdate m.ifindex (stackRecord fill m d)).1,
          linkPublish m d (t.ifInfoUpdate m.ifindex (stackRecord fill m d)).1 t'⟩) ∧
      forgetLink m.ifindex op d (stackRecord fill m d)
        (t.ifInfoUpdate m.ifindex (stackRecord fill m d)).2 = .ok t' := by
  cases hupdate : updateTables fill m op d t with
  | error f =>
    rw [hupdate] at h
    cases h
  | ok r =>
    obtain ⟨t', seen⟩ := r
    obtain ⟨hforget, hseen⟩ := updateTables_ok hupdate
    rw [hseen]
    exact ⟨t', rfl, hforget⟩

/-- Two stacks lead to the same exactly when they lead to the same tables and
the same changes. -/
theorem updateTables_eq_iff {fill fill' : StackFill}
    (h : (updateTables fill m op d t).isOk = true)
    (h' : (updateTables fill' m op d t).isOk = true) :
    updateTables fill m op d t = updateTables fill' m op d t ↔
      forgetLink m.ifindex op d (stackRecord fill m d)
          (t.ifInfoUpdate m.ifindex (stackRecord fill m d)).2 =
        forgetLink m.ifindex op d (stackRecord fill' m d)
          (t.ifInfoUpdate m.ifindex (stackRecord fill' m d)).2 ∧
      (t.ifInfoUpdate m.ifindex (stackRecord fill m d)).1 =
        (t.ifInfoUpdate m.ifindex (stackRecord fill' m d)).1 := by
  obtain ⟨t1, hupdate, hforget⟩ := updateTables_exists h
  obtain ⟨t2, hupdate', hforget'⟩ := updateTables_exists h'
  rw [hupdate, hupdate', hforget, hforget']
  constructor
  · intro heq
    have heq := Except.ok.inj heq
    refine ⟨congrArg Except.ok (congrArg Prod.fst heq), ?_⟩
    exact Option.some.inj (congrArg (fun r : IfTables × LinkSeen => r.2.track) heq)
  · rintro ⟨htables, htrack⟩
    rw [Except.ok.inj htables, htrack]

/-- The record that an interface that stays has in the cache. -/
theorem stays_lookup (hstays : leavesCache op d = false) {fill : StackFill}
    (hok : (updateTables fill m op d t).isOk = true) :
    ∃ (t' : IfTables) (r : IfRecord),
      forgetLink m.ifindex op d (stackRecord fill m d)
        (t.ifInfoUpdate m.ifindex (stackRecord fill m d)).2 = .ok t' ∧
      t'.ifMap.lookup m.ifindex = some r ∧ r.mtu = m.mtu.getD fill.mtu ∧
      r.phyAddr = m.address.getD (List.ofFn fill.phyAddr) ∧
      (m.master = none → r.masterIdx = fill.masterIdx) := by
  obtain ⟨t', -, hforget⟩ := updateTables_exists hok
  have heq := forgetLink_eq hforget
  rw [hstays, if_neg Bool.false_ne_true] at heq
  split at heq
  · rename_i hmember
    obtain ⟨r, hr, hmtu, hphy, -⟩ := ifInfoUpdate_lookup m.ifindex
      { stackRecord fill m d with masterIdx := 0 }
      (t.ifInfoUpdate m.ifindex (stackRecord fill m d)).2
    refine ⟨t', r, hforget, heq ▸ hr, hmtu, hphy, fun hno => ?_⟩
    exact absurd ⟨hmember.2, hno⟩ ((updateTables_isOk fill m op d t).mp hok).2
  · obtain ⟨r, hr, hmtu, hphy, hmaster⟩ := ifInfoUpdate_lookup m.ifindex (stackRecord fill m d) t
    refine ⟨t', r, hforget, heq ▸ hr, hmtu, hphy, fun hno => ?_⟩
    rw [hmaster, stackRecord, hno]
    rfl

/-- An interface that stays shows every attribute that its message lacks: two
stacks that differ there lead to different tables. -/
theorem carried_of_stays (hstays : leavesCache op d = false)
    (hok : ∀ fill, (updateTables fill m op d t).isOk = true)
    (hsame : ∀ fill fill', updateTables fill m op d t = updateTables fill' m op d t) :
    Carried m := by
  let fill : StackFill := ⟨0, fun _ => 0, 0⟩
  let fill' : StackFill := ⟨1, fun _ => 1, 1⟩
  obtain ⟨t1, r, hforget, hr, hmtu, hphy, hmaster⟩ := stays_lookup hstays (hok fill)
  obtain ⟨t2, r', hforget', hr', hmtu', hphy', hmaster'⟩ := stays_lookup hstays (hok fill')
  have htables := ((updateTables_eq_iff (hok fill) (hok fill')).mp (hsame fill fill')).1
  rw [hforget, hforget'] at htables
  have hrecord : r' = r := Option.some.inj (hr'.symm.trans (Except.ok.inj htables ▸ hr))
  rw [hrecord] at hmtu' hphy' hmaster'
  refine ⟨?_, ?_, ?_⟩
  · refine Option.isSome_iff_ne_none.mpr fun hno => ?_
    have h := hmtu.symm.trans hmtu'
    rw [hno] at h
    cases h
  · refine Option.isSome_iff_ne_none.mpr fun hno => ?_
    have h := hphy.symm.trans hphy'
    rw [hno] at h
    exact absurd h (by decide)
  · refine Option.isSome_iff_ne_none.mpr fun hno => ?_
    exact absurd ((hmaster hno).symm.trans (hmaster' hno)) (by decide)

/-- When a message gets to the update, nothing of the stack shows exactly if it
carries the three attributes, or if the interface is taken out again and the
changes that are reported are the same. -/
theorem updateTables_free_iff (hok : ∀ fill, (updateTables fill m op d t).isOk = true) :
    (∀ fill fill', updateTables fill m op d t = updateTables fill' m op d t) ↔
      match t.ifMap.lookup m.ifindex with
      | none => leavesCache op d = true ∨ Carried m
      | some old => if leavesCache op d then ReportsSame m old else Carried m := by
  have hcarried : Carried m → ∀ fill fill',
      updateTables fill m op d t = updateTables fill' m op d t := by
    intro h fill fill'
    rw [updateTables, updateTables, h.stack fill fill' d]
  cases hleaves : leavesCache op d with
  | false =>
    have hiff : (∀ fill fill', updateTables fill m op d t = updateTables fill' m op d t) ↔
        Carried m := ⟨carried_of_stays hleaves hok, hcarried⟩
    rw [hiff]
    cases t.ifMap.lookup m.ifindex <;> simp
  | true =>
    -- the tables are the same, and only the changes can differ
    have htables : ∀ fill fill', forgetLink m.ifindex op d (stackRecord fill m d)
          (t.ifInfoUpdate m.ifindex (stackRecord fill m d)).2 =
        forgetLink m.ifindex op d (stackRecord fill' m d)
          (t.ifInfoUpdate m.ifindex (stackRecord fill' m d)).2 := by
      intro fill fill'
      obtain ⟨t1, -, hforget⟩ := updateTables_exists (hok fill)
      obtain ⟨t2, -, hforget'⟩ := updateTables_exists (hok fill')
      have heq := forgetLink_eq hforget
      have heq' := forgetLink_eq hforget'
      rw [hleaves, if_pos rfl] at heq heq'
      have hname : (stackRecord fill m d).ifName = (stackRecord fill' m d).ifName := rfl
      rw [hforget, hforget', heq, heq', ifInfoDelete_update m.ifindex hname]
    have hiff : (∀ fill fill', updateTables fill m op d t = updateTables fill' m op d t) ↔
        ∀ fill fill', (t.ifInfoUpdate m.ifindex (stackRecord fill m d)).1 =
          (t.ifInfoUpdate m.ifindex (stackRecord fill' m d)).1 := by
      refine forall_congr' fun fill => forall_congr' fun fill' => ?_
      rw [updateTables_eq_iff (hok fill) (hok fill')]
      exact and_iff_right (htables fill fill')
    rw [hiff]
    simp only [IfTables.ifInfoUpdate]
    cases t.ifMap.lookup m.ifindex with
    | none => simp
    | some old =>
      dsimp only
      rw [if_pos trivial]
      exact reportsSame_iff m d old

end

/-! ## A message -/

/-- Nothing of the stack decides where an absent attribute is read. -/
theorem updateTables_fault {fill : StackFill} {m : LinkMsg} {op : IfOp} {d : IfDetails}
    {t : IfTables} (h : (updateTables fill m op d t).isOk ≠ true) :
    updateTables fill m op d t =
      .error (if op = .delete ∧ d.type = .lag ∧ d.infoKind = none then .nullKind
        else .absentData) := by
  rw [ne_eq, updateTables_isOk] at h
  by_cases hbond : op = .delete ∧ d.type = .lag ∧ d.infoKind = none
  · have hforget : ∀ r t1, forgetLink m.ifindex op d r t1 = .error .nullKind := by
      intro r t1
      rw [forgetLink, strncmpKind, hbond.1, hbond.2.1, hbond.2.2]
      rfl
    rw [updateTables, hforget, if_pos hbond]
  · have hforget := (forgetLink_isOk m.ifindex op d (stackRecord fill m d)
      (t.ifInfoUpdate m.ifindex (stackRecord fill m d)).2).mpr hbond
    obtain ⟨htype, hmaster⟩ := not_not.mp fun hno => h ⟨hbond, hno⟩
    rw [updateTables, if_neg hbond, hmaster]
    revert hforget
    cases forgetLink m.ifindex op d (stackRecord fill m d)
      (t.ifInfoUpdate m.ifindex (stackRecord fill m d)).2 with
    | error f => exact fun hno => by cases hno
    | ok t1 =>
      intro
      dsimp only
      rw [if_pos (Or.inl htype)]
      rfl

/-- The mask of a new member goes, and the rest of its record stays. -/
theorem lagUnmask_lookup (d : IfDetails) (t : IfTables) (ix : IfIndex) :
    ∃ mask : IfChange → IfChange, (lagUnmask d t).ifMap.lookup ix =
      (t.ifMap.lookup ix).map fun r => { r with evMask := mask r.evMask } := by
  rw [lagUnmask]
  split
  · rw [IfTables.setmask_lookup]
    by_cases hix : ix = d.ifindex
    · exact ⟨fun _ => osIfChangeNone, by simp [hix]⟩
    · exact ⟨id, by simp [hix]⟩
  · refine ⟨id, ?_⟩
    cases t.ifMap.lookup ix <;> rfl

/-- A message leads to the same whatever is on the stack under `StackHidden`,
and only then. -/
theorem full_free_iff (t : IfTables) (i : FullInput) :
    Free osInterfaceToObjectFull t i ↔ StackHidden t i := by
  obtain ⟨x, a⟩ := i
  have hok := fun fill => isOk_iff fill t (x, a)
  rw [StackHidden]
  simp only [Free, osInterfaceToObjectFull_eq] at hok ⊢
  cases hvlan : vlanReads x (linkDetails x.toLinkMsg t.db.cache) with
  | error f =>
    rw [hvlan] at hok
    refine iff_of_true (fun _ _ => rfl) fun _ hno => ?_
    cases (hok zeroFill).mpr hno
  | ok u =>
    cases hvxlan : vxlanReads x (linkDetails x.toLinkMsg t.db.cache) with
    | error f =>
      rw [hvlan, hvxlan] at hok
      refine iff_of_true (fun _ _ => rfl) fun _ hno => ?_
      cases (hok zeroFill).mpr hno
    | ok u =>
      rw [hvlan, hvxlan] at hok
      dsimp only at hok ⊢
      by_cases hreach : reachesCache t.db (x.toLinkMsg, a) = true
      swap
      · refine iff_of_true (fun fill fill' => ?_) fun h => absurd h hreach
        rw [if_neg hreach, if_neg hreach]
      simp only [if_pos hreach] at hok ⊢
      by_cases hun : Unguarded t (x, a)
      · refine iff_of_true (fun fill fill' => ?_) fun _ h => absurd hun h
        rw [updateTables_fault fun h => (hok fill).mp h hun,
          updateTables_fault fun h => (hok fill').mp h hun]
      have haccepts := (Bool.and_eq_true_iff.mp hreach).2
      have hleaves : leavesCache (linkOp x.toLinkMsg t.db.cache)
          (ifHdlr a handlers (linkDetails x.toLinkMsg t.db.cache) t.db).2.1 =
            takesOut t.db (x.toLinkMsg, a) := by
        simpa only [linkOp_delete_iff, takesOut] using leavesCache_eq haccepts
      obtain ⟨mask, hlookup⟩ :=
        lagUnmask_lookup (linkDetails x.toLinkMsg t.db.cache) t x.ifindex
      rw [updateTables_free_iff fun fill => (hok fill).mpr hun, hleaves]
      have hbehind : ((lagUnmask (linkDetails x.toLinkMsg t.db.cache) t).withMembers
          (ifHdlr a handlers (linkDetails x.toLinkMsg t.db.cache) t.db).2.2).ifMap =
            (lagUnmask (linkDetails x.toLinkMsg t.db.cache) t).ifMap := rfl
      have hguards : ∀ p : Prop, (reachesCache t.db (x.toLinkMsg, a) = true →
          ¬ Unguarded t (x, a) → p) ↔ p := fun p => ⟨fun h => h hreach hun, fun h _ _ => h⟩
      rw [hbehind, hlookup, hguards]
      cases t.ifMap.lookup x.ifindex with
      | none => exact Iff.rfl
      | some old =>
        have hmask : ReportsSame x.toLinkMsg { old with evMask := mask old.evMask } ↔
            ReportsSame x.toLinkMsg old :=
          ⟨fun h => ⟨h.mtu, h.address, h.master⟩, fun h => ⟨h.mtu, h.address, h.master⟩⟩
        dsimp only [Option.map_some]
        rw [hmask]

/-- The tables, the changes and the decisions to publish of a run are the same
whatever is on the stack if no step shows anything of it, and only then. -/
theorem same_whatever_stack_iff (t : IfTables) (inputs : List FullInput) :
    (∀ fills fills' : ℕ → StackFill, trace osInterfaceToObjectFull fills t inputs =
        trace osInterfaceToObjectFull fills' t inputs) ↔
      AlongAny osInterfaceToObjectFull StackHidden t inputs :=
  trace_eq_iff full_free_iff t inputs

/-- A port that is in no bridge and no bond, with its MTU and its MAC address. -/
def alonePort : FullInput :=
  (⟨{ sampleLink .newLink 5 "e101" (some "tun") none with
      mtu := some 1500, address := some [0, 1, 2, 3, 4, 5] }, none, none⟩, sampleAnswers)

/-- Its message has no master, and the cache takes the one that is on the
stack. -/
theorem alone_port_has_master :
    ¬ ∀ (t : IfTables) (inputs : List FullInput) (fills fills' : ℕ → StackFill),
      trace osInterfaceToObjectFull fills t inputs =
        trace osInterfaceToObjectFull fills' t inputs := by
  intro h
  have hsame := h IfTables.empty [alonePort] (fun _ => ⟨0, fun _ => 0, 0⟩)
    fun _ => ⟨0, fun _ => 0, 9⟩
  have hmaster := congrArg (List.map fun r => r.toOption.bind fun shown =>
    (shown.1.ifMap.lookup 5).map IfRecord.masterIdx) hsame
  exact absurd hmaster (by decide +kernel)

end OpxNasLinux.IfObject
