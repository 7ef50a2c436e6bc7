import OpxNasLinux.IfObject
import OpxNasLinux.Lib.Run

/-!
# Reads of absent attributes

A link message carries any of its attributes or none.  Most reads have a check
in front of them.  Three have not, because the type of the interface is taken
for a promise that the attribute is there:

* the parent and the data of a VLAN interface that is created
  (`VlanUnguarded`);
* the data of a VXLAN interface (`VxlanUnguarded`);
* the master of a bridge member and the link kind of a bond, where the type is
  not from the message but from the cache (`CachedUnguarded`).

`isOk_iff` is one message, and `reads_safe_iff` is a run.
-/

namespace OpxNasLinux.IfObject

open Run

/-! ## The unguarded reads -/

/-- A VLAN interface is created, and the message lacks its parent or its data. -/
def VlanUnguarded (x : FullLinkMsg) (c : IfCache) : Prop :=
  linkType x.toLinkMsg c = .vlanSubintf ∧ x.master = none ∧ linkOp x.toLinkMsg c = .create ∧
    (x.link = none ∨ x.infoData = none)

/-- A VXLAN interface that is in no bridge, and the message lacks its data. -/
def VxlanUnguarded (x : FullLinkMsg) : Prop :=
  ("vxlan".toList.isPrefixOf (x.infoKind.getD []) = true ∧ x.master = none) ∧ x.infoData = none

/-- A message without a link kind and without a master, about an interface that
the cache has as a member of a bridge, or that goes and that the cache has as a
bond. -/
def CachedUnguarded (x : FullLinkMsg) (a : LinkAnswers) (c : IfCache) : Prop :=
  (x.defaultVrf = true ∧ a.stgOk = true) ∧
    (x.infoKind = none ∧ x.master = none ∧ x.ifName ≠ some "eth0".toList) ∧
    (c.ifInfoGetType x.ifindex = some .l2Port ∨
      c.ifInfoGetType x.ifindex = some .lag ∧ x.rtmType = .delLink)

/-- The message makes the code read through a null pointer. -/
def Unguarded (t : IfTables) (i : FullInput) : Prop :=
  VlanUnguarded i.1 t.db.cache ∨ VxlanUnguarded i.1 ∨ CachedUnguarded i.1 i.2 t.db.cache

instance (x : FullLinkMsg) (c : IfCache) : Decidable (VlanUnguarded x c) :=
  inferInstanceAs (Decidable (_ ∧ _))

instance (x : FullLinkMsg) : Decidable (VxlanUnguarded x) :=
  inferInstanceAs (Decidable (_ ∧ _))

instance (x : FullLinkMsg) (a : LinkAnswers) (c : IfCache) : Decidable (CachedUnguarded x a c) :=
  inferInstanceAs (Decidable (_ ∧ _))

instance (t : IfTables) (i : FullInput) : Decidable (Unguarded t i) :=
  inferInstanceAs (Decidable (_ ∨ _))

/-! ## The handlers -/

theorem vlanReads_isOk (x : FullLinkMsg) (c : IfCache) :
    (vlanReads x (linkDetails x.toLinkMsg c)).isOk = true ↔ ¬ VlanUnguarded x c := by
  rw [vlanReads, VlanUnguarded]
  by_cases hcreated : linkType x.toLinkMsg c = .vlanSubintf ∧ x.master = none ∧
      linkOp x.toLinkMsg c = .create
  · obtain ⟨htype, hmaster, hop⟩ := hcreated
    have hlink : (linkDetails x.toLinkMsg c).link = x.link := rfl
    rw [if_pos ⟨htype, hmaster, hop⟩, hlink]
    cases x.link with
    | none =>
      refine iff_of_false (fun h => by cases h) fun h => ?_
      exact h ⟨htype, hmaster, hop, Or.inl rfl⟩
    | some link =>
      cases x.infoData with
      | none =>
        refine iff_of_false (fun h => by cases h) fun h => ?_
        exact h ⟨htype, hmaster, hop, Or.inr rfl⟩
      | some vlan =>
        refine iff_of_true ?_ (by simp)
        show (readIfThere (vlan iflaVlanId)).isOk = true
        rw [readIfThere_eq]
        rfl
  · have hskip : ¬ ((linkDetails x.toLinkMsg c).type = .vlanSubintf ∧
        (linkDetails x.toLinkMsg c).master = none ∧
        (linkDetails x.toLinkMsg c).op = .create) := hcreated
    rw [if_neg hskip]
    exact iff_of_true rfl fun h => hcreated ⟨h.1, h.2.1, h.2.2.1⟩

theorem forM_readIfThere (vxlan : Nested) (attrs : List ℕ) :
    (attrs.forM fun attr => readIfThere (vxlan attr)) = (.ok () : Except Fault Unit) := by
  induction attrs with
  | nil => rfl
  | cons attr rest ih =>
    show (do readIfThere (vxlan attr); rest.forM fun attr => readIfThere (vxlan attr)) = _
    rw [readIfThere_eq]
    exact ih

theorem vxlanReads_isOk (x : FullLinkMsg) (c : IfCache) :
    (vxlanReads x (linkDetails x.toLinkMsg c)).isOk = true ↔ ¬ VxlanUnguarded x := by
  rw [vxlanReads, VxlanUnguarded]
  have hkind : (linkDetails x.toLinkMsg c).infoKind = x.infoKind := rfl
  have hmaster : (linkDetails x.toLinkMsg c).master = x.master := rfl
  by_cases hskip : x.infoKind = none ∨ x.master ≠ none
  · rw [hkind, hmaster, if_pos hskip]
    refine iff_of_true rfl ?_
    rintro ⟨⟨hstarts, hnone⟩, -⟩
    rcases hskip with hno | hsome
    · rw [hno] at hstarts
      cases hstarts
    · exact hsome hnone
  obtain ⟨hsome, hnone⟩ := not_or.mp hskip
  have hstarts : (linkDetails x.toLinkMsg c).kindStarts "vxlan" =
      "vxlan".toList.isPrefixOf (x.infoKind.getD []) := by
    rw [IfDetails.kindStarts, hkind]
    cases hnone : x.infoKind with
    | none => exact absurd hnone hsome
    | some kind => rfl
  rw [strncmpKind_some hsome, hkind, hmaster, if_neg hskip, hstarts]
  cases hvxlan : "vxlan".toList.isPrefixOf (x.infoKind.getD []) with
  | false => exact iff_of_true rfl fun h => by cases h.1.1
  | true =>
    cases x.infoData with
    | none => exact iff_of_false (fun h => by cases h) fun h => h ⟨⟨rfl, not_not.mp hnone⟩, rfl⟩
    | some vxlan =>
      refine iff_of_true ?_ (by simp)
      show (vxlanAttrs.forM fun attr => readIfThere (vxlan attr)).isOk = true
      rw [forM_readIfThere]
      rfl

/-! ## Behind the handlers -/

theorem forgetLink_isOk (ifx : IfIndex) (op : IfOp) (d : IfDetails) (r : IfRecord) (t : IfTables) :
    (forgetLink ifx op d r t).isOk = true ↔
      ¬ (op = .delete ∧ d.type = .lag ∧ d.infoKind = none) := by
  rw [forgetLink]
  split
  · rename_i hop
    exact iff_of_true rfl fun h => hop h.1
  rename_i hop
  split
  · rename_i htype
    exact iff_of_true rfl fun h => htype.2.1 h.2.1
  split
  · rename_i hlag
    rw [strncmpKind]
    cases hkind : d.infoKind with
    | none => exact iff_of_false (fun h => by cases h) fun h => h ⟨not_not.mp hop, hlag, rfl⟩
    | some kind => exact iff_of_true rfl fun h => by cases h.2.2
  rename_i hlag
  have hnot : ¬ (op = .delete ∧ d.type = .lag ∧ d.infoKind = none) := fun h => hlag h.2.1
  split
  · exact iff_of_true rfl hnot
  · exact iff_of_true rfl hnot

/-- The code behind the handlers reads the link kind of a bond that goes, and
the master of a member. -/
theorem updateTables_isOk (fill : StackFill) (m : LinkMsg) (op : IfOp) (d : IfDetails)
    (t : IfTables) :
    (updateTables fill m op d t).isOk = true ↔
      ¬ (op = .delete ∧ d.type = .lag ∧ d.infoKind = none) ∧
        ¬ (d.type = .l2Port ∧ m.master = none) := by
  rw [← forgetLink_isOk m.ifindex op d (stackRecord fill m d)
    (t.ifInfoUpdate m.ifindex (stackRecord fill m d)).2, updateTables]
  cases forgetLink m.ifindex op d (stackRecord fill m d)
    (t.ifInfoUpdate m.ifindex (stackRecord fill m d)).2 with
  | error f => exact iff_of_false (fun h => by cases h) fun h => by cases h.1
  | ok t1 =>
    dsimp only
    split
    · rename_i hmember
      cases hmaster : m.master with
      | none =>
        rw [hmaster] at hmember
        have htype : d.type = .l2Port := by simpa using hmember
        exact iff_of_false (fun h => by cases h) fun h => h.2 ⟨htype, rfl⟩
      | some ifix =>
        refine iff_of_true ?_ ⟨rfl, by simp⟩
        dsimp only [nlaData]
        split <;> rfl
    · rename_i hmember
      exact iff_of_true rfl ⟨rfl, fun h => hmember (Or.inl h.1)⟩

/-- The type behind the handlers when the message has no master. -/
theorem type_without_master {a : LinkAnswers} {m : LinkMsg} {db : IfDb} (hmaster : m.master = none)
    (haccepts : accepts a (linkDetails m db.cache) db = true) :
    let d := linkDetails m db.cache
    (ifHdlr a handlers d db).2.1.type =
      if d.ifName = "eth0".toList then .management
      else if lagMemberEvent d db.bond then .lag
      else kindType d := by
  intro d
  obtain ⟨-, hdetails, -⟩ := ifHdlr_handlers a m db
  obtain ⟨hname, -, hatMaster, -⟩ := atBridge_keeps d db.bond
  have hnone : (atBridge d db.bond).master = none := hatMaster.trans hmaster
  have hbridge : ∀ db', (bridgeAttrsHandler a (atBridge d db.bond) db').2.1 =
      atBridge d db.bond := by
    intro db'
    rw [bridgeAttrsHandler, hnone]
    split <;> rfl
  rw [hdetails haccepts, mgmtAttrsHandler, hbridge, hname]
  split
  · rfl
  cases hevent : lagMemberEvent d db.bond with
  | true => exact (atBridge_of_event hevent).1
  | false => exact (atBridge_of_not_event hevent).1

/-- No link kind stands for a member of a bridge. -/
theorem linkType_l2Port_iff (m : LinkMsg) (c : IfCache) :
    linkType m c = .l2Port ↔ m.infoKind = none ∧ c.ifInfoGetType m.ifindex = some .l2Port := by
  rcases linkType_cases m c with hkind | hport | ⟨kind, hmem, hkind, htype⟩
  · rw [linkType, hkind]
    cases c.ifInfoGetType m.ifindex with
    | none => simp
    | some type => simp
  · refine iff_of_false (by simp [hport]) ?_
    rintro ⟨hnone, hcached⟩
    rw [linkType, hnone] at hport
    dsimp only at hport
    rw [hcached] at hport
    cases hport
  · refine iff_of_false ?_ (by simp [hkind])
    have hno : ∀ kind ∈ kindTypes, kind.2 ≠ .l2Port := by decide
    exact htype ▸ hno kind hmem

theorem kindType_l2Port_iff (m : LinkMsg) (c : IfCache) :
    kindType (linkDetails m c) = .l2Port ↔ linkType m c = .l2Port := by
  rcases kindType_cases m c with h | ⟨hport, h | ⟨-, h⟩ | ⟨-, h⟩⟩
  · rw [h]
  all_goals
    rw [h, hport]
    decide

section

variable {m : LinkMsg} {c : IfCache}

theorem linkDetails_eth0_iff :
    (linkDetails m c).ifName = "eth0".toList ↔ m.ifName = some "eth0".toList := by
  have hname : (linkDetails m c).ifName = m.ifName.getD [] := rfl
  rw [hname]
  cases m.ifName with
  | none => simp
  | some name => simp

theorem noKind_starts (hkind : m.infoKind = none) (text : String) :
    (linkDetails m c).kindStarts text = false := by
  have hnone : (linkDetails m c).infoKind = none := hkind
  rw [IfDetails.kindStarts, hnone]

theorem noKind_event (hkind : m.infoKind = none) (b : IfBond) :
    lagMemberEvent (linkDetails m c) b = false := by
  rw [lagMemberEvent, noKind_starts hkind, Bool.false_and, Bool.and_false]

theorem noKind_type (hkind : m.infoKind = none) : kindType (linkDetails m c) = linkType m c := by
  rw [kindType, noKind_starts hkind, noKind_starts hkind, noKind_starts hkind]
  rfl

/-- Without a link kind only the handler of the STP states can fail. -/
theorem noKind_accepts (hkind : m.infoKind = none) (a : LinkAnswers) (db : IfDb) :
    accepts a (linkDetails m c) db = a.stgOk := by
  have hsome : (linkDetails m c).infoKind.isSome = false := by
    rw [Option.isSome_eq_false_iff, Option.isNone_iff_eq_none]
    exact hkind
  rw [accepts, lagRefuses, noKind_event hkind, bridgeRefuses, hsome]
  simp

end

/-- The master of a member is read and absent. -/
theorem member_unguarded_iff {a : LinkAnswers} {m : LinkMsg} {db : IfDb}
    (haccepts : accepts a (linkDetails m db.cache) db = true) :
    (ifHdlr a handlers (linkDetails m db.cache) db).2.1.type = .l2Port ∧ m.master = none ↔
      (m.infoKind = none ∧ m.master = none ∧ m.ifName ≠ some "eth0".toList) ∧
        db.cache.ifInfoGetType m.ifindex = some .l2Port := by
  by_cases hmaster : m.master = none
  swap
  · exact iff_of_false (fun h => hmaster h.2) fun h => hmaster h.1.2.1
  rw [type_without_master hmaster haccepts]
  by_cases hname : m.ifName = some "eth0".toList
  · rw [if_pos (linkDetails_eth0_iff.mpr hname)]
    exact iff_of_false (fun h => by cases h.1) fun h => h.1.2.2 hname
  rw [if_neg (fun h => hname (linkDetails_eth0_iff.mp h))]
  cases hevent : lagMemberEvent (linkDetails m db.cache) db.bond with
  | true =>
    refine iff_of_false (fun h => by cases h.1) fun h => ?_
    rw [noKind_event h.1.1] at hevent
    cases hevent
  | false =>
    have htype := (kindType_l2Port_iff m db.cache).trans (linkType_l2Port_iff m db.cache)
    constructor
    · rintro ⟨hl2, -⟩
      obtain ⟨hkind, hcached⟩ := htype.mp hl2
      exact ⟨⟨hkind, hmaster, hname⟩, hcached⟩
    · rintro ⟨⟨hkind, -, -⟩, hcached⟩
      exact ⟨htype.mpr ⟨hkind, hcached⟩, hmaster⟩

/-- The link kind of a bond is read and absent. -/
theorem bond_unguarded_iff {a : LinkAnswers} {m : LinkMsg} {db : IfDb}
    (haccepts : accepts a (linkDetails m db.cache) db = true) :
    linkOp m db.cache = .delete ∧ (ifHdlr a handlers (linkDetails m db.cache) db).2.1.type = .lag ∧
        (ifHdlr a handlers (linkDetails m db.cache) db).2.1.infoKind = none ↔
      (m.infoKind = none ∧ m.master = none ∧ m.ifName ≠ some "eth0".toList) ∧
        db.cache.ifInfoGetType m.ifindex = some .lag ∧ m.rtmType = .delLink := by
  have hkept : (linkDetails m db.cache).infoKind = m.infoKind := rfl
  rw [ifHdlr_infoKind haccepts, hkept, linkOp_delete_iff]
  by_cases hdelete : m.rtmType = .delLink
  swap
  · exact iff_of_false (fun h => hdelete h.1) fun h => hdelete h.2.2
  by_cases hkind : m.infoKind = none
  swap
  · exact iff_of_false (fun h => hkind h.2.2) fun h => hkind h.1.1
  rw [type_after_delete ((linkOp_delete_iff m db.cache).mpr hdelete) haccepts]
  by_cases hname : m.ifName = some "eth0".toList
  · rw [if_pos (linkDetails_eth0_iff.mpr hname)]
    exact iff_of_false (fun h => by cases h.2.1) fun h => h.1.2.2 hname
  rw [if_neg (fun h => hname (linkDetails_eth0_iff.mp h)), noKind_event hkind, noKind_type hkind,
    if_neg Bool.false_ne_true]
  have htype : linkType m db.cache = (db.cache.ifInfoGetType m.ifindex).getD .l3Port := by
    rw [linkType, hkind]
  have hsame : (linkDetails m db.cache).type = linkType m db.cache := rfl
  have hmaster : (linkDetails m db.cache).master = m.master := rfl
  rw [hsame, hmaster, htype]
  generalize "eth0".toList = eth0 at hname
  cases db.cache.ifInfoGetType m.ifindex with
  | none => cases m.master <;> simp
  | some type => cases m.master <;> cases type <;> simp [hdelete, hkind, hname]

/-! ## A message -/

/-- A message of the default VRF that every handler accepts goes to the cache. -/
theorem cachedUnguarded_iff {x : FullLinkMsg} {a : LinkAnswers} {db : IfDb}
    (haccepts : accepts a (linkDetails x.toLinkMsg db.cache) db = true)
    (hvrf : x.defaultVrf = true) (fill : StackFill) (t : IfTables) :
    (updateTables fill x.toLinkMsg (linkOp x.toLinkMsg db.cache)
        (ifHdlr a handlers (linkDetails x.toLinkMsg db.cache) db).2.1 t).isOk = true ↔
      ¬ CachedUnguarded x a db.cache := by
  rw [updateTables_isOk, bond_unguarded_iff haccepts, member_unguarded_iff haccepts,
    CachedUnguarded]
  constructor
  · rintro ⟨hbond, hmember⟩ ⟨-, hmsg, hl2 | hlag⟩
    · exact hmember ⟨hmsg, hl2⟩
    · exact hbond ⟨hmsg, hlag⟩
  · intro h
    refine ⟨?_, ?_⟩
    · rintro ⟨hmsg, hlag⟩
      exact h ⟨⟨hvrf, (noKind_accepts hmsg.1 a db).symm.trans haccepts⟩, hmsg, Or.inr hlag⟩
    · rintro ⟨hmsg, hl2⟩
      exact h ⟨⟨hvrf, (noKind_accepts hmsg.1 a db).symm.trans haccepts⟩, hmsg, Or.inl hl2⟩

/-- A message is handled without a read through a null pointer, whatever is on
the stack, unless it is one of the three kinds. -/
theorem isOk_iff (fill : StackFill) (t : IfTables) (i : FullInput) :
    (osInterfaceToObjectFull fill t i).isOk = true ↔ ¬ Unguarded t i := by
  obtain ⟨x, a⟩ := i
  have hvlan := vlanReads_isOk x t.db.cache
  have hvxlan := vxlanReads_isOk x t.db.cache
  rw [osInterfaceToObjectFull_eq, Unguarded]
  dsimp only
  cases hread : vlanReads x (linkDetails x.toLinkMsg t.db.cache) with
  | error f =>
    rw [hread] at hvlan
    have hbad := not_not.mp (mt hvlan.mpr (fun h => by cases h))
    exact iff_of_false (fun h => by cases h) fun h => h (Or.inl hbad)
  | ok u =>
    rw [hread] at hvlan
    have hgood := hvlan.mp rfl
    cases hread : vxlanReads x (linkDetails x.toLinkMsg t.db.cache) with
    | error f =>
      rw [hread] at hvxlan
      have hbad := not_not.mp (mt hvxlan.mpr (fun h => by cases h))
      exact iff_of_false (fun h => by cases h) fun h => h (Or.inr (Or.inl hbad))
    | ok u =>
      rw [hread] at hvxlan
      have hgood' := hvxlan.mp rfl
      have hother : ¬ (VlanUnguarded x t.db.cache ∨ VxlanUnguarded x ∨
          CachedUnguarded x a t.db.cache) ↔ ¬ CachedUnguarded x a t.db.cache := by
        rw [or_iff_right hgood, or_iff_right hgood']
      rw [hother]
      dsimp only
      split
      · rename_i hreach
        obtain ⟨hvrf, haccepts⟩ := Bool.and_eq_true_iff.mp hreach
        exact cachedUnguarded_iff haccepts hvrf fill _
      · rename_i hreach
        refine iff_of_true rfl ?_
        rintro ⟨⟨hvrf, hstg⟩, hmsg, -⟩
        exact hreach (Bool.and_eq_true_iff.mpr ⟨hvrf, (noKind_accepts hmsg.1 a t.db).trans hstg⟩)

/-! ## A run -/

/-- The tables after a message.  Behind a read through a null pointer there is
nothing. -/
def fullStep (t : IfTables) (i : StackFill × FullInput) : IfTables :=
  match osInterfaceToObjectFull i.1 t i.2 with
  | .ok (t', _) => t'
  | .error _ => t

/-- No message of a run makes the code read through a null pointer if none is
of the three kinds in the state it comes in, and only then. -/
theorem reads_safe_iff (t : IfTables) (inputs : List (StackFill × FullInput)) :
    Along fullStep (fun t i => (osInterfaceToObjectFull i.1 t i.2).isOk = true) t inputs ↔
      Along fullStep (fun t i => ¬ Unguarded t i.2) t inputs := by
  have hstep : ∀ (t : IfTables) (i : StackFill × FullInput), True →
      ((osInterfaceToObjectFull i.1 t i.2).isOk = true ↔ ¬ Unguarded t i.2) :=
    fun t i _ => isOk_iff i.1 t i.2
  exact along_iff hstep (fun _ _ _ _ => trivial) trivial

/-- A stack of zeros. -/
def zeroFill : StackFill := ⟨0, fun _ => 0, 0⟩

/-- A message that carries neither `IFLA_INFO_DATA` nor `IFLA_PROTINFO`. -/
def sampleFull (m : LinkMsg) : StackFill × FullInput := (zeroFill, ⟨m, none, none⟩, sampleAnswers)

/-- A bridge, and a port in it. -/
def bridgedPort : List (StackFill × FullInput) :=
  [sampleFull (sampleLink .newLink 7 "br1" (some "bridge") none),
    sampleFull (sampleLink .newLink 5 "e101" (some "tun") (some 7))]

/-- An update of the port with its link kind does no harm. -/
example : Along fullStep (fun t i => ¬ Unguarded t i.2) IfTables.empty
    (bridgedPort ++ [sampleFull (sampleLink .newLink 5 "e101" (some "tun") none)]) :=
  ⟨by decide +kernel, by decide +kernel, by decide +kernel, trivial⟩

/-- An update of the port without a link kind and without a master: the type is
that of a bridge member, from the cache, and its master is read. -/
theorem member_update_reads_null :
    ¬ ∀ inputs : List (StackFill × FullInput),
      Along fullStep (fun t i => (osInterfaceToObjectFull i.1 t i.2).isOk = true)
        IfTables.empty inputs := by
  intro h
  obtain ⟨-, -, hlast, -⟩ :=
    h (bridgedPort ++ [sampleFull (sampleLink .newLink 5 "e101" none none)])
  exact absurd hlast (by decide +kernel)

end OpxNasLinux.IfObject
