import OpxNasLinux.IfHandlers
import OpxNasLinux.Lib.Run

/-!
# The members of the bonds

`if_bond` has the members of every bond in `mbr_map_` and the bond of every
member in `s_map_`.  A slave is entered in both, but the bond that `s_map_` has
for it stays.

* `linkStep_bond` is what a message does to the bonds.
* `bondAfter_agree` is the step.
* `bonds_agree_iff` is the run.
-/

namespace OpxNasLinux

open Run

/-! ## The two maps -/

/-- A member has the bond that lists it, and no other one lists it. -/
structure BondsAgree (b : IfBond) : Prop where
  master : ∀ mbrIdx masterIdx, b.bondMasterGet mbrIdx = masterIdx ∧ masterIdx ≠ 0 ↔
    b.bondMbrPresent masterIdx mbrIdx = true
  single : ∀ mbrIdx masterIdx masterIdx', b.bondMbrPresent masterIdx mbrIdx = true →
    b.bondMbrPresent masterIdx' mbrIdx = true → masterIdx = masterIdx'

/-- The lists of the bonds are those of the map, and no bond has index `0`. -/
structure BondsKept (b : IfBond) : Prop where
  lists : Lists b.mbrMap b.sMap
  nonzero : ∀ mbrIdx, b.sMap.lookup mbrIdx ≠ some 0

namespace BondsKept

theorem empty : BondsKept ⟨∅, ∅⟩ where
  lists := Lists.empty
  nonzero := fun _ h => (nomatch h)

variable {b : IfBond}

/-- The bond of a member, by way of its list. -/
theorem master_iff (h : BondsKept b) {mbrIdx masterIdx : IfIndex} :
    b.bondMasterGet mbrIdx = masterIdx ∧ masterIdx ≠ 0 ↔
      b.bondMbrPresent masterIdx mbrIdx = true := by
  rw [IfBond.bondMbrPresent, decide_eq_true_iff, ← h.lists mbrIdx masterIdx, IfBond.bondMasterGet]
  cases hlookup : b.sMap.lookup mbrIdx with
  | none =>
    refine iff_of_false ?_ (by simp)
    rintro ⟨hzero, hne⟩
    exact hne hzero.symm
  | some o =>
    rw [Option.getD_some, Option.some_inj]
    refine ⟨And.left, ?_⟩
    rintro rfl
    refine ⟨rfl, ?_⟩
    rintro rfl
    exact h.nonzero mbrIdx hlookup

theorem agree (h : BondsKept b) : BondsAgree b where
  master := fun _ _ => h.master_iff
  single := by
    intro mbrIdx o o' ho ho'
    exact (h.master_iff.mpr ho).1.symm.trans (h.master_iff.mpr ho').1

/-- The map has no entry for a member without a bond. -/
theorem lookup_none (h : BondsKept b) {mbrIdx : IfIndex} (hget : b.bondMasterGet mbrIdx = 0) :
    b.sMap.lookup mbrIdx = none := by
  rw [IfBond.bondMasterGet] at hget
  cases hlookup : b.sMap.lookup mbrIdx with
  | none => rfl
  | some o =>
    rw [hlookup, Option.getD_some] at hget
    exact absurd (hget ▸ hlookup) (h.nonzero mbrIdx)

/-- A member that had no bond comes under one. -/
theorem add (h : BondsKept b) {masterIdx mbrIdx : IfIndex} (hne : masterIdx ≠ 0)
    (hget : b.bondMasterGet mbrIdx = 0) : BondsKept (b.bondMbrAdd masterIdx mbrIdx) := by
  have hnone := h.lookup_none hget
  have hnot : mbrIdx ∉ b.sMap := AList.lookup_eq_none.mp hnone
  rw [IfBond.bondMbrAdd, if_neg hnot]
  constructor
  · exact h.lists.enter fun o ho => absurd (hnone.symm.trans ho) (by simp)
  · intro m hm
    rcases Dict.lookup_insert_iff.mp hm with ⟨-, hzero⟩ | ⟨-, hold⟩
    · exact hne hzero
    · exact h.nonzero m hold

/-- A member goes out of its bond. -/
theorem del (h : BondsKept b) {mbrIdx : IfIndex} (hget : b.bondMasterGet mbrIdx ≠ 0) :
    BondsKept (b.bondMbrDel (b.bondMasterGet mbrIdx) mbrIdx) := by
  have hlookup : b.sMap.lookup mbrIdx = some (b.bondMasterGet mbrIdx) := by
    rw [IfBond.bondMasterGet] at hget ⊢
    cases hcase : b.sMap.lookup mbrIdx with
    | none =>
      rw [hcase] at hget
      exact absurd rfl hget
    | some o => rfl
  rw [IfBond.bondMbrDel]
  constructor
  · exact h.lists.discard hlookup
  · intro m hm
    exact h.nonzero m (Dict.lookup_erase_iff.mp hm).2

/-- A member that comes under another bond keeps the one it had in the map. -/
theorem add_agree (h : BondsKept b) {masterIdx mbrIdx : IfIndex}
    (hnew : b.bondMbrPresent masterIdx mbrIdx = false)
    (hafter : BondsAgree (b.bondMbrAdd masterIdx mbrIdx)) :
    masterIdx ≠ 0 ∧ b.bondMasterGet mbrIdx = 0 := by
  have hpresent : (b.bondMbrAdd masterIdx mbrIdx).bondMbrPresent masterIdx mbrIdx = true := by
    rw [IfBond.bondMbrPresent, decide_eq_true_iff]
    exact Listing.mem_add_iff.mpr (Or.inl ⟨rfl, rfl⟩)
  obtain ⟨hget, hne⟩ := (hafter.master mbrIdx masterIdx).mpr hpresent
  refine ⟨hne, ?_⟩
  by_cases hmem : mbrIdx ∈ b.sMap
  · rw [IfBond.bondMasterGet, IfBond.bondMbrAdd, if_pos hmem] at hget
    have hold := h.master_iff.mp ⟨hget, hne⟩
    rw [hnew] at hold
    cases hold
  · rw [IfBond.bondMasterGet, AList.lookup_eq_none.mpr hmem]
    rfl

end BondsKept

/-! ## The messages -/

/-- A `tun` slave with a master, which has an index, has no bond in the database
or this one. -/
def SlaveFree (db : IfDb) (i : LinkInput) : Prop :=
  (linkDetails i.1 db.cache).kindStarts "tun" = true → i.1.slave = true →
    ∀ masterIdx ∈ i.1.master, masterIdx ≠ 0 ∧
      (db.bond.bondMasterGet i.1.ifindex = 0 ∨ db.bond.bondMasterGet i.1.ifindex = masterIdx)

/-- A message changes the bonds in the handler of the bonds only. -/
theorem linkStep_bond (db : IfDb) (i : LinkInput) :
    (linkStep db i).bond = bondAfter (linkDetails i.1 db.cache) db.bond := by
  obtain ⟨m, a⟩ := i
  obtain ⟨-, -, hdb⟩ := ifHdlr_handlers a m db
  have hbond : (ifHdlr a handlers (linkDetails m db.cache) db).2.2.bond =
      bondAfter (linkDetails m db.cache) db.bond := by
    rw [hdb]
    split
    · exact (bridgeAttrsHandler_bridgesOnly a _ _).bond
    · rfl
  rw [linkStep, osInterfaceToObject]
  split
  · rename_i d db' heq
    rwa [heq] at hbond
  · rename_i d db' heq
    rw [heq] at hbond
    split <;> exact hbond

/-- A slave with a master comes into the database unless the bond has it. -/
theorem lagMemberEvent_master {m : LinkMsg} {c : IfCache} {b : IfBond} {masterIdx : IfIndex}
    (hkind : (linkDetails m c).kindStarts "tun" = true) (hslave : m.slave = true)
    (hmaster : m.master = some masterIdx) :
    lagMemberEvent (linkDetails m c) b = !b.bondMbrPresent masterIdx m.ifindex := by
  have htype : linkType m c = .l3Port := by
    have htun : ("tun", IfType.l3Port) ∈ kindTypes := by decide
    rcases linkType_of_kindStarts htun hkind with h | h <;> exact h
  have hlag : (linkDetails m c).type ≠ .lag := by
    show linkType m c ≠ .lag
    rw [htype]
    decide
  have hslave' : (linkDetails m c).slave = true := hslave
  have hmaster' : (linkDetails m c).master = some masterIdx := hmaster
  rw [lagMemberEvent, hkind, hslave', hmaster', decide_eq_true hlag]
  rfl

/-- A message keeps the bonds under `SlaveFree`. -/
theorem bondAfter_kept {db : IfDb} {i : LinkInput} (h : BondsKept db.bond)
    (hok : SlaveFree db i) : BondsKept (bondAfter (linkDetails i.1 db.cache) db.bond) := by
  obtain ⟨m, a⟩ := i
  rw [bondAfter]
  split
  swap
  · exact h
  rename_i hevent
  obtain ⟨hkind, hslave⟩ := lagMemberEvent_slave hevent
  have hmaster : (linkDetails m db.cache).master = m.master := rfl
  rw [hmaster]
  cases hcase : m.master with
  | some masterIdx =>
    rw [lagMemberEvent_master hkind hslave hcase, Bool.not_eq_true'] at hevent
    obtain ⟨hne, hget⟩ := hok hkind hslave masterIdx hcase
    refine h.add hne (hget.resolve_right fun hsame => ?_)
    rw [h.master_iff.mp ⟨hsame, hne⟩] at hevent
    cases hevent
  | none =>
    rw [lagMemberEvent, hmaster, hcase] at hevent
    simp only [Bool.and_eq_true, decide_eq_true_eq] at hevent
    exact h.del hevent.2.2.2

/-- The maps agree behind a message only under `SlaveFree`. -/
theorem slaveFree_of_agree {db : IfDb} {i : LinkInput} (h : BondsKept db.bond)
    (hafter : BondsAgree (bondAfter (linkDetails i.1 db.cache) db.bond)) : SlaveFree db i := by
  obtain ⟨m, a⟩ := i
  intro hkind hslave masterIdx hmaster
  have hmaster' : m.master = some masterIdx := hmaster
  have hevent := @lagMemberEvent_master m db.cache db.bond masterIdx hkind hslave hmaster'
  have hdetails : (linkDetails m db.cache).master = some masterIdx := hmaster'
  rw [bondAfter, hevent, hdetails] at hafter
  cases hpresent : db.bond.bondMbrPresent masterIdx m.ifindex with
  | true =>
    obtain ⟨hget, hne⟩ := h.master_iff.mpr hpresent
    exact ⟨hne, Or.inr hget⟩
  | false =>
    rw [hpresent] at hafter
    obtain ⟨hne, hget⟩ := h.add_agree hpresent hafter
    exact ⟨hne, Or.inl hget⟩

/-- In every state of a run the two maps of the bonds agree, if no slave comes
under a bond while the database has it under another one, and only then. -/
theorem bonds_agree_iff (inputs : List LinkInput) :
    (∀ made, made <+: inputs → BondsAgree (run linkStep IfDb.empty made).bond) ↔
      Along linkStep SlaveFree IfDb.empty inputs := by
  have hgood : ∀ db : IfDb, BondsKept db.bond → BondsAgree db.bond := fun _ h => h.agree
  have hstep : ∀ (db : IfDb) i, BondsKept db.bond → BondsAgree (linkStep db i).bond →
      SlaveFree db i := fun db i h hafter => slaveFree_of_agree h (linkStep_bond db i ▸ hafter)
  have hkeep : ∀ (db : IfDb) i, BondsKept db.bond → SlaveFree db i →
      BondsKept (linkStep db i).bond := fun db i h hok => linkStep_bond db i ▸ bondAfter_kept h hok
  exact prefixes_iff hgood hstep hkeep BondsKept.empty

/-- A port is enslaved by a bond. -/
def sampleSlave (masterIdx : IfIndex) : LinkMsg :=
  { sampleLink .newLink 5 "e101" (some "tun") (some masterIdx) with slave := true }

/-- A slave goes out of its bond before it comes under another one. -/
example : Along linkStep SlaveFree IfDb.empty
    [(sampleSlave 10, sampleAnswers), ({ sampleSlave 10 with master := none }, sampleAnswers),
      (sampleSlave 11, sampleAnswers)] := by
  refine ⟨?_, ?_, ?_, trivial⟩ <;> unfold SlaveFree <;> decide +kernel

/-- A slave that moves to another bond stays under the first one. -/
theorem moved_slave_listed_twice :
    ¬ ∀ inputs : List LinkInput, BondsAgree (run linkStep IfDb.empty inputs).bond := by
  intro h
  have hafter := h [(sampleLink .newLink 10 "bond10" (some "bond") none, sampleAnswers),
    (sampleLink .newLink 11 "bond11" (some "bond") none, sampleAnswers),
    (sampleSlave 10, sampleAnswers), (sampleSlave 11, sampleAnswers)]
  have hsame : (10 : IfIndex) = 11 :=
    hafter.single 5 10 11 (by decide +kernel) (by decide +kernel)
  exact absurd hsame (by decide)

end OpxNasLinux
