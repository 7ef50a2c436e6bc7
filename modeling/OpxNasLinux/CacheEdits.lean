import Mathlib.Logic.Relation
import OpxNasLinux.SvcsRuleCache

/-!
# What the operations do to a cache

The five operations of a rule cache are sequences of a few edits: a rule goes
in, a rule comes out, a rule is replaced, a list is cleared, and the edits
that iptables refuses and the code takes back.  `Edit` lists them, each with
everything the code has checked when it makes it.

* `Sound` is the invariant under which the operations make no other change.
* `Sound.edit` says that every edit keeps it, so that `Sound.steps` holds for
  every sequence of edits.
-/

namespace OpxNasLinux

open SvcsRule

namespace SvcsRuleCache

variable {R W : Type}

/-! ## Lists at their places -/

@[simp] theorem listAt_setList_self (s : SvcsRuleCache R W) (lc : Loc) (l : SvcsRuleList R) :
    (s.setList lc l).listAt lc = l := by
  rw [listAt, setList, AList.lookup_insert, Option.getD_some]

theorem listAt_setList_ne (s : SvcsRuleCache R W) {lc lc' : Loc} (l : SvcsRuleList R)
    (h : lc' ≠ lc) : (s.setList lc l).listAt lc' = s.listAt lc' := by
  rw [listAt, setList, AList.lookup_insert_ne h, listAt]

@[simp] theorem listAt_dropList_self (s : SvcsRuleCache R W) (lc : Loc) :
    (s.dropList lc).listAt lc = .empty := by
  rw [listAt, dropList, AList.lookup_erase, Option.getD_none]

theorem listAt_dropList_ne (s : SvcsRuleCache R W) {lc lc' : Loc} (h : lc' ≠ lc) :
    (s.dropList lc).listAt lc' = s.listAt lc' := by
  rw [listAt, dropList, AList.lookup_erase_ne h, listAt]

@[simp] theorem listAt_setWorld (s : SvcsRuleCache R W) (w : W) (lc : Loc) :
    (s.setWorld w).listAt lc = s.listAt lc := rfl

@[simp] theorem listAt_setIds (s : SvcsRuleCache R W) (g : IdGenerator) (lc : Loc) :
    (s.setIds g).listAt lc = s.listAt lc := rfl

@[simp] theorem stored_setList_self (s : SvcsRuleCache R W) (lc : Loc) (l : SvcsRuleList R) :
    (s.setList lc l).stored lc = l.rules := by
  rw [stored, listAt_setList_self]

theorem stored_setList_ne (s : SvcsRuleCache R W) {lc lc' : Loc} (l : SvcsRuleList R)
    (h : lc' ≠ lc) : (s.setList lc l).stored lc' = s.stored lc' := by
  rw [stored, listAt_setList_ne s l h, stored]

@[simp] theorem stored_setWorld (s : SvcsRuleCache R W) (w : W) (lc : Loc) :
    (s.setWorld w).stored lc = s.stored lc := rfl

@[simp] theorem stored_setIds (s : SvcsRuleCache R W) (g : IdGenerator) (lc : Loc) :
    (s.setIds g).stored lc = s.stored lc := rfl

@[simp] theorem stored_acquire (s : SvcsRuleCache R W) (lc : Loc) :
    s.acquire.stored lc = s.stored lc := rfl

@[simp] theorem stored_release (s : SvcsRuleCache R W) (lc : Loc) :
    s.release.stored lc = s.stored lc := rfl

/-- A place that is not in the dictionary holds no rule. -/
theorem listAt_of_notMem {s : SvcsRuleCache R W} {lc : Loc} (h : lc ∉ s.rules) :
    s.listAt lc = .empty := by
  rw [listAt, AList.lookup_eq_none.mpr h, Option.getD_none]

theorem stored_of_notMem {s : SvcsRuleCache R W} {lc : Loc} (h : lc ∉ s.rules) :
    s.stored lc = [] := by
  rw [stored, listAt_of_notMem h]
  rfl

/-- A stored rule is at a place of the dictionary. -/
theorem mem_rules_of_mem_stored {s : SvcsRuleCache R W} {lc : Loc} {r : R}
    (hr : r ∈ s.stored lc) : lc ∈ s.rules := by
  by_contra hnot
  rw [stored_of_notMem hnot] at hr
  cases hr

theorem listAt_of_lookup {s : SvcsRuleCache R W} {lc : Loc} {l : SvcsRuleList R}
    (h : s.rules.lookup lc = some l) : s.listAt lc = l := by
  rw [listAt, h, Option.getD_some]

theorem closeList_setIds (s : SvcsRuleCache R W) (lc : Loc) (g : IdGenerator) :
    (s.setIds g).closeList lc = (s.closeList lc).setIds g := by
  rw [closeList, closeList, stored, listAt_setIds, stored]
  split <;> rfl

/-! ## Ids -/

/-- `takeId` reserves an id that was free. -/
theorem takeId_some {id : Option ℤ} {g g' : IdGenerator} {i : ℤ} (hg : g.WF)
    (h : takeId id g = (some i, g')) :
    g'.WF ∧ i ∉ g.resvedIds ∧ g'.resvedIds = insert i g.resvedIds := by
  cases id with
  | none => exact IdGenerator.getNewId_some hg h
  | some j =>
    rw [takeId] at h
    split at h
    · cases (Prod.mk.inj h).1
    · split at h
      · rename_i g'' hr
        obtain ⟨hji, rfl⟩ := Prod.mk.inj h
        cases hji
        exact IdGenerator.reserveId_true hg hr
      · cases (Prod.mk.inj h).1

/-- A refused `takeId` changes nothing. -/
theorem takeId_none {id : Option ℤ} {g g' : IdGenerator} (h : takeId id g = (none, g')) :
    g' = g := by
  cases id with
  | none => exact IdGenerator.getNewId_none h
  | some j =>
    rw [takeId] at h
    split at h
    · exact (Prod.mk.inj h).2.symm
    · split at h
      · cases (Prod.mk.inj h).1
      · rename_i g'' hr
        obtain rfl := (Prod.mk.inj h).2
        exact IdGenerator.reserveId_false hr

theorem dropId_wf {g : IdGenerator} (hg : g.WF) (id : Option ℤ) : (dropId id g).WF := by
  cases id with
  | none => exact hg
  | some i => exact IdGenerator.releaseId_wf hg i

theorem mem_dropId {g : IdGenerator} {id : Option ℤ} {j : ℤ} :
    j ∈ (dropId id g).resvedIds ↔ some j ≠ id ∧ j ∈ g.resvedIds := by
  cases id with
  | none => simp [dropId]
  | some i =>
    rw [dropId, IdGenerator.releaseId_resvedIds, Finset.mem_erase]
    simp

/-! ## The edits -/

variable [SvcsRule R]

/-- `rule` becomes `rule'` when it is given an id, and a private address and
port if it needs them. -/
inductive Prepared (h : Handlers R W) (g : IdGenerator) (w : W) (rule : R) :
    R → IdGenerator → W → Prop
  | plain {i : ℤ} {g' : IdGenerator} (hid : takeId (ruleId rule) g = (some i, g'))
      (hneed : needsPrivate rule = false) : Prepared h g w rule (setRuleId i rule) g' w
  | ported {i : ℤ} {g' : IdGenerator} {p : Private} {w' : W}
      (hid : takeId (ruleId rule) g = (some i, g')) (hneed : needsPrivate rule = true)
      (hp : h.subNetInsert (setRuleId i rule) w = (some p, w')) :
      Prepared h g w rule (setPrivate p (setRuleId i rule)) g' w'

/-- One edit of a cache. -/
inductive Edit (h : Handlers R W) : SvcsRuleCache R W → SvcsRuleCache R W → Prop
  | mutex (s : SvcsRuleCache R W) (n : ℕ) : Edit h s { s with mutex := n }
  | openList (s : SvcsRuleCache R W) (lc : Loc) (hlc : lc ∉ s.rules) :
      Edit h s (s.setList lc .empty)
  | closeList (s : SvcsRuleCache R W) (lc : Loc) (hlc : s.stored lc = []) :
      Edit h s (s.dropList lc)
  | readStats (s : SvcsRuleCache R W) (lc : Loc) {idx : ℕ} {rule : R} {st : Stats} {w : W}
      (hrule : (s.stored lc)[idx]? = some rule)
      (hget : h.getStats rule idx s.world = (.returned (some st), w)) :
      Edit h s ((s.setWorld w).setList lc ((s.listAt lc).setRule idx (setStats st rule)))
  | readNothing (s : SvcsRuleCache R W) (rule : R) (idx : ℕ) :
      Edit h s (s.setWorld (h.getStats rule idx s.world).2)
  | insertUnported (s : SvcsRuleCache R W) {rule : R} {i : ℤ} {g : IdGenerator} {w : W}
      (hid : takeId (ruleId rule) s.idGenerator = (some i, g)) (hneed : needsPrivate rule = true)
      (hp : h.subNetInsert (setRuleId i rule) s.world = (none, w)) :
      Edit h s ((s.setWorld w).setIds (dropId (some i) g))
  | insertMatched (s : SvcsRuleCache R W) {rule rule' : R} {g : IdGenerator} {w : W}
      (hp : Prepared h s.idGenerator s.world rule rule' g w) :
      Edit h s ((s.setWorld (freed h rule' w)).setIds (dropId (ruleId rule') g))
  | insertRefused (s : SvcsRuleCache R W) {rule rule' : R} {g : IdGenerator} {w w' : W} {idx : ℕ}
      (hp : Prepared h s.idGenerator s.world rule rule' g w)
      (hidx : Bisect.IsRightPoint (s.listAt (loc rule')).seqNumList (seqKey rule') idx)
      (hid : ruleId rule' ∉ (s.listAt (loc rule')).ruleIdMap)
      (hkey : ∀ r ∈ s.stored (loc rule'), keyAttrs r ≠ keyAttrs rule')
      (hproc : h.procRule .insert rule' (some idx) w = (.returned false, w')) :
      Edit h s (((s.setList (loc rule')
        (((s.listAt (loc rule')).insertAt idx rule').removeAt idx (ruleId rule'))).setWorld
          (freed h rule' w')).setIds (refusedIds rule' g))
  | inserted (s : SvcsRuleCache R W) {rule rule' : R} {g : IdGenerator} {w w' : W} {idx : ℕ}
      {out : Outcome Bool} (hp : Prepared h s.idGenerator s.world rule rule' g w)
      (hidx : Bisect.IsRightPoint (s.listAt (loc rule')).seqNumList (seqKey rule') idx)
      (hid : ruleId rule' ∉ (s.listAt (loc rule')).ruleIdMap)
      (hkey : ∀ r ∈ s.stored (loc rule'), keyAttrs r ≠ keyAttrs rule')
      (hproc : h.procRule .insert rule' (some idx) w = (out, w')) (hout : out ≠ .returned false) :
      Edit h s (((s.setList (loc rule')
        ((s.listAt (loc rule')).insertAt idx rule')).setWorld w').setIds g)
  | deleted (s : SvcsRuleCache R W) {lc : Loc} {idx : ℕ} {del : R} {w : W}
      (hdel : (s.stored lc)[idx]? = some del)
      (hproc : h.procRule .delete del (some idx) s.world = (.returned true, w)) :
      Edit h s (((s.setList lc ((s.listAt lc).removeAt idx (ruleId del))).setWorld
        (freed h del w)).setIds (dropId (ruleId del) s.idGenerator))
  | deleteRefused (s : SvcsRuleCache R W) {lc : Loc} {idx : ℕ} {del : R} {w : W}
      {l : SvcsRuleList R} (hdel : (s.stored lc)[idx]? = some del)
      (hl : l = (s.listAt lc).removeAt idx (ruleId del))
      (hproc : h.procRule .delete del (some idx) s.world = (.returned false, w)) :
      Edit h s ((s.setWorld w).setList lc
        (l.insertAt (Bisect.bisectRight l.seqNumList (seqKey del)) del))
  | deleteRaised (s : SvcsRuleCache R W) {lc : Loc} {idx : ℕ} {del : R} {w : W}
      (hdel : (s.stored lc)[idx]? = some del)
      (hproc : h.procRule .delete del (some idx) s.world = (.raised, w)) :
      Edit h s ((s.setWorld w).setList lc ((s.listAt lc).removeAt idx (ruleId del)))
  | replaced (s : SvcsRuleCache R W) {lc : Loc} {idx : ℕ} {old new : R} {w : W}
      (hold : (s.stored lc)[idx]? = some old) (hloc : loc new = lc)
      (hid : ruleId new = ruleId old) (hseq : seqKey new = seqKey old)
      (hkey : ∀ r ∈ s.stored lc, keyAttrs r = keyAttrs new → ruleId r = ruleId new)
      (hproc : h.procRule .replace new (some idx) s.world = (.returned true, w)) :
      Edit h s ((s.setWorld w).setList lc ((s.listAt lc).setRule idx new))
  | replaceRefused (s : SvcsRuleCache R W) {new : R} {idx : ℕ} {out : Outcome Bool} {w : W}
      (hproc : h.procRule .replace new (some idx) s.world = (out, w))
      (hout : out ≠ .returned true) : Edit h s (s.setWorld w)

/-- `clear_all_rules` gets through one rule list. -/
inductive Clear (h : Handlers R W) : SvcsRuleCache R W → SvcsRuleCache R W → Prop
  | list (s : SvcsRuleCache R W) {lc : Loc} {g : IdGenerator} {w : W}
      (hclear : clearRules h (s.stored lc) s.idGenerator s.world = (.returned (), g, w)) :
      Clear h s (((s.dropList lc).setIds g).setWorld w)

/-- A sequence of edits. -/
abbrev Steps (h : Handlers R W) : SvcsRuleCache R W → SvcsRuleCache R W → Prop :=
  Relation.ReflTransGen (Edit h)

/-- A sequence of edits and cleared lists. -/
abbrev Changes (h : Handlers R W) : SvcsRuleCache R W → SvcsRuleCache R W → Prop :=
  Relation.ReflTransGen fun s s' => Edit h s s' ∨ Clear h s s'

/-! ## The invariant -/

/-- The rule lists are aligned, the rules are where they belong, and no two
rules share an id.  The ids of the stored rules are reserved, which is what
keeps a new id apart from them. -/
structure Sound (s : SvcsRuleCache R W) : Prop where
  aligned : ∀ lc, (s.listAt lc).Aligned
  placed : ∀ lc, ∀ r ∈ s.stored lc, loc r = lc
  reserved : ∀ lc, ∀ r ∈ s.stored lc, ∃ i, ruleId r = some i ∧ i ∈ s.idGenerator.resvedIds
  unique : ∀ lc lc' r r', r ∈ s.stored lc → r' ∈ s.stored lc' → ruleId r = ruleId r' → lc = lc'
  gen : s.idGenerator.WF

theorem sound_init (w : W) : Sound (R := R) (init w) := by
  have hnil : ∀ lc, (init w : SvcsRuleCache R W).listAt lc = .empty := fun lc => rfl
  have hnone : ∀ lc r, r ∉ (init w : SvcsRuleCache R W).stored lc :=
    fun lc r hr => absurd hr List.not_mem_nil
  refine ⟨?_, ?_, ?_, ?_, IdGenerator.new_wf⟩
  · intro lc
    rw [hnil]
    exact SvcsRuleList.aligned_empty
  · exact fun lc r hr => absurd hr (hnone lc r)
  · exact fun lc r hr => absurd hr (hnone lc r)
  · exact fun lc lc' r r' hr => absurd hr (hnone lc r)

/-- The id of a stored rule is reserved. -/
theorem Sound.reserved_id {s : SvcsRuleCache R W} (hs : s.Sound) {lc : Loc} {r : R} {i : ℤ}
    (hr : r ∈ s.stored lc) (hi : ruleId r = some i) : i ∈ s.idGenerator.resvedIds := by
  obtain ⟨j, hj, hres⟩ := hs.reserved lc r hr
  obtain rfl : j = i := Option.some_inj.mp (hj.symm.trans hi)
  exact hres

/-- A sound cache stays sound when the list at one place changes, as soon as
the new list is aligned, its rules belong there, and the ids of all stored
rules are reserved and distinct from the ids elsewhere. -/
theorem Sound.setList {s : SvcsRuleCache R W} (hs : s.Sound) {lc : Loc} {l : SvcsRuleList R}
    {g : IdGenerator} (n : ℕ) (w : W) (hl : l.Aligned) (hplaced : ∀ r ∈ l.rules, loc r = lc)
    (hres : ∀ r ∈ l.rules, ∃ i, ruleId r = some i ∧ i ∈ g.resvedIds)
    (hkeep : ∀ lc' r i, lc' ≠ lc → r ∈ s.stored lc' → ruleId r = some i → i ∈ g.resvedIds)
    (huniq : ∀ lc' r r', lc' ≠ lc → r ∈ l.rules → r' ∈ s.stored lc' → ruleId r ≠ ruleId r')
    (hg : g.WF) : Sound (R := R) ⟨s.rules.insert lc l, g, n, w⟩ := by
  have hself : (SvcsRuleCache.mk (s.rules.insert lc l) g n w).listAt lc = l :=
    listAt_setList_self s lc l
  have hother : ∀ lc', lc' ≠ lc →
      (SvcsRuleCache.mk (s.rules.insert lc l) g n w).listAt lc' = s.listAt lc' :=
    fun lc' h => listAt_setList_ne s l h
  refine ⟨?_, ?_, ?_, ?_, hg⟩
  · intro lc'
    by_cases h : lc' = lc
    · rw [h, hself]
      exact hl
    · rw [hother lc' h]
      exact hs.aligned lc'
  · intro lc' r hr
    rw [stored] at hr
    by_cases h : lc' = lc
    · rw [h, hself] at hr
      rw [h]
      exact hplaced r hr
    · rw [hother lc' h] at hr
      exact hs.placed lc' r hr
  · intro lc' r hr
    rw [stored] at hr
    by_cases h : lc' = lc
    · rw [h, hself] at hr
      exact hres r hr
    · rw [hother lc' h] at hr
      obtain ⟨i, hi, _⟩ := hs.reserved lc' r hr
      exact ⟨i, hi, hkeep lc' r i h hr hi⟩
  · intro lc1 lc2 r r' hr hr' hid
    rw [stored] at hr hr'
    by_cases h1 : lc1 = lc <;> by_cases h2 : lc2 = lc
    · rw [h1, h2]
    · rw [h1, hself] at hr
      rw [hother lc2 h2] at hr'
      exact absurd hid (huniq lc2 r r' h2 hr hr')
    · rw [hother lc1 h1] at hr
      rw [h2, hself] at hr'
      exact absurd hid.symm (huniq lc1 r' r h1 hr' hr)
    · rw [hother lc1 h1] at hr
      rw [hother lc2 h2] at hr'
      exact hs.unique lc1 lc2 r r' hr hr' hid

/-- A sound cache stays sound when the list at one place is dropped, as soon as
the ids of the other rules stay reserved. -/
theorem Sound.erase {s : SvcsRuleCache R W} (hs : s.Sound) (lc : Loc) {g : IdGenerator} (n : ℕ)
    (w : W) (hkeep : ∀ lc' r i, lc' ≠ lc → r ∈ s.stored lc' → ruleId r = some i → i ∈ g.resvedIds)
    (hg : g.WF) : Sound (R := R) ⟨s.rules.erase lc, g, n, w⟩ := by
  have hself : (SvcsRuleCache.mk (s.rules.erase lc) g n w).listAt lc = .empty :=
    listAt_dropList_self s lc
  have hother : ∀ lc', lc' ≠ lc →
      (SvcsRuleCache.mk (s.rules.erase lc) g n w).listAt lc' = s.listAt lc' :=
    fun lc' h => listAt_dropList_ne s h
  have hmem : ∀ lc' r, r ∈ (SvcsRuleCache.mk (s.rules.erase lc) g n w).stored lc' →
      lc' ≠ lc ∧ r ∈ s.stored lc' := by
    intro lc' r hr
    rw [stored] at hr
    by_cases h : lc' = lc
    · rw [h, hself] at hr
      cases hr
    · rw [hother lc' h] at hr
      exact ⟨h, hr⟩
  refine ⟨?_, ?_, ?_, ?_, hg⟩
  · intro lc'
    by_cases h : lc' = lc
    · rw [h, hself]
      exact SvcsRuleList.aligned_empty
    · rw [hother lc' h]
      exact hs.aligned lc'
  · exact fun lc' r hr => hs.placed lc' r (hmem lc' r hr).2
  · intro lc' r hr
    obtain ⟨h, hr⟩ := hmem lc' r hr
    obtain ⟨i, hi, _⟩ := hs.reserved lc' r hr
    exact ⟨i, hi, hkeep lc' r i h hr hi⟩
  · exact fun lc1 lc2 r r' hr hr' => hs.unique lc1 lc2 r r' (hmem lc1 r hr).2 (hmem lc2 r' hr').2

/-- A sound cache stays sound when only its ids change and the ids of the
stored rules stay reserved. -/
theorem Sound.setIds {s : SvcsRuleCache R W} (hs : s.Sound) {g : IdGenerator} (n : ℕ) (w : W)
    (hkeep : ∀ i ∈ s.idGenerator.resvedIds, i ∈ g.resvedIds) (hg : g.WF) :
    Sound (R := R) ⟨s.rules, g, n, w⟩ := by
  refine ⟨hs.aligned, hs.placed, ?_, hs.unique, hg⟩
  intro lc r hr
  obtain ⟨i, hi, hres⟩ := hs.reserved lc r hr
  exact ⟨i, hi, hkeep i hres⟩

/-! ## The edits keep the invariant -/

/-- The id of a prepared rule is new, and reserved. -/
theorem Prepared.fresh [LawfulSvcsRule R] {h : Handlers R W} {g g' : IdGenerator} {w w' : W}
    {rule rule' : R} (hp : Prepared h g w rule rule' g' w') (hg : g.WF) :
    g'.WF ∧ ∃ i, ruleId rule' = some i ∧ i ∉ g.resvedIds ∧
      g'.resvedIds = insert i g.resvedIds := by
  cases hp with
  | plain hid hneed =>
    obtain ⟨hwf, hnew, hset⟩ := takeId_some hg hid
    exact ⟨hwf, _, LawfulSvcsRule.ruleId_setRuleId _ _, hnew, hset⟩
  | ported hid hneed hsub =>
    obtain ⟨hwf, hnew, hset⟩ := takeId_some hg hid
    refine ⟨hwf, _, ?_, hnew, hset⟩
    rw [LawfulSvcsRule.ruleId_setPrivate, LawfulSvcsRule.ruleId_setRuleId]

/-- A reserved id that is dropped again leaves the reserved ids as they were. -/
theorem dropId_of_fresh {g g' : IdGenerator} {i : ℤ} (hnew : i ∉ g.resvedIds)
    (hset : g'.resvedIds = insert i g.resvedIds) :
    (dropId (some i) g').resvedIds = g.resvedIds := by
  rw [dropId, IdGenerator.releaseId_resvedIds, hset, Finset.erase_insert hnew]

/-- The rule at a position put out of its list, while the other ids stay
reserved. -/
theorem Sound.removeAt {s : SvcsRuleCache R W} (hs : s.Sound) {lc : Loc} {idx : ℕ} {del : R}
    (hdel : (s.stored lc)[idx]? = some del) {g : IdGenerator} (n : ℕ) (w : W)
    (hkeep : ∀ j ∈ s.idGenerator.resvedIds, some j ≠ ruleId del → j ∈ g.resvedIds) (hg : g.WF) :
    Sound (R := R)
      ⟨s.rules.insert lc ((s.listAt lc).removeAt idx (ruleId del)), g, n, w⟩ := by
  have hmem : ∀ r ∈ ((s.listAt lc).removeAt idx (ruleId del)).rules,
      r ∈ s.stored lc ∧ ruleId r ≠ ruleId del := by
    intro r hr
    have hnd : ((s.stored lc).map ruleId).Nodup := (hs.aligned lc).ids_nodup
    refine ⟨List.mem_of_mem_eraseIdx hr, ?_⟩
    intro hid
    have hperm : (del :: ((s.listAt lc).removeAt idx (ruleId del)).rules).Perm (s.stored lc) :=
      SvcsRuleList.perm_removeAt hdel _
    rw [← (hperm.map ruleId).nodup_iff, List.map_cons, List.nodup_cons] at hnd
    exact hnd.1 (List.mem_map.mpr ⟨r, hr, hid⟩)
  have hdelmem := List.mem_of_getElem? hdel
  refine hs.setList n w (SvcsRuleList.aligned_removeAt (hs.aligned lc) hdel) ?_ ?_ ?_ ?_ hg
  · exact fun r hr => hs.placed lc r (hmem r hr).1
  · intro r hr
    obtain ⟨i, hi, hres⟩ := hs.reserved lc r (hmem r hr).1
    exact ⟨i, hi, hkeep i hres (fun h => (hmem r hr).2 (hi.trans h))⟩
  · intro lc' r i hne hr hi
    refine hkeep i (hs.reserved_id hr hi) ?_
    intro h
    exact hne (hs.unique lc' lc r del hr hdelmem (hi.trans h))
  · intro lc' r r' hne hr hr' hid
    exact hne (hs.unique lc' lc r' r hr' (hmem r hr).1 hid.symm)

/-- A rule with an id of its own put in at its right point. -/
theorem Sound.insertAt {s : SvcsRuleCache R W} (hs : s.Sound) {rule : R} {idx : ℕ} {i : ℤ}
    (hi : ruleId rule = some i)
    (hidx : Bisect.IsRightPoint (s.listAt (loc rule)).seqNumList (seqKey rule) idx)
    (hkey : ∀ r ∈ s.stored (loc rule), keyAttrs r ≠ keyAttrs rule)
    (hnew : ∀ lc, ∀ r ∈ s.stored lc, ruleId r ≠ some i) {g : IdGenerator} (n : ℕ) (w : W)
    (hres : i ∈ g.resvedIds) (hkeep : ∀ j ∈ s.idGenerator.resvedIds, j ∈ g.resvedIds)
    (hg : g.WF) :
    Sound (R := R)
      ⟨s.rules.insert (loc rule) ((s.listAt (loc rule)).insertAt idx rule), g, n, w⟩ := by
  have hmem : ∀ r ∈ ((s.listAt (loc rule)).insertAt idx rule).rules,
      r = rule ∨ r ∈ s.stored (loc rule) := by
    intro r hr
    rw [SvcsRuleList.insertAt] at hr
    exact List.eq_or_mem_of_mem_insertIdx hr
  have hid : ruleId rule ∉ (s.listAt (loc rule)).ruleIdMap := by
    rw [(hs.aligned _).mem_ruleIdMap]
    rintro ⟨r, hr, hk⟩
    exact hnew _ r hr (hk.trans hi)
  refine hs.setList n w (SvcsRuleList.aligned_insertAt (hs.aligned _) hidx hid hkey)
    ?_ ?_ ?_ ?_ hg
  · intro r hr
    rcases hmem r hr with rfl | hr
    · rfl
    · exact hs.placed _ r hr
  · intro r hr
    rcases hmem r hr with rfl | hr
    · exact ⟨i, hi, hres⟩
    · obtain ⟨j, hj, hjr⟩ := hs.reserved _ r hr
      exact ⟨j, hj, hkeep j hjr⟩
  · intro lc' r j _ hr hj
    exact hkeep j (hs.reserved_id hr hj)
  · intro lc' r r' hne hr hr' heq
    rcases hmem r hr with rfl | hr
    · exact hnew lc' r' hr' (heq.symm.trans hi)
    · exact hne (hs.unique lc' _ r' r hr' hr heq.symm)

/-- A rule replaced by a version of itself that matches no other rule. -/
theorem Sound.setRule {s : SvcsRuleCache R W} (hs : s.Sound) {lc : Loc} {idx : ℕ} {old new : R}
    (hold : (s.stored lc)[idx]? = some old) (hloc : loc new = lc)
    (hid : ruleId new = ruleId old) (hseq : seqKey new = seqKey old)
    (hkey : ∀ r ∈ s.stored lc, keyAttrs r = keyAttrs new → ruleId r = ruleId new)
    (n : ℕ) (w : W) :
    Sound (R := R)
      ⟨s.rules.insert lc ((s.listAt lc).setRule idx new), s.idGenerator, n, w⟩ := by
  have holdmem := List.mem_of_getElem? hold
  have hmem : ∀ r ∈ ((s.listAt lc).setRule idx new).rules,
      r = new ∨ r ∈ s.stored lc := by
    intro r hr
    rw [SvcsRuleList.setRule] at hr
    exact (List.mem_or_eq_of_mem_set hr).symm
  refine hs.setList n w (SvcsRuleList.aligned_setRule (hs.aligned lc) hold hid hseq hkey)
    ?_ ?_ ?_ ?_ hs.gen
  · intro r hr
    rcases hmem r hr with rfl | hr
    · exact hloc
    · exact hs.placed lc r hr
  · intro r hr
    rcases hmem r hr with rfl | hr
    · rw [hid]
      exact hs.reserved lc old holdmem
    · exact hs.reserved lc r hr
  · intro lc' r i _ hr hi
    exact hs.reserved_id hr hi
  · intro lc' r r' hne hr hr' heq
    rcases hmem r hr with rfl | hr
    · exact hne (hs.unique lc' lc r' old hr' holdmem (heq.symm.trans hid))
    · exact hne (hs.unique lc' lc r' r hr' hr heq.symm)

/-- In an aligned list the key attributes tell the rules apart. -/
theorem Sound.keyAttrs_inj {s : SvcsRuleCache R W} (hs : s.Sound) {lc : Loc} {r r' : R}
    (hr : r ∈ s.stored lc) (hr' : r' ∈ s.stored lc) (h : keyAttrs r = keyAttrs r') : r = r' :=
  List.inj_on_of_nodup_map (List.pairwise_map.mpr (hs.aligned lc).nodup) hr hr' h

/-- What `clearRules` does to the ids: those of its rules are released. -/
theorem clearRules_ids {h : Handlers R W} {rules : List R} {g g' : IdGenerator} {w w' : W}
    {out : Outcome Unit} (hg : g.WF) (hclear : clearRules h rules g w = (out, g', w')) :
    g'.WF ∧ ∀ j ∈ g.resvedIds, (∀ r ∈ rules, ruleId r ≠ some j) → j ∈ g'.resvedIds := by
  induction rules generalizing g w with
  | nil =>
    obtain ⟨-, rfl, -⟩ : _ ∧ g = g' ∧ w = w' := by simpa [clearRules] using hclear
    exact ⟨hg, fun j hj _ => hj⟩
  | cons rule rest ih =>
    rw [clearRules] at hclear
    split at hclear
    · obtain ⟨-, rfl, -⟩ : _ ∧ g = g' ∧ _ = w' := by simpa using hclear
      exact ⟨hg, fun j hj _ => hj⟩
    · obtain ⟨hwf, hkeep⟩ := ih (dropId_wf hg _) hclear
      refine ⟨hwf, fun j hj hne => hkeep j ?_ fun r hr => hne r (List.mem_cons_of_mem _ hr)⟩
      exact mem_dropId.mpr ⟨fun he => hne rule List.mem_cons_self he.symm, hj⟩

/-- A list whose rules are reordered. -/
theorem Sound.permute {s : SvcsRuleCache R W} (hs : s.Sound) {lc : Loc} {l : SvcsRuleList R}
    (hl : l.Aligned) (hmem : ∀ r, r ∈ l.rules ↔ r ∈ s.stored lc) {g : IdGenerator} (n : ℕ) (w : W)
    (hkeep : ∀ j ∈ s.idGenerator.resvedIds, j ∈ g.resvedIds) (hg : g.WF) :
    Sound (R := R) ⟨s.rules.insert lc l, g, n, w⟩ := by
  refine hs.setList n w hl ?_ ?_ ?_ ?_ hg
  · exact fun r hr => hs.placed lc r ((hmem r).mp hr)
  · intro r hr
    obtain ⟨i, hi, hres⟩ := hs.reserved lc r ((hmem r).mp hr)
    exact ⟨i, hi, hkeep i hres⟩
  · intro lc' r i _ hr hi
    exact hkeep i (hs.reserved_id hr hi)
  · intro lc' r r' hne hr hr' heq
    exact hne (hs.unique lc' lc r' r hr' ((hmem r).mp hr) heq.symm)

/-- Every edit keeps the invariant. -/
theorem Sound.edit [LawfulSvcsRule R] {h : Handlers R W} {s s' : SvcsRuleCache R W}
    (hs : s.Sound) (he : Edit h s s') : s'.Sound := by
  cases he with
  | mutex n => exact hs.setIds n s.world (fun _ hi => hi) hs.gen
  | openList lc hlc =>
    have hnil : s.stored lc = [] := stored_of_notMem hlc
    refine hs.setList s.mutex s.world SvcsRuleList.aligned_empty ?_ ?_ ?_ ?_ hs.gen
    · exact fun r hr => absurd hr List.not_mem_nil
    · exact fun r hr => absurd hr List.not_mem_nil
    · intro lc' r i _ hr hi
      exact hs.reserved_id hr hi
    · exact fun lc' r r' _ hr => absurd hr List.not_mem_nil
  | closeList lc hlc =>
    refine hs.erase lc s.mutex s.world ?_ hs.gen
    intro lc' r i _ hr hi
    exact hs.reserved_id hr hi
  | readStats lc hrule hget =>
    have hmem := List.mem_of_getElem? hrule
    refine hs.setRule hrule ?_ ?_ ?_ ?_ s.mutex _
    · rw [LawfulSvcsRule.loc_setStats]
      exact hs.placed lc _ hmem
    · exact LawfulSvcsRule.ruleId_setStats _ _
    · exact LawfulSvcsRule.seqKey_setStats _ _
    · intro r hr hk
      rw [LawfulSvcsRule.keyAttrs_setStats] at hk
      rw [hs.keyAttrs_inj hr hmem hk, LawfulSvcsRule.ruleId_setStats]
  | readNothing rule idx => exact hs.setIds s.mutex _ (fun _ hi => hi) hs.gen
  | insertUnported hid hneed hp =>
    obtain ⟨hwf, hnew, hset⟩ := takeId_some hs.gen hid
    refine hs.setIds s.mutex _ ?_ (dropId_wf hwf _)
    rw [dropId_of_fresh hnew hset]
    exact fun i hi => hi
  | insertMatched hp =>
    obtain ⟨hwf, i, hi, hnew, hset⟩ := hp.fresh hs.gen
    refine hs.setIds s.mutex _ ?_ (dropId_wf hwf _)
    rw [hi, dropId_of_fresh hnew hset]
    exact fun i hi => hi
  | @insertRefused rule rule' g w w' idx hp hidx hid hkey hproc =>
    obtain ⟨hwf, i, hi, hnew, hset⟩ := hp.fresh hs.gen
    have hsub : ∀ j ∈ s.idGenerator.resvedIds,
        j ∈ (refusedIds rule' g).resvedIds := by
      intro j hj
      rw [refusedIds]
      split
      · rw [hi, dropId_of_fresh hnew hset]
        exact hj
      · rw [hset]
        exact Finset.mem_insert_of_mem hj
    refine hs.permute ?_ ?_ s.mutex _ hsub ?_
    · exact SvcsRuleList.aligned_removeAt
        (SvcsRuleList.aligned_insertAt (hs.aligned _) hidx hid hkey)
        (SvcsRuleList.getElem?_insertAt (hs.aligned _) hidx)
    · intro r
      rw [SvcsRuleList.removeAt_insertAt_rules, stored]
    · rw [refusedIds]
      split
      · exact dropId_wf hwf _
      · exact hwf
  | inserted hp hidx hid hkey hproc hout =>
    obtain ⟨hwf, i, hi, hnew, hset⟩ := hp.fresh hs.gen
    refine hs.insertAt hi hidx hkey ?_ s.mutex _ ?_ ?_ hwf
    · intro lc r hr heq
      exact hnew (hs.reserved_id hr heq)
    · rw [hset]
      exact Finset.mem_insert_self _ _
    · intro j hj
      rw [hset]
      exact Finset.mem_insert_of_mem hj
  | deleted hdel hproc =>
    refine hs.removeAt hdel s.mutex _ ?_ (dropId_wf hs.gen _)
    exact fun j hj hne => mem_dropId.mpr ⟨hne, hj⟩
  | @deleteRefused lc idx del w l hdel hl hproc =>
    subst hl
    obtain ⟨i, hi, -⟩ := hs.reserved lc del (List.mem_of_getElem? hdel)
    obtain ⟨-, hfresh, hkey⟩ :=
      SvcsRuleList.Aligned.insert_removeAt (hs.aligned lc) hdel (by rw [hi]; rfl)
    have hl' := SvcsRuleList.aligned_removeAt (hs.aligned lc) hdel
    have hidx := Bisect.bisectRight_isRightPoint hl'.sorted (seqKey del)
    refine hs.permute (SvcsRuleList.aligned_insertAt hl' hidx hfresh hkey) ?_ s.mutex w
      (fun j hj => hj) hs.gen
    exact fun r => (SvcsRuleList.reinsert_perm (hs.aligned lc) hdel hidx).mem_iff
  | deleteRaised hdel hproc =>
    exact hs.removeAt hdel s.mutex _ (fun j hj _ => hj) hs.gen
  | replaced hold hloc hid hseq hkey hproc =>
    exact hs.setRule hold hloc hid hseq hkey s.mutex _
  | replaceRefused hproc hout => exact hs.setIds s.mutex _ (fun _ hi => hi) hs.gen

/-- A cleared list keeps the invariant. -/
theorem Sound.clear {h : Handlers R W} {s s' : SvcsRuleCache R W} (hs : s.Sound)
    (hc : Clear h s s') : s'.Sound := by
  obtain ⟨hclear⟩ := hc
  rename_i lc g w
  obtain ⟨hwf, hkeep⟩ := clearRules_ids hs.gen hclear
  refine hs.erase lc s.mutex w ?_ hwf
  intro lc' r i hne hr hi
  refine hkeep i (hs.reserved_id hr hi) ?_
  intro r' hr' hid
  exact hne (hs.unique lc' lc r r' hr hr' (hi.trans hid.symm))

/-- Every sequence of edits keeps the invariant. -/
theorem Sound.steps [LawfulSvcsRule R] {h : Handlers R W} {s s' : SvcsRuleCache R W}
    (hs : s.Sound) (hsteps : Steps h s s') : s'.Sound := by
  induction hsteps with
  | refl => exact hs
  | tail _ he ih => exact ih.edit he

/-- Every sequence of changes keeps the invariant. -/
theorem Sound.changes [LawfulSvcsRule R] {h : Handlers R W} {s s' : SvcsRuleCache R W}
    (hs : s.Sound) (hsteps : Changes h s s') : s'.Sound := by
  induction hsteps with
  | refl => exact hs
  | tail _ hc ih =>
    rcases hc with he | hc
    · exact ih.edit he
    · exact ih.clear hc

end SvcsRuleCache

end OpxNasLinux
