import OpxNasLinux.CacheInvariants

/-!
# What the answer of an operation says

The operations of a cache answer with a success, a refusal or an exception.
This file has what the first two say about the rules that are stored.

* `SameRules` says that two states hold the same rules, in any order.  Reading
  counters and a refused deletion leave it (`findRuleById_sameRules`,
  `deleteRuleById_refused`).
* `Removed` is the state after a rule has been deleted (`deleteRuleById_done`).
* Every reachable state is sound, as soon as no `clear_all_rules` was cut short
  by an exception (`run_sound`), and its id generator has no upper bound
  (`run_maxId`).
-/

namespace OpxNasLinux

open SvcsRule Run

namespace IdGenerator

/-- An id that has been released can be reserved again. -/
theorem reserveId_free {g : IdGenerator} (hmax : g.maxId = none) {i : ℤ} (hmin : g.minId ≤ i)
    (hi : i ∉ g.resvedIds) : (g.reserveId i).1 = true := by
  have hrange : ¬ (i < g.minId ∨ g.maxId.any (fun m => decide (m < i)) = true) := by
    rw [hmax, not_or]
    exact ⟨not_lt.mpr hmin, by simp⟩
  rw [reserveId, if_neg hrange, if_neg hi]
  split <;> rfl

end IdGenerator

namespace SvcsRuleCache

variable {R W : Type}

/-! ## The bound of the id generator -/

theorem takeId_maxId (id : Option ℤ) (g : IdGenerator) : (takeId id g).2.maxId = g.maxId := by
  cases id with
  | none =>
    rw [takeId, IdGenerator.getNewId]
    split
    · rfl
    · simp [IdGenerator.addId]
  | some i =>
    rw [takeId]
    split
    · rfl
    · have hres : (g.reserveId i).2.maxId = g.maxId := by
        rw [IdGenerator.reserveId]
        split_ifs <;> simp [IdGenerator.addId]
      split <;>
        · rename_i heq
          rwa [heq] at hres

theorem dropId_maxId {id : Option ℤ} {g : IdGenerator} : (dropId id g).maxId = g.maxId := by
  cases id with
  | none => rfl
  | some i =>
    rw [dropId, IdGenerator.releaseId]
    split
    · simp [IdGenerator.dropId]
    · rfl

theorem takeId_maxId_eq {id : Option ℤ} {i : Option ℤ} {g g' : IdGenerator}
    (h : takeId id g = (i, g')) : g'.maxId = g.maxId := by
  have hmax := takeId_maxId id g
  rwa [h] at hmax

/-! ## Lists that are opened and closed -/

/-- Opening a list stores nothing. -/
@[simp] theorem stored_openList (s : SvcsRuleCache R W) (lc lc' : Loc) :
    (s.openList lc).stored lc' = s.stored lc' := by
  rw [openList]
  split_ifs with hmem
  · rfl
  · by_cases h : lc' = lc
    · rw [h, stored_setList_self, stored, listAt_of_notMem hmem]
    · exact stored_setList_ne s _ h

/-- A list that is closed was empty. -/
@[simp] theorem stored_closeList (s : SvcsRuleCache R W) (lc lc' : Loc) :
    (s.closeList lc).stored lc' = s.stored lc' := by
  rw [closeList]
  split_ifs with hempty
  · by_cases h : lc' = lc
    · rw [h, stored, listAt_dropList_self, List.isEmpty_iff.mp hempty]
      rfl
    · rw [stored, listAt_dropList_ne s h, stored]
  · rfl

/-! ## The same rules -/

variable [SvcsRule R]

/-- Two states hold the same rules, up to the order and the counters. -/
def SameRules (s s' : SvcsRuleCache R W) : Prop :=
  ∀ lc, ((s'.stored lc).map core).Perm ((s.stored lc).map core)

theorem SameRules.refl (s : SvcsRuleCache R W) : SameRules s s := fun _ => .refl _

theorem SameRules.trans {s t u : SvcsRuleCache R W} (h1 : SameRules s t) (h2 : SameRules t u) :
    SameRules s u := fun lc => (h2 lc).trans (h1 lc)

theorem SameRules.mem {s s' : SvcsRuleCache R W} (hsame : SameRules s s') {lc : Loc} {r : R}
    (hr : r ∈ s'.stored lc) : ∃ r' ∈ s.stored lc, core r' = core r :=
  List.mem_map.mp ((hsame lc).mem_iff.mp (List.mem_map_of_mem hr))

/-- A list that is permuted holds the same rules. -/
theorem SameRules.setList {s : SvcsRuleCache R W} {lc : Loc} {l : SvcsRuleList R}
    (hl : (l.rules.map core).Perm ((s.stored lc).map core)) : SameRules s (s.setList lc l) := by
  intro lc'
  by_cases h : lc' = lc
  · rw [h, stored_setList_self]
    exact hl
  · rw [stored_setList_ne s l h]

/-- `find_rule_by_id` changes counters at most. -/
theorem findRuleById_sameRules [LawfulSvcsRule R] (h : Handlers R W) (ord : DictOrder) (id : ℤ)
    (s : SvcsRuleCache R W) : SameRules s (findRuleById h ord id s).2 := by
  rw [findRuleById]
  split
  · exact .refl s
  · rename_i lc idx _
    split
    · exact .refl s
    · rename_i rule hrule
      split_ifs
      · split
        · exact .refl s
        · exact .refl s
        · rename_i st w _
          have hcore : ((s.stored lc).set idx (setStats st rule)).map core =
              (s.stored lc).map core :=
            SvcsRuleList.map_set_of_eq core hrule (LawfulSvcsRule.core_setStats st rule)
          exact SameRules.setList (s := s) (l := (s.listAt lc).setRule idx (setStats st rule))
            (.of_eq hcore)
      · exact .refl s

/-- A replacement that iptables refuses leaves the rules alone. -/
theorem replaceRule_sameRules [LawfulSvcsRule R] (h : Handlers R W) (ord : DictOrder) (id : ℤ)
    (new : R) (s : SvcsRuleCache R W)
    (hout : (replaceRule h ord id new s).1 = .returned false) :
    SameRules s (replaceRule h ord id new s).2 := by
  have hsame := findRuleById_sameRules h ord id s.acquire
  rw [replaceRule] at hout ⊢
  generalize findRuleById h ord id s.acquire = found at *
  obtain ⟨out, t⟩ := found
  rcases out with (_ | ⟨old, idx⟩) | _
  · exact hsame
  · dsimp only at hout ⊢
    split at hout
    · cases hout
    · exact hsame
    · cases hout
  · cases hout

/-- After a replacement the new version is stored. -/
theorem replaceRule_done [LawfulSvcsRule R] (h : Handlers R W) (ord : DictOrder) (id : ℤ) (new : R)
    {s : SvcsRuleCache R W} (hs : s.Sound)
    (hout : (replaceRule h ord id new s).1 = .returned true) :
    ∃ lc, new ∈ (replaceRule h ord id new s).2.stored lc := by
  have hs' : s.acquire.Sound := hs.setIds _ _ (fun _ hi => hi) hs.gen
  obtain ⟨-, -, hfound⟩ := findRuleById_spec (h := h) ord id hs'
  rw [replaceRule] at hout ⊢
  generalize findRuleById h ord id s.acquire = found at *
  obtain ⟨out, t⟩ := found
  rcases out with (_ | ⟨old, idx⟩) | _
  · cases hout
  · have hlt := (List.getElem?_eq_some_iff.mp (hfound old idx rfl).1).1
    dsimp only at hout ⊢
    split at hout
    · cases hout
    · cases hout
    · refine ⟨loc old, ?_⟩
      rw [stored_release, stored_setList_self]
      exact List.mem_of_getElem? (List.getElem?_set_self hlt)
  · cases hout

/-! ## Deletions -/

/-- A stored rule is told by its id. -/
theorem Sound.ruleId_inj {s : SvcsRuleCache R W} (hs : s.Sound) {lc lc' : Loc} {r r' : R}
    (hr : r ∈ s.stored lc) (hr' : r' ∈ s.stored lc') (hid : ruleId r = ruleId r') : r = r' := by
  obtain rfl := hs.unique lc lc' r r' hr hr' hid
  exact List.inj_on_of_nodup_map (hs.aligned lc).ids_nodup hr hr' hid

/-- The state after the rule with the id has been deleted from `s`. -/
structure Removed (id : ℤ) (s s' : SvcsRuleCache R W) : Prop where
  gone : ∀ lc, ∀ r ∈ s'.stored lc, ruleId r ≠ some id
  sub : ∀ lc, ∀ r ∈ s'.stored lc, r ∈ s.stored lc
  ids : s'.idGenerator = dropId (some id) s.idGenerator

/-- The state with a rule taken out of its list. -/
theorem removed_of_removeAt {s s' : SvcsRuleCache R W} (hs : s.Sound) {lc : Loc} {idx : ℕ}
    {del : R} {id : ℤ} (hdel : (s.stored lc)[idx]? = some del) (hid : ruleId del = some id)
    (hstored : ∀ lc', s'.stored lc' =
      (s.setList lc ((s.listAt lc).removeAt idx (ruleId del))).stored lc')
    (hids : s'.idGenerator = dropId (some id) s.idGenerator) : Removed id s s' := by
  have hperm : (del :: ((s.listAt lc).removeAt idx (ruleId del)).rules).Perm (s.stored lc) :=
    SvcsRuleList.perm_removeAt hdel _
  have hnd : ((s.stored lc).map ruleId).Nodup := (hs.aligned lc).ids_nodup
  rw [← (hperm.map ruleId).nodup_iff, List.map_cons, List.nodup_cons] at hnd
  refine ⟨?_, ?_, hids⟩
  · intro lc' r hr hrid
    rw [hstored] at hr
    by_cases h : lc' = lc
    · rw [h, stored_setList_self] at hr
      exact hnd.1 (List.mem_map.mpr ⟨r, hr, hrid.trans hid.symm⟩)
    · rw [stored_setList_ne s _ h] at hr
      exact h (hs.unique lc' lc r del hr (List.mem_of_getElem? hdel) (hrid.trans hid.symm))
  · intro lc' r hr
    rw [hstored] at hr
    by_cases h : lc' = lc
    · rw [h, stored_setList_self] at hr
      rw [h]
      exact List.mem_of_mem_eraseIdx hr
    · rwa [stored_setList_ne s _ h] at hr

/-- A deletion that succeeds returns the rule that was taken out. -/
theorem deleteFound_done {h : Handlers R W} {s s' : SvcsRuleCache R W} {lc : Loc} {idx : ℕ}
    {del r : R} {id : Option ℤ} (hout : deleteFound h del idx lc id s = (.returned (some r), s')) :
    r = del ∧ (∀ lc', s'.stored lc' = s.stored lc') ∧ s'.idGenerator = dropId id s.idGenerator := by
  rw [deleteFound] at hout
  split at hout
  · cases hout
  · obtain ⟨hr, rfl⟩ := Prod.mk.inj hout
    cases hr
    exact ⟨rfl, fun lc' => by simp, rfl⟩
  · cases hout

/-- A deletion that iptables refuses puts the rule back. -/
theorem deleteFound_refused {h : Handlers R W} {s s' : SvcsRuleCache R W} (hs : s.Sound) {lc : Loc}
    {idx : ℕ} {del : R} (hdel : (s.stored lc)[idx]? = some del)
    (hout : deleteFound h del idx lc (ruleId del)
      (s.setList lc ((s.listAt lc).removeAt idx (ruleId del))) = (.returned none, s')) :
    SameRules s s' := by
  have hmem := List.mem_of_getElem? hdel
  have hlc := hs.placed lc del hmem
  obtain ⟨i, hi, -⟩ := hs.reserved lc del hmem
  rw [deleteFound] at hout
  split at hout
  · cases hout
  · cases hout
  · rename_i w hproc
    have hback : ({ lc with vrfName := (loc del).vrfName } : Loc) = lc := by rw [hlc]
    obtain ⟨hins, -, -⟩ :=
      SvcsRuleList.Aligned.insert_removeAt (hs.aligned lc) hdel (by rw [hi]; rfl)
    dsimp only at hout
    rw [hback, listAt_setList_self, hins] at hout
    obtain ⟨-, rfl⟩ := Prod.mk.inj hout
    have hl' := SvcsRuleList.aligned_removeAt (hs.aligned lc) hdel
    have hpoint := Bisect.bisectRight_isRightPoint hl'.sorted (seqKey del)
    have hperm := SvcsRuleList.reinsert_perm (hs.aligned lc) hdel hpoint
    intro lc'
    rw [stored_release, stored_closeList]
    by_cases hne : lc' = lc
    · rw [hne, stored_setList_self]
      exact hperm.map core
    · rw [stored_setList_ne _ _ hne, stored_setWorld, stored_setList_ne _ _ hne]

theorem findRuleById_ids (h : Handlers R W) (ord : DictOrder) (id : ℤ) (s : SvcsRuleCache R W) :
    (findRuleById h ord id s).2.idGenerator = s.idGenerator := by
  rw [findRuleById]
  split
  · rfl
  · split
    · rfl
    · split_ifs
      · split <;> rfl
      · rfl

/-- A deletion by id that fails leaves the rules alone. -/
theorem deleteRuleById_refused [LawfulSvcsRule R] {h : Handlers R W} {ord : DictOrder} {id : ℤ}
    {s s' : SvcsRuleCache R W} (hs : s.Sound)
    (hout : deleteRuleById h ord id s = (.returned none, s')) : SameRules s s' := by
  have hs' : s.acquire.Sound := hs.setIds _ _ (fun _ hi => hi) hs.gen
  obtain ⟨hsteps, -, hfound⟩ := findRuleById_spec (h := h) ord id hs'
  have hsame := findRuleById_sameRules h ord id s.acquire
  have hsound := hs'.steps hsteps
  rw [deleteRuleById] at hout
  generalize findRuleById h ord id s.acquire = found at *
  obtain ⟨out, t⟩ := found
  rcases out with (_ | ⟨del, idx⟩) | _
  · obtain ⟨-, rfl⟩ := Prod.mk.inj hout
    exact hsame
  · obtain ⟨hdel, hid⟩ := hfound del idx rfl
    dsimp only at hout
    rw [(hsound.aligned _).removeById_eq hdel hid, ← hid] at hout
    exact hsame.trans (deleteFound_refused hsound hdel hout)
  · cases hout

/-- A deletion by id that succeeds takes out the one rule with the id. -/
theorem deleteRuleById_done [LawfulSvcsRule R] {h : Handlers R W} {ord : DictOrder} {id : ℤ}
    {s s' : SvcsRuleCache R W} {del : R} (hs : s.Sound)
    (hout : deleteRuleById h ord id s = (.returned (some del), s')) :
    ∃ t, SameRules s t ∧ t.Sound ∧ t.idGenerator = s.idGenerator ∧ Removed id t s' ∧
      del ∈ t.stored (loc del) ∧ ruleId del = some id := by
  have hs' : s.acquire.Sound := hs.setIds _ _ (fun _ hi => hi) hs.gen
  obtain ⟨hsteps, -, hfound⟩ := findRuleById_spec (h := h) ord id hs'
  have hsame := findRuleById_sameRules h ord id s.acquire
  have hids := findRuleById_ids h ord id s.acquire
  have hsound := hs'.steps hsteps
  rw [deleteRuleById] at hout
  generalize findRuleById h ord id s.acquire = found at *
  obtain ⟨out, t⟩ := found
  rcases out with (_ | ⟨r, idx⟩) | _
  · cases hout
  · obtain ⟨hdel, hid⟩ := hfound r idx rfl
    dsimp only at hout
    rw [(hsound.aligned _).removeById_eq hdel hid, ← hid] at hout
    obtain ⟨rfl, hstored, hgen⟩ := deleteFound_done hout
    rw [hid] at hgen
    exact ⟨t, hsame, hsound, hids, removed_of_removeAt hsound hdel hid hstored hgen,
      List.mem_of_getElem? hdel, hid⟩
  · cases hout

/-! ## Insertions -/

/-- What an insertion leaves that has called iptables for `rule`. -/
structure Attempted (h : Handlers R W) (rule : R) (g : IdGenerator) (s : SvcsRuleCache R W)
    (out : Outcome Bool) (s' : SvcsRuleCache R W) : Prop where
  call : ∃ idx, h.procRule .insert rule (some idx) s.world = (out, s'.world)
  ids : s'.idGenerator = if out = .returned false then refusedIds rule g else g
  refused : out = .returned false → ∀ lc, s'.stored lc = s.stored lc
  done : out = .returned true → rule ∈ s'.stored (loc rule)

/-- The insertion of a rule with a free id that matches no stored rule calls
iptables, and answers what iptables answers. -/
theorem insertRule_free [LawfulSvcsRule R] {h : Handlers R W} {s : SvcsRuleCache R W}
    (hs : s.Sound) {rule : R} {i : ℤ} {g : IdGenerator} (hstr : strRaises rule = false)
    (hneed : needsPrivate rule = false) (hid : takeId (ruleId rule) s.idGenerator = (some i, g))
    (hgone : ∀ r ∈ s.stored (loc rule), ruleId r ≠ some i)
    (hkey : ∀ r ∈ s.stored (loc rule), keyAttrs r ≠ keyAttrs rule) :
    Attempted h (setRuleId i rule) g s (insertRule h rule s).1 (insertRule h rule s).2.2 := by
  have hneed' : needsPrivate (setRuleId i rule) = false := by
    rwa [LawfulSvcsRule.needsPrivate_setRuleId]
  have hfreed : ∀ w, freed h (setRuleId i rule) w = w := fun w => by
    rw [freed, hneed', if_neg Bool.false_ne_true]
  have hloc : loc (setRuleId i rule) = loc rule := LawfulSvcsRule.loc_setRuleId i rule
  have hlist : (s.acquire.openList (loc rule)).listAt (loc rule) = s.listAt (loc rule) := by
    rw [openList]
    split_ifs with hmem
    · rfl
    · rw [listAt_setList_self]
      exact (listAt_of_notMem hmem).symm
  have hal := hs.aligned (loc rule)
  have hworld : (s.acquire.openList (loc rule)).world = s.world := by
    rw [openList]
    split <;> rfl
  have hfresh : ruleId (setRuleId i rule) ∉ (s.listAt (loc rule)).ruleIdMap := by
    rw [hal.mem_ruleIdMap, LawfulSvcsRule.ruleId_setRuleId]
    rintro ⟨r, hr, hrid⟩
    exact hgone r hr hrid
  have hkey' : ∀ r ∈ (s.listAt (loc rule)).rules, keyAttrs r ≠ keyAttrs (setRuleId i rule) := by
    rw [LawfulSvcsRule.keyAttrs_setRuleId]
    exact hkey
  have hins := SvcsRuleList.Aligned.insert_eq (by simp) hfresh hkey'
  have hpoint := Bisect.bisectRight_isRightPoint hal.sorted (seqKey (setRuleId i rule))
  generalize Bisect.bisectRight (s.listAt (loc rule)).seqNumList (seqKey (setRuleId i rule)) = idx
    at hins hpoint
  have hget := SvcsRuleList.getElem?_insertAt hal hpoint
  have hal' := SvcsRuleList.aligned_insertAt hal hpoint hfresh hkey'
  rw [insertRule, if_neg (by rw [hstr]; exact Bool.false_ne_true), hid]
  dsimp only
  rw [insertReserved, if_neg (by rw [hneed']; exact Bool.false_ne_true), insertProgram, hloc,
    listAt_setIds, hlist, hins]
  dsimp only
  have hw : ((s.acquire.openList (loc rule)).setIds g).world = s.world := hworld
  rw [hw]
  cases hproc : h.procRule .insert (setRuleId i rule) (some idx) s.world with
  | mk out w =>
    rcases out with (_ | _) | _
    · refine ⟨⟨idx, ?_⟩, rfl, fun _ => ?_, by rintro ⟨⟩⟩
      · dsimp only [release, setIds, setWorld]
        rw [hfreed, hproc]
      · intro lc
        dsimp only
        rw [stored_release, stored_setIds, stored_setWorld]
        rw [hal'.remove_eq hget (by simp)]
        by_cases hlc : lc = loc rule
        · rw [hlc, stored_setList_self, SvcsRuleList.removeAt_insertAt_rules]
          rfl
        · rw [stored_setList_ne _ _ hlc, stored_setList_ne _ _ hlc, stored_setIds,
            stored_openList, stored_acquire]
    · refine ⟨⟨idx, hproc⟩, rfl, (by rintro ⟨⟩), fun _ => ?_⟩
      dsimp only
      rw [hloc, stored_release, stored_setWorld, stored_setList_self]
      exact List.mem_of_getElem? hget
    · exact ⟨⟨idx, hproc⟩, rfl, (by rintro ⟨⟩), by rintro ⟨⟩⟩

/-- The insertion of a rule whose id is used does not get to iptables. -/
theorem insertRule_used {h : Handlers R W} {s : SvcsRuleCache R W} {rule : R} {i : ℤ}
    (hstr : strRaises rule = false) (hid : ruleId rule = some i)
    (hused : i ∈ s.idGenerator.resvedIds) :
    insertRule h rule s = (.returned false, rule, (s.acquire.openList (loc rule)).release) := by
  have htake : takeId (ruleId rule) s.idGenerator = (none, s.idGenerator) := by
    rw [hid, takeId, IdGenerator.isIdUsed, if_pos (decide_eq_true hused)]
  have hids : (s.acquire.openList (loc rule)).setIds s.idGenerator =
      s.acquire.openList (loc rule) := by
    rw [openList]
    split <;> rfl
  rw [insertRule, if_neg (by rw [hstr]; exact Bool.false_ne_true), htake]
  dsimp only
  rw [hids]

/-- An id that a deletion has released can be taken again. -/
theorem takeId_dropId {g : IdGenerator} (hg : g.WF) (hmax : g.maxId = none) {i : ℤ}
    (hi : i ∈ g.resvedIds) : ∃ g', takeId (some i) (dropId (some i) g) = (some i, g') ∧
      i ∈ g'.resvedIds := by
  have hfree : i ∉ (dropId (some i) g).resvedIds := fun h => (mem_dropId.mp h).1 rfl
  have hmin : (dropId (some i) g).minId = g.minId := by
    rw [dropId, IdGenerator.releaseId, if_pos hi]
    exact IdGenerator.lowerMax_minId (g.dropId i) i
  have hres := IdGenerator.reserveId_free (dropId_maxId.trans hmax)
    (by rw [hmin]; exact hg.min_le i hi) hfree
  cases hr : (dropId (some i) g).reserveId i with
  | mk b g' =>
    rw [hr] at hres
    replace hres : b = true := hres
    subst hres
    obtain ⟨-, -, heq⟩ := IdGenerator.reserveId_true (dropId_wf hg _) hr
    refine ⟨g', ?_, by rw [heq]; exact Finset.mem_insert_self _ _⟩
    rw [takeId, IdGenerator.isIdUsed, if_neg (by simpa using hfree), hr]

/-! ## Reachable states -/

/-- The request does not cut a `clear_all_rules` short by an exception. -/
def ClearsThrough (h : Handlers R W) (s : SvcsRuleCache R W) (q : Request R) : Prop :=
  q.EditsOnly ∨ (exec h s q).1 = false

/-- A run in which no `clear_all_rules` is cut short ends in a sound state. -/
theorem run_sound [LawfulSvcsRule R] {h : Handlers R W} {w : W} {requests : List (Request R)}
    (hclear : Along (step h) (ClearsThrough h) (init w) requests) :
    (run (step h) (init w) requests).Sound :=
  run_preserves (fun _ _ hs hok => hs.changes (exec_changes hs hok)) (sound_init w) hclear

/-- No edit bounds the id generator. -/
theorem Edit.maxId {h : Handlers R W} {s s' : SvcsRuleCache R W} (he : Edit h s s') :
    s'.idGenerator.maxId = s.idGenerator.maxId := by
  have hprep : ∀ {g w rule rule' g' w'}, Prepared (R := R) h g w rule rule' g' w' →
      g'.maxId = g.maxId := by
    rintro g w rule rule' g' w' (⟨hid, -⟩ | ⟨hid, -, -⟩)
    · exact takeId_maxId_eq hid
    · exact takeId_maxId_eq hid
  cases he with
  | insertUnported hid hneed hp => exact dropId_maxId.trans (takeId_maxId_eq hid)
  | insertMatched hp => exact dropId_maxId.trans (hprep hp)
  | @insertRefused rule rule' g w w' idx hp hidx hid hkey hproc =>
    have hrefused : (refusedIds rule' g).maxId = g.maxId := by
      rw [refusedIds]
      split
      · exact dropId_maxId
      · rfl
    exact hrefused.trans (hprep hp)
  | inserted hp hidx hid hkey hproc hout => exact hprep hp
  | deleted hdel hproc => exact dropId_maxId
  | _ => rfl

theorem clearRules_maxId {h : Handlers R W} {rules : List R} {g g' : IdGenerator} {w w' : W}
    {out : Outcome Unit} (hclear : clearRules h rules g w = (out, g', w')) :
    g'.maxId = g.maxId := by
  induction rules generalizing g w with
  | nil =>
    obtain ⟨-, rfl, -⟩ : _ ∧ g = g' ∧ w = w' := by simpa [clearRules] using hclear
    rfl
  | cons rule rest ih =>
    rw [clearRules] at hclear
    split at hclear
    · obtain ⟨-, rfl, -⟩ : _ ∧ g = g' ∧ _ = w' := by simpa using hclear
      rfl
    · exact (ih hclear).trans dropId_maxId

/-- The id generator of a reachable state has no upper bound. -/
theorem run_maxId [LawfulSvcsRule R] {h : Handlers R W} {w : W} {requests : List (Request R)}
    (hclear : Along (step h) (ClearsThrough h) (init w) requests) :
    (run (step h) (init w) requests).idGenerator.maxId = none := by
  have hchange : ∀ s s' : SvcsRuleCache R W, Changes h s s' →
      s'.idGenerator.maxId = s.idGenerator.maxId := by
    intro s s' hsteps
    induction hsteps with
    | refl => rfl
    | tail _ hstep ih =>
      rcases hstep with he | hc
      · exact he.maxId.trans ih
      · obtain ⟨hlist⟩ := hc
        exact (clearRules_maxId hlist).trans ih
  have hstep : ∀ s q, s.Sound ∧ s.idGenerator.maxId = none → ClearsThrough h s q →
      (step h s q).Sound ∧ (step h s q).idGenerator.maxId = none := by
    rintro s q ⟨hs, hmax⟩ hok
    have hsteps := exec_changes hs hok
    exact ⟨hs.changes hsteps, (hchange _ _ hsteps).trans hmax⟩
  exact (run_preserves hstep ⟨sound_init w, rfl⟩ hclear).2

end SvcsRuleCache

end OpxNasLinux
