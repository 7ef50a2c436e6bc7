import OpxNasLinux.CacheEdits

/-!
# The operations are sequences of edits

One lemma for each operation of a rule cache, in the order of the source:
from a sound state the operation makes a sequence of the edits of
`CacheEdits`, whichever branch it takes.  `exec_steps` assembles them, so that
a property of the caches is proved by looking at each edit once.
-/

namespace OpxNasLinux

open SvcsRule

namespace SvcsRuleCache

variable {R W : Type} [SvcsRule R]

/-! ## `insert_rule` and `delete_rule` -/

theorem steps_acquire (h : Handlers R W) (s : SvcsRuleCache R W) : Steps h s s.acquire :=
  .single (.mutex s _)

theorem steps_release (h : Handlers R W) (s : SvcsRuleCache R W) : Steps h s s.release :=
  .single (.mutex s _)

theorem steps_openList (h : Handlers R W) (s : SvcsRuleCache R W) (lc : Loc) :
    Steps h s (s.openList lc) := by
  rw [openList]
  split_ifs with hlc
  · exact .refl
  · exact .single (.openList s lc hlc)

theorem steps_closeList (h : Handlers R W) (s : SvcsRuleCache R W) (lc : Loc) :
    Steps h s (s.closeList lc) := by
  rw [closeList]
  split_ifs with hlc
  · exact .single (.closeList s lc (List.isEmpty_iff.mp hlc))
  · exact .refl

/-- `insert_rule` from the insert into the rule list on, for a rule that was
prepared in the state `s`. -/
theorem insertProgram_steps {h : Handlers R W} {s : SvcsRuleCache R W} (hs : s.Sound)
    {rule rule' : R} {g : IdGenerator} {w : W}
    (hp : Prepared h s.idGenerator s.world rule rule' g w) (hid : (ruleId rule').isSome) :
    Steps h s (insertProgram h rule' ((s.setIds g).setWorld w)).2.2 := by
  rw [insertProgram, listAt_setWorld, listAt_setIds]
  rcases (hs.aligned (loc rule')).insert_cases rule' with heq | ⟨idx, hidx, hfresh, hkey, heq⟩
  · rw [heq]
    exact .tail (.single (.insertMatched s hp)) (.mutex _ _)
  · rw [heq]
    dsimp only
    have hal := SvcsRuleList.aligned_insertAt (hs.aligned _) hidx hfresh hkey
    have hget := SvcsRuleList.getElem?_insertAt (hs.aligned _) hidx
    split
    · rename_i w' hproc
      exact .single (.inserted s hp hidx hfresh hkey hproc (by simp))
    · rename_i w' hproc
      exact .tail (.single (.inserted s hp hidx hfresh hkey hproc (by simp))) (.mutex _ _)
    · rename_i w' hproc
      rw [hal.remove_eq hget hid]
      have hrefused := Edit.insertRefused s hp hidx hfresh hkey hproc
      simp only [setList, setWorld, AList.insert_insert] at hrefused ⊢
      exact .tail (.single hrefused) (.mutex _ _)

theorem insertRule_steps [LawfulSvcsRule R] {h : Handlers R W} {s : SvcsRuleCache R W}
    (hs : s.Sound) (rule : R) : Steps h s (insertRule h rule s).2.2 := by
  rw [insertRule]
  split_ifs with hstr
  · exact .refl
  · have hopen : Steps h s (s.acquire.openList (loc rule)) :=
      (steps_acquire h s).trans (steps_openList h _ _)
    have hs' := hs.steps hopen
    have hgen : (s.acquire.openList (loc rule)).idGenerator = s.idGenerator := by
      rw [openList]
      split <;> rfl
    refine hopen.trans ?_
    split
    · rename_i g hid
      rw [takeId_none hid, ← hgen]
      exact .single (.mutex _ _)
    · rename_i i g hid
      rw [← hgen] at hid
      rw [insertReserved]
      split_ifs with hneed
      · rw [LawfulSvcsRule.needsPrivate_setRuleId] at hneed
        split
        · rename_i w hsub
          rw [LawfulSvcsRule.ruleId_setRuleId]
          exact .tail (.single (.insertUnported _ hid hneed hsub)) (.mutex _ _)
        · rename_i p w hsub
          exact insertProgram_steps hs' (.ported hid hneed hsub) (by simp)
      · rw [LawfulSvcsRule.needsPrivate_setRuleId, Bool.not_eq_true] at hneed
        exact insertProgram_steps hs' (.plain hid hneed) (by simp)

/-- The deletion of a rule that stands at a position of its list. -/
theorem deleteFound_steps {h : Handlers R W} {s : SvcsRuleCache R W} (hs : s.Sound) {lc : Loc}
    {idx : ℕ} {del : R} (hdel : (s.stored lc)[idx]? = some del) :
    Steps h s (deleteFound h del idx lc (ruleId del)
      (s.setList lc ((s.listAt lc).removeAt idx (ruleId del)))).2 := by
  have hmem := List.mem_of_getElem? hdel
  have hlc := hs.placed lc del hmem
  obtain ⟨i, hi, -⟩ := hs.reserved lc del hmem
  rw [deleteFound]
  split
  · rename_i w hproc
    exact .single (.deleteRaised s hdel hproc)
  · rename_i w hproc
    refine .trans (.single (.deleted s hdel hproc)) ?_
    refine .tail (steps_closeList h _ lc) ?_
    rw [closeList_setIds]
    exact .mutex _ _
  · rename_i w hproc
    have hback : ({ lc with vrfName := (loc del).vrfName } : Loc) = lc := by rw [hlc]
    obtain ⟨hins, -, -⟩ :=
      SvcsRuleList.Aligned.insert_removeAt (hs.aligned lc) hdel (by rw [hi]; rfl)
    dsimp only
    rw [hback, listAt_setList_self, hins]
    have hrefused := Edit.deleteRefused s hdel rfl hproc
    simp only [setList, setWorld, AList.insert_insert] at hrefused ⊢
    exact (Relation.ReflTransGen.single hrefused).trans
      (.tail (steps_closeList h _ lc) (.mutex _ _))

theorem deleteRule_steps {h : Handlers R W} {s : SvcsRuleCache R W} (hs : s.Sound) (rule : R) :
    Steps h s (deleteRule h rule s).2 := by
  have hnothing : Steps h s s.acquire.release :=
    (steps_acquire h s).trans (steps_release h _)
  rw [deleteRule]
  split_ifs with hstr
  · exact .refl
  · split
    · exact hnothing
    · rename_i l hl
      rcases SvcsRuleList.remove_cases l rule with heq | ⟨orig, idx, horig, heq⟩
      · rw [heq]
        exact hnothing
      · rw [heq]
        obtain rfl := listAt_of_lookup hl
        have hs' : s.acquire.Sound := hs.setIds _ _ (fun _ hi => hi) hs.gen
        exact (steps_acquire h s).trans (deleteFound_steps hs' horig)

/-! ## What `find_rule_by_id` finds -/

/-- The attributes of a rule that the counters leave alone. -/
def frame (r : R) : Option ℤ × Loc × SeqKey × Key R := (ruleId r, loc r, seqKey r, keyAttrs r)

theorem frame_setStats [LawfulSvcsRule R] (st : Stats) (r : R) :
    frame (setStats st r) = frame r := by
  simp [frame]

/-- Two states hold the same rules up to their counters. -/
def SameFrames (s s' : SvcsRuleCache R W) : Prop :=
  ∀ lc, (s'.stored lc).map frame = (s.stored lc).map frame

/-- A rule of the later state is one of the earlier state. -/
theorem SameFrames.mem {s s' : SvcsRuleCache R W} (hsame : SameFrames s s') {lc : Loc} {r : R}
    (hr : r ∈ s'.stored lc) : ∃ r' ∈ s.stored lc, frame r' = frame r := by
  have hmem : frame r ∈ (s.stored lc).map frame := by
    rw [← hsame lc]
    exact List.mem_map_of_mem hr
  exact List.mem_map.mp hmem

/-- What `locate` returns is the place and the position of a rule with the
id. -/
theorem locate_some {ord : DictOrder} {id : ℤ} {s : SvcsRuleCache R W} (hs : s.Sound) {lc : Loc}
    {idx : ℕ} (h : locate ord id s = some (lc, idx)) :
    ∃ r, (s.stored lc)[idx]? = some r ∧ ruleId r = some id := by
  obtain ⟨lc', -, hmap⟩ := List.exists_of_findSome?_eq_some h
  obtain ⟨idx', hlookup, heq⟩ := Option.map_eq_some_iff.mp hmap
  obtain ⟨rfl, rfl⟩ := Prod.mk.inj heq
  exact Option.map_eq_some_iff.mp (((hs.aligned lc').idMap _ _).mp hlookup)

/-- `find_rule_by_id` reads counters at most, and returns a rule with the id
at its position. -/
theorem findRuleById_spec [LawfulSvcsRule R] {h : Handlers R W} (ord : DictOrder) (id : ℤ)
    {s : SvcsRuleCache R W} (hs : s.Sound) :
    Steps h s (findRuleById h ord id s).2 ∧ SameFrames s (findRuleById h ord id s).2 ∧
      ∀ r idx, (findRuleById h ord id s).1 = .returned (some (r, idx)) →
        ((findRuleById h ord id s).2.stored (loc r))[idx]? = some r ∧ ruleId r = some id := by
  rw [findRuleById]
  cases hloc : locate ord id s with
  | none =>
    dsimp only
    exact ⟨(steps_acquire h s).trans (steps_release h _), fun _ => rfl, by simp⟩
  | some p =>
    obtain ⟨lc, idx⟩ := p
    obtain ⟨rule, hrule, hid⟩ := locate_some hs hloc
    have hplaced := hs.placed lc rule (List.mem_of_getElem? hrule)
    dsimp only
    rw [hrule]
    dsimp only
    split_ifs with hreads
    · have hread : Steps h s (s.acquire.setWorld (h.getStats rule idx s.world).2) :=
        .tail (steps_acquire h s) (.readNothing s.acquire rule idx)
      split
      · rename_i w hget
        rw [hget] at hread
        exact ⟨hread, fun _ => rfl, by simp⟩
      · rename_i w hget
        rw [hget] at hread
        refine ⟨hread.trans (steps_release h _), fun _ => rfl, ?_⟩
        rintro r idx' heq
        obtain ⟨rfl, rfl⟩ : rule = r ∧ idx = idx' := by simpa using heq
        rw [hplaced]
        exact ⟨hrule, hid⟩
      · rename_i st w hget
        have hlen := (List.getElem?_eq_some_iff.mp hrule).1
        refine ⟨?_, ?_, ?_⟩
        · exact ((steps_acquire h s).tail (.readStats s.acquire lc hrule hget)).trans
            (steps_release h _)
        · intro lc'
          dsimp only
          by_cases hlc : lc' = lc
          · rw [hlc, stored_release, stored_setList_self]
            exact SvcsRuleList.map_set_of_eq frame hrule (frame_setStats st rule)
          · rw [stored_release, stored_setList_ne _ _ hlc]
            rfl
        · rintro r idx' heq
          obtain ⟨rfl, rfl⟩ : setStats st rule = r ∧ idx = idx' := by simpa using heq
          rw [LawfulSvcsRule.loc_setStats, hplaced, LawfulSvcsRule.ruleId_setStats]
          refine ⟨?_, hid⟩
          dsimp only
          rw [stored_release, stored_setList_self]
          exact List.getElem?_set_self hlen
    · refine ⟨(steps_acquire h s).trans (steps_release h _), fun _ => rfl, ?_⟩
      rintro r idx' heq
      obtain ⟨rfl, rfl⟩ : rule = r ∧ idx = idx' := by simpa using heq
      rw [hplaced]
      exact ⟨hrule, hid⟩

theorem deleteRuleById_steps [LawfulSvcsRule R] {h : Handlers R W} (ord : DictOrder) (id : ℤ)
    {s : SvcsRuleCache R W} (hs : s.Sound) : Steps h s (deleteRuleById h ord id s).2 := by
  have hs' : s.acquire.Sound := hs.setIds _ _ (fun _ hi => hi) hs.gen
  obtain ⟨hsteps, -, hfound⟩ := findRuleById_spec (h := h) ord id hs'
  replace hsteps := (steps_acquire h s).trans hsteps
  have hsound := hs.steps hsteps
  rw [deleteRuleById]
  generalize findRuleById h ord id s.acquire = found at *
  obtain ⟨out, t⟩ := found
  rcases out with (_ | ⟨del, idx⟩) | _
  · exact hsteps.trans (steps_release h _)
  · obtain ⟨hdel, hid⟩ := hfound del idx rfl
    dsimp only
    rw [(hsound.aligned _).removeById_eq hdel hid, ← hid]
    exact hsteps.trans (deleteFound_steps hsound hdel)
  · exact hsteps

/-! ## `update_rule` -/

/-- A new version of a stored rule that `replace_rule` may put in its place. -/
structure Fits (s : SvcsRuleCache R W) (id : ℤ) (new : R) : Prop where
  ruleId_eq : ruleId new = some id
  sameFrame : ∀ lc, ∀ r ∈ s.stored lc, ruleId r = some id → loc new = lc ∧ seqKey new = seqKey r
  unmatched : ∀ r ∈ s.stored (loc new), keyAttrs r = keyAttrs new → ruleId r = some id

/-- A version that fits still fits after counters have been read. -/
theorem Fits.mono {s s' : SvcsRuleCache R W} {id : ℤ} {new : R} (hfits : Fits s id new)
    (hsame : SameFrames s s') : Fits s' id new := by
  refine ⟨hfits.ruleId_eq, ?_, ?_⟩
  · intro lc r hr hid
    obtain ⟨r', hr', heq⟩ := hsame.mem hr
    simp only [frame, Prod.mk.injEq] at heq
    obtain ⟨hlc, hseq⟩ := hfits.sameFrame lc r' hr' (heq.1.trans hid)
    exact ⟨hlc, hseq.trans heq.2.2.1⟩
  · intro r hr hkey
    obtain ⟨r', hr', heq⟩ := hsame.mem hr
    simp only [frame, Prod.mk.injEq] at heq
    exact heq.1.symm.trans (hfits.unmatched r' hr' (heq.2.2.2.trans hkey))

theorem replaceRule_steps [LawfulSvcsRule R] {h : Handlers R W} (ord : DictOrder) {id : ℤ}
    {new : R} {s : SvcsRuleCache R W} (hs : s.Sound) (hfits : Fits s id new) :
    Steps h s (replaceRule h ord id new s).2 := by
  have hs' : s.acquire.Sound := hs.setIds _ _ (fun _ hi => hi) hs.gen
  obtain ⟨hsteps, hsame, hfound⟩ := findRuleById_spec (h := h) ord id hs'
  replace hsteps := (steps_acquire h s).trans hsteps
  have hsound := hs.steps hsteps
  rw [replaceRule]
  generalize findRuleById h ord id s.acquire = found at *
  obtain ⟨out, t⟩ := found
  rcases out with (_ | ⟨old, idx⟩) | _
  · exact hsteps.trans (steps_release h _)
  · obtain ⟨hold, hid⟩ := hfound old idx rfl
    have hfits' : Fits t id new := hfits.mono hsame
    obtain ⟨hloc, hseq⟩ := hfits'.sameFrame _ old (List.mem_of_getElem? hold) hid
    dsimp only
    split
    · rename_i w hproc
      exact hsteps.tail (.replaceRefused t hproc (by simp))
    · rename_i w hproc
      exact (hsteps.tail (.replaceRefused t hproc (by simp))).trans (steps_release h _)
    · rename_i w hproc
      refine (hsteps.tail (.replaced t hold hloc ?_ hseq ?_ hproc)).trans (steps_release h _)
      · exact hfits'.ruleId_eq.trans hid.symm
      · intro r hr hkey
        rw [hfits'.ruleId_eq]
        rw [← hloc] at hr
        exact hfits'.unmatched r hr hkey
  · exact hsteps

/-- The loop over the keyword arguments keeps the id, and the place and the
sequence key when no other attributes changed. -/
theorem applyParams_spec [LawfulSvcsRule R] {rule upd : R} {params changed : List (Attr R)}
    (h : applyParams rule params = some (upd, changed)) :
    ruleId upd = ruleId rule ∧
      (changed.all isReplAttr = true → loc upd = loc rule ∧ seqKey upd = seqKey rule) := by
  induction params generalizing rule changed with
  | nil =>
    obtain ⟨rfl, rfl⟩ : rule = upd ∧ [] = changed := by simpa [applyParams] using h
    exact ⟨rfl, fun _ => ⟨rfl, rfl⟩⟩
  | cons attr rest ih =>
    rw [applyParams] at h
    cases hset : checkAndSet rule attr with
    | none =>
      rw [hset] at h
      cases h
    | some p =>
      obtain ⟨rule', ch⟩ := p
      rw [hset] at h
      obtain ⟨⟨upd', changed'⟩, hrest, heq⟩ := Option.map_eq_some_iff.mp h
      obtain ⟨rfl, rfl⟩ := Prod.mk.inj heq
      obtain ⟨hid, hkeeps⟩ := ih hrest
      refine ⟨hid.trans (LawfulSvcsRule.ruleId_checkAndSet hset), ?_⟩
      intro hall
      cases ch with
      | false =>
        obtain rfl := LawfulSvcsRule.eq_of_unchanged hset
        exact hkeeps hall
      | true =>
        simp only [if_true, List.all_cons, Bool.and_eq_true] at hall
        obtain ⟨hloc, hseq⟩ := hkeeps hall.2
        obtain ⟨hloc', hseq'⟩ := LawfulSvcsRule.replAttr_keeps hset hall.1
        exact ⟨hloc.trans hloc', hseq.trans hseq'⟩

/-- When `find_rule_by_match` finds no other rule, no other rule of the list
matches. -/
theorem unmatched_of_findRuleByMatch {s : SvcsRuleCache R W} (hs : s.Sound) {new : R}
    {id : Option ℤ}
    (h : ¬ (s.findRuleByMatch new).any (fun m => decide (ruleId m ≠ id)) = true) :
    ∀ r ∈ s.stored (loc new), keyAttrs r = keyAttrs new → ruleId r = id := by
  intro r hr hkey
  obtain ⟨l, hl⟩ := Option.isSome_iff_exists.mp
    (AList.lookup_isSome.mpr (mem_rules_of_mem_stored hr))
  have hlist : s.stored (loc new) = l.rules := by rw [stored, listAt_of_lookup hl]
  obtain ⟨idx, hidx⟩ : ∃ idx, l.index new = some idx := by
    rw [← Option.isSome_iff_exists, SvcsRuleList.index, List.findIdx?_isSome, List.any_eq_true]
    exact ⟨r, by rwa [← hlist], decide_eq_true hkey⟩
  obtain ⟨hlt, hm, -⟩ := List.findIdx?_eq_some_iff_getElem.mp hidx
  have hget : l.rules[idx]? = some l.rules[idx] := List.getElem?_eq_getElem hlt
  have hmem : l.rules[idx] ∈ s.stored (loc new) := by
    rw [hlist]
    exact List.getElem_mem hlt
  have heq : r = l.rules[idx] :=
    hs.keyAttrs_inj hr hmem (hkey.trans (of_decide_eq_true hm).symm)
  rw [findRuleByMatch, hl] at h
  dsimp only at h
  rw [hidx, Option.bind_some, hget, ← heq] at h
  simpa using h

theorem updateByDelete_steps [LawfulSvcsRule R] {h : Handlers R W} (ord : DictOrder) (id : ℤ)
    (upd : R) {s : SvcsRuleCache R W} (hs : s.Sound) :
    Steps h s (updateByDelete h ord id upd s).2 := by
  have hdel := deleteRuleById_steps (h := h) ord id hs
  have hs1 := hs.steps hdel
  rw [updateByDelete]
  generalize deleteRuleById h ord id s = deleted at *
  obtain ⟨out, t⟩ := deleted
  rcases out with (_ | old) | _
  · exact hdel.trans (steps_release h _)
  · have hins := insertRule_steps (h := h) hs1 upd
    have hs2 := hs1.steps hins
    dsimp only
    generalize insertRule h upd t = inserted at *
    obtain ⟨out2, rule2, t2⟩ := inserted
    rcases out2 with (_ | _) | _
    · have hback := insertRule_steps (h := h) hs2 old
      dsimp only
      generalize insertRule h old t2 = back at *
      obtain ⟨out3, rule3, t3⟩ := back
      rcases out3 with _ | _
      · exact ((hdel.trans hins).trans hback).trans (steps_release h _)
      · exact (hdel.trans hins).trans hback
    · exact (hdel.trans hins).trans (steps_release h _)
    · exact hdel.trans hins
  · exact hdel

theorem updateRule_steps [LawfulSvcsRule R] {h : Handlers R W} (ord : DictOrder) (id : ℤ)
    (params : List (Attr R)) {s : SvcsRuleCache R W} (hs : s.Sound) :
    Steps h s (updateRule h ord id params s).2 := by
  have hs' : s.acquire.Sound := hs.setIds _ _ (fun _ hi => hi) hs.gen
  obtain ⟨hsteps, -, hfound⟩ := findRuleById_spec (h := h) ord id hs'
  replace hsteps := (steps_acquire h s).trans hsteps
  have hsound := hs.steps hsteps
  rw [updateRule]
  generalize findRuleById h ord id s.acquire = found at *
  obtain ⟨out, t⟩ := found
  rcases out with (_ | ⟨old, idx⟩) | _
  · exact hsteps.trans (steps_release h _)
  · obtain ⟨hold, hid⟩ := hfound old idx rfl
    dsimp only
    cases happly : applyParams old params with
    | none => exact hsteps
    | some p =>
      obtain ⟨upd, changed⟩ := p
      obtain ⟨hidupd, hkeeps⟩ := applyParams_spec happly
      dsimp only
      split_ifs with hnone hstr hmatch
      · exact hsteps.trans (steps_release h _)
      · exact hsteps
      · exact hsteps.trans (steps_release h _)
      · rw [updateChecked]
        split_ifs with hrepl
        · obtain ⟨hloc, hseq⟩ := hkeeps hrepl
          have hfits : Fits t id upd := by
            refine ⟨hidupd.trans hid, ?_, ?_⟩
            · intro lc r hr hrid
              have hlc := hsound.unique lc _ r old hr (List.mem_of_getElem? hold)
                (hrid.trans hid.symm)
              subst hlc
              obtain ⟨j, hj⟩ := List.mem_iff_getElem?.mp hr
              have hij : j = idx := SvcsRuleList.ids_inj (hsound.aligned _).ids_nodup
                (k := some id)
                (by rw [show (listAt t (loc old)).rules[j]? = some r from hj]
                    exact congrArg some hrid)
                (by rw [show (listAt t (loc old)).rules[idx]? = some old from hold]
                    exact congrArg some hid)
              subst hij
              obtain rfl : r = old := Option.some_inj.mp (hj.symm.trans hold)
              exact ⟨hloc, hseq⟩
            · rw [← hid]
              exact unmatched_of_findRuleByMatch hsound hmatch
          have hreplace := replaceRule_steps (h := h) ord hsound hfits
          generalize replaceRule h ord id upd t = replaced at *
          obtain ⟨out2, t2⟩ := replaced
          rcases out2 with b | _
          · exact (hsteps.trans hreplace).trans (steps_release h _)
          · exact hsteps.trans hreplace
        · exact hsteps.trans (updateByDelete_steps ord id upd hsound)
  · exact hsteps

/-! ## `clear_all_rules`, and any request -/

/-- The loop over the rule lists, when no call in it raises. -/
theorem clearLists_changes {h : Handlers R W} (locs : List Loc) {s s' : SvcsRuleCache R W}
    (hclear : clearLists h locs s = (.returned (), s')) : Changes h s s' := by
  induction locs generalizing s with
  | nil =>
    obtain ⟨-, rfl⟩ := Prod.mk.inj hclear
    exact .refl
  | cons lc rest ih =>
    rw [clearLists] at hclear
    split at hclear
    · cases (Prod.mk.inj hclear).1
    · rename_i g w hlist
      exact .head (Or.inr (.list s hlist)) (ih hclear)

theorem Steps.changes {h : Handlers R W} {s s' : SvcsRuleCache R W} (hsteps : Steps h s s') :
    Changes h s s' :=
  Relation.ReflTransGen.mono (fun _ _ => Or.inl) _ _ hsteps

theorem clearAllRules_changes {h : Handlers R W} (ord : DictOrder) (fltVrf : Option Str)
    (fltAf : Option Af) {s : SvcsRuleCache R W}
    (hnr : hasRaised (clearAllRules h ord fltVrf fltAf s).1 = false) :
    Changes h s (clearAllRules h ord fltVrf fltAf s).2 := by
  rw [clearAllRules] at hnr ⊢
  split at hnr
  · cases hnr
  · rename_i t hclear
    exact ((steps_acquire h s).changes.trans (clearLists_changes _ hclear)).trans
      (steps_release h _).changes

/-- The request is no `clear_all_rules`. -/
def Request.EditsOnly : Request R → Prop
  | .clearAllRules _ _ _ => False
  | _ => True

/-- A call of any operation but `clear_all_rules` is a sequence of edits. -/
theorem exec_steps [LawfulSvcsRule R] {h : Handlers R W} {s : SvcsRuleCache R W} (hs : s.Sound)
    {q : Request R} (hq : q.EditsOnly) : Steps h s (step h s q) := by
  cases q with
  | insertRule rule => exact insertRule_steps hs rule
  | deleteRule rule => exact deleteRule_steps hs rule
  | deleteRuleById ord id => exact deleteRuleById_steps ord id hs
  | updateRule ord id params => exact updateRule_steps ord id params hs
  | clearAllRules ord fltVrf fltAf => exact hq.elim

/-- A call of any operation is a sequence of changes.  Of `clear_all_rules`
this needs that it does not raise: it releases the ids of a list before it
drops the list. -/
theorem exec_changes [LawfulSvcsRule R] {h : Handlers R W} {s : SvcsRuleCache R W} (hs : s.Sound)
    {q : Request R} (hnr : q.EditsOnly ∨ (exec h s q).1 = false) : Changes h s (step h s q) := by
  rcases hnr with hq | hnr
  · exact (exec_steps hs hq).changes
  · cases q with
    | clearAllRules ord fltVrf fltAf => exact clearAllRules_changes ord fltVrf fltAf hnr
    | insertRule rule => exact (insertRule_steps hs rule).changes
    | deleteRule rule => exact (deleteRule_steps hs rule).changes
    | deleteRuleById ord id => exact (deleteRuleById_steps ord id hs).changes
    | updateRule ord id params => exact (updateRule_steps ord id params hs).changes

end SvcsRuleCache

end OpxNasLinux
