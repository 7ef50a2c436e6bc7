import OpxNasLinux.CacheIds
import OpxNasLinux.CacheOutcomes

/-!
# When `update_rule` is refused

`VrfIncomingSvcsRuleCache.update_rule` deletes a rule and inserts its new
version when an attribute changes that `replace_rule` cannot change.  It means
to put the old version back when the new one is refused.

The old version cannot go back after iptables has refused the new one.  The
refused insertion keeps the id, so the second one finds it used and returns
before it calls iptables.  Every other refusal leaves the rules alone, so the
log of the calls decides (`update_refused_keeps_iff`).

* The first section has what the operations write to the log.
* The second has the two insertions of the branch.
-/

namespace OpxNasLinux

open SvcsRule Run

namespace SvcsRuleCache

variable {R W : Type}

/-! ## The log -/

/-- The calls of `proc_rule` in the log, the last one first. -/
def calls (s : SvcsRuleCache R (W × List (ProcCall R))) : List (ProcCall R) := s.world.2

section

variable (s : SvcsRuleCache R (W × List (ProcCall R)))

@[simp] theorem calls_acquire : s.acquire.calls = s.calls := rfl

@[simp] theorem calls_release : s.release.calls = s.calls := rfl

@[simp] theorem calls_setIds (g : IdGenerator) : (s.setIds g).calls = s.calls := rfl

@[simp] theorem calls_setWorld (w : W × List (ProcCall R)) : (s.setWorld w).calls = w.2 := rfl

@[simp] theorem calls_setList (lc : Loc) (l : SvcsRuleList R) :
    (s.setList lc l).calls = s.calls := rfl

@[simp] theorem calls_closeList (lc : Loc) : (s.closeList lc).calls = s.calls := by
  rw [calls, calls, world_closeList]

@[simp] theorem calls_openList (lc : Loc) : (s.openList lc).calls = s.calls := by
  rw [calls, calls, world_openList]

end

theorem noInsertRefused_cons {c : ProcCall R} {calls : List (ProcCall R)}
    (hc : c.op = .insert → c.answer ≠ .returned false) :
    NoInsertRefused (c :: calls) ↔ NoInsertRefused calls := by
  rw [NoInsertRefused, List.forall_mem_cons]
  exact and_iff_right hc

/-- A call of `proc_rule` adds itself to the log. -/
theorem logged_procRule {h : Handlers R W} {op : IptOp} {rule : R} {idx : Option ℕ}
    {w w' : W × List (ProcCall R)} {out : Outcome Bool}
    (heq : h.logged.procRule op rule idx w = (out, w')) : w'.2 = ⟨op, rule, idx, out⟩ :: w.2 := by
  obtain ⟨hout, rfl⟩ := Prod.mk.inj heq
  rw [← hout]

variable [SvcsRule R]

theorem findRuleById_calls (h : Handlers R W) (ord : DictOrder) (id : ℤ)
    (s : SvcsRuleCache R (W × List (ProcCall R))) :
    (findRuleById h.logged ord id s).2.calls = s.calls := by
  have hget : ∀ rule idx, (h.logged.getStats rule idx s.world).2.2 = s.calls := fun _ _ => rfl
  rw [findRuleById]
  split
  · rfl
  · rename_i lc idx _
    split
    · rfl
    · rename_i rule _
      split_ifs
      · have hlog := hget rule idx
        split <;>
          · rename_i heq
            rwa [heq] at hlog
      · rfl

theorem freed_calls (h : Handlers R W) (rule : R) (w : W × List (ProcCall R)) :
    (freed h.logged rule w).2 = w.2 := by
  rw [freed]
  split <;> rfl

/-- A deletion calls `proc_rule` once. -/
theorem deleteFound_calls (h : Handlers R W) (del : R) (idx : ℕ) (lc : Loc) (id : Option ℤ)
    (s : SvcsRuleCache R (W × List (ProcCall R))) :
    NoInsertRefused (deleteFound h.logged del idx lc id s).2.calls ↔ NoInsertRefused s.calls := by
  have hlog : ∀ {out w'}, h.logged.procRule .delete del (some idx) s.world = (out, w') →
      (NoInsertRefused w'.2 ↔ NoInsertRefused s.calls) := by
    intro out w' heq
    rw [logged_procRule heq]
    exact noInsertRefused_cons (fun hop => nomatch hop)
  rw [deleteFound]
  split
  · rename_i w heq
    rw [calls_setWorld, hlog heq]
  · rename_i w heq
    rw [calls_setIds, calls_release, calls_closeList, calls_setWorld, freed_calls, hlog heq]
  · rename_i w heq
    dsimp only
    rw [calls_release, calls_closeList, calls_setList, calls_setWorld, hlog heq]

theorem deleteRuleById_calls (h : Handlers R W) (ord : DictOrder) (id : ℤ)
    (s : SvcsRuleCache R (W × List (ProcCall R))) :
    NoInsertRefused (deleteRuleById h.logged ord id s).2.calls ↔ NoInsertRefused s.calls := by
  have hfind := findRuleById_calls h ord id s.acquire
  rw [deleteRuleById]
  generalize findRuleById h.logged ord id s.acquire = found at *
  obtain ⟨out, t⟩ := found
  rw [calls_acquire] at hfind
  rcases out with (_ | ⟨del, idx⟩) | _
  · dsimp only at hfind ⊢
    rw [calls_release, hfind]
  · dsimp only at hfind ⊢
    split
    · rw [calls_release, hfind]
    · rw [deleteFound_calls, calls_setList, hfind]
  · dsimp only at hfind ⊢
    rw [hfind]

theorem replaceRule_calls (h : Handlers R W) (ord : DictOrder) (id : ℤ) (new : R)
    (s : SvcsRuleCache R (W × List (ProcCall R))) :
    NoInsertRefused (replaceRule h.logged ord id new s).2.calls ↔ NoInsertRefused s.calls := by
  have hfind := findRuleById_calls h ord id s.acquire
  rw [replaceRule]
  generalize findRuleById h.logged ord id s.acquire = found at *
  obtain ⟨out, t⟩ := found
  rw [calls_acquire] at hfind
  rcases out with (_ | ⟨old, idx⟩) | _
  · dsimp only at hfind ⊢
    rw [calls_release, hfind]
  · dsimp only at hfind ⊢
    have hlog : ∀ {out w'}, h.logged.procRule .replace new (some idx) t.world = (out, w') →
        (NoInsertRefused w'.2 ↔ NoInsertRefused s.calls) := by
      intro out w' heq
      rw [logged_procRule heq, ← hfind]
      exact noInsertRefused_cons (by rintro ⟨⟩)
    split
    · rename_i w heq
      rw [calls_setWorld, hlog heq]
    · rename_i w heq
      rw [calls_release, calls_setWorld, hlog heq]
    · rename_i w heq
      rw [calls_release, calls_setList, calls_setWorld, hlog heq]
  · dsimp only at hfind ⊢
    rw [hfind]

/-! ## The two insertions -/

section

variable {h : Handlers VrfIncomingSvcsRule W}

/-- After the old version has been deleted, the insertion of the new one calls
iptables. -/
theorem insertRule_deleted {ord : DictOrder} {id : ℤ} {old upd del : VrfIncomingSvcsRule}
    {s t : VrfIncomingSvcsRuleCache W} (hs : s.Sound) (hmax : s.idGenerator.maxId = none)
    (hold : old ∈ s.stored old.loc) (hid : old.ruleId = some id) (hupd : upd.ruleId = some id)
    (hstr : strRaises upd = false)
    (hmatch : ∀ r ∈ s.stored upd.loc, keyAttrs r = keyAttrs upd → ruleId r = some id)
    (hdel : deleteRuleById h ord id s = (.returned (some del), t)) :
    core old = core del ∧ del.ruleId = some id ∧ (∀ lc, ∀ r ∈ t.stored lc, ruleId r ≠ some id) ∧
      ∃ g, id ∈ g.resvedIds ∧
        Attempted h (setRuleId id upd) g t (insertRule h upd t).1 (insertRule h upd t).2.2 := by
  have hsteps := deleteRuleById_steps (h := h) ord id hs
  rw [hdel] at hsteps
  obtain ⟨u, hsame, hu, hgen, hrem, hdelmem, hdelid⟩ := deleteRuleById_done hs hdel
  -- what was deleted is the old version up to the counters
  obtain ⟨r, hr, hcore⟩ := hsame.mem hdelmem
  have hrid : r.ruleId = some id := (congrArg VrfIncomingSvcsRule.ruleId hcore).trans hdelid
  obtain rfl : old = r := hs.ruleId_inj hold hr (hid.trans hrid.symm)
  have hres : id ∈ u.idGenerator.resvedIds := by
    rw [hgen]
    exact hs.reserved_id hold hid
  obtain ⟨g, htake, hg⟩ := takeId_dropId hu.gen (by rw [hgen]; exact hmax) hres
  have hkey : ∀ r ∈ t.stored upd.loc, keyAttrs r ≠ keyAttrs upd := by
    intro r' hr' heq
    obtain ⟨r, hr, hcore'⟩ := hsame.mem (hrem.sub _ r' hr')
    have hrkey : keyAttrs r = keyAttrs upd :=
      (congrArg VrfIncomingSvcsRule.keyAttrs hcore').trans heq
    have hr'id : ruleId r' = some id :=
      (congrArg VrfIncomingSvcsRule.ruleId hcore').symm.trans (hmatch r hr hrkey)
    exact hrem.gone _ r' hr' hr'id
  refine ⟨hcore, hdelid, hrem.gone, g, hg, ?_⟩
  exact insertRule_free (hs.steps hsteps) hstr rfl
    (by rw [hrem.ids]; exact (congrArg (takeId · _) hupd).trans htake) (hrem.gone _) hkey

/-- The branch of `update_rule` that deletes and inserts, from a state without
another match of the new version: it loses the rule exactly when iptables
refuses the new version. -/
theorem updateByDelete_keeps_iff {ord : DictOrder} {id : ℤ} {old upd : VrfIncomingSvcsRule}
    {s : VrfIncomingSvcsRuleCache (W × List (ProcCall VrfIncomingSvcsRule))} (hs : s.Sound)
    (hmax : s.idGenerator.maxId = none) (hlog : NoInsertRefused s.calls)
    (hold : old ∈ s.stored old.loc) (hid : old.ruleId = some id) (hupd : upd.ruleId = some id)
    (hstr : ¬ (strRaises old = true ∨ strRaises upd = true))
    (hmatch : ∀ r ∈ s.stored upd.loc, keyAttrs r = keyAttrs upd → ruleId r = some id) :
    ((updateByDelete h.logged ord id upd s).1 = .returned false →
        SameRules s (updateByDelete h.logged ord id upd s).2) ↔
      NoInsertRefused (updateByDelete h.logged ord id upd s).2.calls := by
  rw [not_or, Bool.not_eq_true, Bool.not_eq_true] at hstr
  have hcalls := (deleteRuleById_calls h ord id s).mpr hlog
  rw [updateByDelete]
  cases hdel : deleteRuleById h.logged ord id s with
  | mk out t =>
    rw [hdel] at hcalls
    rcases out with (_ | del) | _
    · have hsame : SameRules s t := deleteRuleById_refused hs hdel
      exact iff_of_true (fun _ => hsame) hcalls
    · obtain ⟨hcore, hdelid, hgone, g, hg, hatt⟩ :=
        insertRule_deleted hs hmax hold hid hupd hstr.2 hmatch hdel
      have hdelstr : strRaises del = false :=
        (congrArg VrfIncomingSvcsRule.strRaises hcore).symm.trans hstr.1
      dsimp only
      generalize insertRule h.logged upd t = inserted at hatt
      obtain ⟨out2, rule2, t2⟩ := inserted
      obtain ⟨⟨idx, hcall⟩, hids, hstored, -⟩ := hatt
      replace hcall := logged_procRule hcall
      have hinsert : out2 ≠ .returned false → NoInsertRefused t2.calls := by
        intro hout
        rw [calls, hcall]
        exact (noInsertRefused_cons fun _ => hout).mpr hcalls
      rcases out2 with (_ | _) | _
      · -- the id stays reserved, so the old version is refused as well
        have hused : id ∈ t2.idGenerator.resvedIds := by
          rw [hids, if_pos rfl]
          exact hg
        have hback := insertRule_used (h := h.logged) hdelstr hdelid hused
        dsimp only
        rw [hback]
        dsimp only
        refine iff_of_false ?_ ?_
        · intro hkept
          have hmem := (hkept rfl old.loc).mem_iff.mpr (List.mem_map_of_mem hold)
          obtain ⟨r', hr', hcore'⟩ := List.mem_map.mp hmem
          rw [stored_release, stored_release, stored_openList, stored_acquire,
            hstored rfl] at hr'
          exact hgone _ r' hr' ((congrArg VrfIncomingSvcsRule.ruleId hcore').trans hid)
        · rw [calls_release, calls_release, calls_openList, calls_acquire, calls, hcall]
          intro hno
          exact hno _ List.mem_cons_self rfl rfl
      · exact iff_of_true (by rintro ⟨⟩) (hinsert (by rintro ⟨⟩))
      · exact iff_of_true (by rintro ⟨⟩) (hinsert (by rintro ⟨⟩))
    · exact iff_of_true (by rintro ⟨⟩) hcalls

/-- `update_rule` from a sound state with an empty log. -/
theorem updateRule_keeps_iff {ord : DictOrder} {id : ℤ}
    {params : List (Attr VrfIncomingSvcsRule)}
    {s : VrfIncomingSvcsRuleCache (W × List (ProcCall VrfIncomingSvcsRule))} (hs : s.Sound)
    (hmax : s.idGenerator.maxId = none) (hlog : s.calls = []) :
    ((updateRule h.logged ord id params s).1 = .returned false →
        SameRules s (updateRule h.logged ord id params s).2) ↔
      NoInsertRefused (updateRule h.logged ord id params s).2.calls := by
  have hs' : s.acquire.Sound := hs.setIds _ _ (fun _ hi => hi) hs.gen
  obtain ⟨hsteps, -, hfound⟩ := findRuleById_spec (h := h.logged) ord id hs'
  have hsame := findRuleById_sameRules h.logged ord id s.acquire
  have hcalls := findRuleById_calls h ord id s.acquire
  have hids := findRuleById_ids h.logged ord id s.acquire
  have hsound := hs'.steps hsteps
  rw [updateRule]
  generalize findRuleById h.logged ord id s.acquire = found at *
  obtain ⟨out, t⟩ := found
  rw [calls_acquire, hlog] at hcalls
  dsimp only at hcalls hids hsame hsound
  have hno : NoInsertRefused t.calls := by
    rw [hcalls]
    exact fun c hc => absurd hc List.not_mem_nil
  rcases out with (_ | ⟨old, idx⟩) | _
  · exact iff_of_true (fun _ => hsame) hno
  · obtain ⟨hold, hid⟩ := hfound old idx rfl
    have holdmem := List.mem_of_getElem? hold
    dsimp only
    cases happly : applyParams old params with
    | none => exact iff_of_true (by rintro ⟨⟩) hno
    | some p =>
      obtain ⟨upd, changed⟩ := p
      obtain ⟨hidupd, -⟩ := applyParams_spec happly
      dsimp only
      split_ifs with hnone hstr hmatch
      · exact iff_of_true (by rintro ⟨⟩) hno
      · exact iff_of_true (by rintro ⟨⟩) hno
      · exact iff_of_true (fun _ => hsame) hno
      · rw [updateChecked]
        split_ifs with hrepl
        · have hreplaced := (replaceRule_calls h ord id upd t).mpr hno
          have hkept := replaceRule_sameRules h.logged ord id upd t
          generalize replaceRule h.logged ord id upd t = replaced at *
          obtain ⟨out2, t2⟩ := replaced
          rcases out2 with b | _
          · refine iff_of_true (fun hf => hsame.trans (hkept ?_)) hreplaced
            exact hf
          · exact iff_of_true (by rintro ⟨⟩) hreplaced
        · have hunmatched := unmatched_of_findRuleByMatch hsound hmatch
          rw [hid] at hunmatched
          rw [← updateByDelete_keeps_iff hsound (by rw [hids]; exact hmax) hno holdmem hid
            (hidupd.trans hid) hstr hunmatched]
          refine forall_congr' fun _ => ⟨fun hk lc => ?_, fun hk => hsame.trans hk⟩
          exact (hk lc).trans (hsame lc).symm
  · exact iff_of_true (by rintro ⟨⟩) hno

end

/-! ## The incoming cache -/

/-- The state with an empty log. -/
def clearLog (s : SvcsRuleCache R (W × List (ProcCall R))) :
    SvcsRuleCache R (W × List (ProcCall R)) :=
  s.setWorld (s.world.1, [])

/-- In any reachable state a refused `update_rule` leaves all the rules as they
were, exactly when iptables refuses no insertion that the call makes. -/
theorem update_refused_keeps_iff (h : Handlers VrfIncomingSvcsRule W) (w : W)
    (requests : List (Request VrfIncomingSvcsRule))
    (hclear : Along (step h.logged) (ClearsThrough h.logged) (init (w, [])) requests)
    (ord : DictOrder) (id : ℤ) (params : List (Attr VrfIncomingSvcsRule)) :
    let s := (run (step h.logged) (init (w, [])) requests).clearLog
    ((updateRule h.logged ord id params s).1 = .returned false →
        SameRules s (updateRule h.logged ord id params s).2) ↔
      NoInsertRefused (updateRule h.logged ord id params s).2.calls := by
  intro s
  have hs := run_sound hclear
  have hsound : s.Sound := hs.setIds _ _ (fun _ hi => hi) hs.gen
  exact updateRule_keeps_iff hsound (run_maxId hclear) rfl

/-- Handlers that answer the edits of a chain from a list, and accept every
edit when the list is used up. -/
def replying (R : Type) : Handlers R (List Bool) where
  procRule _ _ _ w := (.returned (w.headD true), w.tail)
  getStats _ _ w := (.returned none, w)
  subNetInsert _ w := (none, w)
  subNetDelete _ w := w

/-- An update of the sequence number. -/
def newSeqNum : List (Attr VrfIncomingSvcsRule) := [VrfIncomingSvcsRule.Attr.seqNum 20]

theorem update_refused_keeps_small :
    let s := (run (step (replying VrfIncomingSvcsRule).logged) (init ([], []))
      [.insertRule (allowAll 10 "eth1".toList)]).clearLog
    ((updateRule (replying VrfIncomingSvcsRule).logged listOrder 1 newSeqNum s).1 =
          .returned false →
        SameRules s
          (updateRule (replying VrfIncomingSvcsRule).logged listOrder 1 newSeqNum s).2) ↔
      NoInsertRefused
        (updateRule (replying VrfIncomingSvcsRule).logged listOrder 1 newSeqNum s).2.calls :=
  update_refused_keeps_iff (replying VrfIncomingSvcsRule) []
    [.insertRule (allowAll 10 "eth1".toList)] ⟨Or.inl trivial, trivial⟩ listOrder 1 newSeqNum

/-- A stored rule gets a new sequence number, and iptables refuses the new
version.  It would take the old one back, but the rule is gone. -/
theorem update_refused_loses_rule :
    let s := run (step (replying VrfIncomingSvcsRule)) (init [true, true, false])
      [.insertRule (allowAll 10 "eth1".toList)]
    let out := updateRule (replying VrfIncomingSvcsRule) listOrder 1 newSeqNum s
    (s.stored (allowAll 10 "eth1".toList).loc).map ruleId = [some 1] ∧ out.1 = .returned false ∧
      (∀ idx, ((replying VrfIncomingSvcsRule).procRule .insert (allowAll 10 "eth1".toList) idx
        out.2.world).1 = .returned true) ∧ ¬ SameRules s out.2 := by
  intro s out
  have hreply : out.2.world.headD true = true := by decide +kernel
  refine ⟨by decide +kernel, by decide +kernel, fun _ => congrArg Outcome.returned hreply, ?_⟩
  intro hsame
  have hlen := (hsame (allowAll 10 "eth1".toList).loc).length_eq
  rw [List.length_map, List.length_map] at hlen
  exact absurd hlen (by decide +kernel)

end SvcsRuleCache

end OpxNasLinux
