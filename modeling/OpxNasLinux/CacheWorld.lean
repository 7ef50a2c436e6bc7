import OpxNasLinux.CacheInvariants

/-!
# The operations and the world

What the operations of a cache do to the world is what their calls do to it,
whatever state the cache is in.

* `step_respects` says so for a relation between the worlds before and after a
  call: there is one lemma for each operation, in the order of the source.
* `exec_noReplace` says that only `update_rule` calls `proc_rule('replace')`.
-/

namespace OpxNasLinux

open SvcsRule

namespace SvcsRuleCache

variable {R W : Type} [SvcsRule R]

/-! ## What a request does to the world -/

section

variable {h : Handlers R W} {rel : W → W → Prop}

omit [SvcsRule R] in
@[simp] theorem world_openList (s : SvcsRuleCache R W) (lc : Loc) :
    (s.openList lc).world = s.world := by
  rw [openList]
  split <;> rfl

omit [SvcsRule R] in
@[simp] theorem world_closeList (s : SvcsRuleCache R W) (lc : Loc) :
    (s.closeList lc).world = s.world := by
  rw [closeList]
  split <;> rfl

omit [SvcsRule R] in
theorem procRule_respects (hr : h.Respects rel) {op : IptOp} {rule : R} {idx : Option ℕ}
    {w w' : W} {out : Outcome Bool} (heq : h.procRule op rule idx w = (out, w')) : rel w w' := by
  have hproc := hr.procRule op rule idx w
  rwa [heq] at hproc

theorem insertProgram_respects (hr : h.Respects rel) (rule : R) (s : SvcsRuleCache R W) :
    rel s.world (insertProgram h rule s).2.2.world := by
  rw [insertProgram]
  split
  · exact freed_respects hr rule s.world
  · split
    · rename_i heq
      exact procRule_respects hr heq
    · rename_i heq
      exact procRule_respects hr heq
    · rename_i w heq
      exact hr.trans _ _ _ (procRule_respects hr heq) (freed_respects hr rule w)

theorem insertRule_respects (hr : h.Respects rel) (rule : R) (s : SvcsRuleCache R W) :
    rel s.world (insertRule h rule s).2.2.world := by
  have hopen : ∀ g, ((s.acquire.openList (loc rule)).setIds g).world = s.world :=
    fun g => world_openList s.acquire (loc rule)
  rw [insertRule]
  split
  · exact hr.refl _
  · split
    · rename_i g heq
      change rel s.world ((s.acquire.openList (loc rule)).setIds g).world
      rw [hopen]
      exact hr.refl _
    · rename_i i g heq
      rw [insertReserved]
      split
      · have hsub := hr.subNetInsert (setRuleId i rule) s.world
        rw [hopen]
        split
        · rename_i w heq'
          rw [heq'] at hsub
          exact hsub
        · rename_i p w heq'
          rw [heq'] at hsub
          exact hr.trans _ _ _ hsub (insertProgram_respects hr (setPrivate p (setRuleId i rule))
            (((s.acquire.openList (loc rule)).setIds g).setWorld w))
      · have hprog := insertProgram_respects hr (setRuleId i rule)
          ((s.acquire.openList (loc rule)).setIds g)
        rwa [hopen] at hprog

theorem deleteFound_respects (hr : h.Respects rel) (del : R) (idx : ℕ) (lc : Loc) (id : Option ℤ)
    (s : SvcsRuleCache R W) : rel s.world (deleteFound h del idx lc id s).2.world := by
  rw [deleteFound]
  split
  · rename_i heq
    exact procRule_respects hr heq
  · rename_i w heq
    change rel s.world ((s.setWorld (freed h del w)).closeList lc).world
    rw [world_closeList]
    exact hr.trans _ _ _ (procRule_respects hr heq) (freed_respects hr del w)
  · rename_i w heq
    dsimp only
    change rel s.world (SvcsRuleCache.closeList _ lc).world
    rw [world_closeList]
    exact procRule_respects hr heq

theorem deleteRule_respects (hr : h.Respects rel) (rule : R) (s : SvcsRuleCache R W) :
    rel s.world (deleteRule h rule s).2.world := by
  rw [deleteRule]
  split
  · exact hr.refl _
  · split
    · exact hr.refl _
    · split
      · exact hr.refl _
      · rename_i l' _
        exact deleteFound_respects hr _ _ _ _ (s.acquire.setList (loc rule) l')

theorem findRuleById_respects (hr : h.Respects rel) (ord : DictOrder) (id : ℤ)
    (s : SvcsRuleCache R W) : rel s.world (findRuleById h ord id s).2.world := by
  rw [findRuleById]
  split
  · exact hr.refl _
  · split
    · exact hr.refl _
    · rename_i lc idx _ _ rule _
      split
      · have hget := hr.getStats rule idx s.world
        split <;>
          · rename_i heq
            rwa [heq] at hget
      · exact hr.refl _

theorem deleteRuleById_respects (hr : h.Respects rel) (ord : DictOrder) (id : ℤ)
    (s : SvcsRuleCache R W) : rel s.world (deleteRuleById h ord id s).2.world := by
  have hfind := findRuleById_respects hr ord id s.acquire
  rw [deleteRuleById]
  generalize findRuleById h ord id s.acquire = found at hfind
  obtain ⟨out, t⟩ := found
  rcases out with (_ | ⟨del, idx⟩) | _
  · exact hfind
  · dsimp only
    split
    · exact hfind
    · rename_i l _
      exact hr.trans _ _ _ hfind (deleteFound_respects hr _ _ _ _ (t.setList (loc del) l))
  · exact hfind

theorem replaceRule_respects (hr : h.Respects rel) (ord : DictOrder) (id : ℤ) (new : R)
    (s : SvcsRuleCache R W) : rel s.world (replaceRule h ord id new s).2.world := by
  have hfind := findRuleById_respects hr ord id s.acquire
  rw [replaceRule]
  generalize findRuleById h ord id s.acquire = found at hfind
  obtain ⟨out, t⟩ := found
  rcases out with (_ | ⟨old, idx⟩) | _
  · exact hfind
  · dsimp only
    split <;>
      · rename_i heq
        exact hr.trans _ _ _ hfind (procRule_respects hr heq)
  · exact hfind

theorem updateByDelete_respects (hr : h.Respects rel) (ord : DictOrder) (id : ℤ) (upd : R)
    (s : SvcsRuleCache R W) : rel s.world (updateByDelete h ord id upd s).2.world := by
  have hdel := deleteRuleById_respects hr ord id s
  rw [updateByDelete]
  generalize deleteRuleById h ord id s = deleted at hdel
  obtain ⟨out, t⟩ := deleted
  rcases out with (_ | old) | _
  · exact hdel
  · have hins := hr.trans _ _ _ hdel (insertRule_respects hr upd t)
    dsimp only
    generalize insertRule h upd t = inserted at hins
    obtain ⟨out2, rule2, t2⟩ := inserted
    rcases out2 with (_ | _) | _
    · have hback := hr.trans _ _ _ hins (insertRule_respects hr old t2)
      dsimp only
      generalize insertRule h old t2 = back at hback
      obtain ⟨out3, rule3, t3⟩ := back
      rcases out3 with _ | _ <;> exact hback
    · exact hins
    · exact hins
  · exact hdel

theorem updateRule_respects (hr : h.Respects rel) (ord : DictOrder) (id : ℤ)
    (params : List (Attr R)) (s : SvcsRuleCache R W) :
    rel s.world (updateRule h ord id params s).2.world := by
  have hfind := findRuleById_respects hr ord id s.acquire
  rw [updateRule]
  generalize findRuleById h ord id s.acquire = found at hfind
  obtain ⟨out, t⟩ := found
  rcases out with (_ | ⟨old, idx⟩) | _
  · exact hfind
  · dsimp only
    split
    · exact hfind
    · rename_i upd changed _
      split_ifs
      · exact hfind
      · exact hfind
      · exact hfind
      · rw [updateChecked]
        split
        · have hrep := hr.trans _ _ _ hfind (replaceRule_respects hr ord id upd t)
          generalize replaceRule h ord id upd t = replaced at hrep
          obtain ⟨out2, t2⟩ := replaced
          rcases out2 with _ | _ <;> exact hrep
        · exact hr.trans _ _ _ hfind (updateByDelete_respects hr ord id upd t)
  · exact hfind

theorem clearLists_respects (hr : h.Respects rel) (locs : List Loc) (s : SvcsRuleCache R W) :
    rel s.world (clearLists h locs s).2.world := by
  induction locs generalizing s with
  | nil => exact hr.refl _
  | cons lc rest ih =>
    have hlist := clearRules_respects hr (s.stored lc) s.idGenerator s.world
    rw [clearLists]
    split
    · rename_i heq
      rwa [heq] at hlist
    · rename_i g w heq
      rw [heq] at hlist
      exact hr.trans _ _ _ hlist (ih (((s.dropList lc).setIds g).setWorld w))

/-- What every handler does to the world, a request does. -/
theorem step_respects (hr : h.Respects rel) (s : SvcsRuleCache R W) (q : Request R) :
    rel s.world (step h s q).world := by
  cases q with
  | insertRule rule => exact insertRule_respects hr rule s
  | deleteRule rule => exact deleteRule_respects hr rule s
  | deleteRuleById ord id => exact deleteRuleById_respects hr ord id s
  | updateRule ord id params => exact updateRule_respects hr ord id params s
  | clearAllRules ord fltVrf fltAf =>
    rw [step, exec, clearAllRules]
    have hlists := clearLists_respects hr ((sweep ord s.rules).filter fun lc =>
      fltAf.all (fun af => decide (af = lc.af)) &&
        fltVrf.all (fun vrf => decide (vrf = lc.vrfName))) s.acquire
    dsimp only
    split
    · rename_i heq
      rwa [heq] at hlists
    · rename_i heq
      rw [heq] at hlists
      exact hlists

end

/-! ## Clearings that raise -/

section

variable {h : Handlers R W} {bad : W → Prop}

theorem clearRules_bad
    (hraise : ∀ rule w w', h.procRule .delete rule none w = (.raised, w') → bad w')
    {rules : List R} {g g' : IdGenerator} {w w' : W}
    (hclear : clearRules h rules g w = (.raised, g', w')) : bad w' := by
  induction rules generalizing g w with
  | nil => cases (Prod.mk.inj hclear).1
  | cons rule rest ih =>
    rw [clearRules] at hclear
    split at hclear
    · rename_i w1 hproc
      obtain ⟨-, rfl⟩ := Prod.mk.inj (Prod.mk.inj hclear).2
      exact hraise rule w w1 hproc
    · exact ih hclear

theorem clearLists_bad
    (hraise : ∀ rule w w', h.procRule .delete rule none w = (.raised, w') → bad w')
    {locs : List Loc} {s s' : SvcsRuleCache R W}
    (hclear : clearLists h locs s = (.raised, s')) : bad s'.world := by
  induction locs generalizing s with
  | nil => cases (Prod.mk.inj hclear).1
  | cons lc rest ih =>
    rw [clearLists] at hclear
    split at hclear
    · rename_i g w hlist
      obtain rfl := (Prod.mk.inj hclear).2
      exact clearRules_bad hraise hlist
    · exact ih hclear

/-- A `clear_all_rules` that raises ends in a world where a delete has
raised. -/
theorem clearAllRules_returns
    (hraise : ∀ rule w w', h.procRule .delete rule none w = (.raised, w') → bad w')
    {ord : DictOrder} {fltVrf : Option Str} {fltAf : Option Af} {s : SvcsRuleCache R W}
    (hgood : ¬ bad (clearAllRules h ord fltVrf fltAf s).2.world) :
    hasRaised (clearAllRules h ord fltVrf fltAf s).1 = false := by
  rw [clearAllRules] at hgood ⊢
  split at hgood
  · rename_i s' hclear
    exact absurd (clearLists_bad hraise hclear) hgood
  · rfl

end

end SvcsRuleCache

/-! ## Runs without `update_rule` -/

/-- The same handlers, with every `replace` refused. -/
def Handlers.noReplace {R W : Type} (h : Handlers R W) : Handlers R W :=
  { h with
    procRule := fun op rule idx w =>
      match op with
      | .replace => (.returned false, w)
      | op => h.procRule op rule idx w }

namespace SvcsRuleCache

variable {R W : Type} [SvcsRule R]

theorem clearRules_noReplace (h : Handlers R W) (rules : List R) (g : IdGenerator) (w : W) :
    clearRules h.noReplace rules g w = clearRules h rules g w := by
  induction rules generalizing g w with
  | nil => rfl
  | cons rule rest ih =>
    have hproc : h.noReplace.procRule .delete rule none w = h.procRule .delete rule none w := rfl
    have hfreed : ∀ w, freed h.noReplace rule w = freed h rule w := fun _ => rfl
    rw [clearRules, clearRules, hproc]
    simp only [hfreed, ih]

theorem clearLists_noReplace (h : Handlers R W) (locs : List Loc) (s : SvcsRuleCache R W) :
    clearLists h.noReplace locs s = clearLists h locs s := by
  induction locs generalizing s with
  | nil => rfl
  | cons lc rest ih =>
    rw [clearLists, clearLists, clearRules_noReplace]
    simp only [ih]

/-- The request is no `update_rule`. -/
def Request.ReplacesNothing : Request R → Prop
  | .updateRule _ _ _ => False
  | _ => True

/-- Only `update_rule` replaces a rule. -/
theorem exec_noReplace (h : Handlers R W) (s : SvcsRuleCache R W) {q : Request R}
    (hq : q.ReplacesNothing) : exec h.noReplace s q = exec h s q := by
  cases q with
  | insertRule rule => rfl
  | deleteRule rule => rfl
  | deleteRuleById ord id => rfl
  | updateRule ord id params => exact hq.elim
  | clearAllRules ord fltVrf fltAf =>
    rw [exec, exec, clearAllRules, clearAllRules]
    simp only [clearLists_noReplace]

end SvcsRuleCache

end OpxNasLinux
