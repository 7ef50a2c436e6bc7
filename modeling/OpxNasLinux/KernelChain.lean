import Mathlib.Data.Stream.Defs
import OpxNasLinux.CacheInvariants

/-!
# The cache and the kernel

A cached rule list mirrors a chain of the kernel: the positions that the cache
computes are the positions that iptables edits.  This file says when the two
hold the same rules in the same order.

* `editChain` is what an edit does to a chain.
* `ChainSpec` says that `proc_rule` applies an edit fully or not at all, and
  `Matches` that the cached lists are the chains.  An edit of the cache keeps
  `Matches` but for one case (`Matches.edit`): when iptables refuses a delete,
  the rule goes back behind the later rules of its sequence key.
* `TapeKernel` is a kernel that answers from a tape, and `incoming_matches_kernel`
  the result for the incoming cache.
-/

namespace OpxNasLinux

open SvcsRule Run

/-! ## Edits of a chain -/

/-- What `proc_rule` does to the rules of a chain, `none` when iptables cannot
do it. -/
def editChain {R : Type} [DecidableEq R] (op : IptOp) (rule : R) (idx : Option ℕ)
    (chain : List R) : Option (List R) :=
  match op, idx with
  | .insert, some i => if i ≤ chain.length then some (chain.insertIdx i rule) else none
  | .insert, none => some (chain ++ [rule])
  | .delete, some i => if i < chain.length then some (chain.eraseIdx i) else none
  | .delete, none => if rule ∈ chain then some (chain.erase rule) else none
  | .replace, some i => if i < chain.length then some (chain.set i rule) else none
  | .replace, none => none

/-- The chains of a world behave as `proc_rule` promises: an edit that returns
`True` has edited the chain of the rule, and nothing else edits a chain.
`live` are the VRFs whose chains exist. -/
structure ChainSpec {R W : Type} [SvcsRule R] [DecidableEq R] (h : Handlers R W)
    (chains : W → Loc → List R) (live : W → Str → Prop) : Prop where
  applied : ∀ op rule idx w w', h.procRule op rule idx w = (.returned true, w') →
    live w (loc rule).vrfName →
    editChain op (core rule) idx (chains w (loc rule)) = some (chains w' (loc rule))
  others : ∀ op rule idx w lc, lc ≠ loc rule →
    chains (h.procRule op rule idx w).2 lc = chains w lc
  refused : ∀ op rule idx w, (h.procRule op rule idx w).1 ≠ .returned true →
    chains (h.procRule op rule idx w).2 = chains w
  getStats : ∀ rule idx w, chains (h.getStats rule idx w).2 = chains w
  subNetInsert : ∀ rule w, chains (h.subNetInsert rule w).2 = chains w
  subNetDelete : ∀ rule w, chains (h.subNetDelete rule w) = chains w
  live_eq : h.Respects fun w w' => live w' = live w

section

variable {R W : Type} [SvcsRule R] [DecidableEq R] {h : Handlers R W} {chains : W → Loc → List R}
  {live : W → Str → Prop}

/-- The private address of a rule is given back without an edit of a chain. -/
theorem ChainSpec.freed (spec : ChainSpec h chains live) (rule : R) (w : W) :
    chains (SvcsRuleCache.freed h rule w) = chains w := by
  rw [SvcsRuleCache.freed]
  split
  · exact spec.subNetDelete rule w
  · rfl

/-- A log changes nothing of the chains. -/
theorem ChainSpec.logged (spec : ChainSpec h chains live) :
    ChainSpec h.logged (fun w => chains w.1) fun w => live w.1 where
  applied op rule idx w w' hproc hlive := by
    obtain ⟨hout, rfl⟩ := Prod.mk.inj hproc
    exact spec.applied op rule idx w.1 _ (Prod.ext hout rfl) hlive
  others op rule idx w := spec.others op rule idx w.1
  refused op rule idx w := spec.refused op rule idx w.1
  getStats rule idx w := spec.getStats rule idx w.1
  subNetInsert rule w := spec.subNetInsert rule w.1
  subNetDelete rule w := spec.subNetDelete rule w.1
  live_eq := spec.live_eq.logged

/-- A rule is prepared without an edit of a chain. -/
theorem ChainSpec.prepared (spec : ChainSpec h chains live) {g g' : IdGenerator} {w w' : W}
    {rule rule' : R} (hp : SvcsRuleCache.Prepared h g w rule rule' g' w') :
    chains w' = chains w := by
  cases hp with
  | plain hid hneed => rfl
  | @ported i _ p _ hid hneed hsub =>
    have := spec.subNetInsert (setRuleId i rule) w
    rwa [hsub] at this

end

namespace SvcsRuleCache

variable {R W : Type} [SvcsRule R] [DecidableEq R] {h : Handlers R W} {chains : W → Loc → List R}
  {live : W → Str → Prop}

omit [DecidableEq R] in
/-- Every chain that exists holds the rules of the cached list, in order. -/
def Matches (chains : W → Loc → List R) (live : W → Str → Prop) (s : SvcsRuleCache R W) : Prop :=
  ∀ lc, live s.world lc.vrfName → (s.stored lc).map core = chains s.world lc

/-- A list and its chain stay the same when `proc_rule` has applied the edit
that the cache made to the list. -/
theorem Matches.applied {s : SvcsRuleCache R W} (hm : Matches chains live s)
    (spec : ChainSpec h chains live) {op : IptOp} {rule : R} {idx : Option ℕ} {w w' : W}
    (hw : chains w = chains s.world) (hlw : live w = live s.world)
    (hproc : h.procRule op rule idx w = (.returned true, w')) {t : SvcsRuleCache R W}
    {l : SvcsRuleList R} (hrules : t.rules = s.rules.insert (loc rule) l)
    (hworld : chains t.world = chains w') (hlt : live t.world = live s.world)
    (hedit : editChain op (core rule) idx ((s.stored (loc rule)).map core) =
      some (l.rules.map core)) : Matches chains live t := by
  have hstored : ∀ lc, t.stored lc = (s.setList (loc rule) l).stored lc := by
    intro lc
    rw [stored, stored, listAt, hrules]
    rfl
  intro lc hlive
  rw [hlt] at hlive
  rw [hworld, hstored]
  by_cases hlc : lc = loc rule
  · subst hlc
    have happ := spec.applied op rule idx w w' hproc (by rwa [hlw])
    rw [hw, ← hm _ hlive, hedit] at happ
    rw [stored_setList_self]
    exact Option.some_inj.mp happ
  · have hother := spec.others op rule idx w lc hlc
    rw [hproc] at hother
    rw [hother, hw, stored_setList_ne s l hlc]
    exact hm lc hlive

omit [DecidableEq R] in
/-- A list and its chain stay the same when neither changes. -/
theorem Matches.unchanged {s t : SvcsRuleCache R W} (hm : Matches chains live s)
    (hstored : ∀ lc, (t.stored lc).map core = (s.stored lc).map core)
    (hworld : chains t.world = chains s.world) (hlt : live t.world = live s.world) :
    Matches chains live t := by
  intro lc hlive
  rw [hlt] at hlive
  rw [hworld, hstored]
  exact hm lc hlive

omit [DecidableEq R] in
/-- What is stored after the list at one place has been set. -/
theorem stored_map_setList {s : SvcsRuleCache R W} {lc : Loc} {l : SvcsRuleList R}
    (hl : l.rules.map core = (s.stored lc).map core) (lc' : Loc) :
    ((s.setList lc l).stored lc').map core = (s.stored lc').map core := by
  by_cases hlc : lc' = lc
  · rw [hlc, stored_setList_self, hl]
  · rw [stored_setList_ne s l hlc]

/-- An edit of the cache keeps the lists and the chains the same, unless
`proc_rule` raises, or it refuses to delete a rule that has a later rule of
its sequence key behind it. -/
theorem Matches.edit [LawfulSvcsRule R] {s s' : SvcsRuleCache R W} (hs : s.Sound)
    (hm : Matches chains live s) (spec : ChainSpec h chains live) (he : Edit h s s')
    (hraise : ∀ op rule idx w w', h.procRule op rule idx w = (.raised, w') → s'.world ≠ w')
    (hties : ∀ lc idx del w, (s.stored lc)[idx]? = some del →
      h.procRule .delete del (some idx) s.world = (.returned false, w) → s'.world = w →
      ∀ j r, idx < j → (s.stored lc)[j]? = some r → seqKey r ≠ seqKey del) :
    Matches chains live s' := by
  have hlt : live s'.world = live s.world := he.respects spec.live_eq
  have hrefused : ∀ {op rule idx w w' out}, h.procRule op rule idx w = (out, w') →
      out ≠ .returned true → chains w' = chains w := by
    intro op rule idx w w' out hproc hout
    have := spec.refused op rule idx w (by rwa [hproc])
    rwa [hproc] at this
  have hlw : ∀ {g g' w rule rule'}, Prepared h g s.world rule rule' g' w →
      live w = live s.world := fun hp => hp.respects spec.live_eq
  cases he with
  | mutex n => exact hm
  | openList lc hlc =>
    refine hm.unchanged (stored_map_setList ?_) rfl hlt
    rw [stored, listAt_of_notMem hlc]
  | closeList lc hlc =>
    refine hm.unchanged (fun lc' => ?_) rfl hlt
    by_cases h' : lc' = lc
    · rw [h', hlc, stored, listAt_dropList_self]
      rfl
    · rw [stored, listAt_dropList_ne s h', stored]
  | @readStats lc idx rule st w hrule hget =>
    refine hm.unchanged (stored_map_setList ?_) ?_ hlt
    · exact SvcsRuleList.map_set_of_eq core hrule (LawfulSvcsRule.core_setStats st rule)
    · have := spec.getStats rule idx s.world
      rwa [hget] at this
  | readNothing rule idx => exact hm.unchanged (fun _ => rfl) (spec.getStats _ _ _) hlt
  | @insertUnported rule i g w hid hneed hp =>
    refine hm.unchanged (fun _ => rfl) ?_ hlt
    have := spec.subNetInsert (setRuleId i rule) s.world
    rwa [hp] at this
  | insertMatched hp =>
    exact hm.unchanged (fun _ => rfl) ((spec.freed _ _).trans (spec.prepared hp)) hlt
  | insertRefused hp hidx hid hkey hproc =>
    refine hm.unchanged (stored_map_setList ?_) ?_ hlt
    · rw [SvcsRuleList.removeAt_insertAt_rules, stored]
    · exact (spec.freed _ _).trans ((hrefused hproc (by simp)).trans (spec.prepared hp))
  | @inserted rule rule' g w w' idx out hp hidx hid hkey hproc hout =>
    rcases out with (_ | _) | _
    · exact absurd rfl hout
    · refine hm.applied spec (spec.prepared hp) (hlw hp) hproc rfl rfl hlt ?_
      have hlen : idx ≤ (s.stored (loc rule')).length := by
        have := hidx.le_length
        rwa [(hs.aligned _).seqNums, List.length_map] at this
      rw [editChain, List.length_map, if_pos hlen, SvcsRuleList.insertAt, List.map_insertIdx]
      rfl
    · exact absurd rfl (hraise _ _ _ _ _ hproc)
  | @deleted lc idx del w hdel hproc =>
    have hlc := hs.placed lc del (List.mem_of_getElem? hdel)
    subst hlc
    refine hm.applied spec rfl rfl hproc rfl (spec.freed _ _) hlt ?_
    have hlen := (List.getElem?_eq_some_iff.mp hdel).1
    rw [editChain, List.length_map, if_pos hlen, SvcsRuleList.removeAt, List.eraseIdx_map]
    rfl
  | @deleteRefused lc idx del w l hdel hl hproc =>
    subst hl
    refine hm.unchanged (stored_map_setList ?_) (hrefused hproc (by simp)) hlt
    exact congrArg (List.map core) (SvcsRuleList.Aligned.reinsert_rules (hs.aligned lc) hdel
      (hties lc idx del w hdel hproc rfl))
  | deleteRaised hdel hproc => exact absurd rfl (hraise _ _ _ _ _ hproc)
  | @replaced lc idx old new w hold hloc hid hseq hkey hproc =>
    subst hloc
    refine hm.applied spec rfl rfl hproc rfl rfl hlt ?_
    have hlen := (List.getElem?_eq_some_iff.mp hold).1
    rw [editChain, List.length_map, if_pos hlen, SvcsRuleList.setRule, List.map_set]
    rfl
  | replaceRefused hproc hout => exact hm.unchanged (fun _ => rfl) (hrefused hproc hout) hlt

/-- A list that is cleared takes the rules of its chain away from the front, as
long as every delete succeeds. -/
theorem clearRules_chains (spec : ChainSpec h chains live) {good : W → Prop}
    (hback : h.Respects fun w w' => good w' → good w)
    (htrue : ∀ rule w b w', h.procRule .delete rule none w = (.returned b, w') → good w' → b = true)
    {lc : Loc} {rules : List R} {g g' : IdGenerator} {w w' : W}
    (hclear : clearRules h rules g w = (.returned (), g', w')) (hgood : good w')
    (hloc : ∀ r ∈ rules, loc r = lc) :
    (∀ lc', lc' ≠ lc → chains w' lc' = chains w lc') ∧
      (live w lc.vrfName → chains w lc = rules.map core → chains w' lc = []) := by
  induction rules generalizing g w with
  | nil =>
    obtain ⟨-, rfl⟩ := Prod.mk.inj (Prod.mk.inj hclear).2
    exact ⟨fun _ _ => rfl, fun _ hchain => hchain⟩
  | cons rule rest ih =>
    obtain rfl := hloc rule List.mem_cons_self
    rw [clearRules] at hclear
    split at hclear
    · cases (Prod.mk.inj hclear).1
    rename_i b w1 hproc
    have hlater := clearRules_respects hback rest (dropId (ruleId rule) g) (freed h rule w1)
    rw [hclear] at hlater
    obtain rfl := htrue rule w b w1 hproc (freed_respects hback rule w1 (hlater hgood))
    obtain ⟨hothers, hself⟩ := ih hclear fun r hr => hloc r (List.mem_cons_of_mem _ hr)
    rw [spec.freed] at hothers hself
    have hlive : live (freed h rule w1) = live w := by
      have hone := spec.live_eq.procRule .delete rule none w
      rw [hproc] at hone
      exact spec.live_eq.trans _ _ _ hone (freed_respects spec.live_eq rule w1)
    constructor
    · intro lc' hlc
      have hother := spec.others .delete rule none w lc' hlc
      rw [hproc] at hother
      exact (hothers lc' hlc).trans hother
    · intro hopen hchain
      refine hself (hlive ▸ hopen) ?_
      have hedit := spec.applied .delete rule none w w1 hproc hopen
      rw [hchain, List.map_cons, editChain, if_pos List.mem_cons_self,
        List.erase_cons_head] at hedit
      exact (Option.some_inj.mp hedit).symm

/-- A list that is cleared and its chain stay the same, as long as every delete
succeeds. -/
theorem Matches.clear {s s' : SvcsRuleCache R W} (hs : s.Sound) (hm : Matches chains live s)
    (spec : ChainSpec h chains live) {good : W → Prop}
    (hback : h.Respects fun w w' => good w' → good w)
    (htrue : ∀ rule w b w', h.procRule .delete rule none w = (.returned b, w') → good w' → b = true)
    (hc : Clear h s s') (hgood : good s'.world) : Matches chains live s' := by
  have hlive : live s'.world = live s.world := hc.respects spec.live_eq
  obtain ⟨hclear⟩ := hc
  rename_i lc g w
  obtain ⟨hothers, hself⟩ := clearRules_chains spec hback htrue hclear hgood (hs.placed lc)
  intro lc' hopen
  rw [hlive] at hopen
  have hdrop : SvcsRuleCache.stored (((s.dropList lc).setIds g).setWorld w) lc' =
      (s.dropList lc).stored lc' := rfl
  by_cases hlc : lc' = lc
  · subst hlc
    rw [hdrop, stored, listAt_dropList_self]
    exact (hself hopen (hm lc' hopen).symm).symm
  · rw [hdrop, stored, listAt_dropList_ne s hlc]
    exact (hm lc' hopen).trans (hothers lc' hlc).symm

omit [DecidableEq R] in
/-- What every edit keeps beside soundness, a run of requests other than
`clear_all_rules` keeps. -/
theorem run_edits [LawfulSvcsRule R] {inv : SvcsRuleCache R W → Prop}
    (hedit : ∀ s s', s.Sound → inv s → Edit h s s' → inv s') {w : W} (hinit : inv (init w))
    {requests : List (Request R)} (hq : ∀ q ∈ requests, q.EditsOnly) :
    (run (step h) (init w) requests).Sound ∧ inv (run (step h) (init w) requests) := by
  have hall : ∀ (s : SvcsRuleCache R W), s.Sound → inv s →
      (run (step h) s requests).Sound ∧ inv (run (step h) s requests) := by
    induction requests with
    | nil => exact fun s hs hinv => ⟨hs, hinv⟩
    | cons q rest ih =>
      intro s hs hinv
      have hsteps := exec_steps (h := h) hs (hq q List.mem_cons_self)
      exact ih (fun q' hq' => hq q' (List.mem_cons_of_mem _ hq')) _ (hs.steps hsteps)
        (hsteps.keeps hedit hs hinv)
  exact hall (init w) (sound_init w) hinit

end SvcsRuleCache

/-! ## A kernel that answers from a tape -/

/-- A kernel with its chains.  The namespaces stay as they are.  `replies` says
which of the commands to come succeed, `counts` what the counters will be.
`refused` remembers the deletes that it refused, with the chain at that
time. -/
structure TapeKernel (R : Type) where
  namespaces : Str → Bool
  chains : Loc → List R
  replies : Stream' Bool
  counts : Stream' (Option Stats)
  refused : List (Option ℕ × List R)

namespace TapeKernel

variable {R : Type} [SvcsRule R] [DecidableEq R]

/-- A kernel with empty chains. -/
def init (namespaces : Str → Bool) (replies : Stream' Bool) (counts : Stream' (Option Stats)) :
    TapeKernel R :=
  { namespaces, chains := fun _ => [], replies, counts, refused := [] }

/-- The chains of a VRF exist: it is the default one, or its namespace
exists. -/
def live (k : TapeKernel R) (vrfName : Str) : Bool :=
  decide (vrfName = "default".toList) || k.namespaces vrfName

/-- The chain after the command for an edit, `none` when the command fails. -/
def attempt (op : IptOp) (rule : R) (idx : Option ℕ) (k : TapeKernel R) : Option (List R) :=
  if k.live (loc rule).vrfName ∧ k.replies.head then
    editChain op (core rule) idx (k.chains (loc rule))
  else none

/-- `IptablesHandler.proc_rule`.  A delete for a VRF without a namespace is
bypassed. -/
def procRule (op : IptOp) (rule : R) (idx : Option ℕ) (k : TapeKernel R) :
    Outcome Bool × TapeKernel R :=
  if op = .delete ∧ k.live (loc rule).vrfName = false then (.returned true, k)
  else
    match attempt op rule idx k with
    | some chain =>
      (.returned true,
        { k with chains := Function.update k.chains (loc rule) chain, replies := k.replies.tail })
    | none =>
      (.returned false,
        { k with
          replies := k.replies.tail
          refused :=
            if op = .delete then (idx, k.chains (loc rule)) :: k.refused else k.refused })

/-- What an incoming cache calls. -/
def handlers : Handlers R (TapeKernel R) where
  procRule := procRule
  getStats _ _ k := (.returned k.counts.head, { k with counts := k.counts.tail })
  subNetInsert _ k := (none, k)
  subNetDelete _ k := k

/-- No delete was refused whose rule had a later rule of its sequence key
behind it in the chain. -/
def NoTieRefused (refused : List (Option ℕ × List R)) : Prop :=
  ∀ idx chain, (some idx, chain) ∈ refused → ∀ j (r r' : R), idx < j → chain[idx]? = some r →
    chain[j]? = some r' → seqKey r' ≠ seqKey r

omit [SvcsRule R] [DecidableEq R] in
theorem live_congr {k k' : TapeKernel R} (h : k'.namespaces = k.namespaces) : k'.live = k.live := by
  funext vrf
  rw [live, live, h]

/-- What a call of `proc_rule` does. -/
theorem procRule_cases (op : IptOp) (rule : R) (idx : Option ℕ) (k : TapeKernel R) :
    (op = .delete ∧ k.live (loc rule).vrfName = false ∧
      procRule op rule idx k = (.returned true, k)) ∨
    (∃ chain, editChain op (core rule) idx (k.chains (loc rule)) = some chain ∧
      procRule op rule idx k = (.returned true,
        { k with
          chains := Function.update k.chains (loc rule) chain
          replies := k.replies.tail })) ∨
    procRule op rule idx k = (.returned false,
        { k with
          replies := k.replies.tail
          refused :=
            if op = .delete then (idx, k.chains (loc rule)) :: k.refused else k.refused }) := by
  by_cases hbypass : op = .delete ∧ k.live (loc rule).vrfName = false
  · exact Or.inl ⟨hbypass.1, hbypass.2, by rw [procRule, if_pos hbypass]⟩
  · right
    rw [procRule, if_neg hbypass]
    cases hattempt : attempt op rule idx k with
    | none => exact Or.inr rfl
    | some chain =>
      refine Or.inl ⟨chain, ?_, rfl⟩
      rw [attempt] at hattempt
      split_ifs at hattempt
      exact hattempt

/-- A delete for a VRF without a namespace does nothing. -/
theorem procRule_bypass {rule : R} {k : TapeKernel R} (idx : Option ℕ)
    (hdead : k.live (loc rule).vrfName = false) :
    procRule .delete rule idx k = (.returned true, k) := by
  rw [procRule, if_pos ⟨rfl, hdead⟩]

/-- The namespaces never change. -/
theorem procRule_namespaces (op : IptOp) (rule : R) (idx : Option ℕ) (k : TapeKernel R) :
    (procRule op rule idx k).2.namespaces = k.namespaces := by
  rcases procRule_cases op rule idx k with ⟨-, -, heq⟩ | ⟨chain, -, heq⟩ | heq <;> rw [heq]

theorem handlers_chainSpec :
    ChainSpec (handlers (R := R)) TapeKernel.chains (fun k vrf => k.live vrf = true) where
  applied op rule idx k k' hproc hlive := by
    rcases procRule_cases op rule idx k with ⟨-, hdead, -⟩ | ⟨chain, hedit, heq⟩ | heq
    · rw [hdead] at hlive
      cases hlive
    · obtain rfl := (Prod.mk.inj (heq.symm.trans hproc)).2
      rw [hedit]
      exact congrArg some (Function.update_self (loc rule) chain k.chains).symm
    · cases (Prod.mk.inj (heq.symm.trans hproc)).1
  others op rule idx k lc hne := by
    change (procRule op rule idx k).2.chains lc = _
    rcases procRule_cases op rule idx k with ⟨-, -, heq⟩ | ⟨chain, -, heq⟩ | heq <;> rw [heq]
    exact Function.update_of_ne hne _ _
  refused op rule idx k hout := by
    change (procRule op rule idx k).2.chains = _
    change (procRule op rule idx k).1 ≠ _ at hout
    rcases procRule_cases op rule idx k with ⟨-, -, heq⟩ | ⟨chain, -, heq⟩ | heq
    · exact absurd (congrArg Prod.fst heq) hout
    · exact absurd (congrArg Prod.fst heq) hout
    · rw [heq]
  getStats _ _ _ := rfl
  subNetInsert _ _ := rfl
  subNetDelete _ _ := rfl
  live_eq :=
    { refl := fun _ => rfl
      trans := fun _ _ _ h1 h2 => h2.trans h1
      procRule := fun op rule idx k => by
        change (fun vrf => (procRule op rule idx k).2.live vrf = true) = _
        rw [live_congr (procRule_namespaces op rule idx k)]
      getStats := fun _ _ _ => rfl
      subNetInsert := fun _ _ => rfl
      subNetDelete := fun _ _ => rfl }

/-- The record of refused deletes only grows. -/
theorem handlers_refused :
    (handlers (R := R)).Respects fun k k' => ∀ p ∈ k.refused, p ∈ k'.refused where
  refl _ _ hp := hp
  trans _ _ _ h1 h2 p hp := h2 p (h1 p hp)
  procRule op rule idx k p hp := by
    change p ∈ (procRule op rule idx k).2.refused
    rcases procRule_cases op rule idx k with ⟨-, -, heq⟩ | ⟨chain, -, heq⟩ | heq
    · rw [heq]
      exact hp
    · rw [heq]
      exact hp
    · rw [heq]
      dsimp only
      split
      · exact List.mem_cons_of_mem _ hp
      · exact hp
  getStats _ _ _ _ hp := hp
  subNetInsert _ _ _ hp := hp
  subNetDelete _ _ _ hp := hp

/-- A refused delete is remembered. -/
theorem mem_refused {rule : R} {idx : Option ℕ} {k k' : TapeKernel R}
    (hproc : procRule .delete rule idx k = (.returned false, k')) :
    (idx, k.chains (loc rule)) ∈ k'.refused := by
  rcases procRule_cases .delete rule idx k with ⟨-, -, heq⟩ | ⟨chain, -, heq⟩ | heq
  · cases (Prod.mk.inj (heq.symm.trans hproc)).1
  · cases (Prod.mk.inj (heq.symm.trans hproc)).1
  · obtain rfl := (Prod.mk.inj (heq.symm.trans hproc)).2
    exact List.mem_cons_self

end TapeKernel

namespace SvcsRuleCache

/-- After any run of the incoming cache in which no delete was refused that
had a tie behind it, every cached list holds the rules of its chain, in
order. -/
theorem incoming_matches_kernel (namespaces : Str → Bool) (replies : Stream' Bool)
    (counts : Stream' (Option Stats)) (requests : List (Request VrfIncomingSvcsRule))
    (hedits : ∀ q ∈ requests, q.EditsOnly)
    (hties : TapeKernel.NoTieRefused
      (run (step TapeKernel.handlers) (init (.init namespaces replies counts))
        requests).world.refused) :
    Matches TapeKernel.chains (fun k vrf => k.live vrf = true)
      (run (step TapeKernel.handlers) (init (.init namespaces replies counts)) requests) := by
  have hedit : ∀ s s' : VrfIncomingSvcsRuleCache (TapeKernel VrfIncomingSvcsRule), s.Sound →
      (TapeKernel.NoTieRefused s.world.refused →
        Matches TapeKernel.chains (fun k vrf => k.live vrf = true) s) →
      Edit TapeKernel.handlers s s' → TapeKernel.NoTieRefused s'.world.refused →
        Matches TapeKernel.chains (fun k vrf => k.live vrf = true) s' := by
    intro s s' hs hm he hno
    have hgrow := he.respects TapeKernel.handlers_refused
    have hm' := hm fun idx chain hmem => hno idx chain (hgrow _ hmem)
    refine hm'.edit hs TapeKernel.handlers_chainSpec he ?_ ?_
    · intro op rule idx w w' hproc
      rcases TapeKernel.procRule_cases op rule idx w with ⟨-, -, heq⟩ | ⟨chain, -, heq⟩ | heq <;>
        cases (Prod.mk.inj (heq.symm.trans hproc)).1
    · intro lc idx del w hdel hproc hworld j r hj hr
      have hmem := TapeKernel.mem_refused hproc
      have hlc := hs.placed lc del (List.mem_of_getElem? hdel)
      subst hlc
      by_cases hlive : s.world.live (loc del).vrfName = true
      · rw [← hm' _ hlive, ← hworld] at hmem
        have hne := hno _ _ hmem j (core del) (core r) hj
          (by rw [List.getElem?_map, hdel]; rfl) (by rw [List.getElem?_map, hr]; rfl)
        rwa [LawfulSvcsRule.seqKey_core, LawfulSvcsRule.seqKey_core] at hne
      · have hbypass := TapeKernel.procRule_bypass (some idx) (Bool.not_eq_true _ ▸ hlive)
        cases (Prod.mk.inj (hbypass.symm.trans hproc)).1
  exact (run_edits hedit (fun _ _ _ => rfl) hedits).2 hties

theorem incoming_matches_kernel_small :
    Matches TapeKernel.chains (fun k vrf => k.live vrf = true)
      (run (step TapeKernel.handlers)
        (init (TapeKernel.init (fun _ => true) (fun _ => true) (fun _ => none)))
        [.insertRule (allowAll 10 "eth1".toList), .insertRule (allowAll 5 "eth2".toList),
          .updateRule listOrder 1 [.dstPort 22], .deleteRuleById listOrder 2]) :=
  incoming_matches_kernel _ _ _ _ (by simp [Request.EditsOnly]) (by
    have hnone : (run (step TapeKernel.handlers)
        (init (TapeKernel.init (fun _ => true) (fun _ => true) (fun _ => none)))
        [.insertRule (allowAll 10 "eth1".toList), .insertRule (allowAll 5 "eth2".toList),
          .updateRule listOrder 1 [.dstPort 22], .deleteRuleById listOrder 2]).world.refused =
        [] := by decide +kernel
    rw [hnone]
    exact fun _ _ hmem => absurd hmem List.not_mem_nil)

/-- Two rules of one sequence number.  iptables refuses to delete the first,
and the cache puts it back behind the second. -/
theorem incoming_swaps_ties :
    ¬ Matches TapeKernel.chains (fun k vrf => k.live vrf = true)
      (run (step TapeKernel.handlers)
        (init (TapeKernel.init (fun _ => true) (fun n => decide (n ≠ 2)) (fun _ => none)))
        [.insertRule (allowAll 0 "eth1".toList), .insertRule (allowAll 0 "eth2".toList),
          .deleteRuleById listOrder 1]) := by
  intro hm
  have hblue := hm (allowAll 0 "eth1".toList).loc (by decide +kernel)
  exact absurd (congrArg (List.map VrfIncomingSvcsRule.inIntf) hblue)
    (by decide +kernel)

end SvcsRuleCache

end OpxNasLinux
