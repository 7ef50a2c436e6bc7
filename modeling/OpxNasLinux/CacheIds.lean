import OpxNasLinux.CacheWorld

/-!
# The ids of the caches

The reserved ids are the ids of the stored rules, after any sequence of
requests and through every refusal of a delete or a replace.

* A delete that raises comes after the rule has left its list and before its id
  is released, so it leaves the id behind, in both caches.
* A refused insert leaves the id behind in the incoming cache, whose
  `insert_rule` does not release it.

`Sound.idsMatch` says what is missing of a sound cache, `Balanced.edit` and
`Balanced.clear` what one change keeps, and `run_idsMatch` what a run keeps.
-/

namespace OpxNasLinux

open SvcsRule Run

namespace SvcsRuleCache

variable {R W : Type} [SvcsRule R]

/-! ## Ids -/

/-- The reserved ids are the ids of the stored rules, and no two stored rules
have the same id. -/
structure IdsMatch (s : SvcsRuleCache R W) : Prop where
  reserved_iff : ∀ i, i ∈ s.idGenerator.resvedIds ↔ ∃ lc, ∃ r ∈ s.stored lc, ruleId r = some i
  unique : ∀ (lc lc' : Loc) (m n : ℕ) (r r' : R),
    (s.stored lc)[m]? = some r → (s.stored lc')[n]? = some r' →
    ruleId r = ruleId r' → lc = lc' ∧ m = n

/-- Every reserved id is the id of a stored rule. -/
def Balanced (s : SvcsRuleCache R W) : Prop :=
  ∀ i ∈ s.idGenerator.resvedIds, ∃ lc, ∃ r ∈ s.stored lc, ruleId r = some i

/-- For a sound cache, balance is all that is missing. -/
theorem Sound.idsMatch {s : SvcsRuleCache R W} (hs : s.Sound) (hb : s.Balanced) : s.IdsMatch := by
  refine ⟨fun i => ⟨hb i, ?_⟩, ?_⟩
  · rintro ⟨lc, r, hr, hi⟩
    exact hs.reserved_id hr hi
  · intro lc lc' m n r r' hm hn hid
    have hlc := hs.unique lc lc' r r' (List.mem_of_getElem? hm) (List.mem_of_getElem? hn) hid
    subst hlc
    refine ⟨rfl, SvcsRuleList.ids_inj (hs.aligned lc).ids_nodup (k := ruleId r) ?_ ?_⟩
    · exact congrArg (Option.map ruleId) hm
    · exact (congrArg (Option.map ruleId) hn).trans (congrArg some hid.symm)

/-- What `clear_all_rules` leaves of the ids, when it gets through a list. -/
theorem mem_clearRules {h : Handlers R W} {rules : List R} {g g' : IdGenerator} {w w' : W}
    (hclear : clearRules h rules g w = (.returned (), g', w')) {j : ℤ}
    (hj : j ∈ g'.resvedIds) : j ∈ g.resvedIds ∧ ∀ r ∈ rules, ruleId r ≠ some j := by
  induction rules generalizing g w with
  | nil =>
    obtain ⟨rfl, -⟩ : g = g' ∧ w = w' := by simpa [clearRules] using hclear
    exact ⟨hj, fun r hr => absurd hr List.not_mem_nil⟩
  | cons rule rest ih =>
    rw [clearRules] at hclear
    split at hclear
    · cases (Prod.mk.inj hclear).1
    · obtain ⟨hmem, hne⟩ := ih hclear
      obtain ⟨hrule, hg⟩ := mem_dropId.mp hmem
      refine ⟨hg, fun r hr => ?_⟩
      rcases List.mem_cons.mp hr with rfl | hr
      · exact fun he => hrule he.symm
      · exact hne r hr

/-- A rule that is stored elsewhere stays stored when the list at a place
changes. -/
theorem stored_mono {s s' : SvcsRuleCache R W} {lc : Loc} {l : SvcsRuleList R}
    (hrules : s'.rules = s.rules.insert lc l) {i : ℤ}
    (hlist : ∀ r ∈ s.stored lc, ruleId r = some i → ∃ r' ∈ l.rules, ruleId r' = some i)
    (h : ∃ lc, ∃ r ∈ s.stored lc, ruleId r = some i) :
    ∃ lc, ∃ r ∈ s'.stored lc, ruleId r = some i := by
  have hstored : ∀ lc', s'.stored lc' = (s.setList lc l).stored lc' := by
    intro lc'
    rw [stored, stored, listAt, hrules]
    rfl
  obtain ⟨lc', r, hr, hi⟩ := h
  by_cases hlc : lc' = lc
  · subst hlc
    obtain ⟨r', hr', hi'⟩ := hlist r hr hi
    refine ⟨lc', r', ?_, hi'⟩
    rwa [hstored, stored_setList_self]
  · refine ⟨lc', r, ?_, hi⟩
    rwa [hstored, stored_setList_ne s l hlc]

/-- A rule that is stored elsewhere stays stored when the list at a place is
dropped. -/
theorem stored_dropList {s s' : SvcsRuleCache R W} {lc : Loc}
    (hrules : s'.rules = s.rules.erase lc) {i : ℤ} (hlist : ∀ r ∈ s.stored lc, ruleId r ≠ some i)
    (h : ∃ lc, ∃ r ∈ s.stored lc, ruleId r = some i) :
    ∃ lc, ∃ r ∈ s'.stored lc, ruleId r = some i := by
  obtain ⟨lc', r, hr, hi⟩ := h
  have hlc : lc' ≠ lc := by
    rintro rfl
    exact hlist r hr hi
  refine ⟨lc', r, ?_, hi⟩
  have hdrop := listAt_dropList_ne s hlc
  rw [stored, listAt, hrules]
  rw [stored, ← hdrop] at hr
  exact hr

/-- A rule that is replaced by one with the same id leaves the ids of its list. -/
theorem exists_of_set {rules : List R} {idx : ℕ} {old new r : R} {i : Option ℤ}
    (hold : rules[idx]? = some old) (hsame : ruleId new = ruleId old) (hr : r ∈ rules)
    (hid : ruleId r = i) : ∃ r' ∈ rules.set idx new, ruleId r' = i := by
  have hmap : (rules.set idx new).map ruleId = rules.map ruleId :=
    SvcsRuleList.map_set_of_eq ruleId hold hsame
  have hmem : ruleId r ∈ rules.map ruleId := List.mem_map_of_mem hr
  rw [← hmap, hid] at hmem
  exact List.mem_map.mp hmem

/-- An edit keeps the ids balanced, unless a delete raises or iptables refuses
an insert whose id is not released. -/
theorem Balanced.edit [LawfulSvcsRule R] {h : Handlers R W} {s s' : SvcsRuleCache R W}
    (hs : s.Sound) (hb : s.Balanced) (he : Edit h s s')
    (hdelete : ∀ r idx w w', h.procRule .delete r idx w = (.raised, w') → s'.world ≠ w')
    (hinsert : releasesRefusedId R = true ∨
      ∀ r idx w w', h.procRule .insert r idx w = (.returned false, w') → s'.world ≠ freed h r w') :
    s'.Balanced := by
  cases he with
  | mutex n => exact hb
  | openList lc hlc =>
    intro i hi
    refine stored_mono rfl (fun r hr => ?_) (hb i hi)
    exact absurd (mem_rules_of_mem_stored hr) hlc
  | closeList lc hlc =>
    intro i hi
    refine stored_dropList rfl (fun r hr => ?_) (hb i hi)
    rw [hlc] at hr
    exact absurd hr List.not_mem_nil
  | @readStats lc idx rule st w hrule hget =>
    intro i hi
    refine stored_mono rfl (fun r hr hid => ?_) (hb i hi)
    exact exists_of_set hrule (LawfulSvcsRule.ruleId_setStats st rule) hr hid
  | readNothing rule idx => exact hb
  | insertUnported hid hneed hp =>
    obtain ⟨-, hnew, hset⟩ := takeId_some hs.gen hid
    intro j hj
    rw [setIds, dropId_of_fresh hnew hset] at hj
    exact hb j hj
  | @insertMatched rule rule' g w hp =>
    obtain ⟨-, i, hi, hnew, hset⟩ := hp.fresh hs.gen
    intro j hj
    rw [setIds, hi, dropId_of_fresh hnew hset] at hj
    exact hb j hj
  | @insertRefused rule rule' g w w' idx hp hidx hid hkey hproc =>
    rcases hinsert with hflag | hno
    · obtain ⟨-, i, hi, hnew, hset⟩ := hp.fresh hs.gen
      intro j hj
      rw [setIds, refusedIds, if_pos hflag, hi, dropId_of_fresh hnew hset] at hj
      refine stored_mono rfl (fun r hr hrid => ⟨r, ?_, hrid⟩) (hb j hj)
      rwa [SvcsRuleList.removeAt_insertAt_rules]
    · exact absurd rfl (hno _ _ _ _ hproc)
  | @inserted rule rule' g w w' idx out hp hidx hid hkey hproc hout =>
    obtain ⟨-, i, hi, -, hset⟩ := hp.fresh hs.gen
    have hget := SvcsRuleList.getElem?_insertAt (hs.aligned _) hidx
    intro j hj
    rw [setIds, hset, Finset.mem_insert] at hj
    rcases hj with rfl | hj
    · refine ⟨loc rule', rule', ?_, hi⟩
      rw [stored_setIds, stored_setWorld, stored_setList_self]
      exact List.mem_of_getElem? hget
    · refine stored_mono rfl (fun r hr hrid => ⟨r, ?_, hrid⟩) (hb j hj)
      have hlen : idx ≤ (s.listAt (loc rule')).rules.length := by
        have := hidx.le_length
        rwa [(hs.aligned _).seqNums, List.length_map] at this
      exact (List.mem_insertIdx hlen).mpr (Or.inr hr)
  | @deleted lc idx del w hdel hproc =>
    intro j hj
    obtain ⟨hne, hj⟩ := mem_dropId.mp hj
    refine stored_mono rfl (fun r hr hrid => ⟨r, ?_, hrid⟩) (hb j hj)
    rcases List.mem_cons.mp ((SvcsRuleList.perm_removeAt hdel (ruleId del)).mem_iff.mpr hr) with
      rfl | hr
    · exact absurd hrid.symm hne
    · exact hr
  | @deleteRefused lc idx del w l hdel hl hproc =>
    subst hl
    have hl' := SvcsRuleList.aligned_removeAt (hs.aligned lc) hdel
    intro j hj
    refine stored_mono rfl (fun r hr hrid => ⟨r, ?_, hrid⟩) (hb j hj)
    exact (SvcsRuleList.reinsert_perm (hs.aligned lc) hdel
      (Bisect.bisectRight_isRightPoint hl'.sorted _)).mem_iff.mpr hr
  | deleteRaised hdel hproc =>
    exact absurd rfl (hdelete _ _ _ _ hproc)
  | @replaced lc idx old new w hold hloc hid hseq hkey hproc =>
    intro i hi
    refine stored_mono rfl (fun r hr hrid => ?_) (hb i hi)
    exact exists_of_set hold hid hr hrid
  | replaceRefused hproc hout => exact hb

/-- A cleared list keeps the ids balanced. -/
theorem Balanced.clear {h : Handlers R W} {s s' : SvcsRuleCache R W} (hb : s.Balanced)
    (hc : Clear h s s') : s'.Balanced := by
  obtain ⟨hclear⟩ := hc
  intro i hi
  obtain ⟨hi, hne⟩ := mem_clearRules hclear hi
  exact stored_dropList rfl hne (hb i hi)

/-! ## Runs -/

theorem balanced_init (w : W) : (init w : SvcsRuleCache R W).Balanced :=
  fun i hi => absurd hi (Finset.notMem_empty i)

/-- No delete has raised. -/
def NoDeleteRaised (calls : List (ProcCall R)) : Prop :=
  ∀ c ∈ calls, c.op = .delete → c.answer ≠ .raised

/-- iptables has refused no insert. -/
def NoInsertRefused (calls : List (ProcCall R)) : Prop :=
  ∀ c ∈ calls, c.op = .insert → c.answer ≠ .returned false

omit [SvcsRule R] in
instance (calls : List (ProcCall R)) : Decidable (NoDeleteRaised calls) := by
  unfold NoDeleteRaised
  infer_instance

omit [SvcsRule R] in
instance (calls : List (ProcCall R)) : Decidable (NoInsertRefused calls) := by
  unfold NoInsertRefused
  infer_instance

/-- No call has left an id behind. -/
structure IdsReleased (calls : List (ProcCall R)) : Prop where
  deletes : NoDeleteRaised calls
  inserts : releasesRefusedId R = true ∨ NoInsertRefused calls

omit [SvcsRule R] in
theorem NoDeleteRaised.of_grows {calls calls' : List (ProcCall R)} (h : NoDeleteRaised calls')
    (hgrow : ∀ c ∈ calls, c ∈ calls') : NoDeleteRaised calls :=
  fun c hc => h c (hgrow c hc)

theorem IdsReleased.of_grows {calls calls' : List (ProcCall R)} (h : IdsReleased calls')
    (hgrow : ∀ c ∈ calls, c ∈ calls') : IdsReleased calls :=
  ⟨h.deletes.of_grows hgrow, h.inserts.imp_right fun hno c hc => hno c (hgrow c hc)⟩

/-- What a change keeps, when no call has left an id behind. -/
theorem Balanced.change [LawfulSvcsRule R] {h : Handlers R W}
    {s s' : SvcsRuleCache R (W × List (ProcCall R))} (hs : s.Sound)
    (hb : IdsReleased s.world.2 → s.Balanced)
    (hchange : Edit h.logged s s' ∨ Clear h.logged s s') (hlog : IdsReleased s'.world.2) :
    s'.Balanced := by
  rcases hchange with he | hc
  · refine (hb (hlog.of_grows (he.respects h.logged_respects))).edit hs he ?_ ?_
    · rintro r idx w w' hproc heq
      rw [heq] at hlog
      exact hlog.deletes _ (Handlers.mem_calls hproc) rfl rfl
    · refine hlog.inserts.imp_right fun hno r idx w w' hproc heq => ?_
      have hmem : (⟨.insert, r, idx, .returned false⟩ : ProcCall R) ∈ s'.world.2 := by
        rw [heq]
        exact freed_respects h.logged_respects r w' _ (Handlers.mem_calls hproc)
      exact hno _ hmem rfl rfl
  · exact (hb (hlog.of_grows (hc.respects h.logged_respects))).clear hc

/-- With no delete that raised, every call is a sequence of changes. -/
theorem changes_of_noDeleteRaised [LawfulSvcsRule R] {h : Handlers R W}
    {s : SvcsRuleCache R (W × List (ProcCall R))} (hs : s.Sound) {q : Request R}
    (hlog : NoDeleteRaised (step h.logged s q).world.2) :
    Changes h.logged s (step h.logged s q) := by
  refine exec_changes hs ?_
  cases q with
  | clearAllRules ord fltVrf fltAf =>
    have hraise : ∀ rule w w', h.logged.procRule .delete rule none w = (.raised, w') →
        ¬ NoDeleteRaised w'.2 :=
      fun rule w w' hproc hgood => hgood _ (Handlers.mem_calls hproc) rfl rfl
    exact Or.inr (clearAllRules_returns hraise (not_not.mpr hlog))
  | insertRule rule => exact Or.inl trivial
  | deleteRule rule => exact Or.inl trivial
  | deleteRuleById ord id => exact Or.inl trivial
  | updateRule ord id params => exact Or.inl trivial

/-- After any run in which no call has left an id behind, the reserved ids are
the ids of the stored rules. -/
theorem run_idsMatch [LawfulSvcsRule R] (h : Handlers R W) (w : W) (requests : List (Request R))
    (hlog : IdsReleased (run (step h.logged) (init (w, [])) requests).world.2) :
    (run (step h.logged) (init (w, [])) requests).IdsMatch := by
  have hstep : ∀ (s : SvcsRuleCache R (W × List (ProcCall R))) (q : Request R),
      (IdsReleased s.world.2 → s.Sound ∧ s.Balanced) →
      IdsReleased (step h.logged s q).world.2 →
      (step h.logged s q).Sound ∧ (step h.logged s q).Balanced := by
    intro s q hkept hlog
    obtain ⟨hs, hb⟩ := hkept (hlog.of_grows (step_respects h.logged_respects s q))
    have hchanges := changes_of_noDeleteRaised hs hlog.deletes
    refine ⟨hs.changes hchanges, ?_⟩
    exact hchanges.keeps (fun _ _ => Balanced.change) hs (fun _ => hb) hlog
  obtain ⟨hs, hb⟩ := run_invariant hstep requests (fun _ => ⟨sound_init _, balanced_init _⟩) hlog
  exact hs.idsMatch hb

/-! ## The two caches -/

omit [SvcsRule R] in
/-- A cache with one list, which is empty, stores nothing. -/
theorem stored_of_emptied {s : SvcsRuleCache R W} {lc₀ : Loc}
    (h : s.rules = AList.insert lc₀ .empty ∅) (lc : Loc) : s.stored lc = [] := by
  rw [stored, listAt, h]
  by_cases hlc : lc = lc₀
  · rw [hlc, AList.lookup_insert]
    rfl
  · rw [AList.lookup_insert_ne hlc]
    rfl

/-- After any run of the incoming cache in which iptables refuses no insert and
no delete raises, the reserved ids are the ids of the stored rules. -/
theorem incoming_idsMatch {W : Type} (h : Handlers VrfIncomingSvcsRule W) (w : W)
    (requests : List (Request VrfIncomingSvcsRule))
    (hins : NoInsertRefused (run (step h.logged) (init (w, [])) requests).world.2)
    (hdel : NoDeleteRaised (run (step h.logged) (init (w, [])) requests).world.2) :
    (run (step h.logged) (init (w, [])) requests).IdsMatch :=
  run_idsMatch h w requests ⟨hdel, Or.inr hins⟩

/-- Handlers for which deletes by position are refused. -/
def keeping : Handlers VrfIncomingSvcsRule Unit where
  procRule op _ idx w := (.returned (decide (op ≠ .delete ∨ idx = none)), w)
  getStats _ _ w := (.returned none, w)
  subNetInsert _ w := (none, w)
  subNetDelete _ w := w

theorem incoming_idsMatch_small :
    (run (step keeping.logged) (init ((), []))
      [.insertRule (allowAll 10 "eth1".toList), .deleteRuleById listOrder 1,
        .insertRule (allowAll 20 "eth2".toList)]).IdsMatch :=
  incoming_idsMatch keeping () _ (by decide) (by decide)

/-- The incoming cache keeps the id of a rule that iptables refused. -/
theorem incoming_refused_id_kept :
    ¬ (run (step (answering VrfIncomingSvcsRule false)) (init ())
      [.insertRule (allowAll 10 "eth1".toList)]).IdsMatch := by
  intro h
  obtain ⟨lc, r, hr, -⟩ := (h.reserved_iff 1).mp (by decide)
  have hrules : (run (step (answering VrfIncomingSvcsRule false)) (init ())
      [.insertRule (allowAll 10 "eth1".toList)]).rules =
        AList.insert (allowAll 10 "eth1".toList).loc .empty ∅ := rfl
  rw [stored_of_emptied hrules] at hr
  exact absurd hr List.not_mem_nil

end SvcsRuleCache

end OpxNasLinux
