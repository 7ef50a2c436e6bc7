import OpxNasLinux.IncomingCreated

/-!
# Runs with requests about incoming rules

The cache has requests of its own, and the results about its runs are stated
with them.  A request of a user is answered by at most one of them, after
`get_veth_ip` has changed the VRF tool.  So a run with requests of users is a
run of the cache's own, and what holds in every state that those reach holds
here.

* `config_leads` is about one request of a user.
* `calls_refine` is about a run.
-/

namespace OpxNasLinux

open SvcsRule SvcsRuleCache Run

namespace IncomingConfig

open BaseVrf (Operation editing)

section

variable {h : Handlers VrfIncomingSvcsRule VrfTool}

/-! ## One request -/

/-- Requests of the cache lead to `s'`, and clear through. -/
def Leads (h : Handlers VrfIncomingSvcsRule VrfTool) (d : BaseVrf)
    (s' : VrfIncomingSvcsRuleCache VrfTool) : Prop :=
  ∃ requests, Along (BaseVrf.step h) (BaseVrf.ClearsThrough h) d requests ∧
    run (BaseVrf.step h) d requests = d.setCache s'

theorem leads_self (d : BaseVrf) : Leads h d d.cache := ⟨[], trivial, rfl⟩

theorem leads_setWorld (d : BaseVrf) (t : VrfTool) : Leads h d (d.cache.setWorld t) :=
  ⟨[.elsewhere t], ⟨trivial, trivial⟩, rfl⟩

/-- A request of the cache, for another VRF tool. -/
theorem leads_step (d : BaseVrf) (t : VrfTool) {q : SvcsRuleCache.Request VrfIncomingSvcsRule}
    (hq : SvcsRuleCache.ClearsThrough h (d.cache.setWorld t) q) :
    Leads h d (SvcsRuleCache.step h (d.cache.setWorld t) q) :=
  ⟨[.elsewhere t, .cache q], ⟨trivial, hq, trivial⟩, rfl⟩

theorem processVrfSvcsRuleAdd_leads (d : BaseVrf) (t : VrfTool) (a : VrfIncomingSvcsRule.Args) :
    Leads h d (processVrfSvcsRuleAdd h a (d.cache.setWorld t)).2 := by
  rw [processVrfSvcsRuleAdd]
  cases VrfIncomingSvcsRule.init a with
  | none => exact leads_setWorld d t
  | some rule =>
    have hstep : (processAdd h (some rule) (d.cache.setWorld t)).2 =
        SvcsRuleCache.step h (d.cache.setWorld t) (.insertRule rule) := by
      rw [processAdd, SvcsRuleCache.step, exec]
      rcases insertRule h rule (d.cache.setWorld t) with ⟨(_ | _) | _, rule', u⟩ <;> rfl
    dsimp only
    rw [hstep]
    exact leads_step d t (Or.inl trivial)

theorem processVrfSvcsRuleDel_leads (d : BaseVrf) (t : VrfTool) (a : VrfIncomingSvcsRule.Args) :
    Leads h d (processVrfSvcsRuleDel h a (d.cache.setWorld t)).2 := by
  rw [processVrfSvcsRuleDel]
  cases VrfIncomingSvcsRule.init a with
  | none => exact leads_setWorld d t
  | some rule =>
    have hstep : (processDel h (some rule) (d.cache.setWorld t)).2 =
        SvcsRuleCache.step h (d.cache.setWorld t) (.deleteRule rule) := by
      rw [processDel, SvcsRuleCache.step, exec]
      rcases SvcsRuleCache.deleteRule h rule (d.cache.setWorld t) with ⟨_ | _, u⟩ <;> rfl
    dsimp only
    rw [hstep]
    exact leads_step d t (Or.inl trivial)

theorem createRule_leads (d : BaseVrf) (p : InParams) : Leads h d (createRule h p d.cache).2 := by
  rw [createRule]
  split_ifs
  · rcases p.args d.cache.world with ⟨_ | a, t⟩
    · exact leads_setWorld d t
    · exact processVrfSvcsRuleAdd_leads d t _
  · exact leads_self d

theorem deleteRule_leads (d : BaseVrf) (ord : CallOrder) (p : InParams) :
    Leads h d (deleteRule h ord p d.cache).2 := by
  rw [IncomingConfig.deleteRule]
  cases p.ruleId with
  | none =>
    dsimp only
    rcases p.args d.cache.world with ⟨_ | a, t⟩
    · exact leads_setWorld d t
    · exact processVrfSvcsRuleDel_leads d t a
  | some id =>
    have hstep : (processVrfSvcsRuleDelById h ord.toDictOrder id d.cache).2 =
        SvcsRuleCache.step h d.cache (.deleteRuleById ord.toDictOrder id) := by
      rw [processVrfSvcsRuleDelById, processDelById, SvcsRuleCache.step, exec]
      rcases deleteRuleById h ord.toDictOrder id d.cache with ⟨_ | _, u⟩ <;> rfl
    dsimp only
    rw [hstep]
    exact leads_step d d.cache.world (Or.inl trivial)

/-- A request of a user makes at most one request of the cache. -/
theorem config_leads (d : BaseVrf) (ord : CallOrder) (op : Operation) (o : CpsObj) :
    Leads h d (configIncomingIpSvcsInt h ord op o d.cache).2.2 := by
  rw [configIncomingIpSvcsInt]
  cases (readParams op o).normalize with
  | none => exact leads_self d
  | some p =>
    dsimp only
    split_ifs
    · unfold configRule
      cases op with
      | create =>
        have hleads := createRule_leads (h := h) d p
        rcases hout : createRule h p d.cache with ⟨_ | id, u⟩ <;> rw [hout] at hleads <;>
          exact hleads
      | set =>
        cases p.ruleId with
        | none => exact leads_self d
        | some id =>
          exact @leads_step h d d.cache.world (.updateRule ord.toDictOrder id (ord.kwargs p.kwargs))
            (Or.inl trivial)
      | delete => exact deleteRule_leads d ord p
      | other => exact leads_self d
    · exact leads_self d

end

/-! ## A run -/

/-- What the daemon is called with. -/
inductive Call where
  | config (ord : CallOrder) (op : Operation) (o : CpsObj)
  | other (q : BaseVrf.Request)

namespace Call

/-- The state after a call. -/
def step (h : Handlers VrfIncomingSvcsRule VrfTool) (d : BaseVrf) : Call → BaseVrf
  | config ord op o => d.setCache (configIncomingIpSvcsInt h ord op o d.cache).2.2
  | other q => BaseVrf.step h d q

/-- The call does not cut a `clear_all_rules` short by an exception. -/
def ClearsThrough (h : Handlers VrfIncomingSvcsRule VrfTool) (d : BaseVrf) : Call → Prop
  | config _ _ _ => True
  | other q => BaseVrf.ClearsThrough h d q

end Call

/-- The requests of users reach no state that the requests of the cache do not
reach, wherever they are made in between. -/
theorem calls_refine (h : Handlers VrfIncomingSvcsRule VrfTool) (d : BaseVrf) (calls : List Call)
    (hclear : Along (Call.step h) (Call.ClearsThrough h) d calls) :
    ∃ requests, Along (BaseVrf.step h) (BaseVrf.ClearsThrough h) d requests ∧
      run (BaseVrf.step h) d requests = run (Call.step h) d calls := by
  refine exists_run (fun d call hcall => ?_) hclear
  cases call with
  | config ord op o => exact config_leads d ord op o
  | other q => exact ⟨[q], ⟨hcall, trivial⟩, rfl⟩

/-- A request and its deletion are two requests of the cache. -/
theorem calls_refine_small :
    let h := IptablesHandler.handlers editing
    let calls : List Call :=
      [.config listCallOrder .create sshFrom, .config listCallOrder .delete sshFrom]
    ∃ requests, Along (BaseVrf.step h) (BaseVrf.ClearsThrough h) (BaseVrf.init .willing) requests ∧
      run (BaseVrf.step h) (BaseVrf.init .willing) requests =
        run (Call.step h) (BaseVrf.init .willing) calls :=
  calls_refine _ _ _ ⟨trivial, trivial, trivial⟩

end IncomingConfig

end OpxNasLinux
