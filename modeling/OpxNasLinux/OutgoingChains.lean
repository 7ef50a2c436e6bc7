import OpxNasLinux.CacheWorld
import OpxNasLinux.OutgoingHandlers
import OpxNasLinux.VrfChains

/-!
# The outgoing cache and the life of its VRFs

The cache of outgoing rules mirrors chains that are in the namespaces of the
VRFs.  Another handler creates and deletes the VRFs, on the same host, and
clears the incoming rules of a VRF but not the outgoing ones.

* `procRule_chains` is what `proc_rule` does to the chains of a host that edits
  them as `iptables` does.
* `VrfWorld` is the daemon for VRFs on a host whose commands all succeed.  The
  outgoing cache works on it, and so does `set_vrf_cb_int`.
* `outgoing_matches_kernel` is the result for every interleaving of the two.
-/

namespace OpxNasLinux

open SvcsRule SvcsRuleCache Run

/-! ## What `proc_rule` does to the chains -/

namespace VrfTool

/-- The `iptables` commands for outgoing rules. -/
def editOutgoing : Iptables := fun op r idx h =>
  editRules h.kernel.outgoing (fun outgoing => { h.kernel with outgoing }) op r idx h

/-- A call leaves the chains as they are, or it returns `True` and has edited
the chain of the rule.  The namespaces stay. -/
structure Edits (op : IptOp) (r : VrfOutgoingSvcsRule) (idx : Option ℕ) (h : Host)
    (out : Outcome Bool) (h' : Host) : Prop where
  netns : h'.kernel.netns = h.kernel.netns
  willing : h.AllWilling → h'.AllWilling
  chains : h'.kernel.outgoing = h.kernel.outgoing ∧
      (out = .returned true → h.AllWilling → h.kernel.opened (loc r).vrfName = false) ∨
    out = .returned true ∧ h.kernel.opened (loc r).vrfName = true ∧ ∃ chain,
      editChain op (core r) idx (h.kernel.outgoing (loc r)) = some chain ∧
        h'.kernel.outgoing = Function.update h.kernel.outgoing (loc r) chain

variable {op : IptOp} {r : VrfOutgoingSvcsRule} {idx : Option ℕ} {h h' h'' : Host}
  {out : Outcome Bool}

/-- A call that does not return `True` spares the chains. -/
theorem Edits.of_spares (hs : h.Spares h') (hout : out ≠ .returned true) :
    Edits op r idx h out h' :=
  ⟨hs.netns, hs.willing, Or.inl ⟨hs.outgoing, fun heq => absurd heq hout⟩⟩

/-- What spares the chains may come first. -/
theorem Edits.after (hs : h.Spares h') (he : Edits op r idx h' out h'') :
    Edits op r idx h out h'' := by
  refine ⟨he.netns.trans hs.netns, fun hw => he.willing (hs.willing hw), ?_⟩
  rw [← hs.outgoing, ← hs.opened]
  exact he.chains.imp_left fun hsame => ⟨hsame.1, fun heq hw => hsame.2 heq (hs.willing hw)⟩

/-- A command that succeeds edits the chain of its rule. -/
theorem editOutgoing_edits (op : IptOp) (r : VrfOutgoingSvcsRule) (idx : Option ℕ) (h : Host) :
    Edits op r idx h (.returned (editOutgoing op r idx h).1) (editOutgoing op r idx h).2 := by
  have hanswer := Host.answer_spares .iptables h
  rw [editOutgoing, editRules]
  split
  · rename_i hrun
    obtain ⟨-, hopen⟩ := Bool.and_eq_true_iff.mp hrun
    split
    · rename_i chain hchain
      exact ⟨rfl, hanswer.willing, Or.inr ⟨rfl, hopen, chain, hchain, rfl⟩⟩
    · exact .of_spares hanswer (by simp)
  · exact .of_spares hanswer (by simp)

theorem filterVeth_spares (r : VrfOutgoingSvcsRule) (t : VrfTool) :
    t.host.Spares (filterVeth r t).host := by
  rw [filterVeth]
  split
  · exact vethIpGet_spares r.vrfName defaultVrf false t
  · exact .refl _

theorem procArgs_edits (op : IptOp) (r : VrfOutgoingSvcsRule) (idx : Option ℕ) (t : VrfTool) :
    Edits op r idx t.host (procArgs editOutgoing op r idx t).1
      (procArgs editOutgoing op r idx t).2.host := by
  have hveth := filterVeth_spares r t
  rw [procArgs]
  split_ifs
  · exact .of_spares (.refl _) (by simp)
  · exact .of_spares (.refl _) (by simp)
  · exact .of_spares (.refl _) (by simp)
  · exact .of_spares hveth (by simp)
  · exact (editOutgoing_edits op r idx (filterVeth r t).host).after hveth

/-- A `proc_rule` that returns `True` has edited the chain, or it was a delete
for a VRF that is not open. -/
theorem procRule_edits (op : IptOp) (r : VrfOutgoingSvcsRule) (idx : Option ℕ) (t : VrfTool) :
    Edits op r idx t.host (procRule editOutgoing op r idx t).1
      (procRule editOutgoing op r idx t).2.host := by
  rw [procRule]
  split
  · rename_i hdelete
    have hs := (isVrfValid_spares r.vrfName t).host
    split
    · rename_i u heq
      obtain ⟨hinvalid, rfl⟩ := Prod.mk.inj heq
      refine ⟨hs.netns, hs.willing, Or.inl ⟨hs.outgoing, fun _ hw => ?_⟩⟩
      have hopen : (t.host.answer .netnsShow).1 = true := hw .netnsShow 0
      rw [hopen, Bool.true_and, List.any_eq_false] at hinvalid
      refine Kernel.opened_false_iff.mpr ⟨hdelete.2, fun hmem => ?_⟩
      exact hinvalid r.vrfName hmem (decide_eq_true rfl)
    · rename_i u heq
      rw [heq] at hs
      exact (procArgs_edits op r idx u).after hs
  · exact procArgs_edits op r idx t

theorem processOutgoingIpSvcsSubNetConfig_spares (isAdd : Bool) (a : Alias) (t : VrfTool) :
    t.host.Spares (processOutgoingIpSvcsSubNetConfig isAdd a t).2.host := by
  have hveth := vethIpGet_spares a.vrfName defaultVrf false t
  have hports : ∀ u : VrfTool, (if isAdd then takePort a u else popPort a u).2.host = u.host := by
    intro u
    rw [takePort]
    split
    · split
      · rfl
      · split <;> rfl
    · rfl
  rw [processOutgoingIpSvcsSubNetConfig]
  split
  · rename_i u heq
    rwa [heq] at hveth
  · rename_i hops u heq
    rw [heq] at hveth
    have hu := hports u
    split
    · rename_i v heq'
      rw [heq'] at hu
      exact hu ▸ hveth
    · rename_i port v heq'
      rw [heq'] at hu
      exact hu ▸ hveth

/-- The private ports have no part in the chains. -/
theorem subNetInsert_spares (r : VrfOutgoingSvcsRule) (t : VrfTool) :
    t.host.Spares ((outgoingHandlers editOutgoing).subNetInsert r t).2.host := by
  rw [outgoingHandlers]
  dsimp only
  split
  · exact processOutgoingIpSvcsSubNetConfig_spares true r.svcAlias t
  · exact .refl _

theorem subNetDelete_spares (r : VrfOutgoingSvcsRule) (t : VrfTool) :
    t.host.Spares ((outgoingHandlers editOutgoing).subNetDelete r t).host := by
  rw [outgoingHandlers]
  dsimp only
  split
  · exact processOutgoingIpSvcsSubNetConfig_spares false r.svcAlias t
  · exact .refl _

end VrfTool

/-! ## The daemon on a host without failures -/

/-- The daemon for VRFs, on a host whose commands all succeed. -/
structure VrfWorld where
  base : BaseVrf
  willing : base.tool.host.AllWilling

namespace VrfWorld

open VrfTool (editOutgoing)

def kernel (w : VrfWorld) : Kernel := w.base.tool.host.kernel

/-- The chains of the outgoing rules. -/
def chains (w : VrfWorld) : Loc → List VrfOutgoingSvcsRule := w.kernel.outgoing

/-- The chains of the VRF exist. -/
def Live (w : VrfWorld) (vrf : Str) : Prop := w.kernel.opened vrf = true

instance (w : VrfWorld) (vrf : Str) : Decidable (w.Live vrf) :=
  inferInstanceAs (Decidable (_ = _))

/-- A call leaves the VRF tool as given. -/
def setTool (w : VrfWorld) (t : VrfTool) (ht : t.host.AllWilling) : VrfWorld :=
  ⟨w.base.setTool t, ht⟩

/-- What the outgoing cache calls. -/
def handlers : Handlers VrfOutgoingSvcsRule VrfWorld where
  procRule op r idx w :=
    ((VrfTool.procRule editOutgoing op r idx w.base.tool).1,
      w.setTool (VrfTool.procRule editOutgoing op r idx w.base.tool).2
        ((VrfTool.procRule_edits op r idx w.base.tool).willing w.willing))
  getStats _ _ w := (.returned none, w)
  subNetInsert r w :=
    (((VrfTool.outgoingHandlers editOutgoing).subNetInsert r w.base.tool).1,
      w.setTool ((VrfTool.outgoingHandlers editOutgoing).subNetInsert r w.base.tool).2
        ((VrfTool.subNetInsert_spares r w.base.tool).willing w.willing))
  subNetDelete r w :=
    w.setTool ((VrfTool.outgoingHandlers editOutgoing).subNetDelete r w.base.tool)
      ((VrfTool.subNetDelete_spares r w.base.tool).willing w.willing)

/-- The same VRFs are open, and the chains of the others stay as they are. -/
structure KeepsClosed (w w' : VrfWorld) : Prop where
  opened : w'.kernel.opened = w.kernel.opened
  closed : ∀ lc : Loc, w.kernel.opened lc.vrfName = false → w'.chains lc = w.chains lc

theorem KeepsClosed.of_spares {w w' : VrfWorld}
    (hs : w.base.tool.host.Spares w'.base.tool.host) : KeepsClosed w w' :=
  ⟨hs.opened, fun lc _ => congrFun hs.outgoing lc⟩

theorem KeepsClosed.live {w w' : VrfWorld} (h : KeepsClosed w w') : w'.Live = w.Live := by
  funext vrf
  rw [Live, Live, h.opened]

theorem handlers_keepsClosed : handlers.Respects KeepsClosed where
  refl _ := ⟨rfl, fun _ _ => rfl⟩
  trans _ _ _ h1 h2 := by
    refine ⟨h2.opened.trans h1.opened, fun lc hlc => ?_⟩
    exact (h2.closed lc (h1.opened ▸ hlc)).trans (h1.closed lc hlc)
  procRule op r idx w := by
    have he := VrfTool.procRule_edits op r idx w.base.tool
    refine ⟨?_, fun lc hlc => ?_⟩
    · funext vrf
      show (VrfTool.procRule editOutgoing op r idx w.base.tool).2.host.kernel.opened vrf = _
      rw [Kernel.opened, he.netns]
      rfl
    · rcases he.chains with ⟨hsame, -⟩ | ⟨-, hopen, chain, -, hchains⟩
      · exact congrFun hsame lc
      · refine (congrFun hchains lc).trans (Function.update_of_ne ?_ _ _)
        rintro rfl
        exact absurd (hopen.symm.trans hlc) (by simp)
  getStats _ _ _ := ⟨rfl, fun _ _ => rfl⟩
  subNetInsert r w := .of_spares (VrfTool.subNetInsert_spares r w.base.tool)
  subNetDelete r w := .of_spares (VrfTool.subNetDelete_spares r w.base.tool)

theorem handlers_chainSpec : ChainSpec handlers chains Live where
  applied op r idx w w' hproc hlive := by
    obtain ⟨hout, rfl⟩ := Prod.mk.inj hproc
    rcases (VrfTool.procRule_edits op r idx w.base.tool).chains with
      ⟨-, hdead⟩ | ⟨-, -, chain, hedit, hchains⟩
    · exact absurd (hlive.symm.trans (hdead hout w.willing)) (by simp)
    · refine hedit.trans (congrArg some ?_)
      exact ((congrFun hchains (loc r)).trans (Function.update_self _ _ _)).symm
  others op r idx w lc hne := by
    rcases (VrfTool.procRule_edits op r idx w.base.tool).chains with
      ⟨hsame, -⟩ | ⟨-, -, chain, -, hchains⟩
    · exact congrFun hsame lc
    · exact (congrFun hchains lc).trans (Function.update_of_ne hne _ _)
  refused op r idx w hout := by
    rcases (VrfTool.procRule_edits op r idx w.base.tool).chains with ⟨hsame, -⟩ | ⟨htrue, -⟩
    · exact hsame
    · exact absurd htrue hout
  getStats _ _ _ := rfl
  subNetInsert r w := (VrfTool.subNetInsert_spares r w.base.tool).outgoing
  subNetDelete r w := (VrfTool.subNetDelete_spares r w.base.tool).outgoing
  live_eq :=
    { refl := fun _ => rfl
      trans := fun _ _ _ h1 h2 => h2.trans h1
      procRule := fun op r idx w => (handlers_keepsClosed.procRule op r idx w).live
      getStats := fun _ _ _ => rfl
      subNetInsert := fun r w => (handlers_keepsClosed.subNetInsert r w).live
      subNetDelete := fun r w => (handlers_keepsClosed.subNetDelete r w).live }

/-- The daemon after `set_vrf_cb_int`.  `counts` are the counters that are
read. -/
def setVrf (counts : VrfIncomingSvcsRule → ℕ → Host → Outcome (Option Stats)) (ord : DictOrder)
    (op : BaseVrf.Operation) (vrfName : Option Str) (vrfId : Option ℕ) (w : VrfWorld) :
    VrfWorld :=
  ⟨(BaseVrf.setVrfCbInt (IptablesHandler.handlers (IptablesHandler.commands counts)) ord op vrfName
      vrfId w.base).2,
    BaseVrf.setVrfCbInt_willing (IptablesHandler.handlers_spares counts) ord op vrfName vrfId
      w.willing⟩

end VrfWorld

/-! ## Runs -/

namespace VrfWorld

/-- The outgoing cache over the daemon for VRFs, with a log of its calls of
`proc_rule`. -/
abbrev State := VrfOutgoingSvcsRuleCache (VrfWorld × List (ProcCall VrfOutgoingSvcsRule))

/-- A call of the outgoing cache, or a request for a VRF. -/
inductive Request where
  | svcs (q : SvcsRuleCache.Request VrfOutgoingSvcsRule)
  | setVrf (ord : DictOrder) (op : BaseVrf.Operation) (vrfName : Option Str) (vrfId : Option ℕ)

/-- The daemon when it starts. -/
def start (env : Env) (hw : ∀ kind n, (env.answers kind).get n = true) : State :=
  init (⟨.init env, hw⟩, [])

/-- The state after a request. -/
def step (counts : VrfIncomingSvcsRule → ℕ → Host → Outcome (Option Stats)) (s : State) :
    Request → State
  | .svcs q => SvcsRuleCache.step handlers.logged s q
  | .setVrf ord op vrfName vrfId =>
    s.setWorld (s.world.1.setVrf counts ord op vrfName vrfId, s.world.2)

/-- No call of `proc_rule` has raised, and none has refused a delete. -/
def WentThrough (calls : List (ProcCall VrfOutgoingSvcsRule)) : Prop :=
  ∀ c ∈ calls, c.answer ≠ .raised ∧ (c.op = .delete → c.answer ≠ .returned false)

/-- The cache holds no rule of the VRF. -/
def NoRules (s : State) (vrf : Str) : Prop :=
  ∀ lc ∈ s.rules.keys, lc.vrfName = vrf → s.stored lc = []

/-- A VRF is created while the cache holds no rule of it, or it is open already.
A deletion flushes no table of another VRF that has rules. -/
def Tidy (s : State) : Request → Prop
  | .setVrf _ .create (some vrf) (some _) => s.world.1.Live vrf ∨ NoRules s vrf
  | .setVrf _ .delete (some vrf) (some _) =>
    VrfTool.FlushOk vrf s.world.1.base.tool.vrfSubNetMap.keys (NoRules s)
  | _ => True

instance (calls : List (ProcCall VrfOutgoingSvcsRule)) : Decidable (WentThrough calls) := by
  unfold WentThrough
  infer_instance

instance (s : State) : DecidablePred (NoRules s) := fun vrf => by
  unfold NoRules
  infer_instance

instance (s : State) (q : Request) : Decidable (Tidy s q) := by
  unfold Tidy VrfTool.FlushOk
  split <;> infer_instance

/-- The cached lists are the chains of the VRFs that are open, and the chains of
the others are empty. -/
structure InStep (s : State) : Prop where
  sound : s.Sound
  same : Matches (fun w => w.1.chains) (fun w => w.1.Live) s
  closed : ∀ lc : Loc, s.world.1.kernel.opened lc.vrfName = false → s.world.1.chains lc = []

theorem WentThrough.of_grows {calls calls' : List (ProcCall VrfOutgoingSvcsRule)}
    (h : WentThrough calls') (hgrow : ∀ c ∈ calls, c ∈ calls') : WentThrough calls :=
  fun c hc => h c (hgrow c hc)

/-- Nothing is stored of a VRF that the cache has no rule of. -/
theorem NoRules.stored {s : State} {vrf : Str} (h : NoRules s vrf) {lc : Loc}
    (hlc : lc.vrfName = vrf) : s.stored lc = [] := by
  by_cases hmem : lc ∈ s.rules
  · exact h lc (AList.mem_keys.mp hmem) hlc
  · exact stored_of_notMem hmem

/-- What a change of the cache keeps. -/
theorem change_matches {s s' : State} (hs : s.Sound)
    (hm : WentThrough s.world.2 → Matches (fun w => w.1.chains) (fun w => w.1.Live) s)
    (hchange : Edit handlers.logged s s' ∨ Clear handlers.logged s s')
    (hwent : WentThrough s'.world.2) :
    Matches (fun w => w.1.chains) (fun w => w.1.Live) s' := by
  have spec := handlers_chainSpec.logged
  rcases hchange with he | hc
  · refine (hm (hwent.of_grows (he.respects handlers.logged_respects))).edit hs spec he ?_ ?_
    · rintro op r idx w w' hproc rfl
      exact (hwent _ (Handlers.mem_calls hproc)).1 rfl
    · rintro lc idx del w - hproc rfl
      exact absurd rfl ((hwent _ (Handlers.mem_calls hproc)).2 rfl)
  · have hback : handlers.logged.Respects fun w w' => WentThrough w'.2 → WentThrough w.2 :=
      { refl := fun _ h => h
        trans := fun _ _ _ h1 h2 h => h1 (h2 h)
        procRule := fun op r idx w h => h.of_grows (handlers.logged_respects.procRule op r idx w)
        getStats := fun _ _ _ h => h
        subNetInsert := fun _ _ h => h
        subNetDelete := fun _ _ h => h }
    refine (hm (hwent.of_grows (hc.respects handlers.logged_respects))).clear hs spec hback ?_
      hc hwent
    intro r w b w' hproc hwent'
    cases b with
    | true => rfl
    | false => exact absurd rfl ((hwent' _ (Handlers.mem_calls hproc)).2 rfl)

/-- What a call of the cache keeps. -/
theorem svcs_inStep {s : State} {q : SvcsRuleCache.Request VrfOutgoingSvcsRule}
    (hs : WentThrough s.world.2 → InStep s)
    (hwent : WentThrough (SvcsRuleCache.step handlers.logged s q).world.2) :
    InStep (SvcsRuleCache.step handlers.logged s q) := by
  have hstart := hs (hwent.of_grows (step_respects handlers.logged_respects s q))
  have hchanges : Changes handlers.logged s (SvcsRuleCache.step handlers.logged s q) := by
    refine exec_changes hstart.sound ?_
    cases q with
    | clearAllRules ord fltVrf fltAf =>
      have hraise : ∀ r w w', handlers.logged.procRule .delete r none w = (.raised, w') →
          ¬ WentThrough w'.2 := fun r w w' hproc hgood => (hgood _ (Handlers.mem_calls hproc)).1 rfl
      exact Or.inr (clearAllRules_returns hraise (not_not.mpr hwent))
    | insertRule rule => exact Or.inl trivial
    | deleteRule rule => exact Or.inl trivial
    | deleteRuleById ord id => exact Or.inl trivial
    | updateRule ord id params => exact Or.inl trivial
  have hclosed := step_respects handlers_keepsClosed.logged s q
  refine ⟨hstart.sound.changes hchanges, ?_, fun lc hlc => ?_⟩
  · exact hchanges.keeps (fun _ _ => change_matches) hstart.sound (fun _ => hstart.same) hwent
  · rw [hclosed.opened] at hlc
    exact (hclosed.closed lc hlc).trans (hstart.closed lc hlc)

/-- What a request for a VRF keeps. -/
theorem setVrf_inStep (counts : VrfIncomingSvcsRule → ℕ → Host → Outcome (Option Stats))
    {s : State} {ord : DictOrder} {op : BaseVrf.Operation} {vrfName : Option Str}
    {vrfId : Option ℕ} (hs : InStep s) (htidy : Tidy s (.setVrf ord op vrfName vrfId)) :
    InStep (step counts s (.setVrf ord op vrfName vrfId)) := by
  cases vrfName with
  | none => exact hs
  | some vrf =>
    cases vrfId with
    | none => exact hs
    | some id =>
      have hspares := IptablesHandler.handlers_spares counts
      cases op with
      | create =>
        obtain ⟨-, hout, hopened⟩ :=
          BaseVrf.createRequest_chains hspares ord vrf id s.world.1.willing
        refine ⟨hs.sound.setIds s.mutex _ (fun _ hi => hi) hs.sound.gen, fun lc hlc => ?_,
          fun lc hlc => ?_⟩
        · refine Eq.trans ?_ (congrFun hout lc).symm
          -- the chains of a VRF that was not open are empty
          by_cases hlive : s.world.1.Live lc.vrfName
          · exact hs.same lc hlive
          · obtain rfl : lc.vrfName = vrf := ((hopened lc.vrfName).mp hlc).resolve_left hlive
            have hnone := (htidy.resolve_left hlive).stored (rfl : lc.vrfName = lc.vrfName)
            have hempty := hs.closed lc (Bool.not_eq_true _ ▸ hlive)
            exact (congrArg (List.map core) hnone).trans hempty.symm
        · refine (congrFun hout lc).trans (hs.closed lc ?_)
          rw [← Bool.not_eq_true] at hlc ⊢
          exact fun hopen => hlc ((hopened lc.vrfName).mpr (Or.inl hopen))
      | delete =>
        have hbare : VrfTool.FlushOk vrf s.world.1.base.tool.vrfSubNetMap.keys
            s.world.1.base.tool.Bare := by
          refine VrfTool.FlushOk.mono htidy (fun _ hkey => hkey) fun x hx lc hlc => ?_
          by_cases hlive : s.world.1.Live lc.vrfName
          · have hsame := hs.same lc hlive
            rw [hx.stored hlc] at hsame
            exact hsame.symm
          · exact hs.closed lc (Bool.not_eq_true _ ▸ hlive)
        have hcloses := BaseVrf.deleteRequest_chains hspares ord id s.world.1.willing hbare
        refine ⟨hs.sound.setIds s.mutex _ (fun _ hi => hi) hs.sound.gen, fun lc hlc => ?_,
          hcloses.gone hs.closed⟩
        obtain ⟨hopen, hout⟩ := hcloses.kept lc hlc
        exact (hs.same lc hopen).trans hout.symm
      | set => exact hs
      | other => exact hs

/-- After any run in which every command succeeds, a VRF is created only while
the cache holds no rule of it, and a deletion flushes no table of another VRF
that has rules: every cached list holds the rules of its chain, in order. -/
theorem outgoing_matches_kernel
    (counts : VrfIncomingSvcsRule → ℕ → Host → Outcome (Option Stats)) (env : Env)
    (hw : ∀ kind n, (env.answers kind).get n = true) (requests : List Request)
    (htidy : Along (step counts) Tidy (start env hw) requests)
    (hwent : WentThrough (run (step counts) (start env hw) requests).world.2) :
    Matches (fun w => w.1.chains) (fun w => w.1.Live)
      (run (step counts) (start env hw) requests) := by
  have hstart : InStep (start env hw) := ⟨sound_init _, fun _ _ => rfl, fun _ _ => rfl⟩
  have hstep : ∀ (s : State) (q : Request), (WentThrough s.world.2 → InStep s) → Tidy s q →
      WentThrough (step counts s q).world.2 → InStep (step counts s q) := by
    intro s q hs hq hwent
    cases q with
    | svcs q => exact svcs_inStep hs hwent
    | setVrf ord op vrfName vrfId => exact setVrf_inStep counts (hs hwent) hq
  have hrun := @run_preserves _ _ (step counts) Tidy
    (fun s : State => WentThrough s.world.2 → InStep s) hstep _ requests (fun _ => hstart) htidy
  exact (hrun hwent).same

/-- A rule of the VRF `blue` that sets the source address. -/
def snatRule : VrfOutgoingSvcsRule :=
  (VrfOutgoingSvcsRule.init
    { ruleType := 4, vrfName := "blue".toList, action := 5, af := 2
      outSrcIp := some [10, 0, 0, 1] }).get rfl

/-- No counters are read. -/
def noCounts : VrfIncomingSvcsRule → ℕ → Host → Outcome (Option Stats) :=
  fun _ _ _ => .returned none

/-- `set_vrf_cb` for the VRF `blue`. -/
def blueRequest (op : BaseVrf.Operation) : Request :=
  .setVrf listOrder op (some "blue".toList) (some 1)

theorem willing_answers (kind : CmdKind) (n : ℕ) : (Env.willing.answers kind).get n = true := rfl

theorem outgoing_matches_kernel_small :
    Matches (fun w => w.1.chains) (fun w => w.1.Live)
      (run (step noCounts) (start .willing willing_answers)
        [blueRequest .create, .svcs (.insertRule snatRule), .svcs (.insertRule (bindPort 22)),
          .svcs (.deleteRuleById listOrder 1), blueRequest .delete,
          .svcs (.deleteRule (bindPort 22)), blueRequest .create]) :=
  outgoing_matches_kernel noCounts .willing willing_answers _
    ⟨by decide +kernel, trivial, trivial, trivial, by decide +kernel, trivial, by decide +kernel,
      trivial⟩
    (by decide +kernel)

/-- A VRF that is deleted and created again has empty chains, and the cache still
holds the rule of the old one. -/
theorem recreated_vrf_keeps_rules :
    ¬ (WentThrough (run (step noCounts) (start .willing willing_answers)
        [blueRequest .create, .svcs (.insertRule snatRule), blueRequest .delete,
          blueRequest .create]).world.2 →
      Matches (fun w => w.1.chains) (fun w => w.1.Live)
        (run (step noCounts) (start .willing willing_answers)
          [blueRequest .create, .svcs (.insertRule snatRule), blueRequest .delete,
            blueRequest .create])) := by
  intro h
  have hblue := h (by decide +kernel) snatRule.loc (by decide +kernel)
  exact absurd (congrArg List.length hblue) (by decide +kernel)

end VrfWorld

end OpxNasLinux
