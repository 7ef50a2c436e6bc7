import OpxNasLinux.CacheOutcomes
import OpxNasLinux.IncomingIptables
import OpxNasLinux.ProcessRules
import OpxNasLinux.RuleSelected
import OpxNasLinux.VrfLifeCycle

/-!
# The handler of VRF requests

`set_vrf_cb_int` of `base_vrf.py` creates and deletes VRFs.  It works on the
cache of incoming rules, on the VRF tool, and on the ids of the default rules
that it made for each VRF.

* `BaseVrf` is this state.  The world of the cache is the VRF tool, so that
  the `iptables` commands of the rules and the commands for the namespaces act
  on one host.
* `setVrfCbInt` is the handler.  A creation clears the rules of the VRF before
  it runs the first command for the namespace.
* `create_refused_keeps_iff` says when a creation that fails leaves the rules,
  the chains and the ids as they were.
-/

namespace OpxNasLinux

open SvcsRule SvcsRuleCache Run

/-! ## What the incoming cache calls -/

namespace IptablesHandler

/-- The `iptables` commands of incoming rules: whether one succeeds and what it
does to the host, and the counters that `proc_rule('get')` reads, which may
raise on the way. -/
structure Commands where
  edit : IptOp → VrfIncomingSvcsRule → Option ℕ → Host → Bool × Host
  stats : VrfIncomingSvcsRule → ℕ → Host → Outcome (Option Stats) × Host

/-- `is_vrf_valid`, which a delete and a get ask first for a VRF that is not
the default one. -/
def vrfOpened (asks : Bool) (vrf : Str) (t : VrfTool) : Bool × VrfTool :=
  if asks ∧ vrf ≠ defaultVrf then VrfTool.isVrfValid vrf t else (true, t)

/-- `proc_rule` for an incoming rule. -/
def procRule (c : Commands) (op : IptOp) (r : VrfIncomingSvcsRule) (idx : Option ℕ)
    (t : VrfTool) : Outcome Bool × VrfTool :=
  match vrfOpened (op = .delete) r.vrfName t with
  | (false, t) => (.returned true, t)
  | (true, t) =>
    if op = .replace ∧ idx = none then (.returned false, t)
    else if r.Prints then
      (.returned (c.edit op r idx t.host).1, t.setHost (c.edit op r idx t.host).2)
    else (.raised, t)

/-- `proc_rule('get')`. -/
def procGet (c : Commands) (r : VrfIncomingSvcsRule) (idx : ℕ) (t : VrfTool) :
    Outcome (Option Stats) × VrfTool :=
  match vrfOpened true r.vrfName t with
  | (false, t) => (.returned none, t)
  | (true, t) =>
    if r.Prints then ((c.stats r idx t.host).1, t.setHost (c.stats r idx t.host).2)
    else (.raised, t)

/-- What the incoming cache calls.  An incoming rule needs no private
address. -/
def handlers (c : Commands) : Handlers VrfIncomingSvcsRule VrfTool where
  procRule := procRule c
  getStats := procGet c
  subNetInsert _ t := (none, t)
  subNetDelete _ t := t

end IptablesHandler

/-! ## The handler -/

/-- The incoming cache over the VRF tool, and `_vrf_default_rule`. -/
structure BaseVrf where
  cache : VrfIncomingSvcsRuleCache VrfTool
  vrfDefaultRule : Dict Str (List ℤ)

namespace BaseVrf

/-- The daemon when it starts. -/
def init (env : Env) : BaseVrf :=
  { cache := SvcsRuleCache.init (.init env), vrfDefaultRule := ∅ }

def setCache (d : BaseVrf) (cache : VrfIncomingSvcsRuleCache VrfTool) : BaseVrf :=
  { d with cache }

/-- The VRF tool. -/
def tool (d : BaseVrf) : VrfTool := d.cache.world

def setTool (d : BaseVrf) (t : VrfTool) : BaseVrf := d.setCache (d.cache.setWorld t)

def setDefaults (d : BaseVrf) (rules : Dict Str (List ℤ)) : BaseVrf :=
  { d with vrfDefaultRule := rules }

/-- `process_vrf_svcs_clear_rules`, which swallows an exception. -/
def processVrfSvcsClearRules (h : Handlers VrfIncomingSvcsRule VrfTool) (ord : DictOrder)
    (vrf : Option Str) (s : VrfIncomingSvcsRuleCache VrfTool) :
    Bool × VrfIncomingSvcsRuleCache VrfTool :=
  (!hasRaised (clearAllRules h ord vrf none s).1, (clearAllRules h ord vrf none s).2)

/-- The default ACL rule of a VRF for one family. -/
def defaultRule (vrf : Str) (af : Af) : VrfIncomingSvcsRule.Args :=
  { ruleType := 2, vrfName := vrf, action := 1
    af := match af with | .inet => 2 | .inet6 => 10
    srcIp := some (List.replicate af.length 0), srcPrefixLen := some 0, highPrio := true
    inIntf := some "vdst-nsid+".toList }

/-- The loop of `create_vrf_default_rules`: the ids of the rules it made. -/
def createVrfDefaultRules (h : Handlers VrfIncomingSvcsRule VrfTool) (vrf : Str) :
    List Af → VrfIncomingSvcsRuleCache VrfTool → List ℤ × VrfIncomingSvcsRuleCache VrfTool
  | [], s => ([], s)
  | af :: rest, s =>
    match processVrfSvcsRuleAdd h (defaultRule vrf af) s with
    | (none, s) => ([], s)
    | (some id, s) =>
      (id :: (createVrfDefaultRules h vrf rest s).1, (createVrfDefaultRules h vrf rest s).2)

/-- The default rules of a VRF that has none noted. -/
def ensureDefaultRules (h : Handlers VrfIncomingSvcsRule VrfTool) (vrf : Str) (d : BaseVrf) :
    BaseVrf :=
  if vrf ∈ d.vrfDefaultRule then d
  else
    (d.setCache (createVrfDefaultRules h vrf [.inet, .inet6] d.cache).2).setDefaults
      (d.vrfDefaultRule.insert vrf (createVrfDefaultRules h vrf [.inet, .inet6] d.cache).1)

/-- The rules with the ids are deleted. -/
def deleteRules (h : Handlers VrfIncomingSvcsRule VrfTool) (ord : DictOrder) (ids : List ℤ)
    (s : VrfIncomingSvcsRuleCache VrfTool) : VrfIncomingSvcsRuleCache VrfTool :=
  ids.foldl (fun s id => (processVrfSvcsRuleDelById h ord id s).2) s

/-- The default rules that are noted for a VRF go. -/
def dropDefaultRules (h : Handlers VrfIncomingSvcsRule VrfTool) (ord : DictOrder) (vrf : Str)
    (d : BaseVrf) : BaseVrf :=
  match d.vrfDefaultRule.lookup vrf with
  | none => d
  | some ids =>
    (d.setCache (deleteRules h ord ids d.cache)).setDefaults (d.vrfDefaultRule.erase vrf)

/-- The branch of the handler for a creation. -/
def createRequest (h : Handlers VrfIncomingSvcsRule VrfTool) (ord : DictOrder) (vrf : Str)
    (id : ℕ) (d : BaseVrf) : Bool × BaseVrf :=
  let d := d.setCache (processVrfSvcsClearRules h ord (some vrf) d.cache).2
  match VrfTool.processVrfConfig true vrf id d.tool with
  | (true, t) =>
    (true, ensureDefaultRules h defaultVrf (ensureDefaultRules h vrf (d.setTool t)))
  | (false, t) => (false, d.setTool t)

/-- The branch of the handler for a deletion. -/
def deleteRequest (h : Handlers VrfIncomingSvcsRule VrfTool) (ord : DictOrder) (vrf : Str)
    (id : ℕ) (d : BaseVrf) : Bool × BaseVrf :=
  let d := dropDefaultRules h ord vrf d
  -- no VRF that a user created is left
  let d :=
    if d.vrfDefaultRule.keys = [defaultVrf] then dropDefaultRules h ord defaultVrf d else d
  ((VrfTool.processVrfConfig false vrf id d.tool).1,
    d.setTool (VrfTool.processVrfConfig false vrf id d.tool).2)

/-- The operations of a request. -/
inductive Operation where
  | create
  | delete
  | set
  | other
deriving DecidableEq, Repr

/-- `set_vrf_cb_int`.  `ord` is the order in which the request goes through the
dictionaries of the cache. -/
def setVrfCbInt (h : Handlers VrfIncomingSvcsRule VrfTool) (ord : DictOrder) (op : Operation)
    (vrfName : Option Str) (vrfId : Option ℕ) (d : BaseVrf) : Bool × BaseVrf :=
  match vrfName, vrfId with
  | some vrf, some id =>
    match op with
    | .create => createRequest h ord vrf id d
    | .delete => deleteRequest h ord vrf id d
    | .set | .other => (false, d)
  | _, _ => (false, d)

/-! ## Reachable states -/

/-- What happens to the daemon.  Its other handlers, and whatever else changes
the VRF tool and the host, are the case `elsewhere`. -/
inductive Request where
  | setVrf (ord : DictOrder) (op : Operation) (vrfName : Option Str) (vrfId : Option ℕ)
  | cache (q : SvcsRuleCache.Request VrfIncomingSvcsRule)
  | readStats (ord : DictOrder) (id : ℤ)
  | elsewhere (t : VrfTool)

/-- The state after a request. -/
def step (h : Handlers VrfIncomingSvcsRule VrfTool) (d : BaseVrf) : Request → BaseVrf
  | .setVrf ord op vrfName vrfId => (setVrfCbInt h ord op vrfName vrfId d).2
  | .cache q => d.setCache (SvcsRuleCache.step h d.cache q)
  | .readStats ord id => d.setCache (findRuleById h ord id d.cache).2
  | .elsewhere t => d.setTool t

/-- The request does not cut a `clear_all_rules` short by an exception. -/
def ClearsThrough (h : Handlers VrfIncomingSvcsRule VrfTool) (d : BaseVrf) : Request → Prop
  | .setVrf ord .create (some vrf) _ =>
    hasRaised (clearAllRules h ord (some vrf) none d.cache).1 = false
  | .cache q => SvcsRuleCache.ClearsThrough h d.cache q
  | _ => True

/-! ## What a clearing leaves -/

end BaseVrf

namespace SvcsRuleCache

section

variable {R W : Type} [SvcsRule R] {h : Handlers R W}

/-- The rule that `clear_all_rules` deletes first for a VRF. -/
def firstToClear (ord : DictOrder) (vrf : Str) (s : SvcsRuleCache R W) : Option R :=
  (((sweep ord s.rules).filter fun lc => decide (vrf = lc.vrfName)).flatMap s.stored).head?

/-- The rules and the reserved ids are the same. -/
structure SameStore (s s' : SvcsRuleCache R W) : Prop where
  stored : ∀ lc, s'.stored lc = s.stored lc
  ids : s'.idGenerator.resvedIds = s.idGenerator.resvedIds

omit [SvcsRule R] in
theorem stored_dropList_nil {s : SvcsRuleCache R W} {lc : Loc} (hnil : s.stored lc = [])
    (lc' : Loc) : (s.dropList lc).stored lc' = s.stored lc' := by
  by_cases hlc : lc' = lc
  · rw [hlc, hnil, stored, listAt_dropList_self]
    rfl
  · rw [stored, listAt_dropList_ne s hlc, stored]

/-- Clearing the rules of a list reserves no id. -/
theorem clearRules_ids_subset (rules : List R) (g : IdGenerator) (w : W) :
    (clearRules h rules g w).2.1.resvedIds ⊆ g.resvedIds := by
  induction rules generalizing g w with
  | nil => exact fun _ hi => hi
  | cons rule rest ih =>
    rw [clearRules]
    split
    · exact fun _ hi => hi
    · exact fun i hi => (mem_dropId.mp (ih _ _ hi)).2

/-- Clearing the lists reserves no id. -/
theorem clearLists_ids_subset (locs : List Loc) (s : SvcsRuleCache R W) :
    (clearLists h locs s).2.idGenerator.resvedIds ⊆ s.idGenerator.resvedIds := by
  induction locs generalizing s with
  | nil => exact fun _ hi => hi
  | cons lc rest ih =>
    have hrules := clearRules_ids_subset (h := h) (s.stored lc) s.idGenerator s.world
    rw [clearLists]
    split
    · rename_i g w heq
      rw [heq] at hrules
      exact hrules
    · rename_i g w heq
      rw [heq] at hrules
      exact fun i hi => hrules (ih _ hi)

/-- Empty lists are cleared without a trace. -/
theorem clearLists_none {locs : List Loc} {s : SvcsRuleCache R W}
    (hnone : (locs.flatMap s.stored).head? = none) :
    SameStore s (clearLists h locs s).2 ∧ (clearLists h locs s).2.world = s.world := by
  induction locs generalizing s with
  | nil => exact ⟨⟨fun _ => rfl, rfl⟩, rfl⟩
  | cons lc rest ih =>
    rw [List.head?_eq_none_iff, List.flatMap_cons, List.append_eq_nil_iff] at hnone
    obtain ⟨hnil, hrest⟩ := hnone
    have hstored := stored_dropList_nil hnil
    have hih := ih (s := s.dropList lc) (by
      rw [List.head?_eq_none_iff]
      simpa only [funext hstored] using hrest)
    rw [clearLists, hnil]
    exact ⟨⟨fun lc' => (hih.1.stored lc').trans (hstored lc'), hih.1.ids⟩, hih.2⟩

/-- The first rule raises: nothing has changed but what `proc_rule` did before
the exception. -/
theorem clearLists_raised {locs : List Loc} {s : SvcsRuleCache R W} {r : R} {w : W}
    (hfirst : (locs.flatMap s.stored).head? = some r)
    (hproc : h.procRule .delete r none s.world = (.raised, w)) :
    SameStore s (clearLists h locs s).2 ∧ (clearLists h locs s).2.world = w := by
  induction locs generalizing s with
  | nil => cases hfirst
  | cons lc rest ih =>
    rw [List.flatMap_cons] at hfirst
    cases hlist : s.stored lc with
    | nil =>
      have hstored := stored_dropList_nil hlist
      rw [hlist, List.nil_append] at hfirst
      have hih := ih (s := s.dropList lc) (by simpa only [funext hstored] using hfirst) hproc
      rw [clearLists, hlist]
      exact ⟨⟨fun lc' => (hih.1.stored lc').trans (hstored lc'), hih.1.ids⟩, hih.2⟩
    | cons r' rules =>
      rw [hlist] at hfirst
      obtain rfl : r' = r := Option.some_inj.mp hfirst
      rw [clearLists, hlist, clearRules, hproc]
      exact ⟨⟨fun _ => rfl, rfl⟩, rfl⟩

/-- The first rule is deleted: its id is free. -/
theorem clearLists_first {locs : List Loc} {s : SvcsRuleCache R W} {r : R} {i : ℤ} {b : Bool}
    {w : W} (hfirst : (locs.flatMap s.stored).head? = some r) (hid : ruleId r = some i)
    (hproc : h.procRule .delete r none s.world = (.returned b, w)) :
    i ∉ (clearLists h locs s).2.idGenerator.resvedIds := by
  induction locs generalizing s with
  | nil => cases hfirst
  | cons lc rest ih =>
    rw [List.flatMap_cons] at hfirst
    cases hlist : s.stored lc with
    | nil =>
      have hstored := stored_dropList_nil hlist
      rw [hlist, List.nil_append] at hfirst
      rw [clearLists, hlist]
      exact ih (s := s.dropList lc) (by simpa only [funext hstored] using hfirst) hproc
    | cons r' rules =>
      rw [hlist] at hfirst
      obtain rfl : r' = r := Option.some_inj.mp hfirst
      have hrest := clearRules_ids_subset (h := h) rules (dropId (some i) s.idGenerator)
        (freed h r' w)
      have hfree : i ∉ (clearRules h rules (dropId (some i) s.idGenerator)
          (freed h r' w)).2.1.resvedIds := fun hi => (mem_dropId.mp (hrest hi)).1 rfl
      rw [clearLists, hlist, clearRules, hproc]
      dsimp only
      rw [hid]
      split
      · rename_i g w' heq
        rwa [heq] at hfree
      · rename_i g w' heq
        rw [heq] at hfree
        exact fun hi => hfree (clearLists_ids_subset rest _ hi)

/-- `clear_all_rules` for a VRF, by its loop. -/
theorem clearAllRules_eq (ord : DictOrder) (vrf : Str) (s : SvcsRuleCache R W) :
    SameStore (clearLists h ((sweep ord s.rules).filter fun lc => decide (vrf = lc.vrfName))
        s.acquire).2 (clearAllRules h ord (some vrf) none s).2 ∧
      (clearAllRules h ord (some vrf) none s).2.world =
        (clearLists h ((sweep ord s.rules).filter fun lc => decide (vrf = lc.vrfName))
          s.acquire).2.world := by
  rw [clearAllRules]
  simp only [Option.all_none, Option.all_some, Bool.true_and]
  split
  · rename_i heq
    rw [heq]
    exact ⟨⟨fun _ => rfl, rfl⟩, rfl⟩
  · rename_i heq
    rw [heq]
    exact ⟨⟨fun _ => rfl, rfl⟩, rfl⟩

end

end SvcsRuleCache

namespace IptablesHandler

/-- An exception of `proc_rule` comes before its command. -/
theorem procRule_raised {c : Commands} {op : IptOp} {r : VrfIncomingSvcsRule} {idx : Option ℕ}
    {t t' : VrfTool} (hproc : procRule c op r idx t = (.raised, t')) :
    t'.host.kernel = t.host.kernel := by
  have hopened : (vrfOpened (op = .delete) r.vrfName t).2.host.kernel = t.host.kernel := by
    rw [vrfOpened]
    split <;> rfl
  rw [procRule] at hproc
  split at hproc
  · cases hproc
  · rename_i t1 heq
    rw [heq] at hopened
    split_ifs at hproc
    · cases hproc
    · cases hproc
    · obtain rfl := (Prod.mk.inj hproc).2
      exact hopened

end IptablesHandler

namespace BaseVrf

/-! ## Reachable states are sound -/

section

variable {h : Handlers VrfIncomingSvcsRule VrfTool}

/-- The state of a cache in another world. -/
theorem sound_setWorld {s : VrfIncomingSvcsRuleCache VrfTool} (hs : s.Sound) (t : VrfTool) :
    (s.setWorld t).Sound :=
  hs.setIds _ t (fun _ hi => hi) hs.gen

theorem processVrfSvcsRuleAdd_sound {s : VrfIncomingSvcsRuleCache VrfTool} (hs : s.Sound)
    (a : VrfIncomingSvcsRule.Args) : (processVrfSvcsRuleAdd h a s).2.Sound := by
  show (processAdd h (VrfIncomingSvcsRule.init a) s).2.Sound
  cases VrfIncomingSvcsRule.init a with
  | none => exact hs
  | some rule =>
    have hins := hs.steps (insertRule_steps (h := h) hs rule)
    rw [processAdd]
    split
    · rename_i heq
      rwa [heq] at hins
    · rename_i heq
      rwa [heq] at hins

theorem createVrfDefaultRules_sound (vrf : Str) (afs : List Af)
    {s : VrfIncomingSvcsRuleCache VrfTool} (hs : s.Sound) :
    (createVrfDefaultRules h vrf afs s).2.Sound := by
  induction afs generalizing s with
  | nil => exact hs
  | cons af rest ih =>
    have hadd := processVrfSvcsRuleAdd_sound (h := h) hs (defaultRule vrf af)
    rw [createVrfDefaultRules]
    split
    · rename_i heq
      rwa [heq] at hadd
    · rename_i heq
      rw [heq] at hadd
      exact ih hadd

theorem ensureDefaultRules_sound (vrf : Str) {d : BaseVrf} (hd : d.cache.Sound) :
    (ensureDefaultRules h vrf d).cache.Sound := by
  rw [ensureDefaultRules]
  split
  · exact hd
  · exact createVrfDefaultRules_sound vrf [.inet, .inet6] hd

theorem deleteRules_sound (ord : DictOrder) (ids : List ℤ)
    {s : VrfIncomingSvcsRuleCache VrfTool} (hs : s.Sound) : (deleteRules h ord ids s).Sound := by
  induction ids generalizing s with
  | nil => exact hs
  | cons id rest ih =>
    refine ih ?_
    have hdel := hs.steps (deleteRuleById_steps (h := h) ord id hs)
    show (processDelById h ord id s).2.Sound
    rw [processDelById]
    split
    · rename_i heq
      rwa [heq] at hdel
    · rename_i heq
      rwa [heq] at hdel

theorem dropDefaultRules_sound (ord : DictOrder) (vrf : Str) {d : BaseVrf}
    (hd : d.cache.Sound) : (dropDefaultRules h ord vrf d).cache.Sound := by
  rw [dropDefaultRules]
  split
  · exact hd
  · exact deleteRules_sound ord _ hd

theorem clear_sound {ord : DictOrder} {vrf : Option Str} {s : VrfIncomingSvcsRuleCache VrfTool}
    (hs : s.Sound) (hnr : hasRaised (clearAllRules h ord vrf none s).1 = false) :
    (processVrfSvcsClearRules h ord vrf s).2.Sound :=
  hs.changes (clearAllRules_changes ord vrf none hnr)

theorem createRequest_sound {ord : DictOrder} {vrf : Str} (id : ℕ) {d : BaseVrf}
    (hd : d.cache.Sound)
    (hnr : hasRaised (clearAllRules h ord (some vrf) none d.cache).1 = false) :
    (createRequest h ord vrf id d).2.cache.Sound := by
  have hclear := clear_sound hd hnr
  rw [createRequest]
  split
  · rename_i t heq
    exact ensureDefaultRules_sound _ (ensureDefaultRules_sound _ (sound_setWorld hclear t))
  · rename_i t heq
    exact sound_setWorld hclear t

theorem deleteRequest_sound (ord : DictOrder) (vrf : Str) (id : ℕ) {d : BaseVrf}
    (hd : d.cache.Sound) : (deleteRequest h ord vrf id d).2.cache.Sound := by
  rw [deleteRequest]
  refine sound_setWorld ?_ _
  split
  · exact dropDefaultRules_sound ord _ (dropDefaultRules_sound ord vrf hd)
  · exact dropDefaultRules_sound ord vrf hd

/-- A request that clears through keeps the cache sound. -/
theorem step_sound {d : BaseVrf} (hd : d.cache.Sound) {q : Request}
    (hq : ClearsThrough h d q) : (step h d q).cache.Sound := by
  cases q with
  | cache q => exact hd.changes (exec_changes hd hq)
  | readStats ord id => exact hd.steps (findRuleById_spec (h := h) ord id hd).1
  | elsewhere t => exact sound_setWorld hd t
  | setVrf ord op vrfName vrfId =>
    show (setVrfCbInt h ord op vrfName vrfId d).2.cache.Sound
    cases vrfName with
    | none => exact hd
    | some vrf =>
      cases vrfId with
      | none => exact hd
      | some id =>
        cases op with
        | create => exact createRequest_sound id hd hq
        | delete => exact deleteRequest_sound ord vrf id hd
        | set => exact hd
        | other => exact hd

theorem run_sound {env : Env} {requests : List Request}
    (hclear : Along (step h) (ClearsThrough h) (init env) requests) :
    (run (step h) (init env) requests).cache.Sound :=
  @run_preserves _ _ _ _ (fun d => d.cache.Sound) (fun _ _ hd hq => step_sound hd hq) _ _
    (sound_init _) hclear

end

/-! ## A creation that fails -/

/-- The incoming rules, their chains and the reserved ids are the same. -/
structure Kept (d d' : BaseVrf) : Prop where
  store : SameStore d.cache d'.cache
  chains : d'.tool.host.kernel.incoming = d.tool.host.kernel.incoming

/-- The creation of a VRF edits no chain of the rules. -/
theorem processVrfConfig_incoming (vrf : Str) (id : ℕ) (t : VrfTool) :
    (VrfTool.processVrfConfig true vrf id t).2.host.kernel.incoming = t.host.kernel.incoming :=
  ((VrfTool.createVrf_cases vrf id t).1.host.chains (by decide)).incoming

/-- What a creation that fails leaves is what the clearing leaves. -/
theorem createRequest_false {h : Handlers VrfIncomingSvcsRule VrfTool} {ord : DictOrder}
    {vrf : Str} {id : ℕ} {d : BaseVrf} (hfails : (createRequest h ord vrf id d).1 = false) :
    (createRequest h ord vrf id d).2.cache.rules =
        (clearAllRules h ord (some vrf) none d.cache).2.rules ∧
      (createRequest h ord vrf id d).2.cache.idGenerator =
        (clearAllRules h ord (some vrf) none d.cache).2.idGenerator ∧
      (createRequest h ord vrf id d).2.tool.host.kernel.incoming =
        (clearAllRules h ord (some vrf) none d.cache).2.world.host.kernel.incoming := by
  have hincoming := processVrfConfig_incoming vrf id
    (clearAllRules h ord (some vrf) none d.cache).2.world
  rw [createRequest] at hfails ⊢
  split at hfails
  · cases hfails
  · rename_i t heq
    have heq' : VrfTool.processVrfConfig true vrf id
        (clearAllRules h ord (some vrf) none d.cache).2.world = (false, t) := heq
    rw [heq'] at hincoming
    exact ⟨rfl, rfl, hincoming⟩

/-- The same, for the whole comparison. -/
theorem createRequest_kept_iff {h : Handlers VrfIncomingSvcsRule VrfTool} {ord : DictOrder}
    {vrf : Str} {id : ℕ} {d : BaseVrf} (hfails : (createRequest h ord vrf id d).1 = false) :
    Kept d (createRequest h ord vrf id d).2 ↔
      Kept d (d.setCache (clearAllRules h ord (some vrf) none d.cache).2) := by
  obtain ⟨hrules, hids, hincoming⟩ := createRequest_false hfails
  have hstored : ∀ lc, (createRequest h ord vrf id d).2.cache.stored lc =
      (clearAllRules h ord (some vrf) none d.cache).2.stored lc := by
    intro lc
    rw [stored, stored, listAt, listAt, hrules]
  constructor
  · rintro ⟨⟨hst, hres⟩, hch⟩
    refine ⟨⟨fun lc => (hstored lc).symm.trans (hst lc), ?_⟩, hincoming.symm.trans hch⟩
    rw [hids] at hres
    exact hres
  · rintro ⟨⟨hst, hres⟩, hch⟩
    refine ⟨⟨fun lc => (hstored lc).trans (hst lc), ?_⟩, hincoming.trans hch⟩
    rw [hids]
    exact hres

/-- A clearing keeps everything exactly when its first deletion raises. -/
theorem clear_kept_iff {c : IptablesHandler.Commands} {ord : DictOrder} {vrf : Str}
    {d : BaseVrf} (hd : d.cache.Sound) :
    Kept d (d.setCache (clearAllRules (IptablesHandler.handlers c) ord (some vrf) none
        d.cache).2) ↔
      ∀ r, firstToClear ord vrf d.cache = some r →
        (IptablesHandler.procRule c .delete r none d.tool).1 = .raised := by
  obtain ⟨hsame, hworld⟩ := clearAllRules_eq (h := IptablesHandler.handlers c) ord vrf d.cache
  set locs := (sweep ord d.cache.rules).filter fun lc => decide (vrf = lc.vrfName) with hlocs
  have hfirst : firstToClear ord vrf d.cache = (locs.flatMap d.cache.acquire.stored).head? := rfl
  rw [hfirst]
  -- the comparison with the loop over the lists
  have hkept : ∀ t : VrfTool,
      SameStore d.cache.acquire
          (clearLists (IptablesHandler.handlers c) locs d.cache.acquire).2 ∧
        (clearLists (IptablesHandler.handlers c) locs d.cache.acquire).2.world = t →
      t.host.kernel.incoming = d.tool.host.kernel.incoming →
      Kept d (d.setCache (clearAllRules (IptablesHandler.handlers c) ord (some vrf) none
        d.cache).2) := by
    rintro t ⟨hstore, hw⟩ hincoming
    refine ⟨⟨fun lc => (hsame.stored lc).trans (hstore.stored lc),
      hsame.ids.trans hstore.ids⟩, ?_⟩
    show (clearAllRules (IptablesHandler.handlers c) ord (some vrf) none
      d.cache).2.world.host.kernel.incoming = _
    rw [hworld, hw, hincoming]
  cases hhead : (locs.flatMap d.cache.acquire.stored).head? with
  | none =>
    refine iff_of_true (hkept _ (clearLists_none hhead) rfl) ?_
    rintro r ⟨⟩
  | some r =>
    obtain ⟨out, t, hproc⟩ : ∃ out t,
        IptablesHandler.procRule c .delete r none d.tool = (out, t) := ⟨_, _, rfl⟩
    cases out with
    | raised =>
      refine iff_of_true ?_ ?_
      · refine hkept t (clearLists_raised hhead hproc) ?_
        rw [IptablesHandler.procRule_raised hproc]
      · rintro r' ⟨⟩
        rw [hproc]
    | returned b =>
      refine iff_of_false ?_ ?_
      · intro hk
        obtain ⟨lc, -, hmem⟩ := List.mem_flatMap.mp (List.mem_of_head? hhead)
        obtain ⟨i, hid, hres⟩ := hd.reserved lc r hmem
        have hfree := clearLists_first (h := IptablesHandler.handlers c) hhead hid hproc
        rw [← hsame.ids] at hfree
        have hids : (clearAllRules (IptablesHandler.handlers c) ord (some vrf) none
            d.cache).2.idGenerator.resvedIds = d.cache.idGenerator.resvedIds := hk.store.ids
        rw [hids] at hfree
        exact hfree hres
      · intro hall
        have hraised := hall r rfl
        rw [hproc] at hraised
        cases hraised

/-- In any reachable state a creation that fails leaves the rules, the chains
and the ids as they were, exactly when no rule is cached for the VRF, or the
deletion of the first one raises. -/
theorem create_refused_keeps_iff (c : IptablesHandler.Commands) (env : Env)
    (requests : List Request)
    (hclear : Along (step (IptablesHandler.handlers c))
      (ClearsThrough (IptablesHandler.handlers c)) (init env) requests)
    (ord : DictOrder) (vrfName : Option Str) (vrfId : Option ℕ) :
    let d := run (step (IptablesHandler.handlers c)) (init env) requests
    let out := setVrfCbInt (IptablesHandler.handlers c) ord .create vrfName vrfId d
    out.1 = false → (Kept d out.2 ↔
      ∀ vrf r, vrfName = some vrf → vrfId.isSome → firstToClear ord vrf d.cache = some r →
        (IptablesHandler.procRule c .delete r none d.tool).1 = .raised) := by
  intro d out hfails
  have hd : d.cache.Sound := run_sound hclear
  have hself : Kept d d := ⟨⟨fun _ => rfl, rfl⟩, rfl⟩
  cases vrfName with
  | none =>
    refine iff_of_true hself ?_
    rintro vrf r ⟨⟩
  | some vrf =>
    cases vrfId with
    | none =>
      refine iff_of_true hself ?_
      rintro vrf' r - ⟨⟩
    | some id =>
      rw [show out = createRequest (IptablesHandler.handlers c) ord vrf id d from rfl] at hfails ⊢
      rw [createRequest_kept_iff hfails, clear_kept_iff hd]
      constructor
      · rintro hall vrf' r ⟨⟩ -
        exact hall r
      · intro hall r
        exact hall vrf r rfl rfl

/-! ## A small run -/

/-- What a command that succeeds does to a chain.  A delete without a position
is for the first rule with the same attributes. -/
def edited (op : IptOp) (r : VrfIncomingSvcsRule) (idx : Option ℕ)
    (chain : List VrfIncomingSvcsRule) : List VrfIncomingSvcsRule :=
  match op, idx with
  | .insert, some i => chain.insertIdx i r
  | .insert, none => chain ++ [r]
  | .delete, some i => chain.eraseIdx i
  | .delete, none => chain.eraseP fun r' => decide (keyAttrs r' = keyAttrs r)
  | .replace, some i => chain.set i r
  | .replace, none => chain

/-- Commands that succeed and edit the chains. -/
def editing : IptablesHandler.Commands where
  edit op r idx h :=
    (true, { h with
      kernel := { h.kernel with
        incoming := fun lc =>
          if lc = loc r then edited op r idx (h.kernel.incoming lc)
          else h.kernel.incoming lc } })
  stats _ _ h := (.returned none, h)

/-- The name of the VRF of the small runs. -/
def blue : Str := "blue".toList

/-- A rule of another VRF that allows what comes in at an interface. -/
def otherVrfRule : VrfIncomingSvcsRule :=
  { allowAll 10 "eth1".toList with vrfName := "red".toList }

/-- A rule of the VRF `red` is cached, and the host then refuses to create
`blue`. -/
theorem create_refused_keeps_small :
    let d := run (step (IptablesHandler.handlers editing))
      (init (.steady fun kind => .const (decide (kind ≠ .vrf))))
      [.setVrf listOrder .create (some "red".toList) (some 1),
        .cache (.insertRule otherVrfRule)]
    let out := setVrfCbInt (IptablesHandler.handlers editing) listOrder .create (some blue)
      (some 2) d
    (d.cache.stored ⟨.otherRules, .inet, "red".toList⟩).map ruleId = [some 1] ∧
      (d.tool.host.kernel.incoming ⟨.otherRules, .inet, "red".toList⟩).map ruleId = [some 1] ∧
      out.1 = false ∧ Kept d out.2 := by
  intro d out
  have hfails : out.1 = false := by decide +kernel
  have hclear : Along (step (IptablesHandler.handlers editing))
      (ClearsThrough (IptablesHandler.handlers editing))
      (init (.steady fun kind => .const (decide (kind ≠ .vrf))))
      [.setVrf listOrder .create (some "red".toList) (some 1),
        .cache (.insertRule otherVrfRule)] := by
    refine ⟨?_, ?_, trivial⟩
    · show hasRaised _ = false
      decide +kernel
    · exact Or.inl trivial
  have hnone : firstToClear listOrder blue d.cache = none := by decide +kernel
  refine ⟨by decide +kernel, by decide +kernel, hfails, ?_⟩
  refine (create_refused_keeps_iff editing _ _ hclear listOrder (some blue) (some 2) hfails).mpr ?_
  rintro vrf r ⟨⟩ - hfirst
  exact absurd (hnone.symm.trans hfirst) (by rintro ⟨⟩)

/-- The daemon after a creation that failed at the settings of the new
namespace, and after a rule for the VRF. -/
def created : BaseVrf :=
  run (step (IptablesHandler.handlers editing))
    (init (.steady fun kind => .const (decide (kind ≠ .vrf))))
    [.setVrf listOrder .create (some blue) (some 1),
      .cache (.insertRule (allowAll 10 "eth1".toList))]

/-- A second creation, which the kernel refuses because the namespace exists. -/
def createdAgain : Bool × BaseVrf :=
  setVrfCbInt (IptablesHandler.handlers editing) listOrder .create (some blue) (some 1) created

/-- The second creation is refused, and the rule is gone from the cache and
from the chain. -/
theorem repeated_create_loses_rules :
    blue ∈ created.tool.host.kernel.netns ∧ createdAgain.1 = false ∧
      (created.cache.stored ⟨.otherRules, .inet, blue⟩).map ruleId = [some 1] ∧
      (created.tool.host.kernel.incoming ⟨.otherRules, .inet, blue⟩).map ruleId = [some 1] ∧
      (createdAgain.2.tool.host.kernel.incoming ⟨.otherRules, .inet, blue⟩).map ruleId = [] ∧
      ¬ Kept created createdAgain.2 := by
  refine ⟨?_, ?_, ?_, ?_, ?_, ?_⟩
  · decide +kernel
  · decide +kernel
  · decide +kernel
  · decide +kernel
  · decide +kernel
  · intro hkept
    have hids : createdAgain.2.cache.idGenerator.resvedIds =
      created.cache.idGenerator.resvedIds := hkept.store.ids
    have hdiffer : createdAgain.2.cache.idGenerator.resvedIds ≠
      created.cache.idGenerator.resvedIds := by decide +kernel
    exact hdiffer hids

end BaseVrf

end OpxNasLinux
