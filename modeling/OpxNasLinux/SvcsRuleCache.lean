import OpxNasLinux.IdTool
import OpxNasLinux.SvcsRuleList

/-!
# The rule caches

`VrfIncomingSvcsRuleCache` and `VrfOutgoingSvcsRuleCache`, over a class of
rules.  The state holds the rule lists by their place, the id generator, the
hold count of the mutex, and the world that the calls of `IptablesHandler` and
of the private address allocator act on.

The calls that leave the cache are the fields of `Handlers`, so what is proved
here holds whatever they do.  Where Python raises, the state is the one at the
point of the exception: the mutex stays held, and what was done stays done.
-/

namespace OpxNasLinux

open SvcsRule

/-- The operations of `IptablesHandler.proc_rule` that edit a chain. -/
inductive IptOp where
  | insert
  | delete
  | replace
deriving DecidableEq, Repr

/-- What a cache calls. -/
structure Handlers (R W : Type) where
  /-- `IptablesHandler.proc_rule`. -/
  procRule : IptOp → R → Option ℕ → W → Outcome Bool × W
  /-- `IptablesHandler.proc_rule('get')`: the counters, if it sets them. -/
  getStats : R → ℕ → W → Outcome (Option Stats) × W
  /-- `outgoing_ip_svcs_rule_sub_net_config('insert')`. -/
  subNetInsert : R → W → Option Private × W
  /-- `outgoing_ip_svcs_rule_sub_net_config('delete')`. -/
  subNetDelete : R → W → W

/-- The order in which one call iterates over the dictionaries of a cache. -/
structure DictOrder where
  order : Table → Af → List Str → List Str
  perm : ∀ table af names, (order table af names).Perm names

/-- The state of a cache and of the world around it. -/
structure SvcsRuleCache (R W : Type) where
  rules : Dict Loc (SvcsRuleList R)
  idGenerator : IdGenerator
  mutex : ℕ
  world : W

namespace SvcsRuleCache

variable {R W : Type} [SvcsRule R]

/-- The cache when the daemon starts. -/
def init (w : W) : SvcsRuleCache R W :=
  { rules := ∅, idGenerator := .new, mutex := 0, world := w }

/-! ## Parts of the operations -/

def acquire (s : SvcsRuleCache R W) : SvcsRuleCache R W := { s with mutex := s.mutex + 1 }

def release (s : SvcsRuleCache R W) : SvcsRuleCache R W := { s with mutex := s.mutex - 1 }

/-- The rule list at a place, empty when there is none. -/
def listAt (s : SvcsRuleCache R W) (lc : Loc) : SvcsRuleList R :=
  (s.rules.lookup lc).getD .empty

/-- The rules stored at a place. -/
def stored (s : SvcsRuleCache R W) (lc : Loc) : List R := (s.listAt lc).rules

def setIds (s : SvcsRuleCache R W) (g : IdGenerator) : SvcsRuleCache R W :=
  { s with idGenerator := g }

def setWorld (s : SvcsRuleCache R W) (w : W) : SvcsRuleCache R W := { s with world := w }

def setList (s : SvcsRuleCache R W) (lc : Loc) (l : SvcsRuleList R) : SvcsRuleCache R W :=
  { s with rules := s.rules.insert lc l }

def dropList (s : SvcsRuleCache R W) (lc : Loc) : SvcsRuleCache R W :=
  { s with rules := s.rules.erase lc }

/-- A rule list is made for a VRF that has none. -/
def openList (s : SvcsRuleCache R W) (lc : Loc) : SvcsRuleCache R W :=
  if lc ∈ s.rules then s else s.setList lc .empty

/-- A rule list that became empty is dropped. -/
def closeList (s : SvcsRuleCache R W) (lc : Loc) : SvcsRuleCache R W :=
  if (s.stored lc).isEmpty then s.dropList lc else s

/-- The id for a new rule: a fresh one, or the one it was given. -/
def takeId (id : Option ℤ) (g : IdGenerator) : Option ℤ × IdGenerator :=
  match id with
  | none => g.getNewId
  | some i =>
    if g.isIdUsed i then (none, g)
    else
      match g.reserveId i with
      | (true, g') => (some i, g')
      | (false, g') => (none, g')

/-- `id_generator.release_id`. -/
def dropId (id : Option ℤ) (g : IdGenerator) : IdGenerator :=
  match id with
  | none => g
  | some i => (g.releaseId i).2

/-- The private address and port of a rule that has them are given back. -/
def freed (h : Handlers R W) (rule : R) (w : W) : W :=
  if needsPrivate rule then h.subNetDelete rule w else w

/-! ## `insert_rule` -/

/-- The ids after iptables has refused a new rule. -/
def refusedIds (rule : R) (g : IdGenerator) : IdGenerator :=
  if releasesRefusedId R then dropId (ruleId rule) g else g

/-- `insert_rule` from the insert into the rule list on. -/
def insertProgram (h : Handlers R W) (rule : R) (s : SvcsRuleCache R W) :
    Outcome Bool × R × SvcsRuleCache R W :=
  match (s.listAt (loc rule)).insert rule with
  | (none, _) =>
    (.returned false, rule,
      ((s.setWorld (freed h rule s.world)).setIds (dropId (ruleId rule) s.idGenerator)).release)
  | (some idx, l) =>
    match h.procRule .insert rule (some idx) s.world with
    | (.raised, w) => (.raised, rule, (s.setList (loc rule) l).setWorld w)
    | (.returned true, w) => (.returned true, rule, ((s.setList (loc rule) l).setWorld w).release)
    | (.returned false, w) =>
      -- the rollback
      (.returned false, rule,
        ((((s.setList (loc rule) l).setList (loc rule) (l.remove rule).2).setWorld
          (freed h rule w)).setIds (refusedIds rule s.idGenerator)).release)

/-- `insert_rule` after an id has been reserved. -/
def insertReserved (h : Handlers R W) (rule : R) (s : SvcsRuleCache R W) :
    Outcome Bool × R × SvcsRuleCache R W :=
  if needsPrivate rule then
    match h.subNetInsert rule s.world with
    | (none, w) =>
      (.returned false, rule,
        ((s.setWorld w).setIds (dropId (ruleId rule) s.idGenerator)).release)
    | (some p, w) => insertProgram h (setPrivate p rule) (s.setWorld w)
  else insertProgram h rule s

/-- `insert_rule`: the result, and the rule as the call leaves it. -/
def insertRule (h : Handlers R W) (rule : R) (s : SvcsRuleCache R W) :
    Outcome Bool × R × SvcsRuleCache R W :=
  if strRaises rule then (.raised, rule, s)
  else
    match takeId (ruleId rule) s.idGenerator with
    | (none, g) => (.returned false, rule, ((s.acquire.openList (loc rule)).setIds g).release)
    | (some i, g) =>
      insertReserved h (setRuleId i rule) ((s.acquire.openList (loc rule)).setIds g)

/-! ## `delete_rule` and `delete_rule_by_id` -/

/-- The deletion of a rule that has been taken out of the list at `lc`: the
rule for a success, `none` for a failure. -/
def deleteFound (h : Handlers R W) (del : R) (idx : ℕ) (lc : Loc) (id : Option ℤ)
    (s : SvcsRuleCache R W) : Outcome (Option R) × SvcsRuleCache R W :=
  match h.procRule .delete del (some idx) s.world with
  | (.raised, w) => (.raised, s.setWorld w)
  | (.returned true, w) =>
    (.returned (some del),
      (((s.setWorld (freed h del w)).closeList lc).release).setIds (dropId id s.idGenerator))
  | (.returned false, w) =>
    -- the rollback, into the list of the rule's own VRF name
    let back : Loc := { lc with vrfName := (loc del).vrfName }
    (.returned none,
      (((s.setWorld w).setList back ((s.listAt back).insert del).2).closeList lc).release)

/-- `delete_rule`. -/
def deleteRule (h : Handlers R W) (rule : R) (s : SvcsRuleCache R W) :
    Outcome (Option R) × SvcsRuleCache R W :=
  if strRaises rule then (.raised, s)
  else
    match s.rules.lookup (loc rule) with
    | none => (.returned none, s.acquire.release)
    | some l =>
      match l.remove rule with
      | (none, _) => (.returned none, s.acquire.release)
      | (some (del, idx), l') =>
        deleteFound h del idx (loc rule) (ruleId del) (s.acquire.setList (loc rule) l')

/-- The VRF names under which one dictionary has rule lists. -/
def vrfNames (rules : Dict Loc (SvcsRuleList R)) (table : Table) (af : Af) : List Str :=
  (rules.keys.filter (fun lc => lc.table = table ∧ lc.af = af)).map Loc.vrfName

/-- The rule lists in the order in which a call goes through them. -/
def sweep (ord : DictOrder) (rules : Dict Loc (SvcsRuleList R)) : List Loc :=
  [Af.inet, Af.inet6].flatMap fun af =>
    [Table.ipRules, Table.otherRules].flatMap fun table =>
      (ord.order table af (vrfNames rules table af)).map fun vrf => ⟨table, af, vrf⟩

/-- The place and the position of the first rule with the id. -/
def locate (ord : DictOrder) (id : ℤ) (s : SvcsRuleCache R W) : Option (Loc × ℕ) :=
  (sweep ord s.rules).findSome? fun lc =>
    ((s.listAt lc).ruleIdMap.lookup (some id)).map fun idx => (lc, idx)

/-- `find_rule_by_id`: the rule with its position.  The incoming cache reads
the counters of the rule it finds. -/
def findRuleById (h : Handlers R W) (ord : DictOrder) (id : ℤ) (s : SvcsRuleCache R W) :
    Outcome (Option (R × ℕ)) × SvcsRuleCache R W :=
  match locate ord id s with
  | none => (.returned none, s.acquire.release)
  | some (lc, idx) =>
    match (s.stored lc)[idx]? with
    | none => (.raised, s.acquire)
    | some rule =>
      if readsStats R then
        match h.getStats rule idx s.world with
        | (.raised, w) => (.raised, s.acquire.setWorld w)
        | (.returned none, w) => (.returned (some (rule, idx)), (s.acquire.setWorld w).release)
        | (.returned (some st), w) =>
          (.returned (some (setStats st rule, idx)),
            ((s.acquire.setWorld w).setList lc
              ((s.listAt lc).setRule idx (setStats st rule))).release)
      else (.returned (some (rule, idx)), s.acquire.release)

/-- `find_rule_by_match`. -/
def findRuleByMatch (rule : R) (s : SvcsRuleCache R W) : Option R :=
  match s.rules.lookup (loc rule) with
  | none => none
  | some l => (l.index rule).bind fun idx => l.rules[idx]?

/-- `delete_rule_by_id`. -/
def deleteRuleById (h : Handlers R W) (ord : DictOrder) (id : ℤ) (s : SvcsRuleCache R W) :
    Outcome (Option R) × SvcsRuleCache R W :=
  match findRuleById h ord id s.acquire with
  | (.raised, s) => (.raised, s)
  | (.returned none, s) => (.returned none, s.release)
  | (.returned (some (del, idx)), s) =>
    match (s.listAt (loc del)).removeById id with
    | (none, _) => (.returned none, s.release)
    | (some _, l) => deleteFound h del idx (loc del) (some id) (s.setList (loc del) l)

/-! ## `update_rule` -/

/-- `replace_rule`. -/
def replaceRule (h : Handlers R W) (ord : DictOrder) (id : ℤ) (new : R)
    (s : SvcsRuleCache R W) : Outcome Bool × SvcsRuleCache R W :=
  match findRuleById h ord id s.acquire with
  | (.raised, s) => (.raised, s)
  | (.returned none, s) => (.returned false, s.release)
  | (.returned (some (old, idx)), s) =>
    match h.procRule .replace new (some idx) s.world with
    | (.raised, w) => (.raised, s.setWorld w)
    | (.returned false, w) => (.returned false, (s.setWorld w).release)
    | (.returned true, w) =>
      (.returned true,
        ((s.setWorld w).setList (loc old)
          ((s.listAt (loc old)).setRule idx new)).release)

/-- The loop of `update_rule` over its keyword arguments: the updated copy and
the attributes that changed, `none` for a `ValueError`. -/
def applyParams (rule : R) : List (Attr R) → Option (R × List (Attr R))
  | [] => some (rule, [])
  | attr :: rest =>
    match checkAndSet rule attr with
    | none => none
    | some (rule', changed) =>
      (applyParams rule' rest).map fun p => (p.1, if changed then attr :: p.2 else p.2)

/-- The branch of `update_rule` for attributes that `replace_rule` cannot
change.  The old rule is put back when the new one is refused. -/
def updateByDelete (h : Handlers R W) (ord : DictOrder) (id : ℤ) (upd : R)
    (s : SvcsRuleCache R W) : Outcome Bool × SvcsRuleCache R W :=
  match deleteRuleById h ord id s with
  | (.raised, s) => (.raised, s)
  | (.returned none, s) => (.returned false, s.release)
  | (.returned (some old), s) =>
    match insertRule h upd s with
    | (.raised, _, s) => (.raised, s)
    | (.returned true, _, s) => (.returned true, s.release)
    | (.returned false, _, s) =>
      match insertRule h old s with
      | (.raised, _, s) => (.raised, s)
      | (.returned _, _, s) => (.returned false, s.release)

/-- `update_rule` after its checks. -/
def updateChecked (h : Handlers R W) (ord : DictOrder) (id : ℤ) (upd : R)
    (changed : List (Attr R)) (s : SvcsRuleCache R W) : Outcome Bool × SvcsRuleCache R W :=
  if changed.all isReplAttr then
    match replaceRule h ord id upd s with
    | (.raised, s) => (.raised, s)
    | (.returned b, s) => (.returned b, s.release)
  else updateByDelete h ord id upd s

/-- `update_rule`. -/
def updateRule (h : Handlers R W) (ord : DictOrder) (id : ℤ) (params : List (Attr R))
    (s : SvcsRuleCache R W) : Outcome Bool × SvcsRuleCache R W :=
  match findRuleById h ord id s.acquire with
  | (.raised, s) => (.raised, s)
  | (.returned none, s) => (.returned false, s.release)
  | (.returned (some (old, _)), s) =>
    match applyParams old params with
    | none => (.raised, s)
    | some (upd, changed) =>
      if changed.isEmpty then (.returned true, s.release)
      else if strRaises old ∨ strRaises upd then (.raised, s)
      else if (s.findRuleByMatch upd).any (fun m => decide (ruleId m ≠ ruleId old)) then
        (.returned false, s.release)
      else updateChecked h ord id upd changed s

/-! ## `clear_all_rules` -/

/-- The loop of `clear_all_rules` over one rule list. -/
def clearRules (h : Handlers R W) :
    List R → IdGenerator → W → Outcome Unit × IdGenerator × W
  | [], g, w => (.returned (), g, w)
  | rule :: rest, g, w =>
    match h.procRule .delete rule none w with
    | (.raised, w) => (.raised, g, w)
    | (.returned _, w) => clearRules h rest (dropId (ruleId rule) g) (freed h rule w)

/-- The loop of `clear_all_rules` over the rule lists. -/
def clearLists (h : Handlers R W) :
    List Loc → SvcsRuleCache R W → Outcome Unit × SvcsRuleCache R W
  | [], s => (.returned (), s)
  | lc :: rest, s =>
    match clearRules h (s.stored lc) s.idGenerator s.world with
    | (.raised, g, w) => (.raised, (s.setIds g).setWorld w)
    | (.returned _, g, w) => clearLists h rest (((s.dropList lc).setIds g).setWorld w)

/-- `clear_all_rules`. -/
def clearAllRules (h : Handlers R W) (ord : DictOrder) (fltVrf : Option Str) (fltAf : Option Af)
    (s : SvcsRuleCache R W) : Outcome Unit × SvcsRuleCache R W :=
  let picked := (sweep ord s.rules).filter fun lc =>
    fltAf.all (fun af => decide (af = lc.af)) && fltVrf.all (fun vrf => decide (vrf = lc.vrfName))
  match clearLists h picked s.acquire with
  | (.raised, s) => (.raised, s)
  | (.returned _, s) => (.returned (), s.release)

/-! ## Requests -/

/-- A call of one of the operations. -/
inductive Request (R : Type) [SvcsRule R] where
  | insertRule (rule : R)
  | deleteRule (rule : R)
  | deleteRuleById (ord : DictOrder) (id : ℤ)
  | updateRule (ord : DictOrder) (id : ℤ) (params : List (Attr R))
  | clearAllRules (ord : DictOrder) (fltVrf : Option Str) (fltAf : Option Af)

/-- Whether the call ended with an exception. -/
def hasRaised {α : Type} : Outcome α → Bool
  | .returned _ => false
  | .raised => true

/-- The call: whether it raises, and the state it leaves. -/
def exec (h : Handlers R W) (s : SvcsRuleCache R W) :
    Request R → Bool × SvcsRuleCache R W
  | .insertRule rule =>
    (hasRaised (insertRule h rule s).1, (insertRule h rule s).2.2)
  | .deleteRule rule =>
    (hasRaised (deleteRule h rule s).1, (deleteRule h rule s).2)
  | .deleteRuleById ord id =>
    (hasRaised (deleteRuleById h ord id s).1, (deleteRuleById h ord id s).2)
  | .updateRule ord id params =>
    (hasRaised (updateRule h ord id params s).1, (updateRule h ord id params s).2)
  | .clearAllRules ord fltVrf fltAf =>
    (hasRaised (clearAllRules h ord fltVrf fltAf s).1, (clearAllRules h ord fltVrf fltAf s).2)

/-- The state after a call. -/
def step (h : Handlers R W) (s : SvcsRuleCache R W) (q : Request R) : SvcsRuleCache R W :=
  (exec h s q).2

end SvcsRuleCache

end OpxNasLinux
