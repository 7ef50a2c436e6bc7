import Mathlib.Data.Prod.Lex
import OpxNasLinux.Lib.Dict

/-!
# Service rules

`dn_base_vrf_svcs_config.py` keeps two caches of service rules, one for the
incoming and one for the outgoing services.  Their code is the same but for a
few places, so the caches are modelled once, over a type `R` of rules.  This
file has what they need to know about `R`.

* The enumerations of the source, with their numbers.
* `Loc` names one rule list of a cache: the dictionary it is in, the address
  family and the VRF.
* `SvcsRule` is the interface of a rule class, together with the three places
  where the caches of the two classes differ.
* `LawfulSvcsRule` says which attributes each update of a rule leaves alone.
-/

namespace OpxNasLinux

/-- A Python string, as its characters. -/
abbrev Str := List Char

instance : LawfulBEq Str := inferInstance

/-- A packed address, as `socket.inet_pton` returns it. -/
abbrev Bytes := List UInt8

/-- The name of the default VRF, whose namespace is the root namespace. -/
def defaultVrf : Str := "default".toList

/-- `_mgmt_vrf_name`. -/
def mgmtVrfName : Str := "management".toList

/-- What a call of a Python function ends with. -/
inductive Outcome (α : Type) where
  | returned (a : α)
  | raised
deriving DecidableEq, Repr

/-! ## The enumerations -/

/-- `socket.AF_INET` and `socket.AF_INET6`. -/
inductive Af where
  | inet
  | inet6
deriving DecidableEq, Repr

/-- The family of a number, `none` for any other number. -/
def Af.ofValue (val : ℤ) : Option Af :=
  if val = 2 then some .inet else if val = 10 then some .inet6 else none

/-- The length of a packed address. -/
def Af.length : Af → ℕ
  | .inet => 4
  | .inet6 => 16

inductive VrfSvcsRuleType where
  | ip
  | acl
  | outIp
  | snat
deriving DecidableEq, Repr

def VrfSvcsRuleType.ofValue (val : ℤ) : Option VrfSvcsRuleType :=
  if val = 1 then some .ip else if val = 2 then some .acl
  else if val = 3 then some .outIp else if val = 4 then some .snat else none

inductive VrfSvcsRuleAction where
  | allow
  | deny
  | dnat
  | reject
  | snat
deriving DecidableEq, Repr

def VrfSvcsRuleAction.ofValue (val : ℤ) : Option VrfSvcsRuleAction :=
  if val = 1 then some .allow else if val = 2 then some .deny
  else if val = 3 then some .dnat else if val = 4 then some .reject
  else if val = 5 then some .snat else none

inductive VrfSvcsRuleProto where
  | tcp
  | udp
  | icmp
  | all
  | icmpv6
deriving DecidableEq, Repr

def VrfSvcsRuleProto.ofValue (val : ℤ) : Option VrfSvcsRuleProto :=
  if val = 1 then some .tcp else if val = 2 then some .udp
  else if val = 3 then some .icmp else if val = 4 then some .all
  else if val = 5 then some .icmpv6 else none

inductive VrfSvcsRuleGroupPrio where
  | high
  | default
deriving DecidableEq, Repr

def VrfSvcsRuleGroupPrio.value : VrfSvcsRuleGroupPrio → ℕ
  | .high => 1
  | .default => 10

/-- What `__setattr__` makes of a value for `grp_priority`. -/
def VrfSvcsRuleGroupPrio.ofTruth (val : Bool) : VrfSvcsRuleGroupPrio :=
  if val then .high else .default

/-! ## The rule lists of a cache -/

/-- The two dictionaries of a cache: `ip_rules`, and `acl_rules` or
`snat_rules`. -/
inductive Table where
  | ipRules
  | otherRules
deriving DecidableEq, Repr

/-- The place of one rule list. -/
structure Loc where
  table : Table
  af : Af
  vrfName : Str
deriving DecidableEq, Repr

/-- A sequence number with its group priority.  Python orders the pairs
lexicographically. -/
abbrev SeqKey := ℕ ×ₗ ℤ

/-- The packet and byte counts that `proc_rule('get')` reads. -/
structure Stats where
  packetCount : Option Str
  byteCount : Option Str
deriving DecidableEq, Repr

/-- The private address and port of an outgoing service rule. -/
structure Private where
  ip : Bytes
  port : ℕ
deriving DecidableEq, Repr

/-! ## The interface of a rule class -/

/-- A class of service rules. -/
class SvcsRule (R : Type) where
  /-- The values of the `KEY_ATTRS`. -/
  Key : Type
  decEqKey : DecidableEq Key
  /-- One keyword argument of `update_rule`. -/
  Attr : Type
  keyAttrs : R → Key
  loc : R → Loc
  seqKey : R → SeqKey
  ruleId : R → Option ℤ
  setRuleId : ℤ → R → R
  setStats : Stats → R → R
  setPrivate : Private → R → R
  /-- `__str__`, which every operation logs, raises. -/
  strRaises : R → Bool
  /-- The rule needs a private address and port. -/
  needsPrivate : R → Bool
  /-- `remove` refuses the second rule as a match of the first for its private
  address or port. -/
  otherPrivate : R → R → Bool
  /-- `check_and_set`: whether the value changed, `none` for a `ValueError`. -/
  checkAndSet : R → Attr → Option (R × Bool)
  /-- The attribute is one of `repl_attrs`. -/
  isReplAttr : Attr → Bool
  /-- `find_rule_by_id` reads the counters of the rule it finds. -/
  readsStats : Bool
  /-- `insert_rule` releases the id of a rule that iptables refuses. -/
  releasesRefusedId : Bool
  /-- The rule without its counters, which no iptables command takes. -/
  core : R → R

instance (R : Type) [SvcsRule R] : DecidableEq (SvcsRule.Key R) := SvcsRule.decEqKey

/-- The updates of a rule touch nothing but their own attribute. -/
class LawfulSvcsRule (R : Type) [SvcsRule R] : Prop where
  ruleId_setRuleId (i : ℤ) (r : R) : SvcsRule.ruleId (SvcsRule.setRuleId i r) = some i
  keyAttrs_setRuleId (i : ℤ) (r : R) :
    SvcsRule.keyAttrs (SvcsRule.setRuleId i r) = SvcsRule.keyAttrs r
  loc_setRuleId (i : ℤ) (r : R) : SvcsRule.loc (SvcsRule.setRuleId i r) = SvcsRule.loc r
  needsPrivate_setRuleId (i : ℤ) (r : R) :
    SvcsRule.needsPrivate (SvcsRule.setRuleId i r) = SvcsRule.needsPrivate r
  ruleId_setStats (st : Stats) (r : R) :
    SvcsRule.ruleId (SvcsRule.setStats st r) = SvcsRule.ruleId r
  keyAttrs_setStats (st : Stats) (r : R) :
    SvcsRule.keyAttrs (SvcsRule.setStats st r) = SvcsRule.keyAttrs r
  loc_setStats (st : Stats) (r : R) : SvcsRule.loc (SvcsRule.setStats st r) = SvcsRule.loc r
  seqKey_setStats (st : Stats) (r : R) :
    SvcsRule.seqKey (SvcsRule.setStats st r) = SvcsRule.seqKey r
  core_setStats (st : Stats) (r : R) :
    SvcsRule.core (SvcsRule.setStats st r) = SvcsRule.core r
  seqKey_core (r : R) : SvcsRule.seqKey (SvcsRule.core r) = SvcsRule.seqKey r
  ruleId_setPrivate (p : Private) (r : R) :
    SvcsRule.ruleId (SvcsRule.setPrivate p r) = SvcsRule.ruleId r
  keyAttrs_setPrivate (p : Private) (r : R) :
    SvcsRule.keyAttrs (SvcsRule.setPrivate p r) = SvcsRule.keyAttrs r
  loc_setPrivate (p : Private) (r : R) : SvcsRule.loc (SvcsRule.setPrivate p r) = SvcsRule.loc r
  needsPrivate_setPrivate (p : Private) (r : R) :
    SvcsRule.needsPrivate (SvcsRule.setPrivate p r) = SvcsRule.needsPrivate r
  ruleId_checkAndSet {r r' : R} {attr : SvcsRule.Attr R} {changed : Bool}
    (h : SvcsRule.checkAndSet r attr = some (r', changed)) :
    SvcsRule.ruleId r' = SvcsRule.ruleId r
  eq_of_unchanged {r r' : R} {attr : SvcsRule.Attr R}
    (h : SvcsRule.checkAndSet r attr = some (r', false)) : r' = r
  replAttr_keeps {r r' : R} {attr : SvcsRule.Attr R}
    (h : SvcsRule.checkAndSet r attr = some (r', true)) (hr : SvcsRule.isReplAttr attr = true) :
    SvcsRule.loc r' = SvcsRule.loc r ∧ SvcsRule.seqKey r' = SvcsRule.seqKey r

attribute [simp] LawfulSvcsRule.ruleId_setRuleId LawfulSvcsRule.keyAttrs_setRuleId
  LawfulSvcsRule.loc_setRuleId LawfulSvcsRule.needsPrivate_setRuleId
  LawfulSvcsRule.ruleId_setStats LawfulSvcsRule.keyAttrs_setStats LawfulSvcsRule.loc_setStats
  LawfulSvcsRule.seqKey_setStats LawfulSvcsRule.core_setStats LawfulSvcsRule.ruleId_setPrivate
  LawfulSvcsRule.keyAttrs_setPrivate LawfulSvcsRule.loc_setPrivate
  LawfulSvcsRule.needsPrivate_setPrivate

/-- The assignment of `check_and_set`, made only when the value differs. -/
def assign {R : Type} (r : R) (same : Bool) (r' : R) : Option (R × Bool) :=
  if same then some (r, false) else some (r', true)

/-- An assignment leaves the rule as it is or makes the new one. -/
theorem assign_some {R : Type} {r r' r'' : R} {same changed : Bool}
    (h : assign r same r' = some (r'', changed)) :
    changed = false ∧ r'' = r ∨ changed = true ∧ r'' = r' := by
  rw [assign] at h
  split at h
  · obtain ⟨rfl, rfl⟩ := Prod.mk.inj (Option.some_inj.mp h)
    exact Or.inl ⟨rfl, rfl⟩
  · obtain ⟨rfl, rfl⟩ := Prod.mk.inj (Option.some_inj.mp h)
    exact Or.inr ⟨rfl, rfl⟩

end OpxNasLinux
