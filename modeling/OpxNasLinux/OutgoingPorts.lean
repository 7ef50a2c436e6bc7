import OpxNasLinux.CacheWorld
import OpxNasLinux.OutgoingHandlers

/-!
# The private ports

Every binding of the outgoing cache has a private port, which the VRF tool keeps
in `_outgoing_ip_svcs_map` under the public address and port of the binding.
The port is handed out when the rule is inserted and given back when it is
deleted, but it comes back only if `_veth_ip_get` finds a veth at that time.

* `PortWorld` is the VRF tool with a record of the deletes and of the ports
  that were given back, each with the state it was made in.  `Works` is the
  condition on the record.
* `Ports` ties the map to the bindings, and `Ports.edit` says that every edit
  of the cache keeps it.
* `outgoing_ports` is the result for every interleaving with the creation and
  the deletion of VRFs.
-/

namespace OpxNasLinux

open SvcsRule Run

/-! ## The map and the bindings -/

/-- The map holds the private port of every binding, and nothing else. -/
structure Ports (bound : VrfOutgoingSvcsRule → Prop) (m : Dict Alias ℕ) : Prop where
  port : ∀ r, bound r → ∃ port, m.lookup r.svcAlias = some port ∧ r.privatePort = some (port : ℤ)
  rule : ∀ a ∈ m, ∃ r, bound r ∧ r.svcAlias = a
  once : ∀ r r', bound r → bound r' → r.svcAlias = r'.svcAlias → r = r'
  allocated : Alloc.Allocated 62000 65000 m

section

variable {bound bound' : VrfOutgoingSvcsRule → Prop} {m m' : Dict Alias ℕ}

/-- Bindings go together with their keys. -/
theorem Ports.drop (hp : Ports bound m) (gone : Alias → Prop)
    (hbound : ∀ r, bound' r ↔ bound r ∧ ¬ gone r.svcAlias)
    (hm : ∀ a port, m'.lookup a = some port ↔ ¬ gone a ∧ m.lookup a = some port) :
    Ports bound' m' := by
  refine ⟨?_, ?_, ?_, ?_, ?_⟩
  · intro r hr
    obtain ⟨hr, hstays⟩ := (hbound r).mp hr
    obtain ⟨port, hlookup, hport⟩ := hp.port r hr
    exact ⟨port, (hm _ _).mpr ⟨hstays, hlookup⟩, hport⟩
  · intro a ha
    obtain ⟨port, hport⟩ := Dict.mem_iff.mp ha
    obtain ⟨hstays, hlookup⟩ := (hm a port).mp hport
    obtain ⟨r, hr, rfl⟩ := hp.rule a (Dict.mem_iff.mpr ⟨port, hlookup⟩)
    exact ⟨r, (hbound r).mpr ⟨hr, hstays⟩, rfl⟩
  · exact fun r r' hr hr' => hp.once r r' ((hbound r).mp hr).1 ((hbound r').mp hr').1
  · exact fun a port h => hp.allocated.range a port ((hm a port).mp h).2
  · exact fun a a' port h h' =>
      hp.allocated.inj a a' port ((hm a port).mp h).2 ((hm a' port).mp h').2

/-- Nothing changes. -/
theorem Ports.same (hp : Ports bound m) (hbound : ∀ r, bound' r ↔ bound r)
    (hm : ∀ a port, m'.lookup a = some port ↔ m.lookup a = some port) : Ports bound' m' :=
  hp.drop (fun _ => False) (by simpa using hbound) (by simpa using hm)

/-- The map is the same. -/
theorem Ports.of_eq (hp : Ports bound m) (hbound : ∀ r, bound' r ↔ bound r) (hm : m' = m) :
    Ports bound' m' :=
  hp.same hbound fun a port => by rw [hm]

/-- A binding comes in with the first free port. -/
theorem Ports.add (hp : Ports bound m) {rule : VrfOutgoingSvcsRule} {port : ℕ}
    (hnew : m.lookup rule.svcAlias = none)
    (hfree : Alloc.firstFree 62000 65000 m.values = some port)
    (hport : rule.privatePort = some (port : ℤ)) (hbound : ∀ r, bound' r ↔ r = rule ∨ bound r) :
    Ports bound' (m.insert rule.svcAlias port) := by
  -- no binding has the key yet
  have hother : ∀ r, bound r → r.svcAlias ≠ rule.svcAlias := by
    intro r hr heq
    obtain ⟨port', hlookup, -⟩ := hp.port r hr
    rw [heq, hnew] at hlookup
    cases hlookup
  refine ⟨?_, ?_, ?_, hp.allocated.insert _ hfree⟩
  · intro r hr
    rcases (hbound r).mp hr with rfl | hr
    · exact ⟨port, AList.lookup_insert _, hport⟩
    · obtain ⟨port', hlookup, hport'⟩ := hp.port r hr
      exact ⟨port', Dict.lookup_insert_iff.mpr (Or.inr ⟨hother r hr, hlookup⟩), hport'⟩
  · intro a ha
    rcases Dict.mem_insert_iff.mp ha with rfl | ha
    · exact ⟨rule, (hbound rule).mpr (Or.inl rfl), rfl⟩
    · obtain ⟨r, hr, rfl⟩ := hp.rule a ha
      exact ⟨r, (hbound r).mpr (Or.inr hr), rfl⟩
  · intro r r' hr hr' heq
    rcases (hbound r).mp hr with rfl | hr <;> rcases (hbound r').mp hr' with rfl | hr'
    · rfl
    · exact absurd heq.symm (hother r' hr')
    · exact absurd heq (hother r hr)
    · exact hp.once r r' hr hr' heq

end

/-! ## The calls that take something away -/

/-- The VRF tool, with the rules of the deletes and of the ports given back,
each with the tool at that time. -/
structure PortWorld where
  tool : VrfTool
  deletes : List (VrfOutgoingSvcsRule × VrfTool)
  frees : List (VrfOutgoingSvcsRule × VrfTool)

namespace PortWorld

open VrfTool

/-- The private ports. -/
def ports (w : PortWorld) : Dict Alias ℕ := w.tool.outgoingIpSvcsMap

/-- The delete of a rule raises: its VRF is open, and it lacks an address that
`proc_rule` formats. -/
def DeleteRaises (r : VrfOutgoingSvcsRule) (t : VrfTool) : Prop :=
  (r.vrfName = defaultVrf ∧ r.ruleType ≠ .outIp ∨
      r.vrfName ≠ defaultVrf ∧ (isVrfValid r.vrfName t).1 = true) ∧
    (r.filterRaises = true ∨ r.actionRaises = true)

/-- No delete raises, and a port is given back only when there is a veth. -/
structure Works (w : PortWorld) : Prop where
  deletes : ∀ p ∈ w.deletes, ¬ DeleteRaises p.1 p.2
  frees : ∀ p ∈ w.frees, VethReady p.1.vrfName p.2

/-- The record only grows. -/
structure Grows (w w' : PortWorld) : Prop where
  deletes : ∀ p ∈ w.deletes, p ∈ w'.deletes
  frees : ∀ p ∈ w.frees, p ∈ w'.frees

theorem Works.of_grows {w w' : PortWorld} (hw : w'.Works) (hg : w.Grows w') : w.Works :=
  ⟨fun p hp => hw.deletes p (hg.deletes p hp), fun p hp => hw.frees p (hg.frees p hp)⟩

/-- What the outgoing cache calls, with the record. -/
def portHandlers (iptables : Iptables) : Handlers VrfOutgoingSvcsRule PortWorld where
  procRule op r idx w :=
    ((procRule iptables op r idx w.tool).1,
      { w with
        tool := (procRule iptables op r idx w.tool).2
        deletes := if op = .delete then (r, w.tool) :: w.deletes else w.deletes })
  getStats _ _ w := (.returned none, w)
  subNetInsert r w :=
    (((outgoingHandlers iptables).subNetInsert r w.tool).1,
      { w with tool := ((outgoingHandlers iptables).subNetInsert r w.tool).2 })
  subNetDelete r w :=
    { w with
      tool := (outgoingHandlers iptables).subNetDelete r w.tool
      frees := (r, w.tool) :: w.frees }

variable {iptables : Iptables}

theorem portHandlers_respects (iptables : Iptables) :
    (portHandlers iptables).noReplace.Respects Grows where
  refl _ := ⟨fun _ hp => hp, fun _ hp => hp⟩
  trans _ _ _ h1 h2 :=
    ⟨fun p hp => h2.deletes p (h1.deletes p hp), fun p hp => h2.frees p (h1.frees p hp)⟩
  procRule op r idx w := by
    cases op with
    | insert => exact ⟨fun _ hp => hp, fun _ hp => hp⟩
    | delete => exact ⟨fun _ hp => List.mem_cons_of_mem _ hp, fun _ hp => hp⟩
    | replace => exact ⟨fun _ hp => hp, fun _ hp => hp⟩
  getStats _ _ _ := ⟨fun _ hp => hp, fun _ hp => hp⟩
  subNetInsert _ _ := ⟨fun _ hp => hp, fun _ hp => hp⟩
  subNetDelete _ _ := ⟨fun _ hp => hp, fun _ hp => List.mem_cons_of_mem _ hp⟩

/-- `proc_rule` leaves the private ports alone. -/
theorem procRule_ports {op : IptOp} {r : VrfOutgoingSvcsRule} {idx : Option ℕ} {w w' : PortWorld}
    {out : Outcome Bool} (h : (portHandlers iptables).noReplace.procRule op r idx w = (out, w')) :
    w'.ports = w.ports := by
  obtain rfl := (Prod.mk.inj h).2
  cases op with
  | insert => exact procRule_outgoing iptables .insert r idx w.tool
  | delete => exact procRule_outgoing iptables .delete r idx w.tool
  | replace => rfl

/-- A delete that raises is on record as one. -/
theorem procRule_raised {r : VrfOutgoingSvcsRule} {idx : Option ℕ} {w w' : PortWorld}
    (h : (portHandlers iptables).noReplace.procRule .delete r idx w = (.raised, w')) :
    ¬ w'.Works := by
  intro hw
  obtain ⟨hout, rfl⟩ := Prod.mk.inj h
  refine hw.deletes (r, w.tool) List.mem_cons_self ?_
  have hargs : ∀ u, (procArgs iptables .delete r idx u).1 = .raised →
      ¬ (r.vrfName = defaultVrf ∧ r.ruleType = .outIp) ∧
        (r.filterRaises = true ∨ r.actionRaises = true) := by
    intro u hu
    rw [procArgs] at hu
    split_ifs at hu with h1 h2 h3 h4
    · exact ⟨h1, Or.inl h3⟩
    · exact ⟨h1, Or.inr h4⟩
  change (procRule iptables .delete r idx w.tool).1 = .raised at hout
  rw [procRule] at hout
  split at hout
  · rename_i hvrf
    split at hout
    · cases hout
    · rename_i u heq
      exact ⟨Or.inr ⟨hvrf.2, congrArg Prod.fst heq⟩, (hargs u hout).2⟩
  · rename_i hvrf
    have hdef : r.vrfName = defaultVrf := by
      by_contra hne
      exact hvrf ⟨rfl, hne⟩
    obtain ⟨hnot, hraises⟩ := hargs _ hout
    exact ⟨Or.inl ⟨hdef, fun ht => hnot ⟨hdef, ht⟩⟩, hraises⟩

/-- The port of a binding comes back, and nothing is done for another rule. -/
theorem freed_ports {r : VrfOutgoingSvcsRule} {w : PortWorld}
    (hw : (SvcsRuleCache.freed (portHandlers iptables).noReplace r w).Works) :
    (SvcsRuleCache.freed (portHandlers iptables).noReplace r w).ports =
      if r.ruleType = .outIp then w.ports.erase r.svcAlias else w.ports := by
  by_cases ht : r.ruleType = .outIp
  · have hneed : needsPrivate r = true := decide_eq_true ht
    rw [SvcsRuleCache.freed, if_pos hneed] at hw ⊢
    have hready := hw.frees (r, w.tool) List.mem_cons_self
    rw [if_pos ht]
    change ((outgoingHandlers iptables).subNetDelete r w.tool).outgoingIpSvcsMap = _
    rw [outgoingHandlers]
    dsimp only
    rw [if_pos ht]
    exact subNetConfig_delete hready
  · have hneed : ¬ needsPrivate r = true := by simpa [needsPrivate] using ht
    rw [SvcsRuleCache.freed, if_neg hneed, if_neg ht]

/-- A rule that is prepared is no binding, or it has the first free port. -/
theorem prepared_ports {g g' : IdGenerator} {w w' : PortWorld} {rule rule' : VrfOutgoingSvcsRule}
    (hp : SvcsRuleCache.Prepared (portHandlers iptables).noReplace g w rule rule' g' w') :
    rule'.ruleType ≠ .outIp ∧ w'.ports = w.ports ∨
      rule'.ruleType = .outIp ∧ ∃ port : ℕ, rule'.privatePort = some (port : ℤ) ∧
        w.ports.lookup rule'.svcAlias = none ∧
        Alloc.firstFree 62000 65000 w.ports.values = some port ∧
        w'.ports = w.ports.insert rule'.svcAlias port := by
  cases hp with
  | plain hid hneed => exact Or.inl ⟨of_decide_eq_false hneed, rfl⟩
  | @ported i _ p _ hid hneed hsub =>
    have ht : rule.ruleType = .outIp := of_decide_eq_true hneed
    have hcall : (outgoingHandlers iptables).subNetInsert (setRuleId i rule) w.tool =
        processOutgoingIpSvcsSubNetConfig true (setRuleId i rule).svcAlias w.tool := if_pos ht
    obtain ⟨hadd, rfl⟩ := Prod.mk.inj hsub
    rw [hcall] at hadd
    obtain ⟨hnew, hfree, hmap⟩ := subNetConfig_add (Prod.ext hadd rfl)
    refine Or.inr ⟨ht, p.port, rfl, hnew, hfree, ?_⟩
    rw [← hcall] at hmap
    exact hmap

/-- A rule that gets no port leaves the ports as they are. -/
theorem subNetInsert_none {r : VrfOutgoingSvcsRule} {w w' : PortWorld}
    (h : (portHandlers iptables).noReplace.subNetInsert r w = (none, w')) : w'.ports = w.ports := by
  obtain ⟨hadd, rfl⟩ := Prod.mk.inj h
  rw [outgoingHandlers] at hadd
  dsimp only at hadd
  change ((outgoingHandlers iptables).subNetInsert r w.tool).2.outgoingIpSvcsMap = _
  rw [outgoingHandlers]
  dsimp only
  split_ifs at hadd ⊢
  · exact subNetConfig_refused (Prod.ext hadd rfl)
  · rfl

end PortWorld

/-! ## The bindings of a cache -/

namespace SvcsRuleCache

/-- A binding that the cache stores. -/
def Binding {W : Type} (s : VrfOutgoingSvcsRuleCache W) (r : VrfOutgoingSvcsRule) : Prop :=
  r.ruleType = .outIp ∧ r ∈ s.stored r.loc

section

variable {W : Type} {s s' : VrfOutgoingSvcsRuleCache W} {lc : Loc}
  {l : SvcsRuleList VrfOutgoingSvcsRule} {rule r : VrfOutgoingSvcsRule}

/-- A stored rule of the type is a binding. -/
theorem Sound.binding_iff (hs : s.Sound) :
    s.Binding r ↔ r.ruleType = .outIp ∧ ∃ lc, r ∈ s.stored lc := by
  refine and_congr_right fun _ => ⟨fun hr => ⟨r.loc, hr⟩, ?_⟩
  rintro ⟨lc, hr⟩
  have hlc : r.loc = lc := hs.placed lc r hr
  rwa [hlc]

/-- The bindings after the list at one place has been set. -/
theorem binding_setList (hrules : s'.rules = s.rules.insert lc l) :
    s'.Binding r ↔ r.ruleType = .outIp ∧
      (r.loc = lc ∧ r ∈ l.rules ∨ r.loc ≠ lc ∧ r ∈ s.stored r.loc) := by
  have hstored : ∀ lc', s'.stored lc' = (s.setList lc l).stored lc' := by
    intro lc'
    rw [stored, stored, listAt, hrules]
    rfl
  refine and_congr_right fun _ => ?_
  rw [hstored]
  by_cases hlc : r.loc = lc
  · rw [hlc, stored_setList_self]
    simp
  · rw [stored_setList_ne s l hlc]
    simp [hlc]

/-- A list that keeps its rules. -/
theorem binding_same (hrules : s'.rules = s.rules.insert lc l)
    (hl : ∀ r, r ∈ l.rules ↔ r ∈ s.stored lc) : s'.Binding r ↔ s.Binding r := by
  rw [binding_setList hrules, hl]
  refine and_congr_right fun _ => ?_
  by_cases hlc : r.loc = lc
  · subst hlc
    simp
  · simp [hlc]

/-- A list that gains a rule. -/
theorem binding_insert (hrules : s'.rules = s.rules.insert rule.loc l)
    (hl : ∀ r, r ∈ l.rules ↔ r = rule ∨ r ∈ s.stored rule.loc) :
    s'.Binding r ↔ r = rule ∧ rule.ruleType = .outIp ∨ s.Binding r := by
  rw [binding_setList hrules, hl, Binding]
  by_cases hr : r = rule
  · subst hr
    simp
    tauto
  · by_cases hlc : r.loc = rule.loc
    · rw [hlc]
      simp [hr]
    · simp [hlc, hr]

/-- A list that loses a rule. -/
theorem binding_remove (hrules : s'.rules = s.rules.insert rule.loc l)
    (hl : ∀ r, r ∈ l.rules ↔ r ∈ s.stored rule.loc ∧ r ≠ rule) :
    s'.Binding r ↔ s.Binding r ∧ r ≠ rule := by
  rw [binding_setList hrules, hl, Binding]
  by_cases hr : r = rule
  · subst hr
    simp
  · by_cases hlc : r.loc = rule.loc
    · rw [hlc]
      simp [hr]
    · simp [hlc, hr]

/-- A list that is dropped. -/
theorem binding_dropList (hrules : s'.rules = s.rules.erase lc) :
    s'.Binding r ↔ s.Binding r ∧ r.loc ≠ lc := by
  have hstored : ∀ lc', s'.stored lc' = (s.dropList lc).stored lc' := by
    intro lc'
    rw [stored, stored, listAt, hrules]
    rfl
  rw [Binding, Binding, hstored]
  by_cases hlc : r.loc = lc
  · rw [hlc, stored, listAt_dropList_self]
    simp [SvcsRuleList.empty]
  · rw [stored, listAt_dropList_ne s hlc]
    simp [hlc, stored]

/-- In a sound cache a removal takes one rule out. -/
theorem Sound.mem_removeAt (hs : s.Sound) {idx : ℕ} (hdel : (s.stored lc)[idx]? = some rule) :
    r ∈ ((s.listAt lc).removeAt idx (ruleId rule)).rules ↔ r ∈ s.stored lc ∧ r ≠ rule := by
  have hperm : (rule :: ((s.listAt lc).removeAt idx (ruleId rule)).rules).Perm (s.stored lc) :=
    SvcsRuleList.perm_removeAt hdel _
  have hnodup : (s.stored lc).Nodup := List.Nodup.of_map ruleId (hs.aligned lc).ids_nodup
  rw [← hperm.nodup_iff, List.nodup_cons] at hnodup
  rw [← hperm.mem_iff, List.mem_cons]
  constructor
  · intro hr
    exact ⟨Or.inr hr, fun heq => hnodup.1 (heq ▸ hr)⟩
  · rintro ⟨rfl | hr, hne⟩
    · exact absurd rfl hne
    · exact hr

end

end SvcsRuleCache

/-! ## The edits keep the ports -/

open SvcsRuleCache PortWorld

variable {iptables : VrfTool.Iptables}

/-- A rule that is prepared and given up again leaves the ports as they
were. -/
theorem given_up_ports {g g' : IdGenerator} {w w1 w2 : PortWorld}
    {rule rule' : VrfOutgoingSvcsRule}
    (hprep : Prepared (portHandlers iptables).noReplace g w rule rule' g' w1)
    (hsame : w2.ports = w1.ports) (hw : (freed (portHandlers iptables).noReplace rule' w2).Works)
    (a : Alias) (port : ℕ) :
    (freed (portHandlers iptables).noReplace rule' w2).ports.lookup a = some port ↔
      w.ports.lookup a = some port := by
  rw [freed_ports hw, hsame]
  rcases prepared_ports hprep with ⟨ht, hports⟩ | ⟨ht, port', -, hnew, -, hports⟩
  · rw [if_neg ht, hports]
  · rw [if_pos ht, hports]
    exact Dict.lookup_erase_insert_iff hnew

/-- As long as the calls work, every edit keeps the ports and the bindings in
step. -/
theorem Ports.edit {s s' : VrfOutgoingSvcsRuleCache PortWorld} (hs : s.Sound)
    (hp : Ports s.Binding s.world.ports) (he : Edit (portHandlers iptables).noReplace s s')
    (hw : s'.world.Works) : Ports s'.Binding s'.world.ports := by
  cases he with
  | mutex n => exact hp
  | openList lc hlc =>
    refine hp.of_eq (fun r => binding_same rfl fun r => ?_) rfl
    rw [stored, listAt_of_notMem hlc]
  | closeList lc hlc =>
    refine hp.of_eq (fun r => (binding_dropList rfl).trans ?_) rfl
    refine and_iff_left_of_imp fun hr heq => ?_
    have hmem : r ∈ s.stored lc := heq ▸ hr.2
    rw [hlc] at hmem
    exact absurd hmem List.not_mem_nil
  | readStats lc hrule hget => cases (Prod.mk.inj hget).1
  | readNothing rule idx => exact hp
  | insertUnported hid hneed hsub =>
    exact hp.of_eq (fun _ => Iff.rfl) (subNetInsert_none hsub)
  | insertMatched hprep => exact hp.same (fun _ => Iff.rfl) (given_up_ports hprep rfl hw)
  | insertRefused hprep hidx hid hkey hproc =>
    refine hp.same (fun r => binding_same rfl fun r => ?_)
      (given_up_ports hprep (procRule_ports hproc) hw)
    rw [SvcsRuleList.removeAt_insertAt_rules, stored]
  | @inserted rule rule' g w w' idx out hprep hidx hid hkey hproc hout =>
    have hlen : idx ≤ (s.listAt rule'.loc).rules.length := by
      have hle := hidx.le_length
      rwa [(hs.aligned _).seqNums, List.length_map] at hle
    have hbound : ∀ r, Binding (((s.setList rule'.loc
        ((s.listAt rule'.loc).insertAt idx rule')).setWorld w').setIds g) r ↔
          r = rule' ∧ rule'.ruleType = .outIp ∨ s.Binding r :=
      fun r => binding_insert rfl fun r => List.mem_insertIdx hlen
    have hports : w'.ports = w.ports := procRule_ports hproc
    rcases prepared_ports hprep with ⟨ht, hsame⟩ | ⟨ht, port, hport, hnew, hfree, hadd⟩
    · exact hp.of_eq (fun r => (hbound r).trans (by simp [ht])) (hports.trans hsame)
    · change Ports _ w'.ports
      rw [hports, hadd]
      exact hp.add hnew hfree hport fun r => (hbound r).trans (by simp [ht])
  | @deleted lc idx del w hdel hproc =>
    obtain rfl : del.loc = lc := hs.placed lc del (List.mem_of_getElem? hdel)
    have hbound : ∀ r, Binding (((s.setList del.loc
        ((s.listAt del.loc).removeAt idx (ruleId del))).setWorld
          (freed (portHandlers iptables).noReplace del w)).setIds
            (dropId (ruleId del) s.idGenerator)) r ↔ s.Binding r ∧ r ≠ del :=
      fun r => binding_remove rfl fun r => hs.mem_removeAt hdel
    have hports := freed_ports hw
    rw [procRule_ports hproc] at hports
    by_cases ht : del.ruleType = .outIp
    · rw [if_pos ht] at hports
      have hmem : s.Binding del := ⟨ht, List.mem_of_getElem? hdel⟩
      refine hp.drop (fun a => a = del.svcAlias) (fun r => (hbound r).trans ?_) fun a port => ?_
      · refine and_congr_right fun hr => not_congr ⟨fun heq => heq ▸ rfl, ?_⟩
        exact fun heq => hp.once r del hr hmem heq
      · change (freed (portHandlers iptables).noReplace del w).ports.lookup a = some port ↔ _
        rw [hports]
        exact Dict.lookup_erase_iff
    · rw [if_neg ht] at hports
      refine hp.of_eq (fun r => (hbound r).trans ?_) hports
      exact and_iff_left_of_imp fun hr heq => ht (heq ▸ hr.1)
  | @deleteRefused lc idx del w l hdel hl hproc =>
    subst hl
    have hl' := SvcsRuleList.aligned_removeAt (hs.aligned lc) hdel
    refine hp.of_eq (fun r => binding_same rfl fun r => ?_) (procRule_ports hproc)
    exact (SvcsRuleList.reinsert_perm (hs.aligned lc) hdel
      (Bisect.bisectRight_isRightPoint hl'.sorted _)).mem_iff
  | deleteRaised hdel hproc => exact absurd hw (procRule_raised hproc)
  | replaced hold hloc hid hseq hkey hproc => cases (Prod.mk.inj hproc).1
  | @replaceRefused new idx out w hproc hout =>
    exact hp.of_eq (fun _ => Iff.rfl) (procRule_ports hproc)

/-- The key of a binding tells the list it is in. -/
theorem loc_of_svcAlias {r r' : VrfOutgoingSvcsRule} (ht : r.ruleType = .outIp)
    (ht' : r'.ruleType = .outIp) (h : r.svcAlias = r'.svcAlias) : r.loc = r'.loc := by
  rw [VrfOutgoingSvcsRule.loc, VrfOutgoingSvcsRule.loc, if_pos ht, if_pos ht',
    show r.af = r'.af from congrArg Alias.af h,
    show r.vrfName = r'.vrfName from congrArg Alias.vrfName h]

/-- What `clear_all_rules` does to the ports when it gets through a list. -/
theorem clearRules_ports {rules : List VrfOutgoingSvcsRule} {g g' : IdGenerator}
    {w w' : PortWorld}
    (hclear : clearRules (portHandlers iptables).noReplace rules g w = (.returned (), g', w'))
    (hw : w'.Works) (a : Alias) (port : ℕ) :
    w'.ports.lookup a = some port ↔
      ¬ (∃ r ∈ rules, r.ruleType = .outIp ∧ r.svcAlias = a) ∧ w.ports.lookup a = some port := by
  induction rules generalizing g w with
  | nil =>
    obtain ⟨-, rfl⟩ : g = g' ∧ w = w' := by simpa [clearRules] using hclear
    simp
  | cons rule rest ih =>
    rw [clearRules] at hclear
    split at hclear
    · cases (Prod.mk.inj hclear).1
    · rename_i b w1 hproc
      have hrest := clearRules_respects (portHandlers_respects iptables) rest
        (dropId (ruleId rule) g) (freed (portHandlers iptables).noReplace rule w1)
      rw [hclear] at hrest
      rw [ih hclear, freed_ports (hw.of_grows hrest), procRule_ports hproc]
      split
      · rename_i ht
        rw [Dict.lookup_erase_iff]
        simp only [List.mem_cons, exists_eq_or_imp, ht, true_and, not_or]
        tauto
      · rename_i ht
        simp only [List.mem_cons, exists_eq_or_imp, ht, false_and, false_or]

/-- As long as the calls work, a list that is cleared keeps the ports and the
bindings in step. -/
theorem Ports.clear {s s' : VrfOutgoingSvcsRuleCache PortWorld} (hs : s.Sound)
    (hp : Ports s.Binding s.world.ports) (hc : Clear (portHandlers iptables).noReplace s s')
    (hw : s'.world.Works) : Ports s'.Binding s'.world.ports := by
  obtain ⟨hclear⟩ := hc
  rename_i lc g w
  refine hp.drop (fun a => ∃ r ∈ s.stored lc, r.ruleType = .outIp ∧ r.svcAlias = a)
    (fun r => (binding_dropList rfl).trans ?_) (clearRules_ports hclear hw)
  refine and_congr_right fun hr => not_congr ⟨?_, ?_⟩
  · rintro rfl
    exact ⟨r, hr.2, hr.1, rfl⟩
  · rintro ⟨r', hr', ht', heq⟩
    rw [← loc_of_svcAlias ht' hr.1 heq]
    exact hs.placed lc r' hr'

/-- When the calls work, `clear_all_rules` gets through. -/
theorem clearAllRules_works {ord : DictOrder} {fltVrf : Option Str} {fltAf : Option Af}
    {s : VrfOutgoingSvcsRuleCache PortWorld}
    (hw : (clearAllRules (portHandlers iptables).noReplace ord fltVrf fltAf s).2.world.Works) :
    hasRaised (clearAllRules (portHandlers iptables).noReplace ord fltVrf fltAf s).1 = false :=
  clearAllRules_returns (fun _ _ _ hproc => procRule_raised hproc) (not_not.mpr hw)

/-! ## Runs -/

namespace PortWorld

/-- A call of the outgoing cache other than `update_rule`, or the creation or
the deletion of a VRF. -/
inductive Request where
  | svcs (q : SvcsRuleCache.Request VrfOutgoingSvcsRule) (hq : q.ReplacesNothing)
  | vrfConfig (isAdd : Bool) (vrf : Str) (id : ℕ)

/-- The cache and the VRF tool when the daemon starts. -/
def start (env : Env) : VrfOutgoingSvcsRuleCache PortWorld := init ⟨.init env, [], []⟩

/-- The state after a call. -/
def step (iptables : VrfTool.Iptables) (s : VrfOutgoingSvcsRuleCache PortWorld) :
    Request → VrfOutgoingSvcsRuleCache PortWorld
  | .svcs q _ => SvcsRuleCache.step (portHandlers iptables) s q
  | .vrfConfig isAdd vrf id =>
    s.setWorld { s.world with tool := (VrfTool.processVrfConfig isAdd vrf id s.world.tool).2 }

/-- The cache is sound, and the ports and the bindings are in step. -/
def InStep (s : VrfOutgoingSvcsRuleCache PortWorld) : Prop :=
  s.Sound ∧ Ports s.Binding s.world.ports

/-- What a call of the cache keeps. -/
theorem svcs_inStep {s : VrfOutgoingSvcsRuleCache PortWorld}
    {q : SvcsRuleCache.Request VrfOutgoingSvcsRule} (hq : q.ReplacesNothing)
    (hs : s.world.Works → InStep s)
    (hw : (SvcsRuleCache.step (portHandlers iptables) s q).world.Works) :
    InStep (SvcsRuleCache.step (portHandlers iptables) s q) := by
  have hsame : SvcsRuleCache.step (portHandlers iptables) s q =
      SvcsRuleCache.step (portHandlers iptables).noReplace s q :=
    congrArg Prod.snd (exec_noReplace (portHandlers iptables) s hq).symm
  rw [hsame] at hw ⊢
  have hgrows := step_respects (portHandlers_respects iptables) s q
  obtain ⟨hsound, hports⟩ := hs (hw.of_grows hgrows)
  have hsteps : Changes (portHandlers iptables).noReplace s
      (SvcsRuleCache.step (portHandlers iptables).noReplace s q) := by
    refine exec_changes hsound ?_
    cases q with
    | clearAllRules ord fltVrf fltAf => exact Or.inr (clearAllRules_works hw)
    | insertRule rule => exact Or.inl trivial
    | deleteRule rule => exact Or.inl trivial
    | deleteRuleById ord id => exact Or.inl trivial
    | updateRule ord id params => exact hq.elim
  have hchange : ∀ t t' : VrfOutgoingSvcsRuleCache PortWorld, t.Sound →
      (t.world.Works → Ports t.Binding t.world.ports) →
      Edit (portHandlers iptables).noReplace t t' ∨ Clear (portHandlers iptables).noReplace t t' →
      t'.world.Works → Ports t'.Binding t'.world.ports := by
    rintro t t' ht hp (he | hc) hw'
    · exact (hp (hw'.of_grows (he.respects (portHandlers_respects iptables)))).edit ht he hw'
    · exact (hp (hw'.of_grows (hc.respects (portHandlers_respects iptables)))).clear ht hc hw'
  exact ⟨hsound.changes hsteps, hsteps.keeps hchange hsound (fun _ => hports) hw⟩

/-- What any call keeps. -/
theorem step_inStep (s : VrfOutgoingSvcsRuleCache PortWorld) (q : Request)
    (hs : s.world.Works → InStep s) (hw : (step iptables s q).world.Works) :
    InStep (step iptables s q) := by
  cases q with
  | svcs q hq => exact svcs_inStep hq hs hw
  | vrfConfig isAdd vrf id =>
    obtain ⟨hsound, hports⟩ := hs ⟨hw.deletes, hw.frees⟩
    refine ⟨hsound.setIds s.mutex _ (fun _ hi => hi) hsound.gen, ?_⟩
    exact hports.of_eq (fun _ => Iff.rfl) (VrfTool.processVrfConfig_outgoing isAdd vrf id _)

/-- The keys of the map are those of the stored bindings, each with the private
port of its rule, and no two bindings share a port. -/
structure PortsMatch (s : VrfOutgoingSvcsRuleCache PortWorld) : Prop where
  keys : ∀ a, a ∈ s.world.tool.outgoingIpSvcsMap ↔
    ∃ lc, ∃ r ∈ s.stored lc, r.ruleType = .outIp ∧ r.svcAlias = a
  value : ∀ lc, ∀ r ∈ s.stored lc, r.ruleType = .outIp →
    ∃ port : ℕ, s.world.tool.outgoingIpSvcsMap.lookup r.svcAlias = some port ∧
      r.privatePort = some (port : ℤ)
  distinct : ∀ a a' port, s.world.tool.outgoingIpSvcsMap.lookup a = some port →
    s.world.tool.outgoingIpSvcsMap.lookup a' = some port → a = a'
  range : ∀ a port, s.world.tool.outgoingIpSvcsMap.lookup a = some port →
    62000 ≤ port ∧ port < 65000

/-- After any run in which no delete raises and every port is given back while
there is a veth, the map holds the ports of the stored bindings. -/
theorem outgoing_ports (iptables : VrfTool.Iptables) (env : Env) (requests : List Request)
    (hw : (run (step iptables) (start env) requests).world.Works) :
    PortsMatch (run (step iptables) (start env) requests) := by
  have hstart : InStep (start env) := by
    refine ⟨sound_init _, ?_, ?_, ?_, Alloc.allocated_empty _ _⟩
    · exact fun r hr => absurd hr.2 List.not_mem_nil
    · exact fun a ha => absurd ha (AList.notMem_empty a)
    · exact fun r r' hr => absurd hr.2 List.not_mem_nil
  have hrun : (run (step iptables) (start env) requests).world.Works →
      InStep (run (step iptables) (start env) requests) :=
    @run_invariant _ _ (step iptables) (fun s => s.world.Works → InStep s) step_inStep (start env)
      requests fun _ => hstart
  obtain ⟨hsound, hports⟩ := hrun hw
  generalize run (step iptables) (start env) requests = s at hsound hports
  refine ⟨fun a => ⟨fun ha => ?_, ?_⟩, ?_, hports.allocated.inj, hports.allocated.range⟩
  · obtain ⟨r, hr, rfl⟩ := hports.rule a ha
    exact ⟨r.loc, r, hr.2, hr.1, rfl⟩
  · rintro ⟨lc, r, hr, ht, rfl⟩
    obtain ⟨port, hlookup, -⟩ := hports.port r (hsound.binding_iff.mpr ⟨ht, lc, hr⟩)
    exact Dict.mem_iff.mpr ⟨port, hlookup⟩
  · exact fun lc r hr ht => hports.port r (hsound.binding_iff.mpr ⟨ht, lc, hr⟩)

/-- `iptables` commands that succeed and leave the host as it is. -/
def answerYes : VrfTool.Iptables := fun _ _ _ h => (true, h)

theorem outgoing_ports_small :
    PortsMatch (run (step answerYes) (start .willing)
      [.vrfConfig true "blue".toList 1, .svcs (.insertRule (bindPort 22)) trivial,
        .svcs (.insertRule (bindPort 80)) trivial,
        .svcs (.deleteRuleById listOrder 1) trivial]) :=
  outgoing_ports answerYes .willing _
    ⟨by unfold DeleteRaises; decide +kernel, by decide +kernel⟩

/-- A VRF is deleted before its binding.  The delete of the binding finds no
veth, and the port stays taken. -/
theorem deleted_vrf_keeps_port :
    ¬ PortsMatch (run (step answerYes) (start .willing)
      [.vrfConfig true "blue".toList 1, .svcs (.insertRule (bindPort 22)) trivial,
        .vrfConfig false "blue".toList 1, .svcs (.deleteRule (bindPort 22)) trivial]) := by
  have hempty : ∀ s : VrfOutgoingSvcsRuleCache PortWorld, s.rules.keys = [] ∧
      (bindPort 22).svcAlias ∈ s.world.tool.outgoingIpSvcsMap → ¬ PortsMatch s := by
    rintro s ⟨hnone, hkey⟩ h
    obtain ⟨lc, r, hr, -⟩ := (h.keys _).mp hkey
    have hmem : lc ∈ s.rules.keys := AList.mem_keys.mp (mem_rules_of_mem_stored hr)
    rw [hnone] at hmem
    exact absurd hmem List.not_mem_nil
  exact hempty _ (by decide +kernel)

end PortWorld

end OpxNasLinux
