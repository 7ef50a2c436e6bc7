import OpxNasLinux.IptablesListing

/-!
# The columns of a rule

* The columns of a rule, one lemma for each of them.
* What a search for each pattern finds in the option column.
* What the parser makes of the target, the protocol and the interface, as a
  condition on one attribute.
-/

namespace OpxNasLinux

open Search

theorem findSome?_toList {α β : Type} (o : Option α) (g : α → Option β) :
    o.toList.findSome? g = o.bind g := by
  cases o with
  | none => rfl
  | some a => cases h : g a <;> simp [h]

theorem filterMap_toList {α β : Type} (o : Option α) (g : α → Option β) :
    o.toList.filterMap g = (o.bind g).toList := by
  cases o with
  | none => rfl
  | some a => cases h : g a <;> simp [h]

namespace VrfIncomingSvcsRule

/-! ## Columns -/

/-- The interface argument. -/
def inIntfArg (r : VrfIncomingSvcsRule) : Option (Bool × Str) :=
  if r.ruleType = .ip then
    if r.vrfName = defaultVrf then
      match r.inIntf with
      | some name => some (false, name)
      | none => some (true, "vdst-nsid+".toList)
    else none
  else r.inIntf.map fun name => (decide (r.negative = some true), name)

theorem inIntfArgs_eq (r : VrfIncomingSvcsRule) :
    r.inIntfArgs = (r.inIntfArg.map fun i => FltArg.inIntf i.1 i.2).toList := by
  rw [inIntfArgs, inIntfArg]
  split_ifs
  · cases r.inIntf with
    | none => rfl
    | some name => rfl
  · rfl
  · cases r.inIntf with
    | none => rfl
    | some name => rfl

/-- A column is that of the one segment of the arguments. -/
theorem findSome?_fltArgs {β : Type} (g : FltArg → Option β) (r : VrfIncomingSvcsRule) :
    r.fltArgs.findSome? g =
      ((((((r.srcIp.bind fun ip => g (.src ip r.srcPrefixLen)).or
        (r.protocol.bind fun p => g (.proto (getProtoName p)))).or
        (r.dstPort.bind fun n => g (.dport n))).or
        (if r.ruleType = .acl then r.lowDstPort.bind fun low => g (.dports low r.highDstPort)
          else none)).or
        (r.dstArgs.findSome? g)).or
        (r.inIntfArg.bind fun i => g (.inIntf i.1 i.2))).or
        (r.targetArgs.findSome? g) := by
  rw [fltArgs, inIntfArgs_eq]
  simp only [List.findSome?_append, findSome?_toList, Option.bind_map]
  split_ifs
  · simp only [findSome?_toList, Option.bind_map]
    rfl
  · rfl

/-- What is asked of the other arguments finds nothing in the target. -/
theorem targetArgs_findSome? {β : Type} (g : FltArg → Option β) (r : VrfIncomingSvcsRule)
    (hj : ∀ name, g (.jump name) = none) (hd : ∀ ip, g (.toDestination ip) = none)
    (hm : ∀ mark, g (.setMark mark) = none) : r.targetArgs.findSome? g = none := by
  rw [targetArgs]
  split <;> simp [hj, hd, hm]

theorem dstArgs_findSome? {β : Type} (g : FltArg → Option β) (r : VrfIncomingSvcsRule) :
    r.dstArgs.findSome? g = if r.ruleType = .acl ∨ r.vrfName = defaultVrf ∧ r.ruleType = .ip then
      r.dstIp.bind fun ip => g (.dst ip r.dstPrefixLen) else none := by
  rw [dstArgs]
  split_ifs
  · rw [findSome?_toList, Option.bind_map]
    rfl
  · rfl

theorem target_column (r : VrfIncomingSvcsRule) :
    r.fltArgs.findSome? FltArg.target = some r.targetName := by
  have htarget : r.targetArgs.findSome? FltArg.target = some r.targetName := rfl
  rw [findSome?_fltArgs, dstArgs_findSome?, htarget]
  simp [FltArg.target]

theorem protocol_column (r : VrfIncomingSvcsRule) :
    r.fltArgs.findSome? FltArg.protocol =
      r.protocol.bind fun p => FltArg.protocol (.proto (getProtoName p)) := by
  rw [findSome?_fltArgs, dstArgs_findSome?, targetArgs_findSome? _ _ (fun _ => rfl) (fun _ => rfl)
    fun _ => rfl]
  simp [FltArg.protocol]

theorem interface_column (r : VrfIncomingSvcsRule) :
    r.fltArgs.findSome? FltArg.interface =
      r.inIntfArg.map fun i => if i.1 then '!' :: i.2 else i.2 := by
  rw [findSome?_fltArgs, dstArgs_findSome?, targetArgs_findSome? _ _ (fun _ => rfl) (fun _ => rfl)
    fun _ => rfl]
  simp [FltArg.interface, Option.map_eq_bind]

theorem source_column (inet : InetText) (r : VrfIncomingSvcsRule) :
    r.fltArgs.findSome? (FltArg.source inet r.af) =
      r.srcIp.map fun ip => FltArg.addressColumn inet r.af ip r.srcPrefixLen := by
  rw [findSome?_fltArgs, dstArgs_findSome?, targetArgs_findSome? _ _ (fun _ => rfl) (fun _ => rfl)
    fun _ => rfl]
  simp [FltArg.source, Option.map_eq_bind]

theorem destination_column (inet : InetText) {r : VrfIncomingSvcsRule} (h : r.ruleType = .acl) :
    r.fltArgs.findSome? (FltArg.destination inet r.af) =
      r.dstIp.map fun ip => FltArg.addressColumn inet r.af ip r.dstPrefixLen := by
  rw [findSome?_fltArgs, dstArgs_findSome?, targetArgs_findSome? _ _ (fun _ => rfl) (fun _ => rfl)
    fun _ => rfl]
  simp [FltArg.destination, h, Option.map_eq_bind]

/-- What the option column has of the target. -/
def targetOptions (inet : InetText) (r : VrfIncomingSvcsRule) : List Str :=
  match r.action with
  | .dnat => ["to:".toList ++ inet.ntop r.af (r.dstIp.getD [])]
  | .reject => ["MARK set 0xff".toList]
  | _ => []

/-- The texts of the option column. -/
def options (inet : InetText) (r : VrfIncomingSvcsRule) : List Str :=
  (r.dstPort.map fun n => "dpt:".toList ++ intStr n).toList ++
    (if r.ruleType = .acl then
      (r.lowDstPort.map fun low =>
        "multiport dports ".toList ++ (intStr low ++ ':' :: FltArg.portText r.highDstPort)).toList
      else []) ++
    r.targetOptions inet

theorem option_column (inet : InetText) (r : VrfIncomingSvcsRule) :
    r.fltArgs.filterMap (FltArg.option inet r.af) = r.options inet := by
  have hdst : r.dstArgs.filterMap (FltArg.option inet r.af) = [] := by
    rw [dstArgs]
    split_ifs
    · simp [filterMap_toList, FltArg.option]
    · rfl
  have hintf : r.inIntfArgs.filterMap (FltArg.option inet r.af) = [] := by
    rw [inIntfArgs_eq, filterMap_toList, Option.bind_map]
    simp [FltArg.option, Function.comp_def]
  have htarget : r.targetArgs.filterMap (FltArg.option inet r.af) = r.targetOptions inet := by
    rw [targetArgs, targetOptions]
    cases r.action <;> rfl
  have hsrc : (r.srcIp.map fun ip => FltArg.src ip r.srcPrefixLen).toList.filterMap
      (FltArg.option inet r.af) = [] := by
    cases r.srcIp <;> rfl
  have hproto : (r.protocol.map fun p => FltArg.proto (getProtoName p)).toList.filterMap
      (FltArg.option inet r.af) = [] := by
    cases r.protocol <;> rfl
  have hdport : (r.dstPort.map FltArg.dport).toList.filterMap (FltArg.option inet r.af) =
      (r.dstPort.map fun n => "dpt:".toList ++ intStr n).toList := by
    cases r.dstPort <;> rfl
  have hdports : (r.lowDstPort.map fun low =>
        FltArg.dports low r.highDstPort).toList.filterMap (FltArg.option inet r.af) =
      (r.lowDstPort.map fun low => "multiport dports ".toList ++
        (intStr low ++ ':' :: FltArg.portText r.highDstPort)).toList := by
    cases r.lowDstPort <;> rfl
  rw [fltArgs, options]
  simp only [List.filterMap_append, hsrc, hproto, hdport, hdst, hintf, htarget, List.nil_append,
    List.append_nil]
  split_ifs
  · rw [hdports]
  · rw [List.filterMap_nil]

end VrfIncomingSvcsRule

namespace IptablesHandler

/-! ## Ports -/

/-- A port is read back from its digits. -/
theorem getL4PortNum_intStr_iff (services : Str → Option ℕ) (n : ℤ) :
    getL4PortNum services (intStr n) = some n ↔ 0 ≤ n := by
  rw [getL4PortNum]
  constructor
  · intro h
    by_contra hn
    have htext : intStr n = '-' :: str n.natAbs := if_pos (lt_of_not_ge hn)
    have hdigits : ¬ isDigits (intStr n) = true := by
      rw [htext]
      simp [isDigits]
    rw [if_neg hdigits] at h
    cases hs : services (intStr n) with
    | none =>
      rw [hs] at h
      cases h
    | some m =>
      rw [hs] at h
      have hm : (m : ℤ) = n := Option.some_inj.mp h
      omega
  · intro hn
    have htext : intStr n = str n.natAbs := if_neg (not_lt.mpr hn)
    have hdigits : isDigits (str n.natAbs) = true := by
      rw [isDigits, Bool.and_eq_true, List.all_eq_true]
      refine ⟨?_, fun c hc => Nat.isDigit_of_mem_toDigits (by decide) (by decide) hc⟩
      rw [Bool.not_eq_true', List.isEmpty_eq_false_iff]
      exact Nat.toDigits_ne_nil
    rw [htext, if_pos hdigits, str, Nat.ofDigitChars_ten_toDigits]
    exact congrArg some (Int.natAbs_of_nonneg hn)

end IptablesHandler

namespace VrfIncomingSvcsRule

/-! ## The option column -/

section

variable {inet : InetText} {r : VrfIncomingSvcsRule}

/-- The text of a port range. -/
theorem mem_dports {t : Str} (h : t ∈ if r.ruleType = .acl then
      (r.lowDstPort.map fun low =>
        "multiport dports ".toList ++ (intStr low ++ ':' :: FltArg.portText r.highDstPort)).toList
      else []) :
    ∃ a b, Plain a ∧ Plain b ∧ t = "multiport dports ".toList ++ (a ++ ':' :: b) := by
  split_ifs at h
  · obtain ⟨low, -, rfl⟩ := Option.map_eq_some_iff.mp (Option.mem_toList.mp h)
    exact ⟨_, _, plain_intStr low, plain_portText _, rfl⟩
  · cases h

theorem mem_dport {t : Str} (h : t ∈ (r.dstPort.map fun n => "dpt:".toList ++ intStr n).toList) :
    ∃ a, Plain a ∧ t = "dpt:".toList ++ a := by
  obtain ⟨n, -, rfl⟩ := Option.map_eq_some_iff.mp (Option.mem_toList.mp h)
  exact ⟨_, plain_intStr n, rfl⟩

theorem mem_targetOptions {t : Str} (h : t ∈ r.targetOptions inet) :
    t = "MARK set 0xff".toList ∨
      r.action = .dnat ∧ t = "to:".toList ++ inet.ntop r.af (r.dstIp.getD []) := by
  rw [targetOptions] at h
  split at h
  · next hd => exact Or.inr ⟨hd, List.mem_singleton.mp h⟩
  · exact Or.inl (List.mem_singleton.mp h)
  · cases h

theorem search_dpt (hd : r.action = .dnat → (r.dstIp.getD []).length = r.af.length) :
    search dptPattern (join ' ' (r.options inet)) = r.dstPort.map fun n => [intStr n] := by
  have htarget : ∀ t ∈ r.targetOptions inet, Blind ' ' dptPattern t := by
    intro t ht
    obtain rfl | ⟨hdnat, rfl⟩ := mem_targetOptions ht
    · exact dpt_blind_mark
    · exact dpt_blind_to (inet.chars (hd hdnat))
  rw [options]
  cases hport : r.dstPort with
  | some n => exact search_join_found (by decide) (l := []) (by simp) (dpt_found (plain_intStr n))
  | none =>
    refine search_join_none (by decide) fun t ht => ?_
    rcases List.mem_append.mp ht with ht | ht
    · obtain ⟨a, b, ha, hb, rfl⟩ := mem_dports ht
      exact dpt_blind_multiport ha hb
    · exact htarget t ht

theorem search_multiport (hd : r.action = .dnat → (r.dstIp.getD []).length = r.af.length) :
    search multiportPattern (join ' ' (r.options inet)) =
      if r.ruleType = .acl then
        r.lowDstPort.map fun low => [intStr low, FltArg.portText r.highDstPort]
      else none := by
  have hport : ∀ t ∈ (r.dstPort.map fun n => "dpt:".toList ++ intStr n).toList,
      Blind ' ' multiportPattern t := by
    intro t ht
    obtain ⟨a, ha, rfl⟩ := mem_dport ht
    refine multiport_blind ?_
    rw [List.mem_append]
    rintro (hm | hm)
    · revert hm
      decide
    · exact ha.not_mem (by decide) hm
  have htarget : ∀ t ∈ r.targetOptions inet, Blind ' ' multiportPattern t := by
    intro t ht
    refine multiport_blind ?_
    obtain rfl | ⟨hdnat, rfl⟩ := mem_targetOptions ht
    · decide
    · rw [List.mem_append]
      rintro (hm | hm)
      · revert hm
        decide
      · exact absurd (inet.chars (hd hdnat) _ hm) (by decide)
  have hnone : ∀ l, l ⊆ (r.dstPort.map fun n => "dpt:".toList ++ intStr n).toList ++
      r.targetOptions inet → search multiportPattern (join ' ' l) = none := by
    intro l hl
    rw [multiportPattern_eq]
    refine search_join_none (by decide) fun t ht => ?_
    rcases List.mem_append.mp (hl ht) with ht | ht
    · exact hport t ht
    · exact htarget t ht
  rw [options]
  split_ifs
  · cases r.lowDstPort with
    | none => 
      rw [Option.map_none, Option.toList_none, List.append_nil]
      exact hnone _ (List.Subset.refl _)
    | some low =>
      have hfound := multiport_found (plain_intStr low) (plain_portText r.highDstPort)
      rw [multiportPattern_eq] at hport hfound ⊢
      rw [List.append_assoc]
      exact search_join_found (by decide) hport hfound
  · rw [List.append_nil]
    exact hnone _ (List.Subset.refl _)

/-- The matches before the target. -/
theorem search_target {p : List (Atom Char)} {c : Char} {t : Str} {gs : List Str} (hc : c ≠ ' ')
    (hopt : r.targetOptions inet = [t])
    (hport : ∀ a, Plain a → Blind ' ' (.char c :: p) ("dpt:".toList ++ a))
    (hrange : ∀ a b, Plain a → Plain b →
      Blind ' ' (.char c :: p) ("multiport dports ".toList ++ (a ++ ':' :: b)))
    (hfound : Found ' ' (.char c :: p) t gs) :
    search (.char c :: p) (join ' ' (r.options inet)) = some gs := by
  rw [options, hopt]
  refine search_join_found hc (fun u hu => ?_) hfound
  rcases List.mem_append.mp hu with hu | hu
  · obtain ⟨a, ha, rfl⟩ := mem_dport hu
    exact hport a ha
  · obtain ⟨a, b, ha, hb, rfl⟩ := mem_dports hu
    exact hrange a b ha hb

end

/-! ## What is read back of each attribute -/

section

variable {inet : InetText} {r : VrfIncomingSvcsRule}

theorem search_to (hact : r.action = .dnat) (hlen : (r.dstIp.getD []).length = r.af.length) :
    search toPattern (join ' ' (r.options inet)) = some [inet.ntop r.af (r.dstIp.getD [])] := by
  have hopt : r.targetOptions inet = ["to:".toList ++ inet.ntop r.af (r.dstIp.getD [])] := by
    rw [targetOptions, hact]
  have hport := @to_blind_dpt
  have hrange := @to_blind_multiport
  have hfound := to_found (inet.ntop_ne_nil hlen) (inet.chars hlen)
  rw [toPattern_eq] at hport hrange hfound ⊢
  exact search_target (by decide) hopt (fun a ha => hport ha) (fun a b ha hb => hrange ha hb) hfound

theorem search_mark (hact : r.action = .reject) :
    search markPattern (join ' ' (r.options inet)) = some ["0xff".toList] := by
  have hopt : r.targetOptions inet = ["MARK set 0xff".toList] := by
    rw [targetOptions, hact]
  have hport : ∀ a, Plain a → Blind ' ' markPattern ("dpt:".toList ++ a) := by
    refine fun a ha => mark_blind fun hm => ?_
    rcases List.mem_append.mp hm with hm | hm
    · revert hm
      decide
    · exact ha.not_mem (by decide) hm
  have hrange : ∀ a b, Plain a → Plain b →
      Blind ' ' markPattern ("multiport dports ".toList ++ (a ++ ':' :: b)) := by
    refine fun a b ha hb => mark_blind fun hm => ?_
    rcases List.mem_append.mp hm with hm | hm
    · revert hm
      decide
    · exact ha.range_not_mem hb (by decide) hm
  have hfound := mark_found
  rw [markPattern_eq] at hport hrange hfound ⊢
  exact search_target (by decide) hopt hport hrange hfound

theorem readTarget_options (hd : r.action = .dnat → (r.dstIp.getD []).length = r.af.length) :
    IptablesHandler.readTarget inet r.af r.targetName (join ' ' (r.options inet)) =
      some (r.action, if r.action = .dnat then some (r.dstIp.getD []) else none) := by
  have hvalid := r.validAction
  rw [targetName, IptablesHandler.readTarget]
  cases hact : r.action with
  | allow => rfl
  | deny => rfl
  | dnat =>
    rw [search_to hact (hd hact), if_neg (by decide), if_neg (by decide), if_neg (by decide),
      if_pos (by decide)]
    dsimp only
    rw [inet.pton_ntop (hd hact)]
    rfl
  | reject =>
    rw [search_mark hact, if_neg (by decide), if_neg (by decide), if_pos (by decide)]
    rfl
  | snat =>
    rw [hact] at hvalid
    cases hvalid

theorem readProto_iff :
    IptablesHandler.readProto ((r.protocol.bind fun p =>
        FltArg.protocol (.proto (getProtoName p))).getD "all".toList) = r.protocol ↔
      r.protocol ≠ some .all := by
  cases r.protocol with
  | none => decide
  | some p => cases p <;> decide

theorem intfPair_fst_iff (name : Str) :
    (intfPair (some name)).1 = some name ↔ name.head? ≠ some '!' := by
  unfold intfPair
  split
  · next h => cases h
  · next rest h =>
    obtain rfl := Option.some_inj.mp h
    simp
  · next val hval h =>
    obtain rfl := Option.some_inj.mp h
    refine iff_of_true rfl fun hhead => ?_
    cases name with
    | nil => cases hhead
    | cons c rest =>
      obtain rfl := Option.some_inj.mp hhead
      exact hval rest rfl

theorem head_of_not_negated {arg : Option Str} {name : Str}
    (h : intfPair arg = (some name, some false)) : name.head? ≠ some '!' := by
  have hpair := h
  unfold intfPair at h
  split at h
  · cases h
  · cases h
  · obtain rfl := Option.some_inj.mp (congrArg Prod.fst h)
    exact (intfPair_fst_iff _).mp (congrArg Prod.fst hpair)

/-- An interface that is read back. -/
def IntfReadsBack (r : VrfIncomingSvcsRule) : Prop :=
  match r.inIntf with
  | none => True
  | some name =>
    if r.ruleType = .ip then
      r.vrfName = defaultVrf ∧ name ≠ "any".toList ∧ name.head? ≠ some '!'
    else r.negative = some true ∨ name ≠ "any".toList

theorem readInIntf_iff (hb : Built r) :
    (intfPair (IptablesHandler.readInIntf r.ruleType r.vrfName ((r.inIntfArg.map fun i =>
        if i.1 then '!' :: i.2 else i.2).getD "any".toList))).1 = r.inIntf ↔ IntfReadsBack r := by
  rw [inIntfArg, IntfReadsBack]
  cases hname : r.inIntf with
  | none =>
    by_cases ht : r.ruleType = .ip
    · by_cases hv : r.vrfName = defaultVrf
      · simp [ht, hv, IptablesHandler.readInIntf, intfPair]
      · simp [ht, hv, IptablesHandler.readInIntf, intfPair]
    · simp [ht, IptablesHandler.readInIntf, intfPair]
  | some name =>
    by_cases ht : r.ruleType = .ip
    · by_cases hv : r.vrfName = defaultVrf
      · simp only [ht, hv, if_true, Option.map_some, Option.getD_some, Bool.false_eq_true, if_false,
          true_and, IptablesHandler.readInIntf]
        split_ifs with hany hveth
        · exact iff_of_false (by rintro ⟨⟩) fun hc => hc.1 hany
        · exact iff_of_false (by rintro ⟨⟩) fun hc => hc.2 (by rw [hveth]; rfl)
        · rw [intfPair_fst_iff]
          exact ⟨fun hc => ⟨hany, hc⟩, fun hc => hc.2⟩
      · simp [ht, hv, IptablesHandler.readInIntf, intfPair]
    · simp only [ht, if_false, false_and, Option.map_some, Option.getD_some,
        IptablesHandler.readInIntf]
      rcases hb.negative (by rw [hname]; rfl) with hneg | hneg
      · rw [hneg]
        refine iff_of_true ?_ (Or.inl rfl)
        rw [decide_eq_true rfl, if_pos rfl, if_neg (by simp)]
        rfl
      · have hplain : name.head? ≠ some '!' := by
          obtain ⟨arg, hpair⟩ := hb.intf
          rw [hname, hneg] at hpair
          exact head_of_not_negated hpair.symm
        rw [hneg]
        simp only [Option.some_inj, Bool.false_eq_true, decide_false, if_false, false_or]
        split_ifs with hany
        · exact iff_of_false (by rintro ⟨⟩) (not_not_intro hany)
        · rw [intfPair_fst_iff]
          exact iff_of_true hplain hany

end

end VrfIncomingSvcsRule

end OpxNasLinux
