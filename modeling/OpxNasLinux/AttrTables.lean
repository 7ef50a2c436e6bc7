import OpxNasLinux.RouteInfo

/-!
# The tables of attributes

`nl_to_route_info` has one table for the attributes of a message, with
`__IFLA_MAX` entries, and one for those of a next hop, with `__RTA_MAX`.
`nhrt_parse` takes the size of its table as an argument, and hands `__IFLA_MAX`
on to `nla_parse` all the same.

* `readHop_spec` is one turn of the loop.
* `nlToRouteInfo_inBounds_iff` is when no entry outside of a table is written.
-/

namespace OpxNasLinux.RouteInfo

open NlMsg Route

/-- The table for the attributes of a next hop. -/
def hopTable (z : Sizes) (mem : Memory) (p : ℤ) : Table :=
  ⟨z.rtaMax, nlaParseWritten mem z.iflaMax (visits mem (rtnhAttrs mem p))⟩

theorem topTable_inBounds (z : Sizes) (mem : Memory) : (topTable z mem).InBounds := by
  have hpos : 0 < z.iflaMax := Nat.zero_lt_of_lt z.rtaMax_lt
  intro i hi
  rcases List.mem_append.mp hi with hclear | htype
  · exact List.mem_range.mp hclear
  · rcases of_decide_eq_true (List.mem_filter.mp htype).2 with rfl | hlt
    · exact hpos
    · exact hlt

/-- The table of a next hop is cleared past its end. -/
theorem hopTable_not_inBounds (z : Sizes) (mem : Memory) (p : ℤ) :
    ¬ (hopTable z mem p).InBounds := by
  intro h
  have hwritten : z.rtaMax ∈ (hopTable z mem p).written :=
    List.mem_append_left _ (List.mem_range.mpr z.rtaMax_lt)
  exact lt_irrefl _ (h _ hwritten)

/-! ## The loop -/

/-- The object has room for what comes before the table of a next hop. -/
def HopFits (env : Env) (mem : Memory) (p : ℤ) (hop : ℕ) : Prop :=
  (env.room (.nhIfindex hop (load32 mem (p + 4))) = true ∧
      env.room (.nhWeight hop ((mem (p + 3)).toBitVec.setWidth 32)) = true) ∧
    ((mem (p + 2)).toBitVec.setWidth 32 = rtnhFOnlink → env.room (.nhFlags hop rtnhFOnlink) = true)

theorem eAdd_checks (env : Env) (a : Attr) : Checks (Info.eAdd env a) (env.room a = true) := by
  intro s
  rw [Info.eAdd]
  split_ifs with hroom
  · exact Or.inl ⟨hroom, _, rfl, rfl⟩
  · exact Or.inr ⟨hroom, s, rfl, rfl⟩

theorem hopFields_checks (env : Env) (mem : Memory) (p : ℤ) (hop : ℕ) :
    Checks (hopFields env mem p hop) (HopFits env mem p hop) := by
  refine ((eAdd_checks env _).bind (eAdd_checks env _)).bind fun s => ?_
  by_cases honlink : (mem (p + 2)).toBitVec.setWidth 32 = rtnhFOnlink
  · simp only [if_pos honlink]
    obtain ⟨hroom, hs⟩ | ⟨hroom, hs⟩ := eAdd_checks env (.nhFlags hop rtnhFOnlink) s
    · exact Or.inl ⟨fun _ => hroom, hs⟩
    · exact Or.inr ⟨fun h => hroom (h honlink), hs⟩
  · simp only [if_neg honlink]
    exact Or.inl ⟨fun h => absurd h honlink, s, rfl, rfl⟩

/-- One turn of the loop: the table of the next hop is filled when there is
room for its fields. -/
theorem readHop_spec (z : Sizes) (env : Env) (mem : Memory) (s : Info) (p : ℤ) (hop : ℕ) :
    (HopFits env mem p hop ∧
        (infoOf (readHop z env mem s (p, hop))).tables = s.tables ++ [hopTable z mem p]) ∨
      ¬ HopFits env mem p hop ∧
        ∃ s', readHop z env mem s (p, hop) = .error s' ∧ s'.tables = s.tables := by
  rw [readHop]
  dsimp only
  obtain ⟨hfits, s', hs', htables⟩ | ⟨hfits, s', hs', htables⟩ := hopFields_checks env mem p hop s
  · refine Or.inl ⟨hfits, ?_⟩
    rw [hs', ← htables]
    dsimp only [bind, Except.bind]
    cases nlaParse mem z.iflaMax (visits mem (rtnhAttrs mem p)) rtaGateway with
    | none => rfl
    | some q =>
      dsimp only
      rw [Info.eAdd]
      split_ifs <;> rfl
  · refine Or.inr ⟨hfits, s', ?_, htables⟩
    rw [hs']
    rfl

/-- The loop takes no table away. -/
theorem readHop_tables (z : Sizes) (env : Env) (mem : Memory) (s : Info) (hop : ℤ × ℕ) :
    s.tables <+: (infoOf (readHop z env mem s hop)).tables := by
  obtain ⟨-, htables⟩ | ⟨-, s', hs', htables⟩ := readHop_spec z env mem s hop.1 hop.2
  · rw [htables]
    exact List.prefix_append _ _
  · rw [hs', infoOf, htables]

theorem foldlM_tables (z : Sizes) (env : Env) (mem : Memory) (l : List (ℤ × ℕ)) (s : Info) :
    s.tables <+: (infoOf (l.foldlM (readHop z env mem) s)).tables := by
  induction l generalizing s with
  | nil => exact List.prefix_rfl
  | cons hop l ih =>
    have hfirst := readHop_tables z env mem s hop
    rw [List.foldlM_cons]
    cases hs : readHop z env mem s hop with
    | error s' =>
      rw [hs] at hfirst
      exact hfirst
    | ok s' =>
      rw [hs] at hfirst
      exact hfirst.trans (ih s')

theorem hops_stop {mem : Memory} {c : Cursor} (hok : rtnhOk mem c = false) : hops mem c = [] := by
  rw [hops]
  cases c.rem.toInt.toNat with
  | zero => rfl
  | succ turns => rw [hopsIn, if_neg (Bool.eq_false_iff.mp hok)]

theorem hops_turn {mem : Memory} {c : Cursor} (hok : rtnhOk mem c = true) :
    ∃ ps, hops mem c = c.pos :: ps := by
  obtain ⟨hmin, hin⟩ := rtnhOk_iff.mp hok
  obtain ⟨turns, hturns⟩ : ∃ turns, c.rem.toInt.toNat = turns + 1 :=
    Nat.exists_eq_succ_of_ne_zero (by omega)
  rw [hops, hturns, hopsIn, if_pos hok]
  exact ⟨_, rfl⟩

/-! ## When the tables are long enough -/

/-- A next hop is reached whose attributes are read. -/
def ReachesHop (z : Sizes) (env : Env) (vrfId : BitVec 32) (mem : Memory) : Prop :=
  PassesChecks z env vrfId mem ∧ ∃ p, topAttrs z mem rtaMultipath = some p ∧
    rtnhOk mem (embedded mem p) = true ∧ HopFits env mem (nlaData p) 0

/-- The loop and what follows it. -/
theorem afterChecks_tables (z : Sizes) (env : Env) (mem : Memory) (s : Info) :
    (∃ p, topAttrs z mem rtaMultipath = some p ∧ rtnhOk mem (embedded mem p) = true ∧
        HopFits env mem (nlaData p) 0 ∧
        hopTable z mem (nlaData p) ∈ (infoOf (afterChecks z env mem s)).tables) ∨
      (∀ p, topAttrs z mem rtaMultipath = some p → rtnhOk mem (embedded mem p) = true →
        ¬ HopFits env mem (nlaData p) 0) ∧
        (infoOf (afterChecks z env mem s)).tables = s.tables := by
  rw [afterChecks]
  dsimp only
  cases hmulti : topAttrs z mem rtaMultipath with
  | none => exact Or.inr ⟨nofun, tables_add ..⟩
  | some p =>
    have hmap : ∀ (out : Except Info Info) (count : ℕ), (infoOf (out.map fun s =>
        { s.add env (.nhCount count) with key := routeOp mem })).tables = (infoOf out).tables := by
      intro out count
      cases out with
      | error s' => rfl
      | ok s' => exact tables_add ..
    dsimp only
    rw [hmap, readHops]
    cases hok : rtnhOk mem (embedded mem p) with
    | false =>
      rw [hops_stop hok]
      refine Or.inr ⟨fun q hq hqok => ?_, rfl⟩
      rw [← Option.some_inj.mp hq, hok] at hqok
      cases hqok
    | true =>
      obtain ⟨ps, hps⟩ := hops_turn hok
      have hpos : (embedded mem p).pos = nlaData p := rfl
      rw [hps, hpos, List.zipIdx_cons, List.foldlM_cons]
      obtain ⟨hfits, htables⟩ | ⟨hfits, s', hs', htables⟩ :=
        readHop_spec z env mem s (nlaData p) 0
      · refine Or.inl ⟨p, rfl, hok, hfits, ?_⟩
        have hmem : hopTable z mem (nlaData p) ∈
            (infoOf (readHop z env mem s (nlaData p, 0))).tables := by
          rw [htables]
          exact List.mem_append_right _ (List.mem_singleton_self _)
        cases hs : readHop z env mem s (nlaData p, 0) with
        | error s' =>
          rw [hs] at hmem
          exact hmem
        | ok s' =>
          rw [hs] at hmem
          exact (foldlM_tables z env mem _ s').subset hmem
      · refine Or.inr ⟨fun q hq _ => ?_, ?_⟩
        · rwa [← Option.some_inj.mp hq]
        · rw [hs']
          exact htables

/-- No entry outside of a table is written exactly when no next hop is reached
whose attributes are read. -/
theorem nlToRouteInfo_inBounds_iff (z : Sizes) (env : Env) (vrfId : BitVec 32) (mem : Memory) :
    (∀ t ∈ (infoOf (nlToRouteInfo z env vrfId mem)).tables, t.InBounds) ↔
      ¬ ReachesHop z env vrfId mem := by
  rw [nlToRouteInfo]
  obtain ⟨hpasses, s, hs, htables⟩ | ⟨hpasses, s, hs, htables⟩ := beforeHops_spec z env vrfId mem
  · rw [hs]
    change (∀ t ∈ (infoOf (afterChecks z env mem s)).tables, t.InBounds) ↔ _
    obtain ⟨p, hp, hok, hfits, hmem⟩ | ⟨hnone, hsame⟩ := afterChecks_tables z env mem s
    · exact iff_of_false (fun h => hopTable_not_inBounds z mem _ (h _ hmem))
        (not_not_intro ⟨hpasses, p, hp, hok, hfits⟩)
    · refine iff_of_true (fun t ht => ?_) ?_
      · rw [hsame, htables] at ht
        rw [List.mem_singleton.mp ht]
        exact topTable_inBounds z mem
      · rintro ⟨-, p, hp, hok, hfits⟩
        exact hnone p hp hok hfits
  · rw [hs]
    refine iff_of_true (fun t ht => ?_) fun h => hpasses h.1
    rw [htables t ht]
    exact topTable_inBounds z mem

/-- A message in a buffer. -/
def memOf (bytes : Bytes) : Memory := fun a => if 0 ≤ a then bytes.getD a.toNat 0 else 0

/-- A default route over two gateways, as a dump reports it. -/
def twoGateways : Memory :=
  memOf ([64, 0, 0, 0, 24, 0, 2, 0, 1, 1, 0, 0, 0, 0, 0, 0] ++
    [2, 0, 0, 0, 254, 4, 0, 1, 0, 0, 0, 0] ++ [36, 0, 9, 0] ++
    [16, 0, 0, 0, 3, 0, 0, 0, 8, 0, 5, 0, 10, 0, 0, 1] ++
    [16, 0, 0, 0, 4, 0, 0, 0, 8, 0, 5, 0, 10, 0, 1, 1])

/-- Tables of 31 and 64 entries. -/
def kernelSizes : Sizes := ⟨31, 64, by decide, by decide⟩

/-- A system with the default VRF and no interfaces. -/
def noNames : Env where
  vrfName := fun id => if id = 0 then some ['d', 'e', 'f', 'a', 'u', 'l', 't'] else none
  halName := fun _ => none
  osName := fun _ => none
  isLinkLocal := fun addr => addr.take 1 == [0xfe]
  defaultVrfId := 0
  nhFlagsOnlink := 1
  room := fun _ => true

/-- Entries past the end of the table for a next hop are written. -/
theorem twoGateways_not_inBounds :
    ¬ ∀ t ∈ (infoOf (nlToRouteInfo kernelSizes noNames 0 twoGateways)).tables, t.InBounds := by
  decide +kernel

end OpxNasLinux.RouteInfo
