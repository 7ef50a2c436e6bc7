import OpxNasLinux.IfLink

/-!
# What the handlers make of a link message

The handlers run in order up to the first that fails.  The handlers in front of
that of the bridges change the bonds, the type and the operation, and nothing
else.

* `lagAttrsHandler_eq` is the handler of the bonds.
* `ifHdlr_beforeBridge` is the chain up to the handler of the bridges.
* `bridgeAttrsHandler_verdict` and `bridgeAttrsHandler_db` are the handler of the
  bridges.
* `ifHdlr_handlers` is the whole chain.
-/

namespace OpxNasLinux

/-! ## Chains -/

/-- A chain in two parts: the second runs on what the first leaves. -/
theorem ifHdlr_append (a : LinkAnswers) (hs hs' : List Handler) (d : IfDetails) (db : IfDb) :
    ifHdlr a (hs ++ hs') d db =
      if (ifHdlr a hs d db).1 then
        ifHdlr a hs' (ifHdlr a hs d db).2.1 (ifHdlr a hs d db).2.2
      else ifHdlr a hs d db := by
  induction hs generalizing d db with
  | nil => rfl
  | cons h rest ih =>
    rw [List.cons_append, ifHdlr, ifHdlr]
    split
    · rfl
    · exact ih _ _

/-- A chain of one handler. -/
theorem ifHdlr_cons_true {a : LinkAnswers} {h : Handler} {d d' : IfDetails} {db db' : IfDb}
    (hh : h a d db = (true, d', db')) (rest : List Handler) :
    ifHdlr a (h :: rest) d db = ifHdlr a rest d' db' := by
  rw [ifHdlr, hh]

/-! ## The bonds -/

/-- A `tun` slave comes under a bond that the database does not have it under,
or it has no master while the database has one. -/
def lagMemberEvent (d : IfDetails) (b : IfBond) : Bool :=
  decide (d.type ≠ .lag) && (d.kindStarts "tun" && (d.slave &&
    match d.master with
    | some masterIdx => !b.bondMbrPresent masterIdx d.ifindex
    | none => decide (b.bondMasterGet d.ifindex ≠ 0)))

/-- The bonds after such a message. -/
def bondAfter (d : IfDetails) (b : IfBond) : IfBond :=
  if lagMemberEvent d b then
    match d.master with
    | some masterIdx => b.bondMbrAdd masterIdx d.ifindex
    | none => b.bondMbrDel (b.bondMasterGet d.ifindex) d.ifindex
  else b

/-- The name of the member or that of its bond is not known. -/
def lagRefuses (a : LinkAnswers) (d : IfDetails) (db : IfDb) : Bool :=
  lagMemberEvent d db.bond &&
    (!a.hasName ||
      match d.master with
      | some masterIdx => decide (db.cache.ifInfoGetName masterIdx = [])
      | none => false)

/-- The message turns into one about the bond. -/
def lagDetails (d : IfDetails) (b : IfBond) : IfDetails :=
  if lagMemberEvent d b then
    { d with type := .lag, op := if d.master.isSome then .create else .delete }
  else d

/-- The handler of the bonds, in one equation for each thing that it gives. -/
theorem lagAttrsHandler_eq (a : LinkAnswers) (d : IfDetails) (db : IfDb) :
    (lagAttrsHandler a d db).1 = !lagRefuses a d db ∧
      (lagRefuses a d db = false → (lagAttrsHandler a d db).2.1 = lagDetails d db.bond) ∧
      (lagAttrsHandler a d db).2.2 = { db with bond := bondAfter d db.bond } := by
  by_cases hevent : lagMemberEvent d db.bond = true
  · rw [lagRefuses, lagDetails, bondAfter, hevent, lagAttrsHandler]
    rw [lagMemberEvent] at hevent
    simp only [Bool.and_eq_true, decide_eq_true_eq] at hevent
    obtain ⟨htype, hkind, hslave, hmember⟩ := hevent
    rw [if_neg htype, hkind, hslave]
    cases hmaster : d.master with
    | some masterIdx =>
      rw [hmaster] at hmember
      have hpresent : db.bond.bondMbrPresent masterIdx d.ifindex = false := by
        simpa using hmember
      cases hname : a.hasName <;> by_cases hempty : db.cache.ifInfoGetName masterIdx = [] <;>
        simp [lagMemberAdd, hpresent, hname, hempty, hslave, hmaster]
    | none =>
      rw [hmaster] at hmember
      have hget : db.bond.bondMasterGet d.ifindex ≠ 0 := by simpa using hmember
      cases hname : a.hasName <;> simp [lagMemberDel, hget, hname, hslave, hmaster]
  · have hnone : lagMemberEvent d db.bond = false := Bool.eq_false_iff.mpr hevent
    have hhandler : lagAttrsHandler a d db = (true, d, db) := by
      rw [lagAttrsHandler]
      rw [lagMemberEvent] at hnone
      split
      · rfl
      rename_i htype
      split
      · rename_i hkind
        rw [Bool.and_eq_true] at hkind
        rw [hkind.1, hkind.2] at hnone
        cases hmaster : d.master with
        | some masterIdx =>
          have hpresent : db.bond.bondMbrPresent masterIdx d.ifindex = true := by
            simpa [htype, hmaster] using hnone
          simp [lagMemberAdd, hpresent]
        | none =>
          have hget : db.bond.bondMasterGet d.ifindex = 0 := by
            simpa [htype, hmaster] using hnone
          simp [lagMemberDel, hget]
      · rfl
    rw [hhandler, lagRefuses, lagDetails, bondAfter, hnone]
    exact ⟨rfl, fun _ => rfl, rfl⟩

/-! ## The handlers up to that of the bridges -/

/-- The handlers in front of that of the bridges. -/
def beforeBridge : List Handler :=
  [noAttrsHandler, lagAttrsHandler, vlanAttrsHandler, macvlanAttrsHandler, vxlanAttrsHandler,
    stgAttrsHandler, noAttrsHandler, dummyAttrsHandler]

/-- The type that the link kind gives, where a handler takes it from there. -/
def kindType (d : IfDetails) : IfType :=
  if d.kindStarts "dummy" && isValidLoopbackIntf d.ifName then .loopback
  else if d.kindStarts "vxlan" && d.master.isNone then .vxlan
  else if d.kindStarts "macvlan" then .macvlan
  else d.type

/-- The parent of a VLAN interface that is new. -/
def kindParent (d : IfDetails) : IfIndex :=
  if d.type = .vlanSubintf ∧ d.master = none ∧ d.op = .create then d.link.getD 0 else d.parentIdx

/-- The details when they come to the handler of the bridges. -/
def atBridge (d : IfDetails) (b : IfBond) : IfDetails :=
  { lagDetails d b with
    type := kindType (lagDetails d b)
    parentIdx := kindParent (lagDetails d b) }

theorem vlanAttrsHandler_eq (a : LinkAnswers) (d : IfDetails) (db : IfDb) :
    vlanAttrsHandler a d db = (true, { d with parentIdx := kindParent d }, db) := by
  rw [vlanAttrsHandler, kindParent]
  split <;> rfl

theorem macvlanAttrsHandler_eq (a : LinkAnswers) (d : IfDetails) (db : IfDb) :
    macvlanAttrsHandler a d db =
      (true, { d with type := if d.kindStarts "macvlan" then .macvlan else d.type }, db) := by
  rw [macvlanAttrsHandler]
  split <;> rfl

theorem vxlanAttrsHandler_eq (a : LinkAnswers) (d : IfDetails) (db : IfDb) :
    vxlanAttrsHandler a d db =
      (true, { d with type := if d.kindStarts "vxlan" && d.master.isNone then .vxlan
                              else d.type }, db) := by
  rw [vxlanAttrsHandler]
  split <;> rfl

theorem dummyAttrsHandler_eq (a : LinkAnswers) (d : IfDetails) (db : IfDb) :
    dummyAttrsHandler a d db =
      (true, { d with type := if d.kindStarts "dummy" && isValidLoopbackIntf d.ifName
                              then .loopback else d.type }, db) := by
  rw [dummyAttrsHandler]
  split <;> rfl

/-- The handlers between that of the bonds and that of the bridges. -/
theorem ifHdlr_kinds (a : LinkAnswers) (d : IfDetails) (db : IfDb) :
    (ifHdlr a [vlanAttrsHandler, macvlanAttrsHandler, vxlanAttrsHandler, stgAttrsHandler,
        noAttrsHandler, dummyAttrsHandler] d db).1 = a.stgOk ∧
      (a.stgOk = true → (ifHdlr a [vlanAttrsHandler, macvlanAttrsHandler, vxlanAttrsHandler,
        stgAttrsHandler, noAttrsHandler, dummyAttrsHandler] d db).2.1 =
          { d with type := kindType d, parentIdx := kindParent d }) ∧
      (ifHdlr a [vlanAttrsHandler, macvlanAttrsHandler, vxlanAttrsHandler, stgAttrsHandler,
        noAttrsHandler, dummyAttrsHandler] d db).2.2 = db := by
  rw [ifHdlr_cons_true (vlanAttrsHandler_eq a _ _), ifHdlr_cons_true (macvlanAttrsHandler_eq a _ _),
    ifHdlr_cons_true (vxlanAttrsHandler_eq a _ _)]
  cases hstg : a.stgOk with
  | false =>
    rw [ifHdlr, stgAttrsHandler, hstg]
    exact ⟨rfl, fun h => (nomatch h), rfl⟩
  | true =>
    rw [ifHdlr, stgAttrsHandler, hstg]
    dsimp only
    rw [ifHdlr, noAttrsHandler]
    dsimp only
    rw [ifHdlr_cons_true (dummyAttrsHandler_eq a _ _), ifHdlr]
    exact ⟨rfl, fun _ => rfl, rfl⟩

/-- The chain up to the handler of the bridges. -/
theorem ifHdlr_beforeBridge (a : LinkAnswers) (d : IfDetails) (db : IfDb) :
    (ifHdlr a beforeBridge d db).1 = (!lagRefuses a d db && a.stgOk) ∧
      ((ifHdlr a beforeBridge d db).1 = true →
        (ifHdlr a beforeBridge d db).2.1 = atBridge d db.bond) ∧
      (ifHdlr a beforeBridge d db).2.2 = { db with bond := bondAfter d db.bond } := by
  obtain ⟨hverdict, hdetails, hdb⟩ := lagAttrsHandler_eq a d db
  rw [beforeBridge, ifHdlr, noAttrsHandler]
  dsimp only
  rw [ifHdlr]
  cases hrefuses : lagRefuses a d db with
  | true =>
    rw [hrefuses] at hverdict
    split
    · rename_i d' db' heq
      rw [heq] at hdb
      exact ⟨rfl, fun h => (nomatch h), hdb⟩
    · rename_i d' db' heq
      rw [heq] at hverdict
      cases hverdict
  | false =>
    rw [hrefuses] at hverdict
    split
    · rename_i d' db' heq
      rw [heq] at hverdict
      cases hverdict
    · rename_i d' db' heq
      have hd' : d' = lagDetails d db.bond := by
        have h := hdetails hrefuses
        rwa [heq] at h
      have hdb' : db' = { db with bond := bondAfter d db.bond } := by rwa [heq] at hdb
      obtain ⟨hok, hkinds, hsame⟩ := ifHdlr_kinds a d' db'
      refine ⟨hok.trans (Bool.true_and _).symm, fun h => ?_, hsame.trans hdb'⟩
      rw [hkinds (hok.symm.trans h), hd', atBridge]

/-! ## The handler of the bridges -/

/-- A tagged member comes to a bridge that has it already, or the kernel does
not have it there. -/
def bridgeRefuses (a : LinkAnswers) (d : IfDetails) (br : IfBridge) : Bool :=
  decide (d.op ≠ .delete) && ((d.infoKind.isSome && !d.slave) &&
    ((!d.kindStarts "tun" && d.type.tagged) &&
      match d.master with
      | some masterIdx => br.bridgeMbrPresent masterIdx d.ifindex || !a.isMember
      | none => false))

/-- A message takes a member out of its bridge. -/
def bridgeDeletes (d : IfDetails) : Bool :=
  decide (d.type ≠ .bridge) && (d.master.isSome && decide (d.op = .delete))

/-- A message may put a member into a bridge, as far as the message goes. -/
def bridgeOffers (d : IfDetails) : Bool :=
  (decide (d.type ≠ .bridge) && decide (d.op ≠ .delete)) &&
    ((d.infoKind.isSome && !d.slave) &&
      (d.kindStarts "tun" || decide (d.type = .lag) || d.type.tagged))

/-- The bridge does not have the member, and the kernel does. -/
def bridgeLacks (a : LinkAnswers) (masterIdx mbrIdx : IfIndex) (br : IfBridge) : Bool :=
  !br.bridgeMbrPresent masterIdx mbrIdx && a.isMember

/-- The tables after a member went out of a bridge. -/
def memberOut (masterIdx : IfIndex) (a : LinkAnswers) (d : IfDetails) (db : IfDb) : IfDb :=
  updateVlanInfo d.ifindex masterIdx d.ifName d.type.tagged false a
    (bridgeMbrDel d.type.tagged masterIdx d.ifindex db)

/-- The tables after a member came into a bridge. -/
def memberIn (tag : Bool) (masterIdx : IfIndex) (a : LinkAnswers) (d : IfDetails) (db : IfDb) :
    IfDb :=
  bridgeMbrAdd tag masterIdx d.ifindex (updateVlanInfo d.ifindex masterIdx d.ifName tag true a db)

theorem vlanBridgeHandler_eq (masIdx : IfIndex) (tag : Bool) (a : LinkAnswers) (d : IfDetails)
    (db : IfDb) :
    vlanBridgeHandler masIdx d.ifindex d.ifName tag a db =
      if bridgeLacks a masIdx d.ifindex db.bridge then (true, memberIn tag masIdx a d db)
      else (false, db) := by
  rw [vlanBridgeHandler, bridgeLacks]
  split
  · rename_i hpresent
    rw [hpresent]
    rfl
  rename_i hpresent
  rw [Bool.eq_false_iff.mpr hpresent]
  split
  · rename_i hmember
    rw [hmember]
    rfl
  · rename_i hmember
    rw [Bool.eq_true_of_not_eq_false hmember]
    rfl

/-- The handler of the bridges fails for a tagged member only. -/
theorem bridgeAttrsHandler_verdict (a : LinkAnswers) (d : IfDetails) (db : IfDb) :
    (bridgeAttrsHandler a d db).1 = !bridgeRefuses a d db.bridge := by
  rw [bridgeAttrsHandler, bridgeRefuses]
  split
  · rename_i htype
    simp [htype, IfType.tagged]
  cases hmaster : d.master with
  | none => simp
  | some masterIdx =>
    dsimp only
    split
    · rename_i hop
      simp [hop, bridgeMemberDel]
    rename_i hop
    split
    · rename_i hslave
      rcases hslave with hkind | hslave
      · simp [hkind]
      · simp [hslave]
    rename_i hslave
    obtain ⟨hkind, hslave⟩ := not_or.mp hslave
    rw [bridgeMemberAdd]
    split
    · rename_i huntagged
      have hnot : (!d.kindStarts "tun" && d.type.tagged) = false := by
        rcases Bool.or_eq_true_iff.mp huntagged with htun | hlag
        · simp [htun]
        · simp [of_decide_eq_true hlag, IfType.tagged]
      rw [hnot]
      split <;> simp
    rename_i huntagged
    split
    · rename_i htagged
      have htun : d.kindStarts "tun" = false := by
        rw [Bool.not_eq_true, Bool.or_eq_false_iff] at huntagged
        exact huntagged.1
      have hlacks : (db.bridge.bridgeMbrPresent masterIdx d.ifindex || !a.isMember) =
          !bridgeLacks a masterIdx d.ifindex db.bridge := by
        rw [bridgeLacks, Bool.not_and, Bool.not_not]
      have hsome : d.infoKind.isSome = true := Option.isSome_iff_ne_none.mpr hkind
      rw [vlanBridgeHandler_eq]
      dsimp only
      rw [hlacks]
      cases bridgeLacks a masterIdx d.ifindex db.bridge <;>
        simp [hop, htun, htagged, hslave, hsome]
    · rename_i htagged
      simp [Bool.eq_false_iff.mpr htagged]

/-- The tables after the handler of the bridges. -/
theorem bridgeAttrsHandler_db (a : LinkAnswers) (d : IfDetails) (db : IfDb) :
    (bridgeAttrsHandler a d db).2.2 =
      match d.master with
      | none => db
      | some masterIdx =>
        if bridgeDeletes d then memberOut masterIdx a d db
        else if bridgeOffers d && bridgeLacks a masterIdx d.ifindex db.bridge then
          memberIn (!(d.kindStarts "tun" || decide (d.type = .lag))) masterIdx a d db
        else db := by
  rw [bridgeAttrsHandler, bridgeDeletes, bridgeOffers]
  cases hmaster : d.master with
  | none => split <;> rfl
  | some masterIdx =>
    dsimp only
    split
    · rename_i htype
      simp [htype]
    rename_i htype
    split
    · rename_i hop
      simp [hop, htype, bridgeMemberDel, memberOut]
    rename_i hop
    split
    · rename_i hslave
      rcases hslave with hkind | hslave
      · simp [hop, hkind]
      · simp [hop, hslave]
    rename_i hslave
    obtain ⟨hkind, hslave⟩ := not_or.mp hslave
    have hsome : d.infoKind.isSome = true := Option.isSome_iff_ne_none.mpr hkind
    rw [bridgeMemberAdd]
    split
    · rename_i huntagged
      rw [vlanBridgeHandler_eq]
      cases hlacks : bridgeLacks a masterIdx d.ifindex db.bridge <;>
        simp [htype, hop, hsome, hslave, huntagged]
    rename_i huntagged
    rw [Bool.eq_false_iff.mpr huntagged]
    split
    · rename_i htagged
      rw [vlanBridgeHandler_eq]
      cases hlacks : bridgeLacks a masterIdx d.ifindex db.bridge <;>
        simp [htype, hop, hsome, hslave, htagged]
    · rename_i htagged
      simp [hop, htagged]

/-- Only the bridges and the ports of their members differ. -/
structure BridgesOnly (db db' : IfDb) : Prop where
  cache : db'.cache = db.cache
  bond : db'.bond = db.bond

theorem BridgesOnly.trans {db db' db'' : IfDb} (h : BridgesOnly db db')
    (h' : BridgesOnly db' db'') : BridgesOnly db db'' :=
  ⟨h'.cache.trans h.cache, h'.bond.trans h.bond⟩

theorem updateVlanInfo_bridgesOnly (memIdx vlanIfIndex : IfIndex) (memName : Str)
    (isTag add : Bool) (a : LinkAnswers) (db : IfDb) :
    BridgesOnly db (updateVlanInfo memIdx vlanIfIndex memName isTag add a db) := by
  rw [updateVlanInfo]
  split
  · exact ⟨rfl, rfl⟩
  · split <;> exact ⟨rfl, rfl⟩

theorem bridgeMbrAdd_bridgesOnly (tag : Bool) (masterIdx mbrIdx : IfIndex) (db : IfDb) :
    BridgesOnly db (bridgeMbrAdd tag masterIdx mbrIdx db) := by
  rw [bridgeMbrAdd]
  split <;> exact ⟨rfl, rfl⟩

theorem bridgeMbrDel_bridgesOnly (tag : Bool) (masterIdx mbrIdx : IfIndex) (db : IfDb) :
    BridgesOnly db (bridgeMbrDel tag masterIdx mbrIdx db) := by
  rw [bridgeMbrDel]
  split <;> exact ⟨rfl, rfl⟩

theorem bridgeAttrsHandler_bridgesOnly (a : LinkAnswers) (d : IfDetails) (db : IfDb) :
    BridgesOnly db (bridgeAttrsHandler a d db).2.2 := by
  rw [bridgeAttrsHandler_db]
  split
  · exact ⟨rfl, rfl⟩
  split
  · exact (bridgeMbrDel_bridgesOnly _ _ _ db).trans (updateVlanInfo_bridgesOnly _ _ _ _ _ a _)
  split
  · exact (updateVlanInfo_bridgesOnly _ _ _ _ _ a db).trans (bridgeMbrAdd_bridgesOnly _ _ _ _)
  · exact ⟨rfl, rfl⟩

/-- The type after a message that takes a member out, or that is about a
slave. -/
theorem bridgeAttrsHandler_type {a : LinkAnswers} {d : IfDetails} {db : IfDb}
    (h : d.op = .delete ∨ d.slave = true) :
    (bridgeAttrsHandler a d db).2.1.type = if bridgeDeletes d then .l2Port else d.type := by
  rw [bridgeAttrsHandler, bridgeDeletes]
  split
  · rename_i htype
    simp [htype]
  rename_i htype
  cases hmaster : d.master with
  | none => simp
  | some masterIdx =>
    dsimp only
    split
    · rename_i hop
      simp [hop, htype, bridgeMemberDel]
    · rename_i hop
      have hslave : d.infoKind = none ∨ d.slave = true := Or.inr (h.resolve_left hop)
      rw [if_pos hslave]
      simp [hop]

/-! ## The link kind and the type -/

/-- The link kinds that are known, and their types. -/
def kindTypes : List (String × IfType) :=
  [("tun", .l3Port), ("bond", .lag), ("bridge", .bridge), ("vlan", .vlanSubintf),
    ("macvlan", .macvlan), ("vxlan", .vxlan), ("dummy", .loopback)]

/-- A link kind begins with one of the known ones at most. -/
theorem kindStarts_unique {d : IfDetails} {k k' : String × IfType} (hk : k ∈ kindTypes)
    (hk' : k' ∈ kindTypes) (h : d.kindStarts k.1 = true) (h' : d.kindStarts k'.1 = true) :
    k = k' := by
  have hone : ∀ k ∈ kindTypes, ∀ k' ∈ kindTypes, k.1.toList <+: k'.1.toList → k = k' := by decide
  rw [IfDetails.kindStarts] at h h'
  cases hkind : d.infoKind with
  | none =>
    rw [hkind] at h
    cases h
  | some kind =>
    rw [hkind] at h h'
    have hprefix := List.isPrefixOf_iff_prefix.mp h
    have hprefix' := List.isPrefixOf_iff_prefix.mp h'
    rcases List.prefix_or_prefix_of_prefix hprefix hprefix' with hle | hle
    · exact hone k hk k' hk' hle
    · exact (hone k' hk' k hk hle).symm

theorem kindStarts_other {d : IfDetails} {k k' : String × IfType} (hk : k ∈ kindTypes)
    (hk' : k' ∈ kindTypes) (hne : k ≠ k') (h : d.kindStarts k.1 = true) :
    d.kindStarts k'.1 = false := by
  by_contra h'
  exact hne (kindStarts_unique hk hk' h (Bool.eq_true_of_not_eq_false h'))

/-- The type of a message with a link kind is that of the kind. -/
theorem linkType_cases (m : LinkMsg) (c : IfCache) :
    m.infoKind = none ∨ linkType m c = .l3Port ∨
      ∃ kind ∈ kindTypes, m.infoKind = some kind.1.toList ∧ linkType m c = kind.2 := by
  rw [linkType]
  cases m.infoKind with
  | none => exact Or.inl rfl
  | some text =>
    refine Or.inr ?_
    dsimp only
    rw [infoKindToIntfType]
    split
    · exact Or.inl rfl
    split
    · exact Or.inr ⟨("bond", .lag), by decide, congrArg some ‹_›, rfl⟩
    split
    · exact Or.inr ⟨("bridge", .bridge), by decide, congrArg some ‹_›, rfl⟩
    split
    · exact Or.inr ⟨("vlan", .vlanSubintf), by decide, congrArg some ‹_›, rfl⟩
    split
    · exact Or.inr ⟨("macvlan", .macvlan), by decide, congrArg some ‹_›, rfl⟩
    split
    · exact Or.inr ⟨("vxlan", .vxlan), by decide, congrArg some ‹_›, rfl⟩
    split
    · exact Or.inr ⟨("dummy", .loopback), by decide, congrArg some ‹_›, rfl⟩
    · exact Or.inl rfl

/-- A link kind that only begins like a known one is taken for a port. -/
theorem linkType_of_kindStarts {m : LinkMsg} {c : IfCache} {k : String × IfType}
    (hk : k ∈ kindTypes) (h : (linkDetails m c).kindStarts k.1 = true) :
    linkType m c = .l3Port ∨ linkType m c = k.2 := by
  rcases linkType_cases m c with hnone | hport | ⟨k', hk', hkind, htype⟩
  · rw [IfDetails.kindStarts, linkDetails, hnone] at h
    cases h
  · exact Or.inl hport
  · have hself : (linkDetails m c).kindStarts k'.1 = true := by
      rw [IfDetails.kindStarts, linkDetails, hkind]
      exact List.isPrefixOf_iff_prefix.mpr List.prefix_rfl
    rw [kindStarts_unique hk hk' h hself]
    exact Or.inr htype

/-- A handler takes the type from the link kind where the type is that of a
port, or the one of the kind already. -/
theorem kindType_cases (m : LinkMsg) (c : IfCache) :
    kindType (linkDetails m c) = linkType m c ∨
      linkType m c = .l3Port ∧ (kindType (linkDetails m c) = .loopback ∨
        m.master = none ∧ kindType (linkDetails m c) = .vxlan ∨
        (linkDetails m c).kindStarts "macvlan" = true ∧
          kindType (linkDetails m c) = .macvlan) := by
  rw [kindType]
  split
  · rename_i hdummy
    have hkind := (Bool.and_eq_true_iff.mp hdummy).1
    rcases @linkType_of_kindStarts _ _ ("dummy", .loopback) (by decide) hkind with h | h
    · exact Or.inr ⟨h, Or.inl rfl⟩
    · exact Or.inl h.symm
  split
  · rename_i hvxlan
    obtain ⟨hkind, hmaster⟩ := Bool.and_eq_true_iff.mp hvxlan
    rcases @linkType_of_kindStarts _ _ ("vxlan", .vxlan) (by decide) hkind with h | h
    · exact Or.inr ⟨h, Or.inr (Or.inl ⟨Option.isNone_iff_eq_none.mp hmaster, rfl⟩)⟩
    · exact Or.inl h.symm
  split
  · rename_i hkind
    rcases @linkType_of_kindStarts _ _ ("macvlan", .macvlan) (by decide) hkind with h | h
    · exact Or.inr ⟨h, Or.inr (Or.inr ⟨hkind, rfl⟩)⟩
    · exact Or.inl h.symm
  · exact Or.inl rfl

theorem kindType_tagged {m : LinkMsg} (c : IfCache) (hmaster : m.master ≠ none) :
    (kindType (linkDetails m c)).tagged = (linkType m c).tagged := by
  rcases kindType_cases m c with h | ⟨hport, h | ⟨hnone, -⟩ | ⟨-, h⟩⟩
  · rw [h]
  · rw [h, hport]
    rfl
  · exact absurd hnone hmaster
  · rw [h, hport]
    rfl

theorem kindType_bridge_iff (m : LinkMsg) (c : IfCache) :
    kindType (linkDetails m c) = .bridge ↔ linkType m c = .bridge := by
  rcases kindType_cases m c with h | ⟨hport, h | ⟨-, h⟩ | ⟨-, h⟩⟩
  · rw [h]
  all_goals
    rw [h, hport]
    decide

/-- An interface of kind `macvlan` has this type, whatever the cache says. -/
theorem kindType_macvlan {d : IfDetails} (h : d.kindStarts "macvlan" = true) :
    kindType d = .macvlan := by
  have hmacvlan : ("macvlan", IfType.macvlan) ∈ kindTypes := by decide
  have hdummy : d.kindStarts "dummy" = false :=
    @kindStarts_other d _ ("dummy", .loopback) hmacvlan (by decide) (by decide) h
  have hvxlan : d.kindStarts "vxlan" = false :=
    @kindStarts_other d _ ("vxlan", .vxlan) hmacvlan (by decide) (by decide) h
  rw [kindType, hdummy, hvxlan, h]
  rfl

/-- A `tun` interface has the type that the handlers before gave it. -/
theorem kindType_tun {d : IfDetails} (h : d.kindStarts "tun" = true) : kindType d = d.type := by
  have htun : ("tun", IfType.l3Port) ∈ kindTypes := by decide
  have hdummy : d.kindStarts "dummy" = false :=
    @kindStarts_other d _ ("dummy", .loopback) htun (by decide) (by decide) h
  have hvxlan : d.kindStarts "vxlan" = false :=
    @kindStarts_other d _ ("vxlan", .vxlan) htun (by decide) (by decide) h
  have hmacvlan : d.kindStarts "macvlan" = false :=
    @kindStarts_other d _ ("macvlan", .macvlan) htun (by decide) (by decide) h
  rw [kindType, hdummy, hvxlan, hmacvlan]
  rfl

/-! ## The whole chain -/

/-- Every handler accepts the message. -/
def accepts (a : LinkAnswers) (d : IfDetails) (db : IfDb) : Bool :=
  (!lagRefuses a d db && a.stgOk) && !bridgeRefuses a d db.bridge

theorem lagDetails_of_not_event {d : IfDetails} {b : IfBond} (h : lagMemberEvent d b = false) :
    lagDetails d b = d := by
  rw [lagDetails, h]
  rfl

/-- A message that turns into one about a bond is that of a `tun` slave. -/
theorem lagMemberEvent_slave {d : IfDetails} {b : IfBond} (h : lagMemberEvent d b = true) :
    d.kindStarts "tun" = true ∧ d.slave = true := by
  rw [lagMemberEvent] at h
  simp only [Bool.and_eq_true] at h
  exact ⟨h.2.1, h.2.2.1⟩

/-- The operation of a message is a delete when the message is one. -/
theorem linkOp_delete_iff (m : LinkMsg) (c : IfCache) :
    linkOp m c = .delete ↔ m.rtmType = .delLink := by
  rw [linkOp]
  cases m.rtmType with
  | newLink => dsimp only; split <;> simp
  | delLink => simp
  | other => simp

/-- The details in front of the handler of the bridges are those of the message,
but for the type, the operation and the parent. -/
theorem atBridge_keeps (d : IfDetails) (b : IfBond) :
    (atBridge d b).ifName = d.ifName ∧ (atBridge d b).infoKind = d.infoKind ∧
      (atBridge d b).master = d.master ∧ (atBridge d b).ifindex = d.ifindex := by
  rw [atBridge, lagDetails]
  split <;> exact ⟨rfl, rfl, rfl, rfl⟩

/-- The type and the operation there when the bonds do not take the message
over. -/
theorem atBridge_of_not_event {d : IfDetails} {b : IfBond} (h : lagMemberEvent d b = false) :
    (atBridge d b).type = kindType d ∧ (atBridge d b).op = d.op := by
  rw [atBridge, lagDetails_of_not_event h]
  exact ⟨rfl, rfl⟩

/-- When the bonds take it over, it does not concern a bridge. -/
theorem atBridge_of_event {d : IfDetails} {b : IfBond} (h : lagMemberEvent d b = true) :
    (atBridge d b).type = .lag ∧ (atBridge d b).slave = true ∧
      (atBridge d b).op = if d.master.isSome then .create else .delete := by
  obtain ⟨hkind, hslave⟩ := lagMemberEvent_slave h
  rw [atBridge, lagDetails, h]
  exact ⟨kindType_tun hkind, hslave, rfl⟩

/-- What the handlers change before does not matter to the verdict of that of
the bridges. -/
theorem bridgeRefuses_atBridge (a : LinkAnswers) (m : LinkMsg) (c : IfCache) (b : IfBond)
    (br : IfBridge) :
    bridgeRefuses a (atBridge (linkDetails m c) b) br = bridgeRefuses a (linkDetails m c) br := by
  cases hevent : lagMemberEvent (linkDetails m c) b with
  | true =>
    have hslave : (linkDetails m c).slave = true := (lagMemberEvent_slave hevent).2
    rw [bridgeRefuses, bridgeRefuses, hslave, (atBridge_of_event hevent).2.1]
    simp
  | false =>
    rw [atBridge, lagDetails_of_not_event hevent, bridgeRefuses, bridgeRefuses]
    dsimp only
    cases hmaster : m.master with
    | none => simp [linkDetails, hmaster]
    | some masterIdx =>
      have hne : m.master ≠ none := by simp [hmaster]
      rw [kindType_tagged c hne]
      rfl

/-- The chain of all handlers: its verdict, and the tables behind it. -/
theorem ifHdlr_handlers (a : LinkAnswers) (m : LinkMsg) (db : IfDb) :
    let d := linkDetails m db.cache
    let db' : IfDb := { db with bond := bondAfter d db.bond }
    let bridged := bridgeAttrsHandler a (atBridge d db.bond) db'
    (ifHdlr a handlers d db).1 = accepts a d db ∧
      (accepts a d db = true →
        (ifHdlr a handlers d db).2.1 = (mgmtAttrsHandler a bridged.2.1 bridged.2.2).2.1) ∧
      (ifHdlr a handlers d db).2.2 =
        if !lagRefuses a d db && a.stgOk then bridged.2.2 else db' := by
  intro d db' bridged
  obtain ⟨hverdict, hdetails, hdb⟩ := ifHdlr_beforeBridge a d db
  have hchain : handlers = beforeBridge ++ [bridgeAttrsHandler, mgmtAttrsHandler] := rfl
  have hbridge : bridged.1 = !bridgeRefuses a d db.bridge := by
    have h := bridgeAttrsHandler_verdict a (atBridge d db.bond) db'
    rwa [bridgeRefuses_atBridge] at h
  rw [hchain, ifHdlr_append, accepts]
  cases hbefore : (ifHdlr a beforeBridge d db).1 with
  | false =>
    rw [if_neg (by simp), ← hverdict, hbefore, Bool.false_and]
    exact ⟨rfl, fun h => (nomatch h), hdb⟩
  | true =>
    rw [if_pos rfl, hdetails hbefore, hdb, ← hverdict, hbefore, Bool.true_and, ← hbridge]
    have hmgmt : ∀ d db, mgmtAttrsHandler a d db = (true, (mgmtAttrsHandler a d db).2.1, db) := by
      intro d db
      rw [mgmtAttrsHandler]
      split <;> rfl
    rw [ifHdlr]
    split
    · rename_i d1 db1 heq
      have hb : bridged = (false, d1, db1) := heq
      rw [hb]
      exact ⟨rfl, fun h => (nomatch h), rfl⟩
    · rename_i d1 db1 heq
      have hb : bridged = (true, d1, db1) := heq
      rw [hb, ifHdlr_cons_true (hmgmt d1 db1), ifHdlr]
      exact ⟨rfl, fun _ => rfl, rfl⟩

end OpxNasLinux
