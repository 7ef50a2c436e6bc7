import OpxNasLinux.IfHandlers
import OpxNasLinux.Lib.Run

/-!
# The members of the bridges

`if_bridge` has the tagged and the untagged members of every bridge, and
`mbr_intf_to_vlan_map` the bridges of every port.  A delete takes a member out
of the set that its type stands for, and this type need not be the one that the
member came with.

* `linkStep_delete`, `linkStep_delete_not` and `linkStep_other` are what a message
  does to the members and their ports.
* `memberGone_iff` is the delete of a member.
* `members_agree_iff` is the run.
-/

namespace OpxNasLinux

open Run

/-! ## Members and ports -/

/-- The members and the ports of all bridges stay. -/
structure SameMembers (db db' : IfDb) : Prop where
  tagged : ∀ b m, m ∈ db'.bridge.tagMap.under b ↔ m ∈ db.bridge.tagMap.under b
  untagged : ∀ b m, m ∈ db'.bridge.untagMap.under b ↔ m ∈ db.bridge.untagMap.under b
  part : ∀ b p, b ∈ db'.mbrIntfToVlanMap.under p ↔ b ∈ db.mbrIntfToVlanMap.under p

/-- A member goes out of one set of a bridge, and its port with it. -/
structure MemberLeft (tag : Bool) (masterIdx mbrIdx : IfIndex) (port : Option IfIndex)
    (db db' : IfDb) : Prop where
  tagged : ∀ b m, m ∈ db'.bridge.tagMap.under b ↔
    ¬ (tag = true ∧ b = masterIdx ∧ m = mbrIdx) ∧ m ∈ db.bridge.tagMap.under b
  untagged : ∀ b m, m ∈ db'.bridge.untagMap.under b ↔
    ¬ (tag = false ∧ b = masterIdx ∧ m = mbrIdx) ∧ m ∈ db.bridge.untagMap.under b
  part : ∀ b p, b ∈ db'.mbrIntfToVlanMap.under p ↔
    ¬ (port = some p ∧ b = masterIdx) ∧ b ∈ db.mbrIntfToVlanMap.under p

/-- A member comes into one set of a bridge, and its port with it. -/
structure MemberCame (tag : Bool) (masterIdx mbrIdx : IfIndex) (port : Option IfIndex)
    (db db' : IfDb) : Prop where
  tagged : ∀ b m, m ∈ db'.bridge.tagMap.under b ↔
    (tag = true ∧ b = masterIdx ∧ m = mbrIdx) ∨ m ∈ db.bridge.tagMap.under b
  untagged : ∀ b m, m ∈ db'.bridge.untagMap.under b ↔
    (tag = false ∧ b = masterIdx ∧ m = mbrIdx) ∨ m ∈ db.bridge.untagMap.under b
  part : ∀ b p, b ∈ db'.mbrIntfToVlanMap.under p ↔
    (port = some p ∧ b = masterIdx) ∨ b ∈ db.mbrIntfToVlanMap.under p

/-- A bridge is taken out of the list of a port, which goes when it is empty. -/
theorem mem_vlans_iff {vlans : Listing IfIndex IfIndex} {port b p : IfIndex} :
    b ∈ Listing.under (if vlans.under port = [] then vlans.erase port else vlans) p ↔
      b ∈ vlans.under p := by
  split
  · rename_i hempty
    rw [Listing.under_erase]
    split
    · rename_i heq
      rw [heq, hempty]
    · exact Iff.rfl
  · exact Iff.rfl

theorem memberOut_left (masterIdx : IfIndex) (a : LinkAnswers) (d : IfDetails) (db : IfDb) :
    MemberLeft d.type.tagged masterIdx d.ifindex (memberPort d.type.tagged a d.ifindex d.ifName) db
      (memberOut masterIdx a d db) := by
  have hsets : ∀ isTag add, (updateVlanInfo d.ifindex masterIdx d.ifName isTag add a
      (bridgeMbrDel d.type.tagged masterIdx d.ifindex db)).bridge =
        (bridgeMbrDel d.type.tagged masterIdx d.ifindex db).bridge := by
    intro isTag add
    rw [updateVlanInfo]
    split
    · rfl
    · split <;> rfl
  have hvlans : (bridgeMbrDel d.type.tagged masterIdx d.ifindex db).mbrIntfToVlanMap =
      db.mbrIntfToVlanMap := by
    rw [bridgeMbrDel]
    split <;> rfl
  rw [memberOut]
  constructor
  · intro b m
    rw [hsets, bridgeMbrDel]
    cases d.type.tagged with
    | true => simpa using Listing.mem_discard_iff
    | false => simp
  · intro b m
    rw [hsets, bridgeMbrDel]
    cases d.type.tagged with
    | true => simp
    | false => simpa using Listing.mem_discard_iff
  · intro b p
    rw [updateVlanInfo]
    cases memberPort d.type.tagged a d.ifindex d.ifName with
    | none => simp [hvlans]
    | some port =>
      simp only [Bool.false_eq_true, if_false, hvlans]
      rw [mem_vlans_iff, Listing.mem_discard_iff, Option.some.injEq, eq_comm (a := p)]

theorem memberIn_came (tag : Bool) (masterIdx : IfIndex) (a : LinkAnswers) (d : IfDetails)
    (db : IfDb) :
    MemberCame tag masterIdx d.ifindex (memberPort tag a d.ifindex d.ifName) db
      (memberIn tag masterIdx a d db) := by
  have hsets : (updateVlanInfo d.ifindex masterIdx d.ifName tag true a db).bridge = db.bridge := by
    rw [updateVlanInfo]
    split <;> rfl
  have hvlans : (bridgeMbrAdd tag masterIdx d.ifindex
      (updateVlanInfo d.ifindex masterIdx d.ifName tag true a db)).mbrIntfToVlanMap =
        (updateVlanInfo d.ifindex masterIdx d.ifName tag true a db).mbrIntfToVlanMap := by
    rw [bridgeMbrAdd]
    split <;> rfl
  rw [memberIn]
  constructor
  · intro b m
    rw [bridgeMbrAdd, hsets]
    cases tag with
    | true => simpa using Listing.mem_add_iff
    | false => simp
  · intro b m
    rw [bridgeMbrAdd, hsets]
    cases tag with
    | true => simp
    | false => simpa using Listing.mem_add_iff
  · intro b p
    rw [hvlans, updateVlanInfo]
    cases memberPort tag a d.ifindex d.ifName with
    | none => simp
    | some port =>
      simp only [if_true]
      rw [Listing.mem_add_iff, Option.some.injEq, eq_comm (a := p)]

/-! ## What a message does to them -/

/-- Apart from the cache the tables behind a message are those behind the
handlers. -/
theorem linkStep_handlers (db : IfDb) (i : LinkInput) :
    ∃ c, linkStep db i =
      { (ifHdlr i.2 handlers (linkDetails i.1 db.cache) db).2.2 with cache := c } := by
  rw [linkStep, osInterfaceToObject]
  split
  · rename_i d db' heq
    rw [heq]
    exact ⟨db'.cache, rfl⟩
  · rename_i d db' heq
    rw [heq]
    split
    · exact ⟨_, rfl⟩
    · exact ⟨db'.cache, rfl⟩

/-- The bonds and the cache do not matter to the members of the bridges. -/
theorem sameMembers_of_eq {db db' : IfDb} (hbridge : db'.bridge = db.bridge)
    (hvlans : db'.mbrIntfToVlanMap = db.mbrIntfToVlanMap) : SameMembers db db' := by
  constructor
  · intro b m
    rw [hbridge]
  · intro b m
    rw [hbridge]
  · intro b p
    rw [hvlans]

/-- A delete comes to the handler of the bridges as one, about something that is
not a bridge. -/
structure DeleteReaches (db : IfDb) (i : LinkInput) : Prop where
  lag : lagMemberEvent (linkDetails i.1 db.cache) db.bond = false
  stg : i.2.stgOk = true
  type : linkType i.1 db.cache ≠ .bridge

/-- The port of the interface of a message, for one of the two sets. -/
def messagePort (tag : Bool) (i : LinkInput) : Option IfIndex :=
  memberPort tag i.2 i.1.ifindex (i.1.ifName.getD [])

/-- The details and the tables with which a message comes to the handler of the
bridges. -/
def comingDetails (db : IfDb) (i : LinkInput) : IfDetails :=
  atBridge (linkDetails i.1 db.cache) db.bond

def comingTables (db : IfDb) (i : LinkInput) : IfDb :=
  { db with bond := bondAfter (linkDetails i.1 db.cache) db.bond }

/-- What the handler of the bridges makes of a message with a master. -/
theorem linkStep_bridged {db : IfDb} {i : LinkInput} {masterIdx : IfIndex}
    (hmaster : i.1.master = some masterIdx) :
    ∃ c, linkStep db i =
      { (if !lagRefuses i.2 (linkDetails i.1 db.cache) db && i.2.stgOk then
          if bridgeDeletes (comingDetails db i) then
            memberOut masterIdx i.2 (comingDetails db i) (comingTables db i)
          else if bridgeOffers (comingDetails db i) &&
              bridgeLacks i.2 masterIdx i.1.ifindex db.bridge then
            memberIn (!((comingDetails db i).kindStarts "tun" ||
                decide ((comingDetails db i).type = .lag)))
              masterIdx i.2 (comingDetails db i) (comingTables db i)
          else comingTables db i
        else comingTables db i) with cache := c } := by
  obtain ⟨c, hstep⟩ := linkStep_handlers db i
  obtain ⟨-, -, hdb⟩ := ifHdlr_handlers i.2 i.1 db
  obtain ⟨-, -, hmasterAt, hindex⟩ := atBridge_keeps (linkDetails i.1 db.cache) db.bond
  refine ⟨c, ?_⟩
  rw [hstep, hdb, bridgeAttrsHandler_db, hmasterAt.trans hmaster, hindex]
  rfl

/-- A message comes as a delete of a member when it is one and the bonds do not
take it over. -/
theorem bridgeDeletes_iff {db : IfDb} {i : LinkInput} {masterIdx : IfIndex}
    (hmaster : i.1.master = some masterIdx) :
    bridgeDeletes (comingDetails db i) = true ↔
      i.1.rtmType = .delLink ∧ lagMemberEvent (linkDetails i.1 db.cache) db.bond = false ∧
        linkType i.1 db.cache ≠ .bridge := by
  have hmasterAt : (comingDetails db i).master = some masterIdx :=
    (atBridge_keeps _ _).2.2.1.trans hmaster
  have hsome : (linkDetails i.1 db.cache).master.isSome = true :=
    Option.isSome_iff_exists.mpr ⟨masterIdx, hmaster⟩
  rw [bridgeDeletes, hmasterAt, comingDetails, ← linkOp_delete_iff i.1 db.cache]
  cases hevent : lagMemberEvent (linkDetails i.1 db.cache) db.bond with
  | true =>
    obtain ⟨-, -, hop⟩ := atBridge_of_event hevent
    rw [hop, hsome]
    simp
  | false =>
    obtain ⟨htype, hop⟩ := atBridge_of_not_event hevent
    have hbridge : kindType (linkDetails i.1 db.cache) ≠ .bridge ↔
        linkType i.1 db.cache ≠ .bridge := not_congr (kindType_bridge_iff i.1 db.cache)
    have hdelete : (linkDetails i.1 db.cache).op = linkOp i.1 db.cache := rfl
    rw [htype, hop, hdelete]
    simp only [Bool.and_eq_true, decide_eq_true_eq, Option.isSome_some, true_and]
    rw [hbridge, and_comm]

/-- A delete takes its interface out of the set that the type stands for, if it
reaches the handler. -/
theorem linkStep_delete {db : IfDb} {i : LinkInput} {masterIdx : IfIndex}
    (hdelete : i.1.rtmType = .delLink) (hmaster : i.1.master = some masterIdx)
    (hreaches : DeleteReaches db i) :
    MemberLeft (linkType i.1 db.cache).tagged masterIdx i.1.ifindex
      (messagePort (linkType i.1 db.cache).tagged i) db (linkStep db i) := by
  obtain ⟨c, hstep⟩ := @linkStep_bridged db i masterIdx hmaster
  obtain ⟨hname, -, -, hindex⟩ := atBridge_keeps (linkDetails i.1 db.cache) db.bond
  have hrefuses : lagRefuses i.2 (linkDetails i.1 db.cache) db = false := by
    rw [lagRefuses, hreaches.lag, Bool.false_and]
  have hgoes : bridgeDeletes (comingDetails db i) = true :=
    (bridgeDeletes_iff hmaster).mpr ⟨hdelete, hreaches.lag, hreaches.type⟩
  have hne : i.1.master ≠ none := by
    rw [hmaster]
    exact Option.some_ne_none _
  have hleft := memberOut_left masterIdx i.2 (comingDetails db i) (comingTables db i)
  rw [comingDetails, (atBridge_of_not_event hreaches.lag).1, kindType_tagged db.cache hne, hindex,
    hname] at hleft
  rw [hstep, hrefuses, hreaches.stg, hgoes]
  exact ⟨hleft.tagged, hleft.untagged, hleft.part⟩

/-- Otherwise a delete changes nothing. -/
theorem linkStep_delete_not {db : IfDb} {i : LinkInput} {masterIdx : IfIndex}
    (hdelete : i.1.rtmType = .delLink) (hmaster : i.1.master = some masterIdx)
    (hnot : ¬ DeleteReaches db i) : SameMembers db (linkStep db i) := by
  obtain ⟨c, hstep⟩ := @linkStep_bridged db i masterIdx hmaster
  rw [hstep]
  split
  swap
  · exact sameMembers_of_eq rfl rfl
  rename_i hpasses
  rw [Bool.and_eq_true] at hpasses
  split
  · rename_i hgoes
    obtain ⟨-, hlag, htype⟩ := (bridgeDeletes_iff hmaster).mp hgoes
    exact absurd ⟨hlag, hpasses.2, htype⟩ hnot
  split
  · rename_i hgoes hoffers
    rw [bridgeOffers] at hoffers
    simp only [Bool.and_eq_true, decide_eq_true_eq, Bool.not_eq_true'] at hoffers
    obtain ⟨⟨⟨-, hop⟩, ⟨-, hslave⟩, -⟩, -⟩ := hoffers
    cases hevent : lagMemberEvent (linkDetails i.1 db.cache) db.bond with
    | true =>
      rw [comingDetails, (atBridge_of_event hevent).2.1] at hslave
      cases hslave
    | false =>
      have hop' := (linkOp_delete_iff i.1 db.cache).mpr hdelete
      exact absurd ((atBridge_of_not_event hevent).2.trans hop') hop
  · exact sameMembers_of_eq rfl rfl

/-- Any other message changes nothing, or it puts its interface into a bridge
that did not have it. -/
theorem linkStep_other {db : IfDb} {i : LinkInput}
    (h : i.1.rtmType ≠ .delLink ∨ i.1.master = none) :
    SameMembers db (linkStep db i) ∨
      ∃ masterIdx tag, i.1.master = some masterIdx ∧
        db.bridge.bridgeMbrPresent masterIdx i.1.ifindex = false ∧
        MemberCame tag masterIdx i.1.ifindex (messagePort tag i) db (linkStep db i) := by
  cases hmaster : i.1.master with
  | none =>
    obtain ⟨c, hstep⟩ := linkStep_handlers db i
    obtain ⟨-, -, hdb⟩ := ifHdlr_handlers i.2 i.1 db
    obtain ⟨-, -, hmasterAt, -⟩ := atBridge_keeps (linkDetails i.1 db.cache) db.bond
    rw [hstep, hdb, bridgeAttrsHandler_db, hmasterAt.trans hmaster]
    left
    split <;> exact sameMembers_of_eq rfl rfl
  | some masterIdx =>
    obtain ⟨c, hstep⟩ := @linkStep_bridged db i masterIdx hmaster
    obtain ⟨hname, -, -, hindex⟩ := atBridge_keeps (linkDetails i.1 db.cache) db.bond
    have hstays : ¬ bridgeDeletes (comingDetails db i) = true := by
      intro hgoes
      rcases h with hother | hnone
      · exact hother ((bridgeDeletes_iff hmaster).mp hgoes).1
      · rw [hmaster] at hnone
        cases hnone
    rw [hstep, if_neg hstays]
    split
    swap
    · exact Or.inl (sameMembers_of_eq rfl rfl)
    split
    · rename_i hoffers
      rw [bridgeLacks] at hoffers
      simp only [Bool.and_eq_true, Bool.not_eq_true'] at hoffers
      have hcame := memberIn_came
        (!((comingDetails db i).kindStarts "tun" || decide ((comingDetails db i).type = .lag)))
        masterIdx i.2 (comingDetails db i) (comingTables db i)
      have hport : messagePort (!((comingDetails db i).kindStarts "tun" ||
          decide ((comingDetails db i).type = .lag))) i =
            memberPort (!((comingDetails db i).kindStarts "tun" ||
              decide ((comingDetails db i).type = .lag))) i.2 (comingDetails db i).ifindex
                (comingDetails db i).ifName := by
        rw [messagePort, comingDetails, hindex, hname]
        rfl
      have hix : (comingDetails db i).ifindex = i.1.ifindex := hindex
      rw [← hport, hix] at hcame
      exact Or.inr ⟨masterIdx, _, rfl, hoffers.2.1,
        ⟨hcame.tagged, hcame.untagged, hcame.part⟩⟩
    · exact Or.inl (sameMembers_of_eq rfl rfl)

/-! ## The ports that came with the members -/

/-- The tables, and beside them the port that the add of every member
recorded. -/
structure BridgeHistory where
  db : IfDb
  ports : Dict (IfIndex × IfIndex) IfIndex

namespace BridgeHistory

/-- Before the first message. -/
def start : BridgeHistory := ⟨IfDb.empty, ∅⟩

/-- A message puts its interface into a bridge. -/
def Comes (g : BridgeHistory) (i : LinkInput) (masterIdx : IfIndex) : Prop :=
  g.db.bridge.bridgeMbrPresent masterIdx i.1.ifindex = false ∧
    (linkStep g.db i).bridge.bridgeMbrPresent masterIdx i.1.ifindex = true

instance (g : BridgeHistory) (i : LinkInput) (masterIdx : IfIndex) :
    Decidable (g.Comes i masterIdx) := inferInstanceAs (Decidable (_ ∧ _))

/-- The ports after the interface of a message came into a bridge. -/
def record (g : BridgeHistory) (i : LinkInput) (masterIdx : IfIndex) :
    Dict (IfIndex × IfIndex) IfIndex :=
  match messagePort ((linkStep g.db i).bridge.bridgeTagMbrPresent masterIdx i.1.ifindex) i with
  | some port => g.ports.insert (masterIdx, i.1.ifindex) port
  | none => g.ports.erase (masterIdx, i.1.ifindex)

/-- The tables and the ports after a message. -/
def step (g : BridgeHistory) (i : LinkInput) : BridgeHistory where
  db := linkStep g.db i
  ports :=
    match i.1.master with
    | some masterIdx => if g.Comes i masterIdx then g.record i masterIdx else g.ports
    | none => g.ports

/-- The ports change nothing in the tables. -/
theorem run_db (g : BridgeHistory) (inputs : List LinkInput) :
    (run step g inputs).db = run linkStep g.db inputs := by
  induction inputs generalizing g with
  | nil => rfl
  | cons i rest ih => exact ih (g.step i)

end BridgeHistory

/-- No interface is a tagged and an untagged member of one bridge, and the port
of an untagged member is the member itself. -/
structure BridgesKept (g : BridgeHistory) : Prop where
  disjoint : ∀ b m, m ∈ g.db.bridge.tagMap.under b → m ∉ g.db.bridge.untagMap.under b
  untagged : ∀ b m p, m ∈ g.db.bridge.untagMap.under b → g.ports.lookup (b, m) = some p → p = m

theorem start_bridgesKept : BridgesKept BridgeHistory.start where
  disjoint := fun _ _ h => absurd h List.not_mem_nil
  untagged := fun _ _ _ h => absurd h List.not_mem_nil

/-- A member of a bridge is in one of its two sets. -/
theorem bridgeMbrPresent_iff {br : IfBridge} {b m : IfIndex} :
    br.bridgeMbrPresent b m = true ↔ m ∈ br.tagMap.under b ∨ m ∈ br.untagMap.under b := by
  rw [IfBridge.bridgeMbrPresent, IfBridge.bridgeTagMbrPresent, Bool.or_eq_true, decide_eq_true_iff,
    decide_eq_true_iff]

theorem bridgeMbrPresent_false_iff {br : IfBridge} {b m : IfIndex} :
    br.bridgeMbrPresent b m = false ↔ m ∉ br.tagMap.under b ∧ m ∉ br.untagMap.under b := by
  rw [← Bool.not_eq_true, bridgeMbrPresent_iff, not_or]

/-- A message after which no set has a new member. -/
theorem BridgesKept.of_subset {g : BridgeHistory} {i : LinkInput} (h : BridgesKept g)
    (htag : ∀ b m, m ∈ (linkStep g.db i).bridge.tagMap.under b → m ∈ g.db.bridge.tagMap.under b)
    (huntag : ∀ b m, m ∈ (linkStep g.db i).bridge.untagMap.under b →
      m ∈ g.db.bridge.untagMap.under b) : BridgesKept (g.step i) := by
  have hports : (g.step i).ports = g.ports := by
    rw [BridgeHistory.step]
    split
    · rename_i masterIdx hmaster
      refine if_neg ?_
      rintro ⟨hbefore, hafter⟩
      obtain ⟨hnotag, hnountag⟩ := bridgeMbrPresent_false_iff.mp hbefore
      rcases bridgeMbrPresent_iff.mp hafter with hmem | hmem
      · exact hnotag (htag _ _ hmem)
      · exact hnountag (huntag _ _ hmem)
    · rfl
  constructor
  · intro b m hmem hmem'
    exact h.disjoint b m (htag b m hmem) (huntag b m hmem')
  · intro b m p hmem hlookup
    rw [hports] at hlookup
    exact h.untagged b m p (huntag b m hmem) hlookup

/-- A message that puts its interface into one set of a bridge. -/
theorem BridgesKept.of_came {g : BridgeHistory} {i : LinkInput} (h : BridgesKept g)
    {masterIdx : IfIndex} {tag : Bool} (hmaster : i.1.master = some masterIdx)
    (hnew : g.db.bridge.bridgeMbrPresent masterIdx i.1.ifindex = false)
    (hcame : MemberCame tag masterIdx i.1.ifindex (messagePort tag i) g.db (linkStep g.db i)) :
    BridgesKept (g.step i) := by
  obtain ⟨hnotag, hnountag⟩ := bridgeMbrPresent_false_iff.mp hnew
  constructor
  · intro b m hmem hmem'
    rcases (hcame.tagged b m).mp hmem with ⟨htag, rfl, rfl⟩ | hold
    · rcases (hcame.untagged _ _).mp hmem' with ⟨hno, -, -⟩ | hold'
      · rw [htag] at hno
        cases hno
      · exact hnountag hold'
    · rcases (hcame.untagged b m).mp hmem' with ⟨-, rfl, rfl⟩ | hold'
      · exact hnotag hold
      · exact h.disjoint b m hold hold'
  · intro b m p hmem hlookup
    have hcomes : g.Comes i masterIdx := by
      refine ⟨hnew, bridgeMbrPresent_iff.mpr ?_⟩
      cases tag with
      | true => exact Or.inl ((hcame.tagged _ _).mpr (Or.inl ⟨rfl, rfl, rfl⟩))
      | false => exact Or.inr ((hcame.untagged _ _).mpr (Or.inl ⟨rfl, rfl, rfl⟩))
    have hports : (g.step i).ports = g.record i masterIdx := by
      rw [BridgeHistory.step, hmaster]
      exact if_pos hcomes
    rw [hports, BridgeHistory.record] at hlookup
    rcases (hcame.untagged b m).mp hmem with ⟨htag, rfl, rfl⟩ | hold
    · -- the new member is not tagged, and its port is itself
      have hset : (linkStep g.db i).bridge.bridgeTagMbrPresent b i.1.ifindex = false := by
        rw [IfBridge.bridgeTagMbrPresent, decide_eq_false_iff_not, hcame.tagged, htag]
        simp [hnotag]
      rw [hset] at hlookup
      have hport : messagePort false i = some i.1.ifindex := rfl
      rw [hport] at hlookup
      dsimp only at hlookup
      rw [AList.lookup_insert] at hlookup
      exact (Option.some.inj hlookup).symm
    · have hother : (b, m) ≠ (masterIdx, i.1.ifindex) := by
        intro heq
        obtain ⟨rfl, rfl⟩ := Prod.mk.inj heq
        exact hnountag hold
      split at hlookup
      · rw [AList.lookup_insert_ne hother] at hlookup
        exact h.untagged b m p hold hlookup
      · rw [AList.lookup_erase_ne hother] at hlookup
        exact h.untagged b m p hold hlookup

/-- Every message keeps the sets apart. -/
theorem step_bridgesKept {g : BridgeHistory} (h : BridgesKept g) (i : LinkInput) :
    BridgesKept (g.step i) := by
  by_cases hdelete : i.1.rtmType = .delLink ∧ i.1.master ≠ none
  · obtain ⟨masterIdx, hmaster⟩ := Option.ne_none_iff_exists'.mp hdelete.2
    by_cases hreaches : DeleteReaches g.db i
    · have hleft := linkStep_delete hdelete.1 hmaster hreaches
      exact h.of_subset (fun b m hmem => ((hleft.tagged b m).mp hmem).2)
        fun b m hmem => ((hleft.untagged b m).mp hmem).2
    · have hsame := linkStep_delete_not hdelete.1 hmaster hreaches
      exact h.of_subset (fun b m => (hsame.tagged b m).mp) fun b m => (hsame.untagged b m).mp
  · have hother : i.1.rtmType ≠ .delLink ∨ i.1.master = none := by
      rcases not_and_or.mp hdelete with hno | hno
      · exact Or.inl hno
      · exact Or.inr (not_not.mp hno)
    rcases @linkStep_other g.db i hother with hsame | ⟨masterIdx, tag, hmaster, hnew, hcame⟩
    · exact h.of_subset (fun b m => (hsame.tagged b m).mp) fun b m => (hsame.untagged b m).mp
    · exact h.of_came hmaster hnew hcame

/-! ## The delete of a member -/

/-- A delete of a member of a bridge, which is not a bridge itself. -/
structure MemberDelete (g : BridgeHistory) (i : LinkInput) (masterIdx : IfIndex) : Prop where
  rtmType : i.1.rtmType = .delLink
  master : i.1.master = some masterIdx
  kind : i.1.infoKind ≠ some "bridge".toList
  member : g.db.bridge.bridgeMbrPresent masterIdx i.1.ifindex = true

/-- The member is gone, its port is not that of the bridge unless another member
has it, and the next add is not taken for a second one. -/
structure MemberGone (g : BridgeHistory) (i : LinkInput) (masterIdx : IfIndex) : Prop where
  gone : (linkStep g.db i).bridge.bridgeMbrPresent masterIdx i.1.ifindex = false
  port : ∀ p, g.ports.lookup (masterIdx, i.1.ifindex) = some p →
    (linkStep g.db i).nasOsIsPortPartOfVlan masterIdx p = true →
      ∃ m, (linkStep g.db i).bridge.bridgeMbrPresent masterIdx m = true ∧
        g.ports.lookup (masterIdx, m) = some p
  again : ∀ memName tag a, a.isMember = true →
    (vlanBridgeHandler masterIdx i.1.ifindex memName tag a (linkStep g.db i)).1 = true

/-- The delete reaches the handler of the bridges with the type that stands for
the set of the member.  The name of a tagged member leads to the port that its
add recorded, where the bridge has this port and no other member does. -/
structure DeleteMatches (g : BridgeHistory) (i : LinkInput) (masterIdx : IfIndex) : Prop where
  reaches : DeleteReaches g.db i
  set : (linkType i.1 g.db.cache).tagged =
    g.db.bridge.bridgeTagMbrPresent masterIdx i.1.ifindex
  port : (linkType i.1 g.db.cache).tagged = true →
    ∀ p, g.ports.lookup (masterIdx, i.1.ifindex) = some p →
      messagePort true i = some p ∨ g.db.nasOsIsPortPartOfVlan masterIdx p = false ∨
        ∃ m, m ≠ i.1.ifindex ∧ g.db.bridge.bridgeMbrPresent masterIdx m = true ∧
          g.ports.lookup (masterIdx, m) = some p

theorem nasOsIsPortPartOfVlan_iff {db : IfDb} {b p : IfIndex} :
    db.nasOsIsPortPartOfVlan b p = true ↔ b ∈ db.mbrIntfToVlanMap.under p := by
  rw [IfDb.nasOsIsPortPartOfVlan, decide_eq_true_iff]

/-- The delete of a member leaves the other members. -/
theorem MemberLeft.other {tag : Bool} {masterIdx mbrIdx : IfIndex} {port : Option IfIndex}
    {db db' : IfDb} (h : MemberLeft tag masterIdx mbrIdx port db db') {b m : IfIndex}
    (hne : m ≠ mbrIdx) : db'.bridge.bridgeMbrPresent b m = db.bridge.bridgeMbrPresent b m := by
  rw [Bool.eq_iff_iff, bridgeMbrPresent_iff, bridgeMbrPresent_iff, h.tagged, h.untagged]
  simp [hne]

section

variable {g : BridgeHistory} {i : LinkInput} {masterIdx : IfIndex}

/-- A member that is gone went out of a set, so that the delete reached the
handler. -/
theorem MemberGone.reaches (hgone : MemberGone g i masterIdx)
    (hdelete : MemberDelete g i masterIdx) : DeleteReaches g.db i := by
  by_contra hnot
  obtain ⟨hnotag, hnountag⟩ := bridgeMbrPresent_false_iff.mp hgone.gone
  have hsame := linkStep_delete_not hdelete.rtmType hdelete.master hnot
  rcases bridgeMbrPresent_iff.mp hdelete.member with htag | huntag
  · exact hnotag ((hsame.tagged _ _).mpr htag)
  · exact hnountag ((hsame.untagged _ _).mpr huntag)

/-- It went out of the set that it was in. -/
theorem MemberGone.set (hgone : MemberGone g i masterIdx)
    (hdelete : MemberDelete g i masterIdx) :
    (linkType i.1 g.db.cache).tagged =
      g.db.bridge.bridgeTagMbrPresent masterIdx i.1.ifindex := by
  have hmember := bridgeMbrPresent_iff.mp hdelete.member
  have hleft := linkStep_delete hdelete.rtmType hdelete.master (hgone.reaches hdelete)
  obtain ⟨hnotag, hnountag⟩ := bridgeMbrPresent_false_iff.mp hgone.gone
  rw [hleft.tagged] at hnotag
  rw [hleft.untagged] at hnountag
  rw [IfBridge.bridgeTagMbrPresent]
  cases htag : (linkType i.1 g.db.cache).tagged with
  | true =>
    rw [htag] at hnountag
    have hmem := hmember.resolve_right fun huntag => hnountag ⟨by simp, huntag⟩
    exact (decide_eq_true hmem).symm
  | false =>
    rw [htag] at hnotag
    exact (decide_eq_false fun hmem => hnotag ⟨by simp, hmem⟩).symm

/-- A port that stays with the bridge is that of another member. -/
theorem MemberGone.matches (hgone : MemberGone g i masterIdx)
    (hdelete : MemberDelete g i masterIdx) : DeleteMatches g i masterIdx := by
  have hleft := linkStep_delete hdelete.rtmType hdelete.master (hgone.reaches hdelete)
  refine ⟨hgone.reaches hdelete, hgone.set hdelete, fun htag p hp => ?_⟩
  by_cases hport : messagePort true i = some p
  · exact Or.inl hport
  refine Or.inr ?_
  cases hpart : g.db.nasOsIsPortPartOfVlan masterIdx p with
  | false => exact Or.inl rfl
  | true =>
    have hstays : (linkStep g.db i).nasOsIsPortPartOfVlan masterIdx p = true := by
      rw [nasOsIsPortPartOfVlan_iff] at hpart ⊢
      rw [htag] at hleft
      exact (hleft.part _ _).mpr ⟨fun hboth => hport hboth.1, hpart⟩
    obtain ⟨m, hm, hmp⟩ := hgone.port p hp hstays
    have hne : m ≠ i.1.ifindex := by
      rintro rfl
      rw [hgone.gone] at hm
      cases hm
    exact Or.inr ⟨m, hne, (hleft.other hne).symm.trans hm, hmp⟩

/-- The member goes out of the one set that it is in. -/
theorem DeleteMatches.gone (hmatches : DeleteMatches g i masterIdx) (h : BridgesKept g)
    (hdelete : MemberDelete g i masterIdx) :
    (linkStep g.db i).bridge.bridgeMbrPresent masterIdx i.1.ifindex = false := by
  have hleft := linkStep_delete hdelete.rtmType hdelete.master hmatches.reaches
  have hset := hmatches.set
  rw [IfBridge.bridgeTagMbrPresent] at hset
  rw [bridgeMbrPresent_false_iff, hleft.tagged, hleft.untagged]
  cases htag : (linkType i.1 g.db.cache).tagged with
  | true =>
    rw [htag] at hset
    have hnot := h.disjoint _ _ (of_decide_eq_true hset.symm)
    simp [hnot]
  | false =>
    rw [htag] at hset
    have hnot := of_decide_eq_false hset.symm
    simp [hnot]

/-- Its port goes with it, unless another member has it. -/
theorem DeleteMatches.portGone (hmatches : DeleteMatches g i masterIdx) (h : BridgesKept g)
    (hdelete : MemberDelete g i masterIdx) {p : IfIndex}
    (hp : g.ports.lookup (masterIdx, i.1.ifindex) = some p)
    (hpart : (linkStep g.db i).nasOsIsPortPartOfVlan masterIdx p = true) :
    ∃ m, (linkStep g.db i).bridge.bridgeMbrPresent masterIdx m = true ∧
      g.ports.lookup (masterIdx, m) = some p := by
  have hleft := linkStep_delete hdelete.rtmType hdelete.master hmatches.reaches
  have hset := hmatches.set
  rw [IfBridge.bridgeTagMbrPresent] at hset
  rw [nasOsIsPortPartOfVlan_iff, hleft.part] at hpart
  obtain ⟨hnot, hpart⟩ := hpart
  cases htag : (linkType i.1 g.db.cache).tagged with
  | true =>
    rw [htag] at hnot
    rcases hmatches.port htag p hp with hsame | hnone | ⟨m, hne, hm, hmp⟩
    · exact absurd ⟨hsame, rfl⟩ hnot
    · rw [nasOsIsPortPartOfVlan_iff.mpr hpart] at hnone
      cases hnone
    · exact ⟨m, (hleft.other hne).trans hm, hmp⟩
  | false =>
    rw [htag] at hset hnot
    have huntag := (bridgeMbrPresent_iff.mp hdelete.member).resolve_left
      (of_decide_eq_false hset.symm)
    have hself : messagePort false i = some p := by
      rw [h.untagged _ _ p huntag hp]
      rfl
    exact absurd ⟨hself, rfl⟩ hnot

/-- A delete works exactly when it matches what the add of the member did. -/
theorem memberGone_iff (h : BridgesKept g) (hdelete : MemberDelete g i masterIdx) :
    MemberGone g i masterIdx ↔ DeleteMatches g i masterIdx := by
  refine ⟨fun hgone => hgone.matches hdelete, fun hmatches => ?_⟩
  have hgone := hmatches.gone h hdelete
  refine ⟨hgone, fun p hp hpart => hmatches.portGone h hdelete hp hpart, fun memName tag a ha => ?_⟩
  rw [vlanBridgeHandler, hgone, ha]
  rfl

end

/-- In a run every delete of a member works if every one matches the add, and
only then; and no interface is ever in both sets of a bridge. -/
theorem members_agree_iff (inputs : List LinkInput) :
    (Along BridgeHistory.step
        (fun g i => ∀ masterIdx, MemberDelete g i masterIdx → MemberGone g i masterIdx)
        BridgeHistory.start inputs ↔
      Along BridgeHistory.step
        (fun g i => ∀ masterIdx, MemberDelete g i masterIdx → DeleteMatches g i masterIdx)
        BridgeHistory.start inputs) ∧
    ∀ masterIdx mbrIdx,
      let br := (run linkStep IfDb.empty inputs).bridge
      ¬ (mbrIdx ∈ br.tagMap.under masterIdx ∧ mbrIdx ∈ br.untagMap.under masterIdx) := by
  have hkeep : ∀ (g : BridgeHistory) i, BridgesKept g → BridgesKept (g.step i) :=
    fun g i h => step_bridgesKept h i
  constructor
  · refine along_iff ?_ (fun g i h _ => hkeep g i h) start_bridgesKept
    intro g i h
    exact forall_congr' fun masterIdx => forall_congr' fun hdelete => memberGone_iff h hdelete
  · rintro masterIdx mbrIdx br ⟨htag, huntag⟩
    have hrun := run_invariant hkeep inputs start_bridgesKept
    have hdb : (run BridgeHistory.step BridgeHistory.start inputs).db.bridge = br :=
      congrArg IfDb.bridge (BridgeHistory.run_db BridgeHistory.start inputs)
    rw [← hdb] at htag huntag
    exact hrun.disjoint masterIdx mbrIdx htag huntag

/-- A VLAN interface comes into a bridge and goes, with its link kind. -/
example : DeleteMatches
    (run BridgeHistory.step BridgeHistory.start
      [(sampleLink .newLink 7 "e101.10" (some "vlan") (some 30), sampleAnswers)])
    (sampleLink .delLink 7 "e101.10" (some "vlan") (some 30), sampleAnswers) 30 := by
  refine ⟨⟨by decide +kernel, rfl, by decide +kernel⟩, by decide +kernel, fun _ p hp => ?_⟩
  have hport : (run BridgeHistory.step BridgeHistory.start
      [(sampleLink .newLink 7 "e101.10" (some "vlan") (some 30), sampleAnswers)]).ports.lookup
        (30, 7) = some 2 := by decide +kernel
  have hname : messagePort true
      (sampleLink .delLink 7 "e101.10" (some "vlan") (some 30), sampleAnswers) = some 2 := by
    decide +kernel
  exact Or.inl (hname.trans (hport.symm.trans hp))

/-- A VLAN interface comes into a bridge with its link kind and is a port in the
cache, so that a delete without one leaves it in the bridge. -/
theorem ghost_member_stays :
    ¬ ∀ inputs : List LinkInput, Along BridgeHistory.step
        (fun g i => ∀ masterIdx, MemberDelete g i masterIdx → MemberGone g i masterIdx)
        BridgeHistory.start inputs := by
  intro h
  obtain ⟨-, hdelete, -⟩ := h
    [(sampleLink .newLink 7 "e101.10" (some "vlan") (some 30), sampleAnswers),
      (sampleLink .delLink 7 "e101.10" none (some 30), sampleAnswers)]
  have hgone := (hdelete 30 ⟨rfl, rfl, by decide, by decide +kernel⟩).gone
  have hstays : (run linkStep IfDb.empty
      [(sampleLink .newLink 7 "e101.10" (some "vlan") (some 30), sampleAnswers),
        (sampleLink .delLink 7 "e101.10" none (some 30), sampleAnswers)]).bridge.bridgeMbrPresent
          30 7 = true := by decide +kernel
  exact absurd (hstays.symm.trans hgone) (by decide)

end OpxNasLinux
