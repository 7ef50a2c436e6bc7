import OpxNasLinux.IfHandlers
import OpxNasLinux.Lib.Run

/-!
# The names in the interface cache

A link message updates the entry of its interface and may take it out.  An
update of an entry that is there leaves its name, and a removal takes the name
out that the message carries.

* `ifHdlr_keeps`: the handlers leave the cache and the name alone.
* `linkStep_namesAgree_iff` is the step.
* `names_agree_iff` is the run.
-/

namespace OpxNasLinux

open Run IfCache

/-! ## What the handlers leave alone -/

/-- The handler of the bridges leaves the name and the link kind. -/
theorem bridgeAttrsHandler_keeps (a : LinkAnswers) (d : IfDetails) (db : IfDb) :
    (bridgeAttrsHandler a d db).2.1.ifName = d.ifName ∧
      (bridgeAttrsHandler a d db).2.1.infoKind = d.infoKind := by
  rw [bridgeAttrsHandler]
  split
  · exact ⟨rfl, rfl⟩
  split
  · exact ⟨rfl, rfl⟩
  split
  · exact ⟨rfl, rfl⟩
  split
  · exact ⟨rfl, rfl⟩
  rw [bridgeMemberAdd]
  split
  · split <;> exact ⟨rfl, rfl⟩
  split <;> exact ⟨rfl, rfl⟩

/-- The handlers leave the cache alone. -/
theorem ifHdlr_cache (a : LinkAnswers) (m : LinkMsg) (db : IfDb) :
    (ifHdlr a handlers (linkDetails m db.cache) db).2.2.cache = db.cache := by
  obtain ⟨-, -, hdb⟩ := ifHdlr_handlers a m db
  rw [hdb]
  split
  · exact (bridgeAttrsHandler_bridgesOnly a _ _).cache
  · rfl

/-- The handlers leave the name of an interface that they accept. -/
theorem ifHdlr_ifName {a : LinkAnswers} {m : LinkMsg} {db : IfDb}
    (h : accepts a (linkDetails m db.cache) db = true) :
    (ifHdlr a handlers (linkDetails m db.cache) db).2.1.ifName = m.ifName.getD [] := by
  obtain ⟨-, hdetails, -⟩ := ifHdlr_handlers a m db
  have hname := (bridgeAttrsHandler_keeps a (atBridge (linkDetails m db.cache) db.bond)
    { db with bond := bondAfter (linkDetails m db.cache) db.bond }).1.trans
      (atBridge_keeps (linkDetails m db.cache) db.bond).1
  rw [hdetails h, mgmtAttrsHandler]
  split <;> exact hname

/-- They leave its link kind. -/
theorem ifHdlr_infoKind {a : LinkAnswers} {m : LinkMsg} {db : IfDb}
    (h : accepts a (linkDetails m db.cache) db = true) :
    (ifHdlr a handlers (linkDetails m db.cache) db).2.1.infoKind =
      (linkDetails m db.cache).infoKind := by
  obtain ⟨-, hdetails, -⟩ := ifHdlr_handlers a m db
  have hkind := (bridgeAttrsHandler_keeps a (atBridge (linkDetails m db.cache) db.bond)
    { db with bond := bondAfter (linkDetails m db.cache) db.bond }).2.trans
      (atBridge_keeps (linkDetails m db.cache) db.bond).2.1
  rw [hdetails h, mgmtAttrsHandler]
  split <;> exact hkind

/-! ## The interface after a message -/

/-- An interface that a delete leaves in the cache: a member that goes out of
its bridge or bond, a MAC-VLAN interface, and one that was such a thing when it
came into the cache. -/
def staysInCache (d : IfDetails) (b : IfBond) : Bool :=
  decide (d.ifName ≠ "eth0".toList) &&
    (lagMemberEvent d b || (decide (d.type ≠ .bridge) && d.master.isSome) ||
      d.kindStarts "macvlan" || decide (d.type = .macvlan) || decide (d.type = .l2Port) ||
      (decide (d.type = .lag) && !d.kindStarts "bond"))

/-- The type when a delete has passed all handlers. -/
theorem type_after_delete {a : LinkAnswers} {m : LinkMsg} {db : IfDb}
    (hop : linkOp m db.cache = .delete)
    (haccepts : accepts a (linkDetails m db.cache) db = true) :
    let d := linkDetails m db.cache
    (ifHdlr a handlers d db).2.1.type =
      if d.ifName = "eth0".toList then .management
      else if lagMemberEvent d db.bond then .lag
      else if d.type ≠ .bridge ∧ d.master.isSome then .l2Port
      else kindType d := by
  intro d
  obtain ⟨-, hdetails, -⟩ := ifHdlr_handlers a m db
  obtain ⟨hname, -, hmaster, -⟩ := atBridge_keeps d db.bond
  rw [hdetails haccepts, mgmtAttrsHandler, (bridgeAttrsHandler_keeps a _ _).1, hname]
  split
  · rfl
  cases hevent : lagMemberEvent d db.bond with
  | true =>
    obtain ⟨htype, hslave, hat⟩ := atBridge_of_event hevent
    rw [bridgeAttrsHandler_type (Or.inr hslave), bridgeDeletes, htype, hat, hmaster]
    cases d.master <;> rfl
  | false =>
    obtain ⟨htype, hat⟩ := atBridge_of_not_event hevent
    have hdelete : (atBridge d db.bond).op = .delete := hat.trans hop
    rw [bridgeAttrsHandler_type (Or.inl hdelete), bridgeDeletes, htype, hdelete, hmaster]
    have hbridge := kindType_bridge_iff m db.cache
    by_cases htype : d.type = .bridge
    · rw [hbridge.mpr htype]
      simp [htype]
    · have hkind : kindType d ≠ .bridge := fun h => htype (hbridge.mp h)
      simp [htype, hkind]

/-- A delete that passes all handlers takes the interface out of the cache
exactly when it is not one that stays. -/
theorem leavesCache_eq {a : LinkAnswers} {m : LinkMsg} {db : IfDb}
    (haccepts : accepts a (linkDetails m db.cache) db = true) :
    leavesCache (linkOp m db.cache) (ifHdlr a handlers (linkDetails m db.cache) db).2.1 =
      (decide (linkOp m db.cache = .delete) &&
        !staysInCache (linkDetails m db.cache) db.bond) := by
  rw [leavesCache]
  by_cases hop : linkOp m db.cache = .delete
  swap
  · simp [hop]
  have htype := type_after_delete hop haccepts
  have hcases : kindType (linkDetails m db.cache) = (linkDetails m db.cache).type ∨
      (linkDetails m db.cache).type = .l3Port ∧ _ := kindType_cases m db.cache
  have hkind : (ifHdlr a handlers (linkDetails m db.cache) db).2.1.kindStarts "bond" =
      (linkDetails m db.cache).kindStarts "bond" := by
    rw [IfDetails.kindStarts, IfDetails.kindStarts, ifHdlr_infoKind haccepts]
  rw [hkind, htype, staysInCache, decide_eq_true hop, Bool.true_and, Bool.true_and]
  generalize linkDetails m db.cache = d at hcases
  split
  · rename_i hname
    simp [hname]
  rename_i hname
  rw [decide_eq_true hname, Bool.true_and]
  split
  · rename_i hevent
    have htun : ("tun", IfType.l3Port) ∈ kindTypes := by decide
    have hbond : d.kindStarts "bond" = false := @kindStarts_other d _ ("bond", .lag) htun
      (by decide) (by decide) (lagMemberEvent_slave hevent).1
    simp [hbond, hevent]
  rename_i hevent
  rw [Bool.eq_false_iff.mpr hevent]
  split
  · rename_i hmember
    simp [hmember.1, hmember.2]
  rename_i hmember
  have hnot : (decide (d.type ≠ .bridge) && d.master.isSome) = false := by
    simpa using hmember
  rw [hnot]
  cases hmac : d.kindStarts "macvlan" with
  | true =>
    rw [kindType_macvlan hmac]
    simp
  | false =>
    rcases hcases with h | ⟨hport, h | ⟨-, h⟩ | ⟨h, -⟩⟩
    · rw [h]
      cases d.type <;> cases d.kindStarts "bond" <;> rfl
    · rw [h, hport]
      rfl
    · rw [h, hport]
      rfl
    · rw [hmac] at h
      cases h

/-! ## The names after a message -/

/-- A message of the default VRF reaches the cache when every handler accepts
it. -/
def reachesCache (db : IfDb) (i : LinkInput) : Bool :=
  i.1.defaultVrf && accepts i.2 (linkDetails i.1 db.cache) db

/-- A delete takes its interface out of the cache. -/
def takesOut (db : IfDb) (i : LinkInput) : Bool :=
  decide (i.1.rtmType = .delLink) && !staysInCache (linkDetails i.1 db.cache) db.bond

/-- An interface that is new to the cache comes without a name or with one that
no other interface has.  An interface that leaves the cache has the name that
the cache has for it; one without a name there has none, or one that no other
interface has. -/
structure NamesKept (db : IfDb) (i : LinkInput) : Prop where
  new : reachesCache db i = true → takesOut db i = false →
    db.cache.ifInfoPresent i.1.ifindex = false → NameFree (i.1.ifName.getD []) db.cache
  leaves : reachesCache db i = true → takesOut db i = true →
    (db.cache.ifInfoGetName i.1.ifindex ≠ [] →
      i.1.ifName.getD [] = db.cache.ifInfoGetName i.1.ifindex) ∧
    (db.cache.ifInfoGetName i.1.ifindex = [] → NameFree (i.1.ifName.getD []) db.cache)

/-- The second update for a member that was taken out of a bridge finds the
entry of the first. -/
theorem ifInfoUpdate_twice_namesAgree_iff {c : IfCache} {ix : IfIndex} {info info' : IfInfo} :
    NamesAgree (ifInfoUpdate ix info' (ifInfoUpdate ix info c)) ↔
      NamesAgree (ifInfoUpdate ix info c) := by
  have hpresent : ∃ old, (ifInfoUpdate ix info c).ifMap.lookup ix = some old := by
    rw [ifInfoUpdate]
    split <;> exact ⟨_, AList.lookup_insert _⟩
  obtain ⟨old, hold⟩ := hpresent
  obtain ⟨hnames, hname⟩ := @ifInfoUpdate_known _ ix info' old hold
  rw [namesAgree_iff, namesAgree_iff, hnames]
  simp only [hname]

/-- A condition on the two ways a message ends, in one piece. -/
theorem namesKept_iff {db : IfDb} {m : LinkMsg} {a : LinkAnswers} :
    NamesKept db (m, a) ↔ (reachesCache db (m, a) = true →
      if takesOut db (m, a) then
        (db.cache.ifInfoGetName m.ifindex ≠ [] →
          m.ifName.getD [] = db.cache.ifInfoGetName m.ifindex) ∧
        (db.cache.ifInfoGetName m.ifindex = [] → NameFree (m.ifName.getD []) db.cache)
      else db.cache.ifInfoPresent m.ifindex = false → NameFree (m.ifName.getD []) db.cache) := by
  cases hout : takesOut db (m, a) with
  | true =>
    refine ⟨fun h hreach => h.leaves hreach hout, fun h => ⟨fun _ hno => ?_, ?_⟩⟩
    · rw [hout] at hno
      cases hno
    · exact fun hreach _ => h hreach
  | false =>
    refine ⟨fun h hreach => h.new hreach hout, fun h => ⟨?_, fun _ hyes => ?_⟩⟩
    · exact fun hreach _ => h hreach
    · rw [hout] at hyes
      cases hyes

/-- A message keeps the names in step under `NamesKept`, and only then. -/
theorem linkStep_namesAgree_iff {db : IfDb} (h : NamesAgree db.cache) (i : LinkInput) :
    NamesAgree (linkStep db i).cache ↔ NamesKept db i := by
  obtain ⟨m, a⟩ := i
  obtain ⟨hverdict, -, -⟩ := ifHdlr_handlers a m db
  have hcache := ifHdlr_cache a m db
  rw [namesKept_iff, linkStep, osInterfaceToObject, reachesCache]
  dsimp only
  split
  · rename_i d db' heq
    rw [heq] at hverdict hcache
    rw [← hverdict, Bool.and_false]
    exact iff_of_true (hcache ▸ h) fun hno => (nomatch hno)
  rename_i d db' heq
  rw [heq] at hverdict hcache
  have haccepts : accepts a (linkDetails m db.cache) db = true := hverdict.symm
  have hout : leavesCache (linkOp m db.cache) d = takesOut db (m, a) := by
    have hleaves := leavesCache_eq haccepts
    rw [heq] at hleaves
    simpa only [linkOp_delete_iff, takesOut] using hleaves
  have hinfo : (linkInfo m d).ifName = m.ifName.getD [] := by
    have hname := ifHdlr_ifName haccepts
    rwa [heq] at hname
  have hname : d.ifName = (linkInfo m d).ifName := rfl
  rw [haccepts, Bool.and_true]
  split
  · rename_i hvrf
    rw [hvrf, updateCache, hout, hname, ← hinfo, eq_self_iff_true, true_imp_iff]
    have hdb : db'.cache = db.cache := hcache
    dsimp only
    rw [hdb]
    split
    · exact forget_namesAgree_iff h
    · rw [← ifInfoUpdate_namesAgree_iff h]
      split
      · exact ifInfoUpdate_twice_namesAgree_iff
      · exact Iff.rfl
  · rename_i hvrf
    exact iff_of_true (hcache ▸ h) fun hreach => absurd hreach hvrf

/-- In every state of a run a name has an index exactly when the interface with
this index has the name, if every message keeps to `NamesKept`, and only
then. -/
theorem names_agree_iff (inputs : List LinkInput) :
    (∀ made, made <+: inputs → NamesAgree (run linkStep IfDb.empty made).cache) ↔
      Along linkStep NamesKept IfDb.empty inputs := by
  have hgood : ∀ db : IfDb, NamesAgree db.cache → NamesAgree db.cache := fun _ h => h
  have hstep : ∀ (db : IfDb) i, NamesAgree db.cache → NamesAgree (linkStep db i).cache →
      NamesKept db i := fun db i h => (linkStep_namesAgree_iff h i).mp
  have hkeep : ∀ (db : IfDb) i, NamesAgree db.cache → NamesKept db i →
      NamesAgree (linkStep db i).cache := fun db i h => (linkStep_namesAgree_iff h i).mpr
  exact prefixes_iff hgood hstep hkeep empty_namesAgree

/-- The name of an interface leads back to it. -/
theorem getIfindexFromName_run {inputs : List LinkInput}
    (hok : Along linkStep NamesKept IfDb.empty inputs) {n : Str} {ix : IfIndex} (hn : n ≠ []) :
    let c := (run linkStep IfDb.empty inputs).cache
    c.getIfindexFromName n = some ix ↔ c.ifInfoGetName ix = n := by
  intro c
  have hkeep : ∀ (db : IfDb) i, NamesAgree db.cache → NamesKept db i →
      NamesAgree (linkStep db i).cache := fun db i h => (linkStep_namesAgree_iff h i).mpr
  have hagree : NamesAgree c := run_preserves hkeep empty_namesAgree hok
  exact hagree.lookup_iff hn

/-- A port comes, goes, and another one takes its name. -/
example : Along linkStep NamesKept IfDb.empty
    [(sampleLink .newLink 5 "e101" (some "tun") none, sampleAnswers),
      (sampleLink .delLink 5 "e101" (some "tun") none, sampleAnswers),
      (sampleLink .newLink 6 "e101" (some "tun") none, sampleAnswers)] :=
  ⟨⟨by decide +kernel, by decide +kernel⟩, ⟨by decide +kernel, by decide +kernel⟩,
    ⟨by decide +kernel, by decide +kernel⟩, trivial⟩

/-- An interface that is renamed leaves its old name behind when it goes. -/
theorem renamed_interface_leaves_name :
    ¬ ∀ inputs : List LinkInput, NamesAgree (run linkStep IfDb.empty inputs).cache := by
  intro h
  have hone := h [(sampleLink .newLink 5 "e101" (some "tun") none, sampleAnswers),
    (sampleLink .newLink 5 "e102" (some "tun") none, sampleAnswers),
    (sampleLink .delLink 5 "e102" (some "tun") none, sampleAnswers)] "e101".toList 5 (by decide)
  obtain ⟨info, hinfo, -⟩ := hone.mp (by decide +kernel)
  have hgone : (run linkStep IfDb.empty
      [(sampleLink .newLink 5 "e101" (some "tun") none, sampleAnswers),
        (sampleLink .newLink 5 "e102" (some "tun") none, sampleAnswers),
        (sampleLink .delLink 5 "e102" (some "tun") none, sampleAnswers)]).cache.ifMap.lookup 5 =
      none := by decide +kernel
  rw [hgone] at hinfo
  cases hinfo

end OpxNasLinux
