import OpxNasLinux.Lib.Follow
import OpxNasLinux.McastCache

/-!
# The events of the multicast snooping

`update_cache` reads the routers and the groups from the kernel and publishes
what changed.  An event names the VLAN of the bridge, and the VLAN is looked up
when the event is published.  A lookup that finds nothing skips the event, but
the cache is advanced all the same.

* `updateCacheSet_follow` is the update of one set: a subscriber that had the
  old set has the new one when every lookup finds the VLAN.
* `subscriber_follows_cache` is the run.
-/

namespace OpxNasLinux

open Run Follow

namespace Mcast

variable {Addr : Type} [DecidableEq Addr]

/-! ## The poll -/

/-- One turn of `update_cache`: what the lookups find, and the routers and the
groups that `get_igmp_snooping_route` reads, or its failure. -/
structure Poll where
  lookups : Lookups
  mcSnoopInfo : Option (List McastRouterInfo × List McastGroupInfo)

/-- `update_cache`: the events and the manager after it. -/
def updateCache (ba : ParseIp Addr) (poll : Poll) (m : Manager Addr) :
    List Event × Manager Addr :=
  match poll.mcSnoopInfo with
  | none => ([], { m with vlanMap := ∅ })
  | some (newMrouters, newGroups) =>
    let (mrouterEvents, mrouters, v) :=
      updateCacheSet mrouterKind poll.lookups newMrouters m.mrouters ⟨∅, 0⟩
    let (groupEvents, groups, v) :=
      updateCacheSet (groupKind ba) poll.lookups newGroups m.groups v
    (mrouterEvents ++ groupEvents, ⟨mrouters, groups, v.vlanMap⟩)

/-- The manager and the events published so far. -/
structure Polled (Addr : Type) where
  manager : Manager Addr
  events : List Event

/-- Before the first turn. -/
def Polled.initial : Polled Addr := ⟨Manager.initial, []⟩

/-- The manager and the events after a turn. -/
def pollStep (ba : ParseIp Addr) (p : Polled Addr) (poll : Poll) : Polled Addr :=
  let (events, manager) := updateCache ba poll p.manager
  ⟨manager, p.events ++ events⟩

/-! ## The subscriber -/

/-- What an event says about the routers, by VLAN and interface. -/
def mrouterChange : Event → Option (Change (ℕ × Str))
  | .mrouter .create vlanId interface => some (.created (vlanId, interface))
  | .mrouter .delete vlanId interface => some (.deleted (vlanId, interface))
  | .group .. => none

/-- What an event says about the groups, by VLAN, address and interface. -/
def groupChange (ba : ParseIp Addr) : Event → Option (Change (ℕ × Addr × Str))
  | .group .create vlanId interface address isIgmp =>
    some (.created (vlanId, ba isIgmp address, interface))
  | .group .delete vlanId interface address isIgmp =>
    some (.deleted (vlanId, ba isIgmp address, interface))
  | .mrouter .. => none

/-- A router as an event names it, when its bridge has this VLAN. -/
def mrouterIdent (vlanId : ℕ) (r : McastRouterInfo) : ℕ × Str := (vlanId, r.ifName)

/-- A group as an event names it, when its bridge has this VLAN. -/
def groupIdent (ba : ParseIp Addr) (vlanId : ℕ) (g : McastGroupInfo) : ℕ × Addr × Str :=
  (vlanId, ba g.isIgmp g.grpIpStr, g.ifName)

/-- A subscriber that applied the events has the cached routers and groups, when
`vid` gives the VLANs of the bridges. -/
structure Follows (ba : ParseIp Addr) (vid : Str → ℕ) (p : Polled Addr) : Prop where
  mrouters : ∀ i, i ∈ (p.events.filterMap mrouterChange).foldl apply [] ↔
    i ∈ p.manager.mrouters.items.map fun r => mrouterIdent (vid r.brName) r
  groups : ∀ i, i ∈ (p.events.filterMap (groupChange ba)).foldl apply [] ↔
    i ∈ p.manager.groups.items.map fun g => groupIdent ba (vid g.brName) g

/-! ## The lookups -/

/-- What is kept of the lookups is the VLAN of the bridge. -/
def Known (vid : Str → ℕ) (v : Vlans) : Prop :=
  ∀ brName vlanId, v.vlanMap.lookup brName = some vlanId → vlanId = vid brName

/-- A lookup that finds the VLAN of the bridge. -/
theorem getVlanId_found {vid : Str → ℕ} {lookups : Lookups} {brName : Str} {v : Vlans}
    (hv : Known vid v)
    (h : v.vlanMap.lookup brName = none → lookups v.asked brName = some (vid brName)) :
    (getVlanId lookups brName v).1 = some (vid brName) ∧
      Known vid (getVlanId lookups brName v).2 := by
  rw [getVlanId]
  split
  · rename_i vlanId hknown
    rw [hv brName vlanId hknown]
    exact ⟨rfl, hv⟩
  · rename_i hnew
    rw [h hnew]
    refine ⟨rfl, fun brName' vlanId' h' => ?_⟩
    rcases Dict.lookup_insert_iff.mp h' with ⟨rfl, rfl⟩ | ⟨-, hold⟩
    · rfl
    · exact hv brName' vlanId' hold

variable {α κ ε ι : Type} [DecidableEq κ] [DecidableEq ε] [DecidableEq ι] {kind : Kind α κ ε}

/-- Every lookup that is made to publish a set finds the VLAN of the bridge.  A
bridge whose VLAN is kept is not looked up. -/
def Found (kind : Kind α κ ε) (vid : Str → ℕ) (lookups : Lookups) : List α → Vlans → Prop
  | [], _ => True
  | x :: rest, v =>
    (v.vlanMap.lookup (kind.brName x) = none →
      lookups v.asked (kind.brName x) = some (vid (kind.brName x))) ∧
      Found kind vid lookups rest (getVlanId lookups (kind.brName x) v).2

omit [DecidableEq κ] [DecidableEq ε] in
theorem found_of_forall {vid : Str → ℕ} {lookups : Lookups}
    (h : ∀ n brName, lookups n brName = some (vid brName)) (xs : List α) (v : Vlans) :
    Found kind vid lookups xs v := by
  induction xs generalizing v with
  | nil => exact trivial
  | cons x xs ih => exact ⟨fun _ => h _ _, ih _⟩

omit [DecidableEq κ] [DecidableEq ε] in
/-- Every element is published when every lookup finds the VLAN. -/
theorem publishEvent_found {vid : Str → ℕ} {lookups : Lookups} (op : Op) {xs : List α}
    {v : Vlans} (hv : Known vid v) (h : Found kind vid lookups xs v) :
    (publishEvent kind lookups op xs v).1 =
        xs.map (fun x => kind.event op (vid (kind.brName x)) x) ∧
      Known vid (publishEvent kind lookups op xs v).2 := by
  induction xs generalizing v with
  | nil => exact ⟨rfl, hv⟩
  | cons x xs ih =>
    obtain ⟨hasked, hrest⟩ := h
    obtain ⟨hfound, hknown⟩ := getVlanId_found hv hasked
    obtain ⟨hevents, hknown'⟩ := ih hknown hrest
    rw [publishEvent]
    split
    · rename_i v' heq
      rw [heq] at hfound
      cases hfound
    · rename_i vlanId v' heq
      rw [heq] at hfound hknown hevents hknown'
      obtain rfl := Option.some.inj hfound
      exact ⟨congrArg _ hevents, hknown'⟩

omit [DecidableEq κ] [DecidableEq ε] [DecidableEq ι] in
/-- The events of one set say nothing about the other. -/
theorem publishEvent_other {change : Event → Option (Change ι)} {lookups : Lookups} {op : Op}
    (h : ∀ vlanId x, change (kind.event op vlanId x) = none) (xs : List α) (v : Vlans) :
    (publishEvent kind lookups op xs v).1.filterMap change = [] := by
  induction xs generalizing v with
  | nil => rfl
  | cons x xs ih =>
    rw [publishEvent]
    split
    · exact ih _
    · rw [List.filterMap_cons_none (h _ x)]
      exact ih _

/-! ## The update of a set -/

/-- The lookups made for what an update publishes find the VLAN of the bridge, and
a bridge of the old set shares its VLAN with no other bridge of the new one. -/
structure Answered (kind : Kind α κ ε) (vid : Str → ℕ) (lookups : Lookups) (old new : List α)
    (v : Vlans) : Prop where
  deleted : Found kind vid lookups (difference kind old new) v
  created : Found kind vid lookups (difference kind new old)
    (publishEvent kind lookups .delete (difference kind old new) v).2
  apart : ∀ x ∈ old, ∀ y ∈ new, vid (kind.brName x) = vid (kind.brName y) →
    kind.brName x = kind.brName y

/-- How the events of a kind name its elements. -/
structure Names (kind : Kind α κ ε) (change : Event → Option (Change ι)) (ident : ℕ → α → ι) :
    Prop where
  created : ∀ vlanId x, change (kind.event .create vlanId x) = some (.created (ident vlanId x))
  deleted : ∀ vlanId x, change (kind.event .delete vlanId x) = some (.deleted (ident vlanId x))
  inj : ∀ vlanId vlanId' x y, ident vlanId x = ident vlanId' y →
    vlanId = vlanId' ∧ (kind.brName x = kind.brName y → kind.key x = kind.key y)
  congr : ∀ vlanId x y, kind.key x = kind.key y → ident vlanId x = ident vlanId y

omit [DecidableEq κ] [DecidableEq ε] in
theorem mrouterKind_names : Names mrouterKind mrouterChange mrouterIdent where
  created _ _ := rfl
  deleted _ _ := rfl
  inj := by
    rintro vlanId vlanId' ⟨br, ifName⟩ ⟨br', ifName'⟩ h
    obtain ⟨rfl, rfl⟩ := Prod.mk.inj h
    exact ⟨rfl, fun hbr => McastRouterInfo.mk.injEq _ _ _ _ ▸ ⟨hbr, rfl⟩⟩
  congr := by
    rintro vlanId x y rfl
    rfl

omit [DecidableEq Addr] in
theorem groupKind_names (ba : ParseIp Addr) :
    Names (groupKind ba) (groupChange ba) (groupIdent ba) where
  created _ _ := rfl
  deleted _ _ := rfl
  inj := by
    intro vlanId vlanId' x y h
    obtain ⟨hvlan, h⟩ := Prod.mk.inj h
    obtain ⟨hip, hif⟩ := Prod.mk.inj h
    exact ⟨hvlan, fun hbr => GroupKey.mk.injEq _ _ _ _ _ _ ▸ ⟨hbr, hip, hif⟩⟩
  congr := by
    intro vlanId x y h
    obtain ⟨-, hip, hif⟩ := (GroupKey.mk.injEq _ _ _ _ _ _).mp h
    rw [groupIdent, groupIdent, hip, hif]

omit [DecidableEq κ] [DecidableEq ε] [DecidableEq ι] in
/-- An element of the old set is named like one of the new set when the two are
equal. -/
theorem Names.mem_iff {change : Event → Option (Change ι)} {ident : ℕ → α → ι}
    (hn : Names kind change ident) {vid : Str → ℕ} {xs ys : List α}
    (hapart : ∀ x ∈ xs, ∀ y ∈ ys, vid (kind.brName x) = vid (kind.brName y) →
      kind.brName x = kind.brName y) {x : α} (hx : x ∈ xs) :
    kind.key x ∈ ys.map kind.key ↔
      ident (vid (kind.brName x)) x ∈ ys.map fun y => ident (vid (kind.brName y)) y := by
  rw [List.mem_map, List.mem_map]
  constructor
  · rintro ⟨y, hy, hkey⟩
    obtain ⟨hbr, -⟩ := (kind.key_eq_iff y x).mp hkey
    exact ⟨y, hy, hbr ▸ hn.congr _ _ _ hkey⟩
  · rintro ⟨y, hy, hname⟩
    obtain ⟨hvlan, hkey⟩ := hn.inj _ _ _ _ hname
    exact ⟨y, hy, hkey (hapart x hx y hy hvlan.symm).symm⟩

/-- A subscriber that has the old set has the new one after the events of the
update. -/
theorem updateCacheSet_follow {change : Event → Option (Change ι)} {ident : ℕ → α → ι}
    (hn : Names kind change ident) {vid : Str → ℕ} {lookups : Lookups} {newSet : List α}
    {c : Cache α ε} {v : Vlans} (hv : Known vid v)
    (hok : Answered kind vid lookups c.items newSet v) {s : List ι}
    (hs : ∀ i, i ∈ s ↔ i ∈ c.items.map fun x => ident (vid (kind.brName x)) x) :
    (∀ i, i ∈ ((updateCacheSet kind lookups newSet c v).1.filterMap change).foldl apply s ↔
        i ∈ newSet.map fun x => ident (vid (kind.brName x)) x) ∧
      Known vid (updateCacheSet kind lookups newSet c v).2.2 := by
  obtain ⟨hdeleted, hv'⟩ := publishEvent_found Op.delete hv hok.deleted
  obtain ⟨hcreated, hv''⟩ := publishEvent_found Op.create hv' hok.created
  refine ⟨fun i => ?_, hv''⟩
  show i ∈ ((_ ++ _ : List Event).filterMap change).foldl apply s ↔ _
  rw [hdeleted, hcreated, List.filterMap_append, List.foldl_append, List.filterMap_map,
    List.filterMap_map]
  have hdel : change ∘ (fun x => kind.event .delete (vid (kind.brName x)) x) =
      some ∘ fun x => Change.deleted (ident (vid (kind.brName x)) x) :=
    funext fun x => hn.deleted _ x
  have hadd : change ∘ (fun x => kind.event .create (vid (kind.brName x)) x) =
      some ∘ fun x => Change.created (ident (vid (kind.brName x)) x) :=
    funext fun x => hn.created _ x
  rw [hdel, hadd, List.filterMap_eq_map, List.filterMap_eq_map]
  have hback : ∀ x ∈ newSet, ∀ y ∈ c.items, vid (kind.brName x) = vid (kind.brName y) →
      kind.brName x = kind.brName y :=
    fun x hx y hy hvlan => (hok.apart y hy x hx hvlan.symm).symm
  refine mem_follow_diff (fun x => ident (vid (kind.brName x)) x) hs (fun x => ?_) (fun x => ?_) i
  · rw [mem_difference]
    exact and_congr_right fun hx => not_congr (hn.mem_iff hok.apart hx)
  · rw [mem_difference]
    exact and_congr_right fun hx => not_congr (hn.mem_iff hback hx)

omit [DecidableEq ι] in
/-- The events of an update of the other set change nothing. -/
theorem updateCacheSet_other {change : Event → Option (Change ι)} {lookups : Lookups}
    (h : ∀ op vlanId x, change (kind.event op vlanId x) = none) (newSet : List α) (c : Cache α ε)
    (v : Vlans) : (updateCacheSet kind lookups newSet c v).1.filterMap change = [] := by
  show (_ ++ _ : List Event).filterMap change = []
  rw [List.filterMap_append, publishEvent_other (h .delete), publishEvent_other (h .create)]
  rfl

/-! ## The run -/

/-- In a turn of `update_cache`, every lookup that is made finds the VLAN of the
bridge, and no cached bridge shares its VLAN with another bridge that is read. -/
def LookupsFind (ba : ParseIp Addr) (vid : Str → ℕ) (p : Polled Addr) (poll : Poll) : Prop :=
  ∀ newMrouters newGroups, poll.mcSnoopInfo = some (newMrouters, newGroups) →
    Answered mrouterKind vid poll.lookups p.manager.mrouters.items newMrouters ⟨∅, 0⟩ ∧
      Answered (groupKind ba) vid poll.lookups p.manager.groups.items newGroups
        (updateCacheSet mrouterKind poll.lookups newMrouters p.manager.mrouters ⟨∅, 0⟩).2.2

/-- A turn of `update_cache` keeps the subscriber in step. -/
theorem pollStep_follows {ba : ParseIp Addr} {vid : Str → ℕ} {p : Polled Addr} {poll : Poll}
    (h : Follows ba vid p) (hok : LookupsFind ba vid p poll) :
    Follows ba vid (pollStep ba p poll) := by
  cases hinfo : poll.mcSnoopInfo with
  | none =>
    have hstep : pollStep ba p poll = ⟨{ p.manager with vlanMap := ∅ }, p.events⟩ := by
      rw [pollStep, updateCache, hinfo]
      dsimp only
      rw [List.append_nil]
    rw [hstep]
    exact ⟨h.mrouters, h.groups⟩
  | some info =>
    obtain ⟨newMrouters, newGroups⟩ := info
    obtain ⟨hmrouters, hgroups⟩ := hok newMrouters newGroups hinfo
    let r := updateCacheSet mrouterKind poll.lookups newMrouters p.manager.mrouters ⟨∅, 0⟩
    let g := updateCacheSet (groupKind ba) poll.lookups newGroups p.manager.groups r.2.2
    have hstep : pollStep ba p poll =
        ⟨⟨r.2.1, g.2.1, g.2.2.vlanMap⟩, p.events ++ (r.1 ++ g.1)⟩ := by
      rw [pollStep, updateCache, hinfo]
    have hempty : Known vid ⟨∅, 0⟩ := fun _ _ h => nomatch h
    obtain ⟨hfollow, hknown⟩ :=
      updateCacheSet_follow mrouterKind_names hempty hmrouters h.mrouters
    obtain ⟨hfollow', -⟩ :=
      updateCacheSet_follow (groupKind_names ba) hknown hgroups h.groups
    have hsilent : g.1.filterMap mrouterChange = [] :=
      updateCacheSet_other (fun _ _ _ => rfl) _ _ _
    have hsilent' : r.1.filterMap (groupChange ba) = [] :=
      updateCacheSet_other (fun _ _ _ => rfl) _ _ _
    rw [hstep]
    refine ⟨fun i => ?_, fun i => ?_⟩
    · dsimp only
      rw [List.filterMap_append, List.filterMap_append, hsilent, List.append_nil,
        List.foldl_append]
      exact hfollow i
    · dsimp only
      rw [List.filterMap_append, List.filterMap_append, hsilent', List.nil_append,
        List.foldl_append]
      exact hfollow' i

/-- After any run of `update_cache` in which every lookup finds the VLAN, a
subscriber that applied the events has the cached routers and groups. -/
theorem subscriber_follows_cache (ba : ParseIp Addr) (vid : Str → ℕ) (polls : List Poll)
    (hok : Along (pollStep ba) (LookupsFind ba vid) Polled.initial polls) :
    Follows ba vid (run (pollStep ba) Polled.initial polls) := by
  have hstep : ∀ (p : Polled Addr) poll, Follows ba vid p → LookupsFind ba vid p poll →
      Follows ba vid (pollStep ba p poll) :=
    fun _ _ => pollStep_follows
  have hinit : Follows ba vid (Polled.initial : Polled Addr) := ⟨fun _ => Iff.rfl, fun _ => Iff.rfl⟩
  exact run_preserves hstep hinit hok

/-- A group on `br100`. -/
def sampleGroup : McastGroupInfo := .new "br100".toList "239.1.1.1".toList "e101".toList true

/-- A group comes and goes. -/
theorem subscriber_follows_cache_group :
    let polls : List Poll := [⟨fun _ _ => some 100, some ([], [sampleGroup])⟩,
      ⟨fun _ _ => some 100, some ([], [])⟩]
    Along (pollStep asWritten) (LookupsFind asWritten fun _ => 100) Polled.initial polls ∧
      Follows asWritten (fun _ => 100) (run (pollStep asWritten) Polled.initial polls) := by
  have hok : Along (pollStep asWritten) (LookupsFind asWritten fun _ => 100) Polled.initial
      [⟨fun _ _ => some 100, some ([], [sampleGroup])⟩, ⟨fun _ _ => some 100, some ([], [])⟩] := by
    have hfind : ∀ (n : ℕ) (brName : Str), (fun _ _ => some 100 : Lookups) n brName = some 100 :=
      fun _ _ => rfl
    refine ⟨fun newMrouters newGroups heq => ?_, fun newMrouters newGroups heq => ?_, trivial⟩
    · cases heq
      exact ⟨⟨found_of_forall hfind _ _, found_of_forall hfind _ _,
          fun x hx => absurd hx List.not_mem_nil⟩,
        ⟨found_of_forall hfind _ _, found_of_forall hfind _ _,
          fun x hx => absurd hx List.not_mem_nil⟩⟩
    · cases heq
      exact ⟨⟨found_of_forall hfind _ _, found_of_forall hfind _ _,
          fun x _ y hy => absurd hy List.not_mem_nil⟩,
        ⟨found_of_forall hfind _ _, found_of_forall hfind _ _,
          fun x _ y hy => absurd hy List.not_mem_nil⟩⟩
  exact ⟨hok, subscriber_follows_cache _ _ _ hok⟩

/-- A group whose VLAN is not found is cached and never announced, whatever the
VLANs of the bridges are. -/
theorem subscriber_misses_group :
    ¬ ∀ polls : List Poll, ∃ vid,
      Follows asWritten vid (run (pollStep asWritten) Polled.initial polls) := by
  intro h
  obtain ⟨vid, hfollows⟩ := h [⟨fun _ _ => none, some ([], [sampleGroup])⟩]
  exact absurd ((hfollows.groups (groupIdent asWritten (vid sampleGroup.brName) sampleGroup)).mpr
    (List.mem_map.mpr ⟨sampleGroup, List.mem_singleton.mpr rfl, rfl⟩)) List.not_mem_nil

end Mcast

end OpxNasLinux
