import Mathlib.Data.Finset.Max
import OpxNasLinux.Lib.Listing
import OpxNasLinux.Lib.Run
import OpxNasLinux.SvcsRule

/-!
# The cache of the multicast snooping

`McastSnoopCacheMgr` polls the kernel for the multicast routers and groups of
the bridges.  It keeps each of the two sets as a whole and per bridge, and
publishes what an update deletes and creates.

The two sets are handled alike, so the code here takes a `Kind`, which says how
an element is identified and what is kept of it per bridge.

* `Cache.Consistent` says that the set and the lists of the bridges hold the
  same elements.
* `updateCacheSet_consistent` is the update, `flushBridge_consistent_iff` the
  flush of one bridge.
* `mcast_cache_consistent` is the run.
-/

namespace OpxNasLinux

open Run

namespace Mcast

/-! ## Routers and groups -/

/-- `remove_ifname_tag`: the VLAN tag behind the last dot is taken off. -/
def removeIfnameTag (ifName : Str) : Str :=
  let tag := (ifName.reverse.takeWhile fun c => decide (c ≠ '.')).reverse
  if '.' ∈ ifName ∧ tag ≠ [] ∧ tag.all Char.isDigit = true then
    ifName.take (ifName.length - (tag.length + 1))
  else ifName

/-- `McastRouterInfo`. -/
structure McastRouterInfo where
  brName : Str
  ifName : Str
deriving DecidableEq

/-- The constructor of `McastRouterInfo`. -/
def McastRouterInfo.new (brName ifName : Str) : McastRouterInfo :=
  ⟨brName, removeIfnameTag ifName⟩

/-- `McastGroupInfo`. -/
structure McastGroupInfo where
  brName : Str
  grpIpStr : Str
  ifName : Str
  isIgmp : Bool
deriving DecidableEq

/-- The constructor of `McastGroupInfo`. -/
def McastGroupInfo.new (brName grpIp ifName : Str) (isIgmp : Bool) : McastGroupInfo :=
  ⟨brName, grpIp, removeIfnameTag ifName, isIgmp⟩

/-- What two equal groups agree in. -/
structure GroupKey (Addr : Type) where
  brName : Str
  grpIp : Addr
  ifName : Str
deriving DecidableEq

/-! ## Events -/

/-- The two operations that are published. -/
inductive Op where
  | create
  | delete
deriving DecidableEq

/-- The data of a published event. -/
inductive Event where
  | group (op : Op) (vlanId : ℕ) (interface address : Str) (isIgmp : Bool)
  | mrouter (op : Op) (vlanId : ℕ) (interface : Str)
deriving DecidableEq

/-- How the elements of a set are told apart, what is kept of them per bridge,
which element a flush makes of that, and what is published about one. -/
structure Kind (α κ ε : Type) where
  brName : α → Str
  key : α → κ
  entry : α → ε
  rebuild : Str → ε → κ
  event : Op → ℕ → α → Event
  key_eq_iff : ∀ x y, key x = key y ↔ brName x = brName y ∧ entry x = entry y

/-- Of a router the name of its interface is kept. -/
def mrouterKind : Kind McastRouterInfo McastRouterInfo Str where
  brName := McastRouterInfo.brName
  key := id
  entry := McastRouterInfo.ifName
  rebuild := McastRouterInfo.new
  event op vlanId mrouter := .mrouter op vlanId mrouter.ifName
  key_eq_iff x y := by
    cases x
    cases y
    exact McastRouterInfo.mk.injEq _ _ _ _ ▸ Iff.rfl

variable {Addr : Type}

/-- `ba.ipv4str_to_ba` and `ba.ipv6str_to_ba`. -/
abbrev ParseIp (Addr : Type) := Bool → Str → Addr

/-- The fields that `McastGroupInfo.__eq__` compares. -/
def McastGroupInfo.key (ba : ParseIp Addr) (g : McastGroupInfo) : GroupKey Addr :=
  ⟨g.brName, ba g.isIgmp g.grpIpStr, g.ifName⟩

/-- Of a group the group itself is kept. -/
def groupKind (ba : ParseIp Addr) : Kind McastGroupInfo (GroupKey Addr) (GroupKey Addr) where
  brName := McastGroupInfo.brName
  key := McastGroupInfo.key ba
  entry := McastGroupInfo.key ba
  rebuild := fun _ group => group
  event op vlanId group := .group op vlanId group.ifName group.grpIpStr group.isIgmp
  key_eq_iff x y := by
    refine ⟨fun h => ⟨congrArg GroupKey.brName h, h⟩, And.right⟩

/-! ## The lookup of the VLAN ids -/

/-- What `_get_vlan_info` finds, for every lookup and bridge. -/
abbrev Lookups := ℕ → Str → Option ℕ

/-- `vlan_map`, and the lookups made so far. -/
structure Vlans where
  vlanMap : Dict Str ℕ
  asked : ℕ

/-- `get_vlan_id`.  An id that is found is kept. -/
def getVlanId (lookups : Lookups) (brName : Str) (v : Vlans) : Option ℕ × Vlans :=
  match v.vlanMap.lookup brName with
  | some vlanId => (some vlanId, v)
  | none =>
    match lookups v.asked brName with
    | none => (none, { v with asked := v.asked + 1 })
    | some vlanId => (some vlanId, ⟨v.vlanMap.insert brName vlanId, v.asked + 1⟩)

variable {α κ ε : Type} [DecidableEq κ] [DecidableEq ε] (kind : Kind α κ ε)

/-- `publish_event`: the events, and the VLAN ids found. -/
def publishEvent (lookups : Lookups) (op : Op) : List α → Vlans → List Event × Vlans
  | [], v => ([], v)
  | x :: rest, v =>
    match getVlanId lookups (kind.brName x) v with
    | (none, v) => publishEvent lookups op rest v
    | (some vlanId, v) =>
      let (events, v) := publishEvent lookups op rest v
      (kind.event op vlanId x :: events, v)

/-! ## The cache -/

/-- A set and what is kept of it per bridge. -/
structure Cache (α ε : Type) where
  items : List α
  byBridge : Listing Str ε

/-- The elements of a set that are not in another one. -/
def difference (xs ys : List α) : List α :=
  xs.filter fun x => decide (kind.key x ∉ ys.map kind.key)

/-- An element is taken from the list of its bridge, if the bridge has one. -/
def discardEntry (byBridge : Listing Str ε) (x : α) : Listing Str ε :=
  if kind.brName x ∈ byBridge then byBridge.drop (kind.brName x) (kind.entry x) else byBridge

/-- An element is entered in the list of its bridge. -/
def addEntry (byBridge : Listing Str ε) (x : α) : Listing Str ε :=
  byBridge.add (kind.brName x) (kind.entry x)

/-- `update_cache_set`: the events, the new cache and the VLAN ids found. -/
def updateCacheSet (lookups : Lookups) (newSet : List α) (c : Cache α ε) (v : Vlans) :
    List Event × Cache α ε × Vlans :=
  let delSet := difference kind c.items newSet
  let addSet := difference kind newSet c.items
  let (deleted, v) := publishEvent kind lookups .delete delSet v
  let byBridge := delSet.foldl (discardEntry kind) c.byBridge
  let (created, v) := publishEvent kind lookups .create addSet v
  let byBridge := addSet.foldl (addEntry kind) byBridge
  (deleted ++ created, ⟨newSet, byBridge⟩, v)

/-- `flush_cache` for one bridge. -/
def flushBridge (brName : Str) (c : Cache α ε) : Cache α ε :=
  match c.byBridge.lookup brName with
  | none => c
  | some entries =>
    ⟨c.items.filter fun x => decide (kind.key x ∉ entries.map (kind.rebuild brName)),
      c.byBridge.erase brName⟩

/-- `flush_cache` for every bridge. -/
def flushAll : Cache α ε := ⟨[], ∅⟩

/-- The lists of the bridges hold what is kept of the elements of the set, each
under the bridge of the element. -/
def Cache.Consistent (c : Cache α ε) : Prop :=
  ∀ brName entry, entry ∈ c.byBridge.under brName ↔
    ∃ x ∈ c.items, kind.brName x = brName ∧ kind.entry x = entry

variable {kind}

omit [DecidableEq ε] in
theorem mem_difference {xs ys : List α} {x : α} :
    x ∈ difference kind xs ys ↔ x ∈ xs ∧ kind.key x ∉ ys.map kind.key := by
  rw [difference, List.mem_filter, decide_eq_true_iff]

omit [DecidableEq κ] in
/-- An element whose bridge has no list is listed nowhere. -/
theorem mem_discardEntry_iff {byBridge : Listing Str ε} {x : α} {brName : Str} {entry : ε} :
    entry ∈ (discardEntry kind byBridge x).under brName ↔
      entry ∈ byBridge.under brName ∧ ¬ (kind.brName x = brName ∧ kind.entry x = entry) := by
  rw [discardEntry]
  split
  · rw [Listing.mem_drop_iff, eq_comm (a := brName), eq_comm (a := entry), and_comm]
  · rename_i hnone
    refine ⟨fun h => ⟨h, ?_⟩, And.left⟩
    rintro ⟨rfl, -⟩
    have hlookup : byBridge.lookup (kind.brName x) = none := AList.lookup_eq_none.mpr hnone
    rw [Listing.under, hlookup] at h
    cases h

omit [DecidableEq κ] in
theorem mem_foldl_discardEntry_iff {xs : List α} {byBridge : Listing Str ε} {brName : Str}
    {entry : ε} :
    entry ∈ (xs.foldl (discardEntry kind) byBridge).under brName ↔
      entry ∈ byBridge.under brName ∧
        ¬ ∃ x ∈ xs, kind.brName x = brName ∧ kind.entry x = entry := by
  induction xs generalizing byBridge with
  | nil => simp
  | cons x xs ih =>
    rw [List.foldl_cons, ih, mem_discardEntry_iff, List.exists_mem_cons_iff, not_or, and_assoc]

/-- An update keeps the set and the lists in step. -/
theorem updateCacheSet_consistent (lookups : Lookups) (newSet : List α) (v : Vlans)
    {c : Cache α ε} (h : c.Consistent kind) :
    (updateCacheSet kind lookups newSet c v).2.1.Consistent kind := by
  intro brName entry
  show entry ∈ ((difference kind newSet c.items).foldl (addEntry kind)
    ((difference kind c.items newSet).foldl (discardEntry kind) c.byBridge)).under brName ↔
      ∃ x ∈ newSet, kind.brName x = brName ∧ kind.entry x = entry
  have hsame : ∀ {x y : α}, kind.brName x = brName → kind.entry x = entry →
      kind.key x = kind.key y → kind.brName y = brName ∧ kind.entry y = entry := by
    intro x y hbr hentry hkey
    obtain ⟨hbr', hentry'⟩ := (kind.key_eq_iff x y).mp hkey
    exact ⟨hbr' ▸ hbr, hentry' ▸ hentry⟩
  have hadd := @Listing.mem_foldl_add_iff Str ε _ _ α kind.brName kind.entry
  unfold addEntry
  rw [hadd, mem_foldl_discardEntry_iff, h brName entry]
  constructor
  · rintro (⟨⟨x, hx, hbr, hentry⟩, hkept⟩ | ⟨x, hx, hbr, hentry⟩)
    · -- an element that is not deleted is in the new set
      by_cases hin : kind.key x ∈ newSet.map kind.key
      · obtain ⟨y, hy, hkey⟩ := List.mem_map.mp hin
        exact ⟨y, hy, hsame hbr hentry hkey.symm⟩
      · exact absurd ⟨x, mem_difference.mpr ⟨hx, hin⟩, hbr, hentry⟩ hkept
    · exact ⟨x, (mem_difference.mp hx).1, hbr, hentry⟩
  · rintro ⟨y, hy, hbr, hentry⟩
    by_cases hold : kind.key y ∈ c.items.map kind.key
    · obtain ⟨x, hx, hkey⟩ := List.mem_map.mp hold
      refine Or.inl ⟨⟨x, hx, hsame hbr hentry hkey.symm⟩, ?_⟩
      rintro ⟨z, hz, hbr', hentry'⟩
      have hkey' : kind.key z = kind.key y :=
        (kind.key_eq_iff z y).mpr ⟨hbr'.trans hbr.symm, hentry'.trans hentry.symm⟩
      exact (mem_difference.mp hz).2 (hkey' ▸ List.mem_map_of_mem hy)
    · exact Or.inr ⟨y, mem_difference.mpr ⟨hy, hold⟩, hbr, hentry⟩

/-! ## The flush of a bridge -/

omit [DecidableEq ε] in
/-- The lists after a flush. -/
theorem flushBridge_under (brName brName' : Str) (c : Cache α ε) :
    (flushBridge kind brName c).byBridge.under brName' =
      if brName' = brName then [] else c.byBridge.under brName' := by
  rw [flushBridge]
  split
  · rename_i hnone
    split
    · rename_i heq
      rw [heq, Listing.under, hnone, Option.getD_none]
    · rfl
  · exact Listing.under_erase _ _ _

omit [DecidableEq ε] in
/-- The set after a flush. -/
theorem mem_flushBridge_items {brName : Str} {c : Cache α ε} {x : α} :
    x ∈ (flushBridge kind brName c).items ↔
      x ∈ c.items ∧ kind.key x ∉ (c.byBridge.under brName).map (kind.rebuild brName) := by
  rw [flushBridge]
  split
  · rename_i hnone
    rw [Listing.under, hnone, Option.getD_none, List.map_nil]
    exact ⟨fun h => ⟨h, List.not_mem_nil⟩, And.left⟩
  · rename_i entries hentries
    rw [Listing.under, hentries, Option.getD_some, List.mem_filter, decide_eq_true_iff]

omit [DecidableEq ε] in
/-- A flush keeps the set and the lists in step when the elements that it makes
of the list of the bridge are the elements of the bridge, and only then. -/
theorem flushBridge_consistent_iff {brName : Str} {c : Cache α ε} (h : c.Consistent kind) :
    (flushBridge kind brName c).Consistent kind ↔
      ∀ x ∈ c.items, (kind.key x ∈ (c.byBridge.under brName).map (kind.rebuild brName) ↔
        kind.brName x = brName) := by
  constructor
  · intro hafter x hx
    have hlist := hafter (kind.brName x) (kind.entry x)
    rw [flushBridge_under] at hlist
    by_cases hbr : kind.brName x = brName
    · rw [if_pos hbr] at hlist
      refine iff_of_true (by_contra fun hkept => ?_) hbr
      exact List.not_mem_nil
        (hlist.mpr ⟨x, mem_flushBridge_items.mpr ⟨hx, hkept⟩, rfl, rfl⟩)
    · rw [if_neg hbr] at hlist
      refine iff_of_false (fun hgone => ?_) hbr
      obtain ⟨y, hy, hbr', hentry⟩ := hlist.mp ((h _ _).mpr ⟨x, hx, rfl, rfl⟩)
      have hkey : kind.key y = kind.key x := (kind.key_eq_iff y x).mpr ⟨hbr', hentry⟩
      exact (mem_flushBridge_items.mp hy).2 (hkey ▸ hgone)
  · intro hmade brName' entry
    rw [flushBridge_under]
    split
    · rename_i heq
      refine iff_of_false List.not_mem_nil ?_
      rintro ⟨x, hx, hbr, -⟩
      obtain ⟨hx, hkept⟩ := mem_flushBridge_items.mp hx
      exact hkept ((hmade x hx).mpr (hbr.trans heq))
    · rename_i hne
      rw [h brName' entry]
      constructor
      · rintro ⟨x, hx, hbr, hentry⟩
        have hkept := mt (hmade x hx).mp fun hbr' => hne (hbr.symm.trans hbr')
        exact ⟨x, mem_flushBridge_items.mpr ⟨hx, hkept⟩, hbr, hentry⟩
      · rintro ⟨x, hx, hbr, hentry⟩
        exact ⟨x, (mem_flushBridge_items.mp hx).1, hbr, hentry⟩

omit [DecidableEq κ] [DecidableEq ε] in
/-- A flush of every bridge leaves nothing. -/
theorem flushAll_consistent : (flushAll : Cache α ε).Consistent kind := by
  intro brName entry
  refine iff_of_false List.not_mem_nil ?_
  rintro ⟨x, hx, -⟩
  exact List.not_mem_nil hx

/-- A flush of the groups of a bridge. -/
theorem flushBridge_groups [DecidableEq Addr] {ba : ParseIp Addr} {brName : Str}
    {c : Cache McastGroupInfo (GroupKey Addr)} (h : c.Consistent (groupKind ba)) :
    (flushBridge (groupKind ba) brName c).Consistent (groupKind ba) := by
  rw [flushBridge_consistent_iff h]
  intro x hx
  show x.key ba ∈ (c.byBridge.under brName).map id ↔ x.brName = brName
  rw [List.map_id, h brName (x.key ba)]
  constructor
  · rintro ⟨y, -, hbr, hkey⟩
    exact (congrArg GroupKey.brName hkey).symm.trans hbr
  · intro hbr
    exact ⟨x, hx, hbr, rfl⟩

/-- Taking a tag off leaves the name as it is or makes it shorter. -/
theorem removeIfnameTag_cases (ifName : Str) :
    removeIfnameTag ifName = ifName ∨ (removeIfnameTag ifName).length < ifName.length := by
  rw [removeIfnameTag]
  split
  · rename_i hcond
    refine Or.inr ?_
    have hpos := List.length_pos_of_mem hcond.1
    rw [List.length_take]
    omega
  · exact Or.inl rfl

/-- A map that shrinks what it changes and whose values cover a list changes
nothing in the list. -/
theorem fixed_of_subset_map {f : Str → Str} (hf : ∀ x, f x = x ∨ (f x).length < x.length)
    {xs : List Str} (h : ∀ x ∈ xs, x ∈ xs.map f) : ∀ x ∈ xs, f x = x := by
  by_contra hchanged
  rw [not_forall] at hchanged
  obtain ⟨x, hx⟩ := hchanged
  obtain ⟨hx, hne⟩ := Classical.not_imp.mp hx
  -- the longest element that is changed is a value of a longer one
  have hsome : (xs.toFinset.filter fun y => f y ≠ y).Nonempty :=
    ⟨x, Finset.mem_filter.mpr ⟨List.mem_toFinset.mpr hx, hne⟩⟩
  obtain ⟨y, hy, hmax⟩ := Finset.exists_max_image _ List.length hsome
  obtain ⟨hy, hyne⟩ := Finset.mem_filter.mp hy
  obtain ⟨z, hz, hzy⟩ := List.mem_map.mp (h y (List.mem_toFinset.mp hy))
  have hzne : f z ≠ z := by
    intro heq
    rw [heq] at hzy
    exact hyne (hzy ▸ heq)
  have hlonger : y.length < z.length := hzy ▸ (hf z).resolve_left hzne
  have hle := hmax z (Finset.mem_filter.mpr ⟨List.mem_toFinset.mpr hz, hzne⟩)
  omega

/-- A flush of the routers of a bridge keeps the set and the lists in step when
no interface of the bridge has a name that ends like a tag, and only then. -/
theorem flushBridge_mrouters_iff {brName : Str} {c : Cache McastRouterInfo Str}
    (h : c.Consistent mrouterKind) :
    (flushBridge mrouterKind brName c).Consistent mrouterKind ↔
      ∀ i ∈ c.byBridge.under brName, removeIfnameTag i = i := by
  rw [flushBridge_consistent_iff h]
  constructor
  · intro hmade
    refine fixed_of_subset_map removeIfnameTag_cases fun i hi => ?_
    obtain ⟨x, hx, hbr, rfl⟩ := (h brName i).mp hi
    obtain ⟨j, hj, hnew⟩ := List.mem_map.mp ((hmade x hx).mpr hbr)
    exact List.mem_map.mpr ⟨j, hj, congrArg McastRouterInfo.ifName hnew⟩
  · intro hfixed x hx
    show x ∈ (c.byBridge.under brName).map (McastRouterInfo.new brName) ↔ x.brName = brName
    constructor
    · intro hmem
      obtain ⟨j, -, rfl⟩ := List.mem_map.mp hmem
      rfl
    · intro hbr
      have hlisted := (h brName x.ifName).mpr ⟨x, hx, hbr, rfl⟩
      refine List.mem_map.mpr ⟨x.ifName, hlisted, ?_⟩
      rw [McastRouterInfo.new, hfixed _ hlisted, ← hbr]

/-! ## The run -/

/-- The two caches and the VLAN ids of `McastSnoopCacheMgr`. -/
structure Manager (Addr : Type) where
  mrouters : Cache McastRouterInfo Str
  groups : Cache McastGroupInfo (GroupKey Addr)
  vlanMap : Dict Str ℕ

/-- The manager after `__init__`. -/
def Manager.initial : Manager Addr := ⟨⟨[], ∅⟩, ⟨[], ∅⟩, ∅⟩

/-- A call of `update_cache_set` for the routers or for the groups, or one of
`flush_cache`. -/
inductive Call where
  | mrouters (lookups : Lookups) (newSet : List McastRouterInfo)
  | groups (lookups : Lookups) (newSet : List McastGroupInfo)
  | flush (brName : Option Str)

/-- The manager after a call. -/
def step [DecidableEq Addr] (ba : ParseIp Addr) (m : Manager Addr) : Call → Manager Addr
  | .mrouters lookups newSet =>
    let (_, mrouters, v) := updateCacheSet mrouterKind lookups newSet m.mrouters ⟨m.vlanMap, 0⟩
    { m with mrouters := mrouters, vlanMap := v.vlanMap }
  | .groups lookups newSet =>
    let (_, groups, v) := updateCacheSet (groupKind ba) lookups newSet m.groups ⟨m.vlanMap, 0⟩
    { m with groups := groups, vlanMap := v.vlanMap }
  | .flush (some brName) =>
    { m with
      mrouters := flushBridge mrouterKind brName m.mrouters
      groups := flushBridge (groupKind ba) brName m.groups }
  | .flush none => { m with mrouters := flushAll, groups := flushAll }

/-- Both sets and their lists hold the same elements. -/
structure Manager.Consistent (ba : ParseIp Addr) (m : Manager Addr) : Prop where
  groups : ∀ brName group, group ∈ m.groups.byBridge.under brName ↔
    group ∈ m.groups.items.map (McastGroupInfo.key ba) ∧ group.brName = brName
  mrouters : ∀ brName ifName, ifName ∈ m.mrouters.byBridge.under brName ↔
    ⟨brName, ifName⟩ ∈ m.mrouters.items

/-- A flush of one bridge finds no interface of a router whose name ends like a
tag. -/
def TagFree (m : Manager Addr) : Call → Prop
  | .flush (some brName) => ∀ i ∈ m.mrouters.byBridge.under brName, removeIfnameTag i = i
  | _ => True

theorem consistent_iff {ba : ParseIp Addr} {m : Manager Addr} :
    m.Consistent ba ↔
      m.mrouters.Consistent mrouterKind ∧ m.groups.Consistent (groupKind ba) := by
  have hmrouters : m.mrouters.Consistent mrouterKind ↔
      ∀ brName ifName, ifName ∈ m.mrouters.byBridge.under brName ↔
        ⟨brName, ifName⟩ ∈ m.mrouters.items := by
    refine forall_congr' fun brName => forall_congr' fun ifName => iff_congr Iff.rfl ?_
    constructor
    · rintro ⟨x, hx, rfl, rfl⟩
      exact hx
    · intro hx
      exact ⟨_, hx, rfl, rfl⟩
  have hgroups : m.groups.Consistent (groupKind ba) ↔
      ∀ brName group, group ∈ m.groups.byBridge.under brName ↔
        group ∈ m.groups.items.map (McastGroupInfo.key ba) ∧ group.brName = brName := by
    refine forall_congr' fun brName => forall_congr' fun group => iff_congr Iff.rfl ?_
    rw [List.mem_map]
    constructor
    · rintro ⟨x, hx, rfl, rfl⟩
      exact ⟨⟨x, hx, rfl⟩, rfl⟩
    · rintro ⟨⟨x, hx, rfl⟩, rfl⟩
      exact ⟨x, hx, rfl, rfl⟩
  rw [hmrouters, hgroups]
  exact ⟨fun h => ⟨h.mrouters, h.groups⟩, fun h => ⟨h.2, h.1⟩⟩

/-- A call keeps the manager consistent under `TagFree`, and only then. -/
theorem step_consistent_iff [DecidableEq Addr] {ba : ParseIp Addr} {m : Manager Addr} (call : Call)
    (h : m.Consistent ba) : (step ba m call).Consistent ba ↔ TagFree m call := by
  rw [consistent_iff] at h ⊢
  obtain ⟨hmrouters, hgroups⟩ := h
  match call with
  | .mrouters lookups newSet =>
    have h := updateCacheSet_consistent lookups newSet ⟨m.vlanMap, 0⟩ hmrouters
    exact iff_of_true ⟨h, hgroups⟩ trivial
  | .groups lookups newSet =>
    have h := updateCacheSet_consistent lookups newSet ⟨m.vlanMap, 0⟩ hgroups
    exact iff_of_true ⟨hmrouters, h⟩ trivial
  | .flush (some brName) =>
    refine Iff.trans ?_ (flushBridge_mrouters_iff hmrouters)
    exact ⟨And.left, fun h => ⟨h, flushBridge_groups hgroups⟩⟩
  | .flush none => exact iff_of_true ⟨flushAll_consistent, flushAll_consistent⟩ trivial

/-- After any run in which no flush finds an interface name that ends like a
tag, both sets and their lists hold the same elements. -/
theorem mcast_cache_consistent [DecidableEq Addr] (ba : ParseIp Addr) (calls : List Call)
    (hok : Along (step ba) TagFree Manager.initial calls) :
    (run (step ba) Manager.initial calls).Consistent ba := by
  have hstep : ∀ (m : Manager Addr) call, m.Consistent ba → TagFree m call →
      (step ba m call).Consistent ba :=
    fun m call h hok => (step_consistent_iff call h).mpr hok
  have hinit : (Manager.initial : Manager Addr).Consistent ba :=
    consistent_iff.mpr ⟨flushAll_consistent, flushAll_consistent⟩
  exact run_preserves hstep hinit hok

/-- Addresses as they are written. -/
def asWritten : ParseIp Str := fun _ ip => ip

/-- A router is cached without its tag and flushed. -/
theorem mcast_cache_consistent_flushed :
    let calls : List Call := [.mrouters (fun _ _ => some 100)
      [.new "br100".toList "e101-001-0.100".toList], .flush (some "br100".toList)]
    Along (step asWritten) TagFree Manager.initial calls ∧
      (run (step asWritten) Manager.initial calls).Consistent asWritten := by
  have hok : Along (step asWritten) TagFree Manager.initial [.mrouters (fun _ _ => some 100)
      [.new "br100".toList "e101-001-0.100".toList], .flush (some "br100".toList)] := by
    refine ⟨trivial, ?_, trivial⟩
    unfold TagFree
    decide +kernel
  exact ⟨hok, mcast_cache_consistent _ _ hok⟩

/-- A router on an interface whose name still ends like a tag survives the
flush of its bridge. -/
theorem mcast_flush_leaves_router :
    ¬ ∀ calls : List Call,
      (run (step asWritten) Manager.initial calls).Consistent asWritten := by
  intro h
  have hafter := (h [.mrouters (fun _ _ => some 100)
    [.new "br100".toList "e101.1.100".toList], .flush (some "br100".toList)]).mrouters
  exact absurd ((hafter "br100".toList "e101.1".toList).mpr (by decide +kernel))
    (by decide +kernel)

end Mcast

end OpxNasLinux
