import OpxNasLinux.IptablesListing
import OpxNasLinux.McastCache
import OpxNasLinux.SnoopRoutes

/-!
# Static multicast routers

A request may say that multicast routers are behind certain ports of a VLAN.
`handle_configs_fs` writes that to the files of the ports.  What could not be
written is kept in `static_mrouter_set`, from which every poll of the thread
tries it again.

The elements of that set are equal when they name the same port without its
VLAN tag, but a poll needs the name with the tag.  It reads it back from the
text that is made for the logs.

* `configs` is the request and `applyStaticMrouterConfigs` the poll.
* `searchMrouter_rawStr` is the text that is read back.
* `static_mrouter_iff` says which ports a poll writes to, after any run.
-/

namespace OpxNasLinux

open Run

namespace Mcast.Static

open SnoopRoutes (VlanInfo)

/-! ## Requests -/

inductive Operation where
  | create
  | set
  | delete
  | other
deriving DecidableEq

/-- The operations that switch a port on. -/
def Operation.enables : Operation → Bool
  | .create | .set => true
  | .delete | .other => false

/-- A file that is written. -/
structure Write where
  path : Str
  value : Str
  ok : Bool
deriving DecidableEq

/-- What the handler and the thread share.  The set is kept as the raw name of
every element. -/
structure Mgr where
  staticMrouterSet : Dict McastRouterInfo Str
  writes : List Write

def Mgr.init : Mgr := ⟨∅, []⟩

/-- `mcast_path_prefix`. -/
def mcastPathPrefix : Str := "/sys/devices/virtual/net/".toList

/-- The file of a port. -/
def routerPath (brName ifName : Str) : Str :=
  mcastPathPrefix ++ brName ++ "/brif/".toList ++ ifName ++ "/multicast_router".toList

/-- `_update_file_system`, and what becomes of the file. -/
def Mgr.updateFileSystem (path value : Str) (ok : Bool) (m : Mgr) : Mgr :=
  { m with writes := m.writes ++ [⟨path, value, ok⟩] }

/-- `update_static_mrouter_cache` with a new `McastRouterInfo`.  `add` leaves an
equal element as it is. -/
def Mgr.updateStaticMrouterCache (brName rawIfName : Str) (m : Mgr) : Mgr :=
  let elem := McastRouterInfo.new brName rawIfName
  if elem ∈ m.staticMrouterSet then m
  else { m with staticMrouterSet := m.staticMrouterSet.insert elem rawIfName }

/-- `clear_static_mrouter_cache` with a new `McastRouterInfo`. -/
def Mgr.clearStaticMrouterCache (brName rawIfName : Str) (m : Mgr) : Mgr :=
  { m with staticMrouterSet := m.staticMrouterSet.erase (.new brName rawIfName) }

/-- `_get_if_name`. -/
def getIfName (v : VlanInfo) (ifName : Str) (vlanId : ℕ) : Option Str :=
  if v.untagged.any (ifName ∈ ·) then some ifName
  else if v.tagged.any (ifName ∈ ·) then some (ifName ++ '.' :: str vlanId)
  else none

/-- A port of a request, and whether its file can be written. -/
structure Port where
  name : Str
  writable : Bool

/-- A request for the static routers of a VLAN. -/
structure Config where
  operation : Operation
  vlanName : Str
  vlanInfo : VlanInfo
  vlanId : ℕ
  ports : List Port

/-- What is done for a port whose interface has this name. -/
def configPort (c : Config) (ifname : Str) (ok : Bool) (m : Mgr) : Mgr :=
  let mcastRouterVal := if c.operation.enables then "2".toList else "1".toList
  let m := m.updateFileSystem (routerPath c.vlanName ifname) mcastRouterVal ok
  let m := if !ok && c.operation.enables then m.updateStaticMrouterCache c.vlanName ifname else m
  if c.operation = .delete then m.clearStaticMrouterCache c.vlanName ifname else m

/-- The loop of `handle_configs_fs` over the ports, with the result of a
`return` in it. -/
def configPorts (c : Config) : List Port → Mgr → Option Bool × Mgr
  | [], m => (none, m)
  | p :: rest, m =>
    match getIfName c.vlanInfo p.name c.vlanId with
    -- An empty name is as good as none.
    | none | some [] => (some (decide (c.operation = .delete)), m)
    | some ifname => configPorts c rest (configPort c ifname p.writable m)

/-! ## Polls -/

/-- `__raw_str__` of an element without an expiry. -/
def rawStr (brName rawIfName : Str) : Str :=
  "MRouter: bridge ".toList ++ brName ++ " interface ".toList ++ rawIfName

/-- `\s`. -/
def space : Str → Option Str
  | [] => none
  | c :: s => if isSpace c then some s else none

/-- The rest of the match from `\sinterface` on. -/
def matchInterface (s : Str) : Option Str := do
  let s ← space s
  let s ← s.dropPrefix? "interface".toList
  let s ← space s
  let (w, _) ← Search.run notSpace (fun _ => some ()) s
  some w

/-- A match of `MRouter: bridge\s(\S+)\sinterface\s(\S+)` that starts where the
text does. -/
def matchMrouter (s : Str) : Option (Str × Str) := do
  let s ← s.dropPrefix? "MRouter: bridge".toList
  let s ← space s
  Search.run notSpace matchInterface s

/-- The first match. -/
def searchMrouter : Str → Option (Str × Str)
  | [] => matchMrouter []
  | c :: s => (matchMrouter (c :: s)).or (searchMrouter s)

/-- `get_all_static_mrouter_cache`. -/
def Mgr.getAllStaticMrouterCache (m : Mgr) : List (Str × Str) :=
  m.staticMrouterSet.entries.filterMap fun e => searchMrouter (rawStr e.1.brName e.2)

/-- Whether the file of a port of a bridge can be written. -/
abbrev Answers := Str → Str → Bool

/-- One turn of the loop of `apply_static_mrouter_configs`. -/
def applyOne (answers : Answers) (m : Mgr) (elem : Str × Str) : Mgr :=
  let ok := answers elem.1 elem.2
  let m := m.updateFileSystem (routerPath elem.1 elem.2) "2".toList ok
  if ok then m.clearStaticMrouterCache elem.1 elem.2 else m

/-- `apply_static_mrouter_configs`. -/
def applyStaticMrouterConfigs (answers : Answers) (m : Mgr) : Mgr :=
  m.getAllStaticMrouterCache.foldl (applyOne answers) m

inductive Request where
  | config (c : Config)
  | poll (answers : Answers)

def step (m : Mgr) : Request → Mgr
  | .config c => (configPorts c c.ports m).2
  | .poll answers => applyStaticMrouterConfigs answers m

/-! ## The text of an element -/

/-- The name of an interface has no blanks. -/
def Word (t : Str) : Prop := t ≠ [] ∧ ∀ c ∈ t, notSpace c = true

theorem dropPrefix?_self_append (front back : Str) :
    (front ++ back).dropPrefix? front = some back :=
  List.dropPrefix?_append_of_beq back (beq_self_eq_true front)

theorem matchInterface_eq {rawIfName : Str} (hraw : Word rawIfName) :
    matchInterface (' ' :: ("interface".toList ++ ' ' :: rawIfName)) = some rawIfName := by
  have hlast : Search.run notSpace (fun _ => some ()) rawIfName = some (rawIfName, ()) := by
    have hrun := @Search.run_of_rest Char Unit notSpace (fun _ => some ()) rawIfName [] ()
      hraw.2 hraw.1 rfl rfl
    rwa [List.append_nil] at hrun
  have hspace (s : Str) : space (' ' :: s) = some s := rfl
  simp only [matchInterface, hspace, dropPrefix?_self_append, Option.bind_eq_bind,
    Option.bind_some, hlast]

/-- The text of an element gives its two names back. -/
theorem searchMrouter_rawStr {brName rawIfName : Str} (hbr : Word brName)
    (hraw : Word rawIfName) :
    searchMrouter (rawStr brName rawIfName) = some (brName, rawIfName) := by
  have hbridge : "MRouter: bridge ".toList = "MRouter: bridge".toList ++ [' '] := by decide
  have hinterface : " interface ".toList = ' ' :: ("interface".toList ++ [' ']) := by decide
  have hblanks {front front' middle middle' : Str} (hfront : front = front' ++ [' '])
      (hmiddle : middle = ' ' :: (middle' ++ [' '])) :
      front ++ brName ++ middle ++ rawIfName =
        front' ++ ' ' :: (brName ++ ' ' :: (middle' ++ ' ' :: rawIfName)) := by
    simp [hfront, hmiddle]
  have htext : rawStr brName rawIfName = "MRouter: bridge".toList ++
      ' ' :: (brName ++ ' ' :: ("interface".toList ++ ' ' :: rawIfName)) :=
    hblanks hbridge hinterface
  have hrun : Search.run notSpace matchInterface
      (brName ++ ' ' :: ("interface".toList ++ ' ' :: rawIfName)) = some (brName, rawIfName) :=
    Search.run_of_rest hbr.2 hbr.1 (matchInterface_eq hraw)
      (Search.run_ends notSpace_sep (Or.inr ⟨_, rfl⟩))
  have hspace (s : Str) : space (' ' :: s) = some s := rfl
  have hmatch : matchMrouter (rawStr brName rawIfName) = some (brName, rawIfName) := by
    simp only [htext, matchMrouter, hspace, dropPrefix?_self_append, Option.bind_eq_bind,
      Option.bind_some, hrun]
  generalize rawStr brName rawIfName = s at hmatch
  cases s with
  | nil => exact hmatch
  | cons c s => rw [searchMrouter, hmatch, Option.some_or]

/-! ## What a request does -/

/-- The interfaces of the ports that the loop gets to. -/
def processed (c : Config) : List Port → List (Str × Bool)
  | [] => []
  | p :: rest =>
    match getIfName c.vlanInfo p.name c.vlanId with
    | none | some [] => []
    | some ifname => (ifname, p.writable) :: processed c rest

/-- The interfaces whose files could not be written. -/
def refused (c : Config) : List Str :=
  ((processed c c.ports).filter fun p => !p.2).map Prod.fst

theorem configPorts_eq (c : Config) (ports : List Port) (m : Mgr) :
    (configPorts c ports m).2 =
      (processed c ports).foldl (fun m p => configPort c p.1 p.2 m) m := by
  induction ports generalizing m with
  | nil => rfl
  | cons p rest ih =>
    rw [configPorts, processed]
    split
    · rfl
    · rfl
    · rw [ih, List.foldl_cons]

/-- What is cached for a port. -/
def Mgr.cached (m : Mgr) (key : McastRouterInfo) : Option Str := m.staticMrouterSet.lookup key

@[simp] theorem cached_updateFileSystem (path value : Str) (ok : Bool) (m : Mgr)
    (key : McastRouterInfo) : (m.updateFileSystem path value ok).cached key = m.cached key := rfl

/-- An element that is there stays as it is. -/
theorem cached_update (brName raw : Str) (m : Mgr) (key : McastRouterInfo) :
    (m.updateStaticMrouterCache brName raw).cached key =
      (m.cached key).or (if McastRouterInfo.new brName raw = key then some raw else none) := by
  by_cases hmem : McastRouterInfo.new brName raw ∈ m.staticMrouterSet
  · rw [Mgr.updateStaticMrouterCache, if_pos hmem]
    split
    · rename_i heq
      obtain ⟨raw', hraw'⟩ := Dict.mem_iff.mp (heq ▸ hmem)
      rw [Mgr.cached, hraw', Option.some_or]
    · rw [Option.or_none]
  · rw [Mgr.updateStaticMrouterCache, if_neg hmem]
    split
    · rename_i heq
      have hnone : m.cached key = none := AList.lookup_eq_none.mpr (heq ▸ hmem)
      rw [hnone, Option.none_or, ← heq]
      exact AList.lookup_insert _
    · rename_i hne
      rw [Option.or_none]
      exact AList.lookup_insert_ne (Ne.symm hne)

theorem cached_clear (brName raw : Str) (m : Mgr) (key : McastRouterInfo) :
    (m.clearStaticMrouterCache brName raw).cached key =
      if McastRouterInfo.new brName raw = key then none else m.cached key := by
  split
  · rename_i heq
    rw [← heq]
    exact AList.lookup_erase _ _
  · rename_i hne
    exact AList.lookup_erase_ne (Ne.symm hne)

/-- A request that switches ports on adds the first interface of each port that
was refused. -/
theorem cached_enable {c : Config} (h : c.operation.enables = true) (done : List (Str × Bool))
    (m : Mgr) (key : McastRouterInfo) :
    (done.foldl (fun m p => configPort c p.1 p.2 m) m).cached key =
      (m.cached key).or (((done.filter fun p => !p.2).map Prod.fst).find?
        fun raw => McastRouterInfo.new c.vlanName raw = key) := by
  have hop : ¬ c.operation = .delete := by
    rintro hop
    rw [hop] at h
    cases h
  induction done generalizing m with
  | nil => simp
  | cons p rest ih =>
    obtain ⟨raw, ok⟩ := p
    rw [List.foldl_cons, ih]
    cases ok with
    | true => simp [configPort, hop]
    | false =>
      have hone : (configPort c raw false m).cached key = (m.cached key).or
          (if McastRouterInfo.new c.vlanName raw = key then some raw else none) := by
        simp [configPort, hop, h, cached_update]
      rw [hone, Option.or_assoc]
      congr 1
      simp only [Bool.not_false, List.filter_cons_of_pos, List.map_cons, List.find?_cons]
      split <;> simp_all

/-- A request of another kind adds none, and only a deletion removes one. -/
theorem cached_other {c : Config} (h : c.operation.enables = false) (done : List (Str × Bool))
    (m : Mgr) (key : McastRouterInfo) (raw : Str) :
    (done.foldl (fun m p => configPort c p.1 p.2 m) m).cached key = some raw ↔
      m.cached key = some raw ∧
        ¬ (c.operation = .delete ∧ ∃ p ∈ done, McastRouterInfo.new c.vlanName p.1 = key) := by
  induction done generalizing m with
  | nil => simp
  | cons p rest ih =>
    rw [List.foldl_cons, ih, List.exists_mem_cons_iff]
    by_cases hop : c.operation = .delete
    · by_cases hp : McastRouterInfo.new c.vlanName p.1 = key <;>
        simp [configPort, Operation.enables, hop, cached_clear, hp]
    · simp [configPort, h, hop]

/-! ## What a poll does -/

/-- An element is what its constructor makes of its raw name, and both names
are those of interfaces. -/
def Tidy (m : Mgr) : Prop :=
  ∀ key raw, m.cached key = some raw →
    key = McastRouterInfo.new key.brName raw ∧ Word key.brName ∧ Word raw

/-- Every element is read back. -/
theorem mem_getAll_iff {m : Mgr} (h : Tidy m) {brName raw : Str} :
    (brName, raw) ∈ m.getAllStaticMrouterCache ↔
      m.cached (McastRouterInfo.new brName raw) = some raw := by
  unfold Mgr.getAllStaticMrouterCache
  rw [List.mem_filterMap]
  constructor
  · rintro ⟨⟨key, raw'⟩, hmem, hsearch⟩
    have hcached : m.cached key = some raw' := AList.mem_lookup_iff.mpr hmem
    obtain ⟨hkey, hbr, hraw⟩ := h key raw' hcached
    rw [searchMrouter_rawStr hbr hraw] at hsearch
    obtain ⟨rfl, rfl⟩ := Prod.mk.inj (Option.some.inj hsearch)
    rwa [← hkey]
  · intro hcached
    obtain ⟨-, hbr, hraw⟩ := h _ _ hcached
    exact ⟨⟨_, raw⟩, AList.mem_lookup_iff.mp hcached, searchMrouter_rawStr hbr hraw⟩

/-- No port is tried twice. -/
theorem getAll_nodup {m : Mgr} (h : Tidy m) : m.getAllStaticMrouterCache.Nodup := by
  unfold Mgr.getAllStaticMrouterCache
  refine List.pairwise_filterMap.mpr ?_
  have hkeys : m.staticMrouterSet.entries.Pairwise fun e e' => e.1 ≠ e'.1 :=
    List.pairwise_map.mp m.staticMrouterSet.nodupKeys
  refine hkeys.imp_of_mem fun {e e'} he he' hne elem helem elem' helem' heq => hne ?_
  obtain ⟨hkey, hbr, hraw⟩ := h e.1 e.2 (AList.mem_lookup_iff.mpr he)
  obtain ⟨hkey', hbr', hraw'⟩ := h e'.1 e'.2 (AList.mem_lookup_iff.mpr he')
  rw [searchMrouter_rawStr hbr hraw, Option.some_inj] at helem
  rw [searchMrouter_rawStr hbr' hraw', Option.some_inj] at helem'
  obtain ⟨hbrs, hraws⟩ := Prod.mk.inj (helem.trans (heq.trans helem'.symm))
  rw [hkey, hkey', hbrs, hraws]

/-- The files that a poll writes. -/
theorem writes_applyOne (answers : Answers) (elems : List (Str × Str)) (m : Mgr) :
    (elems.foldl (applyOne answers) m).writes = m.writes ++ elems.map fun elem =>
      ⟨routerPath elem.1 elem.2, "2".toList, answers elem.1 elem.2⟩ := by
  induction elems generalizing m with
  | nil => simp
  | cons elem rest ih =>
    rw [List.foldl_cons, ih]
    unfold applyOne
    cases hok : answers elem.1 elem.2 <;>
      simp [Mgr.updateFileSystem, Mgr.clearStaticMrouterCache, hok]

/-- What a poll leaves are the elements whose files could not be written. -/
theorem cached_applyOne (answers : Answers) (elems : List (Str × Str)) (m : Mgr)
    (key : McastRouterInfo) (raw : Str) :
    (elems.foldl (applyOne answers) m).cached key = some raw ↔
      m.cached key = some raw ∧ ∀ elem ∈ elems, McastRouterInfo.new elem.1 elem.2 = key →
        answers elem.1 elem.2 = false := by
  induction elems generalizing m with
  | nil => simp
  | cons elem rest ih =>
    rw [List.foldl_cons, ih, List.forall_mem_cons]
    unfold applyOne
    cases hok : answers elem.1 elem.2
    · simp
    · by_cases helem : McastRouterInfo.new elem.1 elem.2 = key <;> simp [cached_clear, helem]

/-- Every element is tried once, so the answer for its own name decides. -/
theorem cached_poll {m : Mgr} (h : Tidy m) (answers : Answers) (brName raw : Str) :
    (applyStaticMrouterConfigs answers m).cached (.new brName raw) = some raw ↔
      m.cached (.new brName raw) = some raw ∧ answers brName raw = false := by
  rw [applyStaticMrouterConfigs, cached_applyOne]
  refine and_congr_right fun hcached => ⟨fun hall => ?_, fun hone elem helem hkey => ?_⟩
  · exact hall _ ((mem_getAll_iff h).mpr hcached) rfl
  · obtain ⟨brName', raw'⟩ := elem
    have hother := (mem_getAll_iff h).mp helem
    rw [hkey, hcached] at hother
    obtain rfl := Option.some.inj hother
    obtain rfl : brName' = brName := congrArg McastRouterInfo.brName hkey
    exact hone

/-! ## Runs -/

/-- The bridge and the ports of a request are named like interfaces. -/
def Request.Words : Request → Prop
  | .config c => Word c.vlanName ∧ ∀ p ∈ c.ports, Word p.name
  | .poll _ => True

theorem word_getIfName {v : VlanInfo} {name ifname : Str} {vlanId : ℕ} (h : Word name)
    (hget : getIfName v name vlanId = some ifname) : Word ifname := by
  unfold getIfName at hget
  split_ifs at hget
  · rwa [← Option.some.inj hget]
  · rw [← Option.some.inj hget]
    refine ⟨by simp, fun c hc => ?_⟩
    rcases List.mem_append.mp hc with hc | hc
    · exact h.2 c hc
    · rcases List.mem_cons.mp hc with rfl | hc
      · rfl
      · have hstr : intStr vlanId = str vlanId := if_neg (Int.not_ofNat_neg vlanId)
        exact (plain_intStr vlanId).notSpace c (hstr ▸ hc)

theorem word_processed {c : Config} {ports : List Port} (h : ∀ p ∈ ports, Word p.name) :
    ∀ p ∈ processed c ports, Word p.1 := by
  induction ports with
  | nil => exact fun p hp => (List.not_mem_nil hp).elim
  | cons port rest ih =>
    obtain ⟨hport, hrest⟩ := List.forall_mem_cons.mp h
    rw [processed]
    split
    · exact fun p hp => (List.not_mem_nil hp).elim
    · exact fun p hp => (List.not_mem_nil hp).elim
    · rename_i ifname _ hget
      exact List.forall_mem_cons.mpr ⟨word_getIfName hport hget, ih hrest⟩

theorem tidy_step {m : Mgr} (h : Tidy m) {r : Request} (hr : r.Words) : Tidy (step m r) := by
  intro key raw hcached
  cases r with
  | poll answers => exact h key raw ((cached_applyOne _ _ _ _ _).mp hcached).1
  | config c =>
    rw [step, configPorts_eq] at hcached
    cases hop : c.operation.enables with
    | false => exact h key raw ((cached_other hop _ _ _ _).mp hcached).1
    | true =>
      rw [cached_enable hop, Option.or_eq_some_iff] at hcached
      rcases hcached with hcached | ⟨-, hfind⟩
      · exact h key raw hcached
      · obtain ⟨p, hp, rfl⟩ := List.mem_map.mp (List.mem_of_find?_eq_some hfind)
        have hkey : McastRouterInfo.new c.vlanName p.1 = key := by
          simpa using List.find?_some hfind
        rw [← hkey]
        exact ⟨rfl, hr.1, word_processed hr.2 p (List.mem_filter.mp hp).1⟩

/-- A request switches the port on, its file is the first of the port that
cannot be written, and the port is not cached. -/
def Refuses (brName raw : Str) (m : Mgr) : Request → Prop
  | .config c => c.operation.enables = true ∧ c.vlanName = brName ∧
      (refused c).find? (fun raw' => removeIfnameTag raw' = removeIfnameTag raw) = some raw ∧
      m.cached (.new brName raw) = none
  | .poll _ => False

/-- A deletion gets to the port, or the file is written by a poll. -/
def Clears (brName raw : Str) : Request → Prop
  | .config c => c.operation = .delete ∧ c.vlanName = brName ∧
      ∃ p ∈ processed c c.ports, removeIfnameTag p.1 = removeIfnameTag raw
  | .poll answers => answers brName raw = true

theorem new_eq_iff {brName raw brName' raw' : Str} :
    McastRouterInfo.new brName raw = McastRouterInfo.new brName' raw' ↔
      brName = brName' ∧ removeIfnameTag raw = removeIfnameTag raw' := by
  simp [McastRouterInfo.new]

/-- What one step does to the entry of a port. -/
theorem cached_step {m : Mgr} (h : Tidy m) (r : Request) (brName raw : Str) :
    (step m r).cached (.new brName raw) = some raw ↔
      Refuses brName raw m r ∨ m.cached (.new brName raw) = some raw ∧ ¬ Clears brName raw r := by
  cases r with
  | poll answers => simpa [step, Refuses, Clears] using cached_poll h answers brName raw
  | config c =>
    rw [step, configPorts_eq]
    cases hop : c.operation.enables with
    | false =>
      rw [cached_other hop]
      by_cases hbr : c.vlanName = brName <;> simp [Refuses, Clears, hop, hbr, new_eq_iff]
    | true =>
      have hdelete : c.operation ≠ .delete := by
        rintro hdelete
        rw [hdelete] at hop
        cases hop
      rw [cached_enable hop, Option.or_eq_some_iff, or_comm]
      refine or_congr ?_ (by simp [Clears, hdelete])
      by_cases hbr : c.vlanName = brName
      · simp [Refuses, refused, hop, hbr, new_eq_iff, and_comm]
      · have hnone : (refused c).find?
            (fun raw' => McastRouterInfo.new c.vlanName raw' = .new brName raw) = none :=
          List.find?_eq_none.mpr (by simp [new_eq_iff, hbr])
        rw [← refused, hnone]
        simp [Refuses, hbr]

/-- After any run, a poll tries every port once that is cached.  A port is
cached, under the name its file was refused under first, when a request was
refused it and since then no deletion got to it and no poll wrote its file. -/
theorem static_mrouter_iff (requests : List Request) (hwords : ∀ r ∈ requests, r.Words)
    (answers : Answers) :
    let m := run step Mgr.init requests
    ((step m (.poll answers)).writes = m.writes ++ m.getAllStaticMrouterCache.map fun elem =>
      ⟨routerPath elem.1 elem.2, "2".toList, answers elem.1 elem.2⟩) ∧
    m.getAllStaticMrouterCache.Nodup ∧
    ∀ brName raw, (brName, raw) ∈ m.getAllStaticMrouterCache ↔
      ∃ front r back, requests = front ++ r :: back ∧
        Refuses brName raw (run step Mgr.init front) r ∧ ∀ r' ∈ back, ¬ Clears brName raw r' := by
  intro m
  have hinit : Tidy Mgr.init := fun key raw hcached => by cases hcached
  have hok : Along step (fun _ r => r.Words) Mgr.init requests := along_of_forall _ hwords
  have hm : Tidy m := @run_preserves _ _ step (fun _ r => r.Words) Tidy
    (fun m r h hr => tidy_step h hr) _ _ hinit hok
  refine ⟨writes_applyOne answers _ m, getAll_nodup hm, fun brName raw => ?_⟩
  rw [mem_getAll_iff hm]
  have hsince := @run_since _ _ step (fun m => m.cached (.new brName raw) = some raw) Tidy
    (Refuses brName raw) (Clears brName raw) Request.Words (fun m r h hr => tidy_step h hr)
    (fun m r h _ => cached_step h r brName raw) Mgr.init requests hinit hwords
  have hnone : ¬ Mgr.init.cached (.new brName raw) = some raw := fun hcached => by cases hcached
  rw [hsince, or_iff_right fun hinit => hnone hinit.1]

/-- A port that leaves the VLAN before its router is deleted. -/
theorem static_mrouter_portLeft :
    let port : Port := ⟨"e101-001-0".toList, false⟩
    let create : Config := ⟨.create, "br100".toList, ⟨none, some [port.name]⟩, 100, [port]⟩
    let delete : Config := ⟨.delete, "br100".toList, ⟨none, none⟩, 100, [port]⟩
    let m := run step Mgr.init [.config create, .config delete]
    ((step m (.poll fun _ _ => true)).writes = m.writes ++
      m.getAllStaticMrouterCache.map fun elem =>
        ⟨routerPath elem.1 elem.2, "2".toList, true⟩) ∧
    m.getAllStaticMrouterCache.Nodup ∧
    ∀ brName raw, (brName, raw) ∈ m.getAllStaticMrouterCache ↔
      ∃ front r back, [.config create, .config delete] = front ++ r :: back ∧
        Refuses brName raw (run step Mgr.init front) r ∧ ∀ r' ∈ back, ¬ Clears brName raw r' :=
  static_mrouter_iff _ (by
    rw [List.forall_mem_cons, List.forall_mem_singleton]
    refine ⟨⟨?_, ?_⟩, ?_, ?_⟩ <;> simp [Word] <;> decide) _

end Mcast.Static

end OpxNasLinux
