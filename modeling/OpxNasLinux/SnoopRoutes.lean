import OpxNasLinux.Host
import OpxNasLinux.Lib.Dict
import OpxNasLinux.Lib.Exit

/-!
# The routes of multicast snooping

`_parse_snoop_routes` of `dn_base_mcast_snoop.py` goes through the entries of a
request, whose order is that of a dictionary, and publishes attributes for each
of them.

* `parseRoute` is one turn of the loop.  It has a variable that outlives the
  turn: `oif_present` is cleared by a route without an interface, and nothing
  sets it again.
* `attrs` is what a turn publishes for an entry, as a function of the entry and
  of that variable.
* `parse_snoop_routes_iff` says for which two orders the published data is the
  same and is that of the entries.
-/

namespace OpxNasLinux.SnoopRoutes

/-! ## The code -/

/-- An entry of the request.  An address is a text or has the bytes of the
address. -/
structure Route (A : Type) where
  group : Option A
  interface : Option Str
  sourceAddr : Option A

/-- The ports of a VLAN. -/
structure VlanInfo where
  /-- `untagged_ports_key`. -/
  untagged : Option (List Str)
  /-- `tagged_ports_key`. -/
  tagged : Option (List Str)

/-- What a call leads to. -/
inductive Answer (α : Type) where
  | returns (a : α)
  | typeError
  | error

/-- The functions of `cps_utils` and `bytearray_utils`.  The first argument is
set for IPv4. -/
structure Utils (A : Type) where
  /-- `is_ipv4_addr` and `is_ipv6_addr`. -/
  isAddr : Bool → A → Answer Bool
  /-- `ba_to_ipv4str` and `ba_to_ipv6str`, `none` for an exception. -/
  baToStr : Bool → A → Option A

/-- A key of the published data. -/
inductive PubKey where
  /-- `vlan-id`. -/
  | vlanId
  /-- `('group', key, 'interface')`. -/
  | interface (key : Str)
  /-- `('group', key, 'address')`. -/
  | address (key : Str)
  /-- `('group', key, 'source', '0', 'address')`. -/
  | source (key : Str)
deriving DecidableEq

inductive PubVal (A : Type) where
  | vlan (id : ℕ)
  | interface (name : Str)
  | addr (a : A)
deriving DecidableEq

/-- The arguments of a call, without the entries. -/
structure Args (A : Type) where
  utils : Utils A
  vlanId : ℕ
  vlanInfo : VlanInfo
  op : Str
  igmpEvents : Bool

/-- How the loop is left. -/
inductive Stop where
  | returnsFalse
  | raises
deriving DecidableEq

/-- The variables that outlive a turn. -/
structure Loop (A : Type) where
  oifPresent : Bool
  pubData : Dict PubKey (PubVal A)

/-- An entry with its key. -/
abbrev Entry (A : Type) := Sigma fun _ : Str => Route A

/-- `is_intf_vlan_member`. -/
def isIntfVlanMember (v : VlanInfo) (ifName : Str) : Bool :=
  v.untagged.any (ifName ∈ ·) || v.tagged.any (ifName ∈ ·)

section Code

variable {A : Type} (args : Args A)

/-- `_is_ip_addr`, `none` for an exception that it does not catch. -/
def isIpAddr (a : A) : Option Bool :=
  match args.utils.isAddr args.igmpEvents a with
  | .returns b => some b
  | .typeError => some false
  | .error => none

/-- The address as it is published. -/
def addrStr (a : A) : Option A :=
  match isIpAddr args a with
  | none => none
  | some true => some a
  | some false => args.utils.baToStr args.igmpEvents a

/-- The interface of a turn. -/
def publishInterface (key interface : Str) (s : Loop A) : Loop A where
  oifPresent := s.oifPresent
  pubData := (s.pubData.insert .vlanId (.vlan args.vlanId)).insert (.interface key)
    (.interface interface)

/-- A turn from the test of the group address on. -/
def publishAddrs (key : Str) (group : A) (source : Option A) (s : Loop A) : Except Stop (Loop A) :=
  match addrStr args group with
  | none => .error .raises
  | some group =>
    let pub := (s.pubData.insert .vlanId (.vlan args.vlanId)).insert (.address key) (.addr group)
    match source with
    | none => .ok { s with pubData := pub }
    | some source =>
      match addrStr args source with
      | none => .error .raises
      | some source => .ok { s with pubData := pub.insert (.source key) (.addr source) }

/-- One turn of the loop. -/
def parseRoute (s : Loop A) (e : Entry A) : Except Stop (Loop A) :=
  match e.2.group with
  | none => .ok s
  | some group =>
    let s : Loop A := { s with oifPresent := s.oifPresent && e.2.interface.isSome }
    match if s.oifPresent then e.2.interface else none with
    | none => publishAddrs args e.1 group e.2.sourceAddr s
    | some interface =>
      if isIntfVlanMember args.vlanInfo interface then
        publishAddrs args e.1 group e.2.sourceAddr (publishInterface args e.1 interface s)
      else if args.op ≠ "delete".toList then .error .returnsFalse
      else .ok s

/-- `_parse_snoop_routes`, with the published data when it returns `True`. -/
def parseSnoopRoutes (groupInfo : Dict Str (Route A)) : Except Stop (Dict PubKey (PubVal A)) :=
  (groupInfo.entries.foldlM (parseRoute args) ⟨true, ∅⟩).map Loop.pubData

end Code

/-! ## What a turn publishes -/

/-- The attributes under the key of an entry. -/
@[ext] structure Attrs (A : Type) where
  interface : Option (PubVal A)
  address : Option (PubVal A)
  source : Option (PubVal A)

def Attrs.none {A : Type} : Attrs A := ⟨.none, .none, .none⟩

section

variable {A : Type} (args : Args A)

def attrsAt (pub : Dict PubKey (PubVal A)) (key : Str) : Attrs A :=
  ⟨pub.lookup (.interface key), pub.lookup (.address key), pub.lookup (.source key)⟩

/-- What is published for a group with the given interface. -/
def attrsOf (interface : Option Str) (group : A) (source : Option A) : Attrs A where
  interface := interface.map .interface
  address := (addrStr args group).map .addr
  source := (source.bind (addrStr args)).map .addr

/-- What a turn publishes for an entry when `oif_present` is as given.  Nothing
is published for an entry without a group, nor for an interface that is no
member of the VLAN. -/
def attrs (oifPresent : Bool) (r : Route A) : Attrs A :=
  match r.group with
  | none => .none
  | some group =>
    match if oifPresent then r.interface else none with
    | none => attrsOf args none group r.sourceAddr
    | some interface =>
      if isIntfVlanMember args.vlanInfo interface then
        attrsOf args (some interface) group r.sourceAddr
      else .none

/-- What is published for an entry on its own. -/
def published (r : Route A) : Attrs A := attrs args true r

/-- The route has a group and no interface. -/
def Route.nullOif (r : Route A) : Bool := r.group.isSome && r.interface.isNone

/-- The route has a group and an interface. -/
def Route.hasOif (r : Route A) : Bool := r.group.isSome && r.interface.isSome

/-- The id of the VLAN is published when an address is. -/
def Numbered (pub : Dict PubKey (PubVal A)) : Prop :=
  ∀ v, pub.lookup .vlanId = some v ↔
    v = .vlan args.vlanId ∧ ∃ key, (attrsAt pub key).address ≠ none

/-- What a part of a turn does for the entry with the given key. -/
structure Publishes (key : Str) (new : Attrs A) (s s' : Loop A) : Prop where
  oifPresent : s'.oifPresent = s.oifPresent
  own : attrsAt s'.pubData key = new
  others : ∀ key', key' ≠ key → attrsAt s'.pubData key' = attrsAt s.pubData key'
  numbered : Numbered args s'.pubData
  converted : new.address ≠ none

variable {args}

theorem numbered_of {pub : Dict PubKey (PubVal A)} (key : Str)
    (hvlan : pub.lookup .vlanId = some (.vlan args.vlanId))
    (haddr : (attrsAt pub key).address ≠ none) : Numbered args pub := by
  intro v
  rw [hvlan, Option.some_inj]
  exact ⟨fun h => ⟨h.symm, key, haddr⟩, fun h => h.1.symm⟩

theorem publishAddrs_publishes {key : Str} {group : A} {source : Option A} {s s' : Loop A}
    (hsource : (attrsAt s.pubData key).source = none)
    (h : publishAddrs args key group source s = .ok s') :
    Publishes args key ⟨(attrsAt s.pubData key).interface,
      (addrStr args group).map .addr, (source.bind (addrStr args)).map .addr⟩ s s' := by
  rw [publishAddrs] at h
  cases hgroup : addrStr args group with
  | none =>
    rw [hgroup] at h
    cases h
  | some a =>
    rw [hgroup] at h
    cases source with
    | none =>
      cases h
      refine ⟨rfl, ?_, fun key' hne => ?_, ?_, by simp⟩
      · have hnone : s.pubData.lookup (.source key) = none := hsource
        ext1 <;> simp [attrsAt, hnone]
      · ext1 <;> simp [attrsAt, hne]
      · apply numbered_of key <;> simp [attrsAt]
    | some src =>
      cases hsrc : addrStr args src with
      | none =>
        simp only [hsrc] at h
        cases h
      | some b =>
        simp only [hsrc] at h
        cases h
        refine ⟨rfl, ?_, fun key' hne => ?_, ?_, by simp⟩
        · ext1 <;> simp [attrsAt, hsrc]
        · ext1 <;> simp [attrsAt, hne]
        · apply numbered_of key <;> simp [attrsAt]

theorem publishInterface_attrs {key interface : Str} {s : Loop A} :
    attrsAt (publishInterface args key interface s).pubData key =
      ⟨some (.interface interface), (attrsAt s.pubData key).address,
        (attrsAt s.pubData key).source⟩ := by
  ext1 <;> simp [attrsAt, publishInterface]

theorem publishInterface_others {key key' interface : Str} {s : Loop A} (hne : key' ≠ key) :
    attrsAt (publishInterface args key interface s).pubData key' = attrsAt s.pubData key' := by
  ext1 <;> simp [attrsAt, publishInterface, hne]

/-- What a turn does that goes on. -/
structure Turn (args : Args A) (s : Loop A) (e : Entry A) (s' : Loop A) : Prop where
  oifPresent : s'.oifPresent = (s.oifPresent && !e.2.nullOif)
  own : attrsAt s'.pubData e.1 = attrs args s.oifPresent e.2
  others : ∀ key, key ≠ e.1 → attrsAt s'.pubData key = attrsAt s.pubData key
  numbered : Numbered args s.pubData → Numbered args s'.pubData
  /-- Without the test of the interface every group is published. -/
  converted : s.oifPresent = false → e.2.group.isSome = true →
    (attrs args false e.2).address ≠ none

/-- A turn that publishes a group without an interface. -/
theorem turn_of_publishAddrs {key : Str} {group : A} {interface : Option Str} {source : Option A}
    {oif : Bool} {pub : Dict PubKey (PubVal A)} {s' : Loop A} (hnew : attrsAt pub key = .none)
    (hnull : (if oif then interface else none) = none)
    (h : publishAddrs args key group source ⟨false, pub⟩ = .ok s') :
    Turn args ⟨oif, pub⟩ ⟨key, group, interface, source⟩ s' := by
  have hpub := publishAddrs_publishes (by rw [hnew]; rfl) h
  refine ⟨?_, ?_, hpub.others, fun _ => hpub.numbered, fun _ _ => hpub.converted⟩
  · rw [hpub.oifPresent]
    cases oif with
    | false => rfl
    | true =>
      obtain rfl : interface = none := hnull
      rfl
  · rw [hpub.own, hnew]
    simp only [attrs, hnull]
    rfl

/-- A turn for a key that is new. -/
theorem parseRoute_turn {s s' : Loop A} {e : Entry A} (hnew : attrsAt s.pubData e.1 = .none)
    (h : parseRoute args s e = .ok s') : Turn args s e s' := by
  obtain ⟨oif, pub⟩ := s
  obtain ⟨key, group, interface, source⟩ := e
  cases group with
  | none =>
    cases h
    exact ⟨by simp [Route.nullOif], hnew, fun _ _ => rfl, id, fun _ hgroup => by cases hgroup⟩
  | some group =>
    cases oif with
    | false => exact turn_of_publishAddrs hnew rfl h
    | true =>
      cases interface with
      | none => exact turn_of_publishAddrs hnew rfl h
      | some interface =>
        change (if isIntfVlanMember args.vlanInfo interface then
            publishAddrs args key group source (publishInterface args key interface ⟨true, pub⟩)
          else if args.op ≠ "delete".toList then .error .returnsFalse
          else .ok ⟨true, pub⟩) = Except.ok s' at h
        split at h
        · rename_i hmember
          have hpub := publishAddrs_publishes
            (by rw [publishInterface_attrs]; exact congrArg Attrs.source hnew) h
          refine ⟨hpub.oifPresent, ?_, fun key' hne => ?_, fun _ => hpub.numbered,
            fun hoif => by cases hoif⟩
          · rw [hpub.own, publishInterface_attrs]
            simp only [attrs, if_true, hmember]
            rfl
          · rw [hpub.others key' hne, publishInterface_others hne]
        · rename_i hmember
          split at h
          · cases h
          · cases h
            refine ⟨rfl, ?_, fun _ _ => rfl, id, fun hoif => by cases hoif⟩
            simpa [attrs, hmember] using hnew

/-! ## The loop -/

/-- No route without an interface is among the entries. -/
def noNullOif (entries : List (Entry A)) : Bool := entries.all fun e => !e.2.nullOif

/-- What the loop has published for the entries that it has seen. -/
structure Seen (args : Args A) (s : Loop A) (seen : List (Entry A)) : Prop where
  oifPresent : s.oifPresent = noNullOif seen
  own : ∀ before e after, seen = before ++ e :: after →
    attrsAt s.pubData e.1 = attrs args (noNullOif before) e.2 ∧
      (noNullOif before = false → e.2.group.isSome = true →
        (attrs args false e.2).address ≠ none)
  others : ∀ key, key ∉ seen.keys → attrsAt s.pubData key = .none
  numbered : Numbered args s.pubData

theorem seen_nil : Seen args ⟨true, ∅⟩ [] := by
  refine ⟨rfl, fun before e after h => ?_, fun _ _ => rfl, fun v => ?_⟩
  · simp at h
  · simp [attrsAt]

theorem Seen.turn {s s' : Loop A} {seen : List (Entry A)} {e : Entry A} (h : Seen args s seen)
    (hnew : e.1 ∉ seen.keys) (hturn : parseRoute args s e = .ok s') :
    Seen args s' (seen ++ [e]) := by
  have ht := parseRoute_turn (h.others e.1 hnew) hturn
  refine ⟨?_, fun before e' after heq => ?_, fun key hkey => ?_, ht.numbered h.numbered⟩
  · rw [ht.oifPresent, h.oifPresent]
    simp [noNullOif]
  · rcases List.eq_nil_or_concat after with rfl | ⟨after, x, rfl⟩
    · obtain ⟨rfl, hlast⟩ := List.append_inj' heq rfl
      obtain rfl : e = e' := by simpa using hlast
      rw [← h.oifPresent]
      exact ⟨ht.own, ht.converted⟩
    · rw [List.concat_eq_append, ← List.cons_append, ← List.append_assoc] at heq
      obtain ⟨rfl, -⟩ := List.append_inj' heq rfl
      have hmem : e'.1 ∈ (before ++ e' :: after).keys := by simp [List.keys]
      have hne : e'.1 ≠ e.1 := fun heq' => hnew (heq' ▸ hmem)
      rw [ht.others _ hne]
      exact h.own before e' after rfl
  · have hkey : key ∉ seen.keys ∧ key ≠ e.1 := by simpa [List.keys, not_or] using hkey
    rw [ht.others key hkey.2, h.others key hkey.1]

theorem parseSnoopRoutes_seen {groupInfo : Dict Str (Route A)} {pub : Dict PubKey (PubVal A)}
    (h : parseSnoopRoutes args groupInfo = .ok pub) :
    ∃ oif, Seen args ⟨oif, pub⟩ groupInfo.entries := by
  rw [parseSnoopRoutes] at h
  cases hloop : groupInfo.entries.foldlM (parseRoute args) ⟨true, ∅⟩ with
  | error e =>
    rw [hloop] at h
    cases h
  | ok s =>
    rw [hloop] at h
    cases h
    have hseen := @Exit.foldlM_history _ _ _ (parseRoute args)
      (fun s seen => seen.NodupKeys → Seen args s seen) groupInfo.entries _ s []
      (fun s seen e s' _ hs hstep hnodup => ?_) (fun _ => seen_nil) hloop
    · exact ⟨s.oifPresent, hseen groupInfo.nodupKeys⟩
    · have hkeys : (seen.keys ++ [e.1]).Nodup := by
        rw [List.NodupKeys, List.keys, List.map_append] at hnodup
        exact hnodup
      obtain ⟨hseen, -, hdisj⟩ := List.nodup_append.mp hkeys
      refine (hs hseen).turn (fun hmem => ?_) hstep
      exact hdisj _ hmem _ (List.mem_singleton_self _) rfl

/-! ## Two orders -/

/-- No entry with an interface comes after one without. -/
def NullOifLast (groupInfo : Dict Str (Route A)) : Prop :=
  groupInfo.entries.Pairwise fun e e' => e'.2.hasOif = true → e.2.nullOif = false

instance (groupInfo : Dict Str (Route A)) : Decidable (NullOifLast groupInfo) :=
  inferInstanceAs (Decidable (groupInfo.entries.Pairwise _))

theorem nullOifLast_iff {groupInfo : Dict Str (Route A)} :
    NullOifLast groupInfo ↔ ∀ before e after, groupInfo.entries = before ++ e :: after →
      e.2.hasOif = true → noNullOif before = true := by
  constructor
  · intro h before e after heq hoif
    rw [NullOifLast, heq, List.pairwise_append] at h
    have hbefore : ∀ e' ∈ before, e'.2.nullOif = false := fun e' he' =>
      h.2.2 e' he' e List.mem_cons_self hoif
    rw [noNullOif, List.all_eq_true]
    exact fun e' he' => by rw [hbefore e' he']; rfl
  · intro h
    rw [NullOifLast, List.pairwise_iff_getElem]
    intro i j hi hj hij hoif
    have hsplit : groupInfo.entries =
        groupInfo.entries.take j ++ groupInfo.entries[j] :: groupInfo.entries.drop (j + 1) := by
      rw [← List.drop_eq_getElem_cons hj, List.take_append_drop]
    have hall := List.all_eq_true.mp (h _ _ _ hsplit hoif)
    have hmem : groupInfo.entries[i] ∈ groupInfo.entries.take j :=
      List.mem_take_iff_getElem.mpr ⟨i, by omega, rfl⟩
    simpa using hall _ hmem

/-- A cleared `oif_present` changes what is published for the entries with an
interface. -/
theorem attrs_eq_published_iff {oif : Bool} {r : Route A}
    (hconv : oif = false → r.group.isSome = true → (attrs args false r).address ≠ none) :
    attrs args oif r = published args r ↔ (r.hasOif = true → oif = true) := by
  cases oif with
  | true => exact iff_of_true rfl fun _ => rfl
  | false =>
    obtain ⟨group, interface, source⟩ := r
    cases group with
    | none => exact iff_of_true rfl fun hoif => by cases hoif
    | some group =>
      cases interface with
      | none => exact iff_of_true rfl fun hoif => by cases hoif
      | some interface =>
        refine iff_of_false (fun heq => ?_) fun h => by cases h rfl
        by_cases hmember : isIntfVlanMember args.vlanInfo interface = true
        · have hif := congrArg Attrs.interface heq
          simp [attrs, published, hmember, attrsOf] at hif
        · have haddr := congrArg Attrs.address heq
          refine hconv rfl rfl ?_
          rw [haddr]
          simp [attrs, published, hmember, Attrs.none]

/-- The attributes of every entry are its own exactly when the routes without an
interface come last. -/
theorem parseSnoopRoutes_published_iff {groupInfo : Dict Str (Route A)}
    {pub : Dict PubKey (PubVal A)} (h : parseSnoopRoutes args groupInfo = .ok pub) :
    (∀ key r, groupInfo.lookup key = some r → attrsAt pub key = published args r) ↔
      NullOifLast groupInfo := by
  obtain ⟨oif, hseen⟩ := parseSnoopRoutes_seen h
  rw [nullOifLast_iff]
  constructor
  · intro hall before e after heq hoif
    obtain ⟨hown, hconv⟩ := hseen.own before e after heq
    have hmem : e ∈ groupInfo.entries := by simp [heq]
    rw [hall e.1 e.2 (AList.mem_lookup_iff.mpr hmem)] at hown
    exact (attrs_eq_published_iff hconv).mp hown.symm hoif
  · intro hlast key r hlookup
    have hmem : ⟨key, r⟩ ∈ groupInfo.entries := AList.mem_lookup_iff.mp hlookup
    obtain ⟨before, after, heq⟩ := List.append_of_mem hmem
    obtain ⟨hown, hconv⟩ := hseen.own before _ after heq
    rw [hown]
    exact (attrs_eq_published_iff hconv).mpr (hlast before _ after heq)

/-- Two runs that publish the same attributes for every entry publish the same
data. -/
theorem lookup_eq_of_published {o₁ o₂ : Dict Str (Route A)} (hperm : o₁.entries.Perm o₂.entries)
    {d₁ d₂ : Dict PubKey (PubVal A)} (h₁ : parseSnoopRoutes args o₁ = .ok d₁)
    (h₂ : parseSnoopRoutes args o₂ = .ok d₂)
    (hd₁ : ∀ key r, o₁.lookup key = some r → attrsAt d₁ key = published args r)
    (hd₂ : ∀ key r, o₂.lookup key = some r → attrsAt d₂ key = published args r) (k : PubKey) :
    d₁.lookup k = d₂.lookup k := by
  obtain ⟨_, hseen₁⟩ := parseSnoopRoutes_seen h₁
  obtain ⟨_, hseen₂⟩ := parseSnoopRoutes_seen h₂
  have hattrs : ∀ key, attrsAt d₁ key = attrsAt d₂ key := by
    intro key
    cases hr : o₁.lookup key with
    | none =>
      have hnone : o₂.lookup key = none := by rw [← AList.perm_lookup hperm, hr]
      rw [hseen₁.others key (AList.lookup_eq_none.mp hr),
        hseen₂.others key (AList.lookup_eq_none.mp hnone)]
    | some r => rw [hd₁ key r hr, hd₂ key r (by rw [← AList.perm_lookup hperm, hr])]
  cases k with
  | vlanId =>
    apply Option.ext
    intro v
    rw [hseen₁.numbered v, hseen₂.numbered v]
    simp only [hattrs]
  | interface key => exact congrArg Attrs.interface (hattrs key)
  | address key => exact congrArg Attrs.address (hattrs key)
  | source key => exact congrArg Attrs.source (hattrs key)

/-- Two orders of one request publish the same data, and for every entry what
is published for it on its own, exactly when in both of them the routes without
an interface come last. -/
theorem parse_snoop_routes_iff {o₁ o₂ : Dict Str (Route A)} (hperm : o₁.entries.Perm o₂.entries)
    {d₁ d₂ : Dict PubKey (PubVal A)} (h₁ : parseSnoopRoutes args o₁ = .ok d₁)
    (h₂ : parseSnoopRoutes args o₂ = .ok d₂) :
    ((∀ k, d₁.lookup k = d₂.lookup k) ∧
        ∀ key r, o₁.lookup key = some r → attrsAt d₁ key = published args r) ↔
      NullOifLast o₁ ∧ NullOifLast o₂ := by
  rw [← parseSnoopRoutes_published_iff h₁, ← parseSnoopRoutes_published_iff h₂]
  constructor
  · rintro ⟨hsame, hd₁⟩
    refine ⟨hd₁, fun key r hr => ?_⟩
    have hattrs : attrsAt d₂ key = attrsAt d₁ key := by ext1 <;> exact (hsame _).symm
    rw [hattrs, hd₁ key r (by rw [AList.perm_lookup hperm, hr])]
  · rintro ⟨hd₁, hd₂⟩
    exact ⟨lookup_eq_of_published hperm h₁ h₂ hd₁ hd₂, hd₁⟩

end

/-! ## Requests with text addresses -/

/-- An addition to VLAN 100 with one untagged and one tagged port. -/
def sampleArgs : Args Str where
  utils :=
    { isAddr := fun ipv4 a => .returns (ipv4 == !a.contains ':')
      baToStr := fun _ _ => none }
  vlanId := 100
  vlanInfo := ⟨some ["e101-001-0".toList], some ["e101-002-0".toList]⟩
  op := "create".toList
  igmpEvents := true

def sampleRoute (group : String) (interface : Option String) : Route Str :=
  ⟨some group.toList, interface.map String.toList, none⟩

def sampleEntries (routes : List (ℕ × Route Str)) : List (Entry Str) :=
  routes.map fun e => ⟨str e.1, e.2⟩

/-- The request in the given order. -/
def inOrder (routes : List (ℕ × Route Str)) (h : (sampleEntries routes).keys.Nodup) :
    Dict Str (Route Str) :=
  ⟨sampleEntries routes, h⟩

def oifRoute1 : ℕ × Route Str := (1, sampleRoute "225.1.1.1" (some "e101-001-0"))

def oifRoute2 : ℕ × Route Str := (2, sampleRoute "225.1.1.2" (some "e101-002-0"))

def nullOifRoute : ℕ × Route Str := (3, sampleRoute "225.1.1.3" none)

/-- The data that is published in an order of the entries. -/
def publishedIn (groupInfo : Dict Str (Route Str)) : Dict PubKey (PubVal Str) :=
  ((parseSnoopRoutes sampleArgs groupInfo).toOption).getD ∅

/-- The route without an interface comes last in both orders. -/
theorem parse_snoop_routes_iff_small :
    let o₁ := inOrder [oifRoute1, oifRoute2, nullOifRoute] (by decide +kernel)
    let o₂ := inOrder [oifRoute2, oifRoute1, nullOifRoute] (by decide +kernel)
    (∀ k, (publishedIn o₁).lookup k = (publishedIn o₂).lookup k) ∧
      ∀ key r, o₁.lookup key = some r → attrsAt (publishedIn o₁) key = published sampleArgs r := by
  intro o₁ o₂
  have hperm : o₁.entries.Perm o₂.entries := List.Perm.swap _ _ _
  exact (parse_snoop_routes_iff hperm rfl rfl).mpr ⟨by decide +kernel, by decide +kernel⟩

/-- A route without an interface takes the interface from the one that comes
after it. -/
theorem null_oif_hides_interface :
    let o₁ := inOrder [oifRoute1, nullOifRoute] (by decide +kernel)
    let o₂ := inOrder [nullOifRoute, oifRoute1] (by decide +kernel)
    o₁.entries.Perm o₂.entries ∧
      ((parseSnoopRoutes sampleArgs o₁).map fun d => d.lookup (.interface (str 1))) =
        .ok (some (.interface "e101-001-0".toList)) ∧
      ((parseSnoopRoutes sampleArgs o₂).map fun d => d.lookup (.interface (str 1))) = .ok none :=
  ⟨List.Perm.swap _ _ _, by decide +kernel, by decide +kernel⟩

end OpxNasLinux.SnoopRoutes
