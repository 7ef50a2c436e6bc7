import OpxNasLinux.Lib.Dict
import OpxNasLinux.SvcsRule

/-!
# The cache of the interfaces

The class `INTERFACE` keeps what the kernel said about every interface in
`if_map_`, and the indices of the names in `name_ifindex_map_`.

* `NamesAgree` says that the two maps name the same interfaces.
* `ifInfoUpdate_namesAgree_iff` and `forget_namesAgree_iff` say when an update
  and a removal keep it.
-/

namespace OpxNasLinux

/-- `BASE_CMN_INTERFACE_TYPE_t`. -/
inductive IfType where
  | l3Port
  | l2Port
  | lag
  | bridge
  | vlanSubintf
  | macvlan
  | vxlan
  | loopback
  | management
deriving DecidableEq

/-- `hal_ifindex_t`. -/
abbrev IfIndex := ℤ

/-- `if_info_t`.  An attribute that a message does not carry leaves its field
unset. -/
structure IfInfo where
  admin : Bool
  oper : Bool
  mtu : Option ℤ
  ifType : IfType
  osLinkType : Str
  phyAddr : Option (List UInt8)
  ifName : Str
  masterIdx : Option IfIndex
  parentIdx : IfIndex
deriving DecidableEq

/-- `if_map_` and `name_ifindex_map_`. -/
structure IfCache where
  ifMap : Dict IfIndex IfInfo
  nameIfindexMap : Dict Str IfIndex

namespace IfCache

/-- The cache before the first message. -/
def empty : IfCache := ⟨∅, ∅⟩

/-- `if_info_present`. -/
def ifInfoPresent (ifx : IfIndex) (c : IfCache) : Bool := (c.ifMap.lookup ifx).isSome

/-- `if_info_get_type`.  `none` is `BASE_CMN_INTERFACE_TYPE_NULL`. -/
def ifInfoGetType (ifx : IfIndex) (c : IfCache) : Option IfType :=
  (c.ifMap.lookup ifx).map IfInfo.ifType

/-- `if_info_get_name`. -/
def ifInfoGetName (ifx : IfIndex) (c : IfCache) : Str :=
  ((c.ifMap.lookup ifx).map IfInfo.ifName).getD []

/-- `get_ifindex_from_name`. -/
def getIfindexFromName (ifName : Str) (c : IfCache) : Option IfIndex :=
  c.nameIfindexMap.lookup ifName

/-- `if_info_update`.  The name and the type are those of the first update. -/
def ifInfoUpdate (ifx : IfIndex) (info : IfInfo) (c : IfCache) : IfCache :=
  match c.ifMap.lookup ifx with
  | none =>
    { ifMap := c.ifMap.insert ifx info
      nameIfindexMap :=
        if info.ifName = [] then c.nameIfindexMap
        else c.nameIfindexMap.insert info.ifName ifx }
  | some old =>
    { c with
      ifMap := c.ifMap.insert ifx
        { old with
          admin := info.admin
          oper := info.oper
          mtu := info.mtu
          masterIdx := info.masterIdx
          phyAddr := info.phyAddr } }

/-- `if_info_delete`. -/
def ifInfoDelete (ifx : IfIndex) (name : Str) (c : IfCache) : IfCache where
  ifMap := c.ifMap.erase ifx
  nameIfindexMap := if name = [] then c.nameIfindexMap else c.nameIfindexMap.erase name

/-- A name has an index exactly when the interface with this index has the
name. -/
def NamesAgree (c : IfCache) : Prop :=
  ∀ n ix, n ≠ [] → (c.nameIfindexMap.lookup n = some ix ↔
    ∃ info, c.ifMap.lookup ix = some info ∧ info.ifName = n)

/-- A message without a name, or with one that has no index. -/
def NameFree (name : Str) (c : IfCache) : Prop := name = [] ∨ name ∉ c.nameIfindexMap

instance (name : Str) (c : IfCache) : Decidable (NameFree name c) :=
  inferInstanceAs (Decidable (_ ∨ _))

theorem empty_namesAgree : NamesAgree empty := by
  intro n ix _
  refine iff_of_false (fun h => (nomatch h)) ?_
  rintro ⟨info, h, -⟩
  exact nomatch h

/-- Two maps agree when every name leads to the interface that has it. -/
theorem namesAgree_iff {c : IfCache} :
    NamesAgree c ↔ ∀ n ix, n ≠ [] →
      (c.nameIfindexMap.lookup n = some ix ↔ ifInfoGetName ix c = n) := by
  refine forall_congr' fun n => forall_congr' fun ix => forall_congr' fun hn => ?_
  refine iff_congr Iff.rfl ?_
  rw [ifInfoGetName]
  cases hlookup : c.ifMap.lookup ix with
  | none => simp [hn.symm]
  | some info => simp

theorem NamesAgree.lookup_iff {c : IfCache} (h : NamesAgree c) {n : Str} {ix : IfIndex}
    (hn : n ≠ []) : c.nameIfindexMap.lookup n = some ix ↔ ifInfoGetName ix c = n :=
  namesAgree_iff.mp h n ix hn

/-- An update of an interface that is known leaves the names. -/
theorem ifInfoUpdate_known {c : IfCache} {ix : IfIndex} {info old : IfInfo}
    (h : c.ifMap.lookup ix = some old) :
    (ifInfoUpdate ix info c).nameIfindexMap = c.nameIfindexMap ∧
      ∀ ix', ifInfoGetName ix' (ifInfoUpdate ix info c) = ifInfoGetName ix' c := by
  rw [ifInfoUpdate, h]
  refine ⟨rfl, fun ix' => ?_⟩
  rw [ifInfoGetName, ifInfoGetName]
  dsimp only
  by_cases hix : ix' = ix
  · rw [hix, AList.lookup_insert, h]
    rfl
  · rw [AList.lookup_insert_ne hix]

/-- The names after an update of an interface that is not known. -/
theorem ifInfoUpdate_new {c : IfCache} {ix : IfIndex} {info : IfInfo}
    (h : c.ifMap.lookup ix = none) :
    (∀ n, n ≠ [] → (ifInfoUpdate ix info c).nameIfindexMap.lookup n =
        if n = info.ifName then some ix else c.nameIfindexMap.lookup n) ∧
      ∀ ix', ifInfoGetName ix' (ifInfoUpdate ix info c) =
        if ix' = ix then info.ifName else ifInfoGetName ix' c := by
  rw [ifInfoUpdate, h]
  refine ⟨fun n hn => ?_, fun ix' => ?_⟩
  · dsimp only
    split
    · rename_i hempty
      rw [if_neg (hempty ▸ hn)]
    · split
      · rename_i heq
        rw [heq, AList.lookup_insert]
      · rename_i hne
        rw [AList.lookup_insert_ne hne]
  · rw [ifInfoGetName, ifInfoGetName]
    dsimp only
    split
    · rename_i heq
      rw [heq, AList.lookup_insert]
      rfl
    · rename_i hne
      rw [AList.lookup_insert_ne hne]

/-- An update keeps the names in step when a new interface does not have a name
that is taken, and only then. -/
theorem ifInfoUpdate_namesAgree_iff {c : IfCache} (h : NamesAgree c) {ix : IfIndex}
    {info : IfInfo} :
    NamesAgree (ifInfoUpdate ix info c) ↔
      (ifInfoPresent ix c = false → NameFree info.ifName c) := by
  cases hlookup : c.ifMap.lookup ix with
  | some old =>
    obtain ⟨hnames, hname⟩ := @ifInfoUpdate_known c ix info old hlookup
    refine iff_of_true (namesAgree_iff.mpr fun n ix' hn => ?_) fun hno => ?_
    · rw [hnames, hname]
      exact h.lookup_iff hn
    · rw [ifInfoPresent, hlookup] at hno
      cases hno
  | none =>
    obtain ⟨hnames, hname⟩ := @ifInfoUpdate_new c ix info hlookup
    have hunnamed : ifInfoGetName ix c = [] := by rw [ifInfoGetName, hlookup]; rfl
    have hpresent : ifInfoPresent ix c = false := by rw [ifInfoPresent, hlookup]; rfl
    rw [namesAgree_iff]
    constructor
    · intro hafter _
      by_contra htaken
      obtain ⟨hne, htaken⟩ := not_or.mp htaken
      obtain ⟨ix', hix'⟩ := Dict.mem_iff.mp (not_not.mp htaken)
      -- the interface that had the name has it still, and so does the new one
      have hother : ix' ≠ ix := by
        rintro rfl
        exact hne ((h.lookup_iff hne).mp hix' ▸ hunnamed)
      have hboth := hafter info.ifName ix' hne
      rw [hnames _ hne, hname, if_pos rfl, if_neg hother] at hboth
      exact hother (Option.some.inj (hboth.mpr ((h.lookup_iff hne).mp hix'))).symm
    · intro hfree n ix' hn
      rw [hnames n hn, hname]
      by_cases hnew : n = info.ifName
      · subst hnew
        rw [if_pos rfl]
        have hnone : ∀ ix'', ifInfoGetName ix'' c ≠ info.ifName := by
          intro ix'' hix''
          have htaken := Dict.mem_iff.mpr ⟨ix'', (h.lookup_iff hn).mpr hix''⟩
          exact ((hfree hpresent).resolve_left hn) htaken
        by_cases hix : ix' = ix
        · simp [hix]
        · simp [hix, Ne.symm hix, hnone ix']
      · rw [if_neg hnew, h.lookup_iff hn]
        by_cases hix : ix' = ix
        · rw [if_pos hix, hix, hunnamed]
          exact iff_of_false (Ne.symm hn) (Ne.symm hnew)
        · rw [if_neg hix]

/-- The names after an interface was updated and taken out. -/
theorem forget_names (c : IfCache) (ix : IfIndex) (info : IfInfo) :
    (∀ n, n ≠ [] →
        (ifInfoDelete ix info.ifName (ifInfoUpdate ix info c)).nameIfindexMap.lookup n =
          if n = info.ifName then none else c.nameIfindexMap.lookup n) ∧
      ∀ ix', ifInfoGetName ix' (ifInfoDelete ix info.ifName (ifInfoUpdate ix info c)) =
        if ix' = ix then [] else ifInfoGetName ix' c := by
  have hupdated : (∀ n, n ≠ [] → n ≠ info.ifName →
      (ifInfoUpdate ix info c).nameIfindexMap.lookup n = c.nameIfindexMap.lookup n) ∧
      ∀ ix', ix' ≠ ix → ifInfoGetName ix' (ifInfoUpdate ix info c) = ifInfoGetName ix' c := by
    cases hlookup : c.ifMap.lookup ix with
    | some old =>
      obtain ⟨hnames, hname⟩ := @ifInfoUpdate_known c ix info old hlookup
      exact ⟨fun n _ _ => by rw [hnames], fun ix' _ => hname ix'⟩
    | none =>
      obtain ⟨hnames, hname⟩ := @ifInfoUpdate_new c ix info hlookup
      exact ⟨fun n hn hne => by rw [hnames n hn, if_neg hne],
        fun ix' hne => by rw [hname ix', if_neg hne]⟩
  refine ⟨fun n hn => ?_, fun ix' => ?_⟩
  · rw [ifInfoDelete]
    dsimp only
    split
    · rename_i hempty
      have hne : n ≠ info.ifName := fun heq => hn (heq.trans hempty)
      rw [if_neg hne, hupdated.1 n hn hne]
    · split
      · rename_i heq
        rw [heq, AList.lookup_erase]
      · rename_i hne
        rw [AList.lookup_erase_ne hne, hupdated.1 n hn hne]
  · split
    · rename_i heq
      rw [ifInfoGetName, ifInfoDelete, heq, AList.lookup_erase]
      rfl
    · rename_i hne
      rw [← hupdated.2 ix' hne, ifInfoGetName, ifInfoGetName, ifInfoDelete,
        AList.lookup_erase_ne hne]

/-- The names keep in step when an interface is taken out exactly when the
entry of its message's name is the one of the interface. -/
theorem forget_namesAgree_iff_pairs {c : IfCache} (h : NamesAgree c) {ix : IfIndex}
    {info : IfInfo} :
    NamesAgree (ifInfoDelete ix info.ifName (ifInfoUpdate ix info c)) ↔
      ∀ n ix', n ≠ [] → ifInfoGetName ix' c = n → (n = info.ifName ↔ ix' = ix) := by
  obtain ⟨hnames, hname⟩ := forget_names c ix info
  rw [namesAgree_iff]
  refine forall_congr' fun n => forall_congr' fun ix' => forall_congr' fun hn => ?_
  rw [hnames n hn, hname ix']
  by_cases heq : n = info.ifName <;> by_cases hix : ix' = ix
  · simp [heq, hix, heq ▸ hn.symm]
  · simp [heq, hix]
  · simp [heq, hix, hn.symm, h.lookup_iff hn]
  · simp [heq, hix, h.lookup_iff hn]

/-- An interface is taken out after its last update: the names keep in step
when the message carries the name that the interface has in the cache, and only
then.  An interface without a name in the cache may carry one that is free. -/
theorem forget_namesAgree_iff {c : IfCache} (h : NamesAgree c) {ix : IfIndex} {info : IfInfo} :
    NamesAgree (ifInfoDelete ix info.ifName (ifInfoUpdate ix info c)) ↔
      (ifInfoGetName ix c ≠ [] → info.ifName = ifInfoGetName ix c) ∧
        (ifInfoGetName ix c = [] → NameFree info.ifName c) := by
  rw [forget_namesAgree_iff_pairs h]
  constructor
  · intro hall
    refine ⟨fun hne => ((hall _ ix hne rfl).mpr rfl).symm, fun hnone => ?_⟩
    by_contra htaken
    obtain ⟨hne, htaken⟩ := not_or.mp htaken
    obtain ⟨ix', hix'⟩ := Dict.mem_iff.mp (not_not.mp htaken)
    have hhas := (h.lookup_iff hne).mp hix'
    have hix : ix' = ix := (hall _ ix' hne hhas).mp rfl
    rw [hix, hnone] at hhas
    exact hne hhas.symm
  · rintro ⟨hsame, hfree⟩ n ix' hn hhas
    by_cases hcached : ifInfoGetName ix c = []
    · refine iff_of_false ?_ ?_
      · rintro rfl
        have htaken := Dict.mem_iff.mpr ⟨ix', (h.lookup_iff hn).mpr hhas⟩
        exact ((hfree hcached).resolve_left hn) htaken
      · rintro rfl
        exact hn (hhas.symm.trans hcached)
    · rw [hsame hcached]
      constructor
      · intro heq
        have h1 := (h.lookup_iff hn).mpr hhas
        have h2 := (h.lookup_iff hn).mpr heq.symm
        exact Option.some.inj (h1.symm.trans h2)
      · rintro rfl
        exact hhas.symm

end IfCache

end OpxNasLinux
