import Mathlib.Data.Finset.Basic
import OpxNasLinux.IptablesListing
import OpxNasLinux.Lib.Run

/-!
# Interfaces of a VRF

`process_vrf_intf_config` of `dn_base_vrf_tool.py` binds an interface to a VRF.
For a data VRF it makes a MAC-VLAN interface on it, which it moves to the
namespace of the VRF; the interface of the management VRF is moved itself.  A
command that fails ends the request, and nothing is taken back.

* `Kernel.accepts` and `Kernel.effect` are what the commands need and do.
* `setVrfIntfCb` is the callback with its mutex.
* `Strands` and `Binds` are the two ways in which a MAC-VLAN interface comes
  about: it is left where it was made, or gets to its VRF.
* `stranded_iff` and `bound_iff` say where the interfaces are after any run.
-/

namespace OpxNasLinux

open Run

namespace VrfIntf

/-! ## The kernel -/

/-- The name of the MAC-VLAN interface on an interface. -/
def vName (ifName : Str) : Str := "v-".toList ++ ifName

/-- A command, with the namespace it works in. -/
inductive Cmd where
  /-- `sysctl -w setting`. -/
  | sysctl (ns setting : Str)
  /-- `ip link delete dev`. -/
  | linkDelete (ns dev : Str)
  /-- `ip link set dev netns dst`. -/
  | linkNetns (ns dev dst : Str)
  /-- `ip link show dev dev`. -/
  | linkShow (ns dev : Str)
  /-- `ip link add link parent dev [address mac] type macvlan mode bridge`. -/
  | macvlanAdd (parent dev : Str) (mac : Option Str)
  /-- `ip link set dev dev up`. -/
  | linkUp (ns dev : Str)
  /-- `iptables -I OUTPUT -o dev -d loopback/8 -j DROP`. -/
  | dropLoopback (ns dev : Str)
  /-- `tool -t nat -A|-D POSTROUTING -s prefix -o dev -j MASQUERADE`. -/
  | masquerade (isAdd : Bool) (ns : Str) (tool : Af) (dev : Str)

/-- The interfaces of the namespaces, and the rules that name one. -/
structure Kernel where
  links : Finset (Str × Str)
  drops : List (Str × Str)
  masquerades : List (Str × Af × Str)

/-- What a command needs. -/
def Kernel.accepts (k : Kernel) : Cmd → Bool
  | .linkDelete ns dev | .linkShow ns dev | .linkUp ns dev => decide ((ns, dev) ∈ k.links)
  | .linkNetns ns dev dst => decide ((ns, dev) ∈ k.links ∧ (dst, dev) ∉ k.links)
  | .macvlanAdd parent dev _ =>
    decide ((defaultVrf, parent) ∈ k.links ∧ (defaultVrf, dev) ∉ k.links)
  | .masquerade false ns tool dev => decide ((ns, tool, dev) ∈ k.masquerades)
  | _ => true

/-- What a command does. -/
def Kernel.effect (k : Kernel) : Cmd → Kernel
  | .linkDelete ns dev => { k with links := k.links.erase (ns, dev) }
  | .linkNetns ns dev dst => { k with links := insert (dst, dev) (k.links.erase (ns, dev)) }
  | .macvlanAdd _ dev _ => { k with links := insert (defaultVrf, dev) k.links }
  | .dropLoopback ns dev => { k with drops := (ns, dev) :: k.drops }
  | .masquerade true ns tool dev => { k with masquerades := k.masquerades ++ [(ns, tool, dev)] }
  | .masquerade false ns tool dev => { k with masquerades := k.masquerades.erase (ns, tool, dev) }
  | _ => k

/-- Whether a command could be run, and what it printed. -/
structure Answer where
  ok : Bool
  lines : List Str

/-- The kernel, and how many commands the request has run. -/
structure Host where
  kernel : Kernel
  asked : ℕ

section Code

variable (answers : ℕ → Answer)

/-- `run_command`.  A command that fails changes nothing. -/
def runCommand (c : Cmd) (h : Host) : Option (List Str) × Host :=
  if (answers h.asked).ok && h.kernel.accepts c then
    (some (answers h.asked).lines, ⟨h.kernel.effect c, h.asked + 1⟩)
  else (none, ⟨h.kernel, h.asked + 1⟩)

/-- Commands that are run until one fails. -/
def runAll : List Cmd → Host → Bool × Host
  | [], h => (true, h)
  | c :: rest, h =>
    match runCommand answers c h with
    | (some _, h) => runAll rest h
    | (none, h) => (false, h)

/-- `process_vrf_ip_nat_config` for both tools, whose results are not looked
at.  `known` is set for a VRF that has an id. -/
def processVrfIpNatConfig (known isAdd : Bool) (vrfName dev : Str) (h : Host) : Host :=
  if known then
    let h := (runCommand answers (.masquerade isAdd vrfName .inet dev) h).2
    (runCommand answers (.masquerade isAdd vrfName .inet6 dev) h).2
  else h

/-! ## The request -/

/-- What `process_vrf_intf_config` returns with `True`. -/
structure RouterIntf where
  ifName : Str
  ifIndex : ℤ
  mac : Option Str

/-- How a call ends. -/
inductive Result where
  | refused
  | raised
  | done (intf : RouterIntf)

/-- The addresses that a request may ask for. -/
inductive MacUse where
  | management
  | virtualNetwork
  | vrf

/-- What the functions of `nas_mac_addr_utils` return. -/
abbrev Macs := MacUse → Outcome (Option Str)

/-- `int` of a text, with blanks around it. -/
def parseInt (t : Str) : Option ℤ :=
  pyInt ((t.dropWhile isSpace).reverse.dropWhile isSpace).reverse

/-- `int(res[0].split(':')[0])`. -/
def ifIndexOf (lines : List Str) : Option ℤ :=
  match lines with
  | [] => none
  | line :: _ => parseInt ((line.splitOn ':').getD 0 [])

/-- `str(res[1].split(' ')[5])`. -/
def macOf (lines : List Str) : Option Str := do
  let line ← lines[1]?
  (line.splitOn ' ')[5]?

/-- Whether `UP` is in `res[0].split(' ')[2]`.  An exception is passed over. -/
def isUp (lines : List Str) : Bool :=
  match lines with
  | [] => false
  | line :: _ => ((line.splitOn ' ')[2]?).any fun flags => decide ("UP".toList <:+: flags)

/-- The end of a binding, with the interface that is in the VRF. -/
def finishBind (known : Bool) (vrfName : Str) (intf : RouterIntf) (h : Host) : Result × Host :=
  let setting := "net.ipv4.conf.".toList ++ intf.ifName ++ ".route_localnet=1".toList
  match runAll answers [.sysctl vrfName setting, .dropLoopback vrfName intf.ifName] h with
  | (false, h) => (.refused, h)
  | (true, h) => (.done intf, processVrfIpNatConfig answers known true vrfName intf.ifName h)

/-- The index of the interface in the VRF, and the end of the binding. -/
def bindIn (known : Bool) (vrfName dev : Str) (mac : Option Str) (h : Host) : Result × Host :=
  match runCommand answers (.linkShow vrfName dev) h with
  | (none, h) => (.refused, h)
  | (some lines, h) =>
    match ifIndexOf lines with
    | none => (.raised, h)
    | some ifIndex => finishBind answers known vrfName ⟨dev, ifIndex, mac⟩ h

/-- The commands that make a MAC-VLAN interface and move it to its VRF. -/
def macvlanCmds (vrfName ifName : Str) (mac : Option Str) (up : Bool) : List Cmd :=
  [.macvlanAdd ifName (vName ifName) mac,
    .linkNetns defaultVrf (vName ifName) vrfName,
    .sysctl defaultVrf ("net.ipv6.conf.".toList ++ ifName ++ ".disable_ipv6=1".toList)] ++
  if up then [.linkUp vrfName (vName ifName)] else []

/-- `process_vrf_intf_config` with `is_add` for a data VRF. -/
def bindData (known : Bool) (vrfName ifName : Str) (mac : Option Str) (h : Host) :
    Result × Host :=
  match runCommand answers (.linkShow defaultVrf ifName) h with
  | (none, h) => (.refused, h)
  | (some lines, h) =>
    -- The address of a loopback interface is left to the kernel.  Another
    -- command without an address raises.
    let loopback := decide (ifName.take 2 = "lo".toList)
    if !loopback && mac.isNone then (.raised, h)
    else
      match runAll answers
          (macvlanCmds vrfName ifName (if loopback then none else mac) (isUp lines)) h with
      | (false, h) => (.refused, h)
      | (true, h) => bindIn answers known vrfName (vName ifName) mac h

/-- The same for the management VRF. -/
def bindMgmt (known : Bool) (ifName : Str) (mac : Option Str) (h : Host) : Result × Host :=
  match runCommand answers (.linkNetns defaultVrf ifName mgmtVrfName) h with
  | (none, h) => (.refused, h)
  | (some _, h) => bindIn answers known mgmtVrfName ifName mac h

/-- The same for the default VRF, which needs no binding. -/
def bindDefault (ifName : Str) (h : Host) : Result × Host :=
  match runCommand answers (.linkShow defaultVrf ifName) h with
  | (none, h) => (.refused, h)
  | (some lines, h) =>
    match ifIndexOf lines, macOf lines with
    | some ifIndex, some mac => (.done ⟨ifName, ifIndex, some mac⟩, h)
    | _, _ => (.raised, h)

/-- `process_vrf_intf_config` without `is_add`. -/
def unbind (known : Bool) (vrfName ifName : Str) (h : Host) : Result × Host :=
  if vrfName = defaultVrf then (.done ⟨ifName, 0, none⟩, h)
  else if vrfName ≠ mgmtVrfName then
    match runAll answers
        [.sysctl defaultVrf ("net.ipv6.conf.".toList ++ ifName ++ ".disable_ipv6=0".toList),
          .linkDelete vrfName (vName ifName)] h with
    | (false, h) => (.refused, h)
    | (true, h) => (.done ⟨vName ifName, 0, none⟩,
        processVrfIpNatConfig answers known false vrfName (vName ifName) h)
  else
    match runAll answers
        [.linkNetns vrfName ifName defaultVrf,
          .sysctl defaultVrf
            ("net.ipv4.conf.".toList ++ ifName ++ ".route_localnet=0".toList)] h with
    | (false, h) => (.refused, h)
    | (true, h) => (.done ⟨ifName, 0, none⟩,
        processVrfIpNatConfig answers known false vrfName ifName h)

/-- The address that is used in a VRF. -/
def macUse (vrfName ifType : Str) : MacUse :=
  if vrfName = mgmtVrfName then .management
  else if ifType = "base-if:virtualNetwork".toList then .virtualNetwork
  else .vrf

/-- `process_vrf_intf_config`. -/
def processVrfIntfConfig (known : Bool) (macs : Macs) (isAdd : Bool) (ifName vrfName ifType : Str)
    (h : Host) : Result × Host :=
  if isAdd then
    if vrfName = defaultVrf then bindDefault answers ifName h
    else
      match macs (macUse vrfName ifType) with
      | .raised => (.raised, h)
      | .returned mac =>
        if vrfName = mgmtVrfName then bindMgmt answers known ifName mac h
        else bindData answers known vrfName ifName mac h
  else unbind answers known vrfName ifName h

end Code

/-! ## The callback -/

inductive Operation where
  | create
  | set
  | delete
deriving DecidableEq

/-- A request, and what it meets with. -/
structure Request where
  operation : Operation
  ifName : Option Str
  vrfName : Option Str
  ifType : Option Str
  answers : ℕ → Answer
  macs : Macs
  known : Bool

/-- How a callback ends. -/
inductive Answered where
  | returned (ok : Bool) (reply : Option RouterIntf)
  | raised

/-- The name of the attribute with the type. -/
def ifTypeKey : Str := "if/interfaces/interface/type".toList

/-- The attributes of a request.  The management VRF needs no type, and the
variable keeps the name of the attribute. -/
def Request.attrs (r : Request) : Option (Str × Str × Str) := do
  let ifName ← r.ifName
  let vrfName ← r.vrfName
  if vrfName = mgmtVrfName then some (ifName, vrfName, ifTypeKey)
  else
    let ifType ← r.ifType
    some (ifName, vrfName, ifType)

/-- `set_vrf_intf_cb_int`.  The handler of an exception raises one itself: it
adds a dictionary to a text. -/
def setVrfIntfCbInt (r : Request) (k : Kernel) : Answered × Kernel :=
  match r.attrs with
  | none => (.returned false none, k)
  | some (ifName, vrfName, ifType) =>
    if r.operation = .set then (.returned false none, k)
    else
      let op := decide (r.operation ≠ .delete)
      match processVrfIntfConfig r.answers r.known r.macs op ifName vrfName ifType ⟨k, 0⟩ with
      | (.raised, h) => (.raised, h.kernel)
      | (.refused, h) => (.returned false none, h.kernel)
      | (.done intf, h) => (.returned true (if op then some intf else none), h.kernel)

/-- The kernel, and whether a callback holds `_vrf_mutex`. -/
structure Daemon where
  kernel : Kernel
  mutexHeld : Bool

/-- `set_vrf_intf_cb`.  The mutex is not released when the callback raises, and
the next one waits for it forever. -/
def setVrfIntfCb (d : Daemon) (r : Request) : Option Answered × Daemon :=
  if d.mutexHeld then (none, d)
  else
    match setVrfIntfCbInt r d.kernel with
    | (.raised, k) => (some .raised, ⟨k, true⟩)
    | (answer, k) => (some answer, ⟨k, false⟩)

def step (d : Daemon) (r : Request) : Daemon := (setVrfIntfCb d r).2

/-! ## What the commands do to the interfaces -/

/-- A command that leaves the interfaces where they are. -/
def Cmd.still : Cmd → Bool
  | .linkDelete .. | .linkNetns .. | .macvlanAdd .. => false
  | _ => true

theorem links_effect_still {c : Cmd} (hc : c.still = true) (k : Kernel) :
    (k.effect c).links = k.links := by
  cases c with
  | linkDelete => cases hc
  | linkNetns => cases hc
  | macvlanAdd => cases hc
  | masquerade isAdd ns tool dev => cases isAdd <;> rfl
  | sysctl => rfl
  | linkShow => rfl
  | linkUp => rfl
  | dropLoopback => rfl

section Links

variable (answers : ℕ → Answer)

theorem links_runCommand_still {c : Cmd} (hc : c.still = true) (h : Host) :
    (runCommand answers c h).2.kernel.links = h.kernel.links := by
  unfold runCommand
  split
  · exact links_effect_still hc h.kernel
  · rfl

theorem links_runAll_still {cmds : List Cmd} (hcmds : ∀ c ∈ cmds, c.still = true) (h : Host) :
    (runAll answers cmds h).2.kernel.links = h.kernel.links := by
  induction cmds generalizing h with
  | nil => rfl
  | cons c rest ih =>
    obtain ⟨hc, hrest⟩ := List.forall_mem_cons.mp hcmds
    have hone := links_runCommand_still answers hc h
    rw [runAll]
    split
    · rename_i heq
      rw [ih hrest, ← hone, heq]
    · rename_i heq
      rw [← hone, heq]

@[simp] theorem links_processVrfIpNatConfig (known isAdd : Bool) (vrfName dev : Str) (h : Host) :
    (processVrfIpNatConfig answers known isAdd vrfName dev h).kernel.links = h.kernel.links := by
  unfold processVrfIpNatConfig
  split
  · rw [links_runCommand_still answers rfl, links_runCommand_still answers rfl]
  · rfl

@[simp] theorem links_finishBind (known : Bool) (vrfName : Str) (intf : RouterIntf) (h : Host) :
    (finishBind answers known vrfName intf h).2.kernel.links = h.kernel.links := by
  have hstill : ∀ c ∈ [Cmd.sysctl vrfName
      ("net.ipv4.conf.".toList ++ intf.ifName ++ ".route_localnet=1".toList),
      .dropLoopback vrfName intf.ifName], c.still = true := by
    simp [Cmd.still]
  have hall := links_runAll_still answers hstill h
  unfold finishBind
  dsimp only
  split
  · rename_i heq
    rw [← hall, heq]
  · rename_i heq
    rw [links_processVrfIpNatConfig, ← hall, heq]

@[simp] theorem links_bindIn (known : Bool) (vrfName dev : Str) (mac : Option Str) (h : Host) :
    (bindIn answers known vrfName dev mac h).2.kernel.links = h.kernel.links := by
  have hshow := @links_runCommand_still answers (.linkShow vrfName dev) rfl h
  unfold bindIn
  split
  · rename_i heq
    rw [← hshow, heq]
  · rename_i heq
    rw [heq] at hshow
    split
    · exact hshow
    · rw [links_finishBind, hshow]

/-- A command that works. -/
theorem runCommand_of_accepts {c : Cmd} {h : Host} (hok : (answers h.asked).ok = true)
    (hc : h.kernel.accepts c = true) :
    runCommand answers c h =
      (some (answers h.asked).lines, ⟨h.kernel.effect c, h.asked + 1⟩) := by
  rw [runCommand, hok, hc]
  rfl

/-- A command that does not. -/
theorem runCommand_of_not {c : Cmd} {h : Host}
    (hc : ¬ ((answers h.asked).ok = true ∧ h.kernel.accepts c = true)) :
    runCommand answers c h = (none, ⟨h.kernel, h.asked + 1⟩) := by
  rw [runCommand, if_neg (by simpa using hc)]

/-! ## Bindings of a data VRF -/

/-- The MAC-VLAN interface is made. -/
def Made (k : Kernel) (ifName : Str) (mac : Option Str) : Prop :=
  ((answers 0).ok = true ∧ (defaultVrf, ifName) ∈ k.links) ∧
    (mac.isSome = true ∨ ifName.take 2 = "lo".toList) ∧
    (answers 1).ok = true ∧ (defaultVrf, vName ifName) ∉ k.links

/-- It gets to its VRF. -/
def Moved (k : Kernel) (vrfName ifName : Str) : Prop :=
  (answers 2).ok = true ∧ (vrfName, vName ifName) ∉ k.links

theorem vName_inj {a b : Str} (h : vName a = vName b) : a = b :=
  List.append_cancel_left h

/-- The commands after the move leave the interfaces where they are. -/
theorem links_macvlanRest (vrfName ifName : Str) (up : Bool) (h : Host) :
    (runAll answers
      (.sysctl defaultVrf ("net.ipv6.conf.".toList ++ ifName ++ ".disable_ipv6=1".toList) ::
        if up then [.linkUp vrfName (vName ifName)] else []) h).2.kernel.links =
      h.kernel.links := by
  apply links_runAll_still
  cases up <;> simp [Cmd.still]

variable {answers}

/-- The commands that make an interface and move it. -/
theorem runAll_macvlanCmds {vrfName ifName : Str} {mac : Option Str} {up : Bool} {k : Kernel}
    (hvrf : vrfName ≠ defaultVrf) (hparent : (defaultVrf, ifName) ∈ k.links)
    {ok : Bool} {h : Host}
    (hrun : runAll answers (macvlanCmds vrfName ifName mac up) ⟨k, 1⟩ = (ok, h)) :
    (¬ ((answers 1).ok = true ∧ (defaultVrf, vName ifName) ∉ k.links) ∧ ok = false ∧
      h.kernel.links = k.links) ∨
    (((answers 1).ok = true ∧ (defaultVrf, vName ifName) ∉ k.links) ∧
      ¬ Moved answers k vrfName ifName ∧ ok = false ∧
      h.kernel.links = insert (defaultVrf, vName ifName) k.links) ∨
    (((answers 1).ok = true ∧ (defaultVrf, vName ifName) ∉ k.links) ∧
      Moved answers k vrfName ifName ∧
      h.kernel.links = insert (vrfName, vName ifName) k.links) := by
  rw [macvlanCmds, List.cons_append, runAll] at hrun
  by_cases hadd : (answers 1).ok = true ∧ (defaultVrf, vName ifName) ∉ k.links
  · right
    rw [@runCommand_of_accepts answers (.macvlanAdd ifName (vName ifName) mac) ⟨k, 1⟩ hadd.1
      (by simp [Kernel.accepts, hparent, hadd.2])] at hrun
    simp only [List.cons_append, runAll] at hrun
    set k₁ := k.effect (.macvlanAdd ifName (vName ifName) mac) with hk₁
    have hlinks₁ : k₁.links = insert (defaultVrf, vName ifName) k.links := rfl
    have hne : (vrfName, vName ifName) ≠ (defaultVrf, vName ifName) :=
      fun heq => hvrf (congrArg Prod.fst heq)
    by_cases hmove : Moved answers k vrfName ifName
    · right
      rw [@runCommand_of_accepts answers (.linkNetns defaultVrf (vName ifName) vrfName) ⟨k₁, 2⟩
        hmove.1 (by simp [Kernel.accepts, hlinks₁, hne, hmove.2])] at hrun
      have hrest := links_macvlanRest answers vrfName ifName up
        ⟨k₁.effect (.linkNetns defaultVrf (vName ifName) vrfName), 3⟩
      simp only [List.nil_append] at hrun
      rw [runAll] at hrest
      rw [hrun] at hrest
      refine ⟨hadd, hmove, hrest.trans ?_⟩
      simp only [Kernel.effect, hlinks₁]
      rw [Finset.erase_insert hadd.2]
    · left
      rw [@runCommand_of_not answers (.linkNetns defaultVrf (vName ifName) vrfName) ⟨k₁, 2⟩
        (by simpa [Kernel.accepts, hlinks₁, hne, Moved] using hmove)] at hrun
      obtain ⟨rfl, rfl⟩ := Prod.mk.inj hrun
      exact ⟨hadd, hmove, rfl, hlinks₁⟩
  · left
    rw [@runCommand_of_not answers (.macvlanAdd ifName (vName ifName) mac) ⟨k, 1⟩
      (by simpa [Kernel.accepts, hparent] using hadd)] at hrun
    obtain ⟨rfl, rfl⟩ := Prod.mk.inj hrun
    exact ⟨hadd, rfl, rfl⟩

/-- Everything that a binding to a data VRF can do to the interfaces. -/
theorem bindData_cases {known : Bool} {vrfName ifName : Str} {mac : Option Str} {k : Kernel}
    (hvrf : vrfName ≠ defaultVrf) {result : Result} {h : Host}
    (hbind : bindData answers known vrfName ifName mac ⟨k, 0⟩ = (result, h)) :
    (¬ Made answers k ifName mac ∧ (∀ intf, result ≠ .done intf) ∧ h.kernel.links = k.links) ∨
    (Made answers k ifName mac ∧ ¬ Moved answers k vrfName ifName ∧
      (∀ intf, result ≠ .done intf) ∧
      h.kernel.links = insert (defaultVrf, vName ifName) k.links) ∨
    (Made answers k ifName mac ∧ Moved answers k vrfName ifName ∧
      h.kernel.links = insert (vrfName, vName ifName) k.links) := by
  unfold bindData at hbind
  by_cases hshow : (answers 0).ok = true ∧ (defaultVrf, ifName) ∈ k.links
  · rw [@runCommand_of_accepts answers (.linkShow defaultVrf ifName) ⟨k, 0⟩ hshow.1
      (by simpa [Kernel.accepts] using hshow.2)] at hbind
    dsimp only at hbind
    by_cases hmac : mac.isSome = true ∨ ifName.take 2 = "lo".toList
    · rw [if_neg (by cases mac <;> simp_all)] at hbind
      cases hall : runAll answers (macvlanCmds vrfName ifName
        (if decide (ifName.take 2 = "lo".toList) = true then none else mac)
        (isUp (answers 0).lines)) ⟨k, 1⟩ with
      | mk ok h₁ =>
        have hcases := runAll_macvlanCmds hvrf hshow.2 hall
        rw [show k.effect (.linkShow defaultVrf ifName) = k from rfl, hall] at hbind
        obtain ⟨hadd, rfl, hlinks⟩ | ⟨hadd, hmove, rfl, hlinks⟩ | ⟨hadd, hmove, hlinks⟩ := hcases
        · obtain ⟨rfl, rfl⟩ := Prod.mk.inj hbind
          exact Or.inl ⟨fun hmade => hadd hmade.2.2, (fun _ heq => by cases heq), hlinks⟩
        · obtain ⟨rfl, rfl⟩ := Prod.mk.inj hbind
          exact Or.inr (Or.inl ⟨⟨hshow, hmac, hadd⟩, hmove, (fun _ heq => by cases heq), hlinks⟩)
        · refine Or.inr (Or.inr ⟨⟨hshow, hmac, hadd⟩, hmove, ?_⟩)
          cases ok with
          | false =>
            obtain ⟨rfl, rfl⟩ := Prod.mk.inj hbind
            exact hlinks
          | true =>
            have hin := links_bindIn answers known vrfName (vName ifName) mac h₁
            dsimp only at hbind
            rw [hbind] at hin
            exact hin.trans hlinks
    · rw [if_pos (by cases mac <;> simp_all)] at hbind
      obtain ⟨rfl, rfl⟩ := Prod.mk.inj hbind
      exact Or.inl ⟨fun hmade => hmac hmade.2.1, (fun _ heq => by cases heq), rfl⟩
  · rw [@runCommand_of_not answers (.linkShow defaultVrf ifName) ⟨k, 0⟩
      (by simpa [Kernel.accepts] using hshow)] at hbind
    obtain ⟨rfl, rfl⟩ := Prod.mk.inj hbind
    exact Or.inl ⟨fun hmade => hshow hmade.1, (fun _ heq => by cases heq), rfl⟩

/-! ## The other requests -/

/-- An unbinding from a data VRF deletes the MAC-VLAN interface, if there is
one. -/
theorem links_unbind {known : Bool} {vrfName ifName : Str} {k : Kernel}
    (hvrf : vrfName ≠ defaultVrf) (hdata : vrfName ≠ mgmtVrfName) :
    (unbind answers known vrfName ifName ⟨k, 0⟩).2.kernel.links =
      if (answers 0).ok = true ∧ (answers 1).ok = true then k.links.erase (vrfName, vName ifName)
      else k.links := by
  rw [unbind, if_neg hvrf, if_pos hdata]
  generalize "net.ipv6.conf.".toList ++ ifName ++ ".disable_ipv6=0".toList = setting
  simp only [runAll]
  by_cases hfirst : (answers 0).ok = true
  · rw [@runCommand_of_accepts answers (.sysctl defaultVrf setting) ⟨k, 0⟩ hfirst rfl]
    rw [show k.effect (.sysctl defaultVrf setting) = k from rfl]
    dsimp only
    by_cases hsecond : (answers 1).ok = true
    · rw [if_pos ⟨hfirst, hsecond⟩]
      by_cases hmem : (vrfName, vName ifName) ∈ k.links
      · rw [@runCommand_of_accepts answers (.linkDelete vrfName (vName ifName)) ⟨k, 1⟩ hsecond
          (by simpa [Kernel.accepts] using hmem)]
        simp [Kernel.effect]
      · rw [@runCommand_of_not answers (.linkDelete vrfName (vName ifName)) ⟨k, 1⟩
          (by simp [Kernel.accepts, hmem]), Finset.erase_eq_of_notMem hmem]
    · rw [if_neg fun h => hsecond h.2, @runCommand_of_not answers
        (.linkDelete vrfName (vName ifName)) ⟨k, 1⟩ fun h => hsecond h.1]
  · rw [if_neg fun h => hfirst h.1, @runCommand_of_not answers (.sysctl defaultVrf setting)
      ⟨k, 0⟩ fun h => hfirst h.1]

/-- A move changes the two places of the interface only. -/
theorem mem_links_linkNetns {src dev dst : Str} {h : Host} {ns dev' : Str}
    (hother : dev' ≠ dev ∨ (ns ≠ src ∧ ns ≠ dst)) :
    (ns, dev') ∈ (runCommand answers (.linkNetns src dev dst) h).2.kernel.links ↔
      (ns, dev') ∈ h.kernel.links := by
  unfold runCommand
  split
  · have hsrc : (ns, dev') ≠ (src, dev) := by
      rintro heq
      obtain ⟨rfl, rfl⟩ := Prod.mk.inj heq
      exact hother.elim (· rfl) (·.1 rfl)
    have hdst : (ns, dev') ≠ (dst, dev) := by
      rintro heq
      obtain ⟨rfl, rfl⟩ := Prod.mk.inj heq
      exact hother.elim (· rfl) (·.2 rfl)
    simp [Kernel.effect, hsrc, hdst]
  · exact Iff.rfl

/-- The requests for the management VRF move the interface itself. -/
theorem mem_links_bindMgmt {known : Bool} {ifName : Str} {mac : Option Str} {h : Host}
    {ns dev : Str} (hother : dev ≠ ifName ∨ (ns ≠ defaultVrf ∧ ns ≠ mgmtVrfName)) :
    (ns, dev) ∈ (bindMgmt answers known ifName mac h).2.kernel.links ↔
      (ns, dev) ∈ h.kernel.links := by
  have hmove := @mem_links_linkNetns answers defaultVrf ifName mgmtVrfName h ns dev hother
  unfold bindMgmt
  split
  · rename_i heq
    rwa [heq] at hmove
  · rename_i heq
    rw [heq] at hmove
    rwa [links_bindIn]

theorem mem_links_unbindMgmt {known : Bool} {ifName : Str} {h : Host} {ns dev : Str}
    (hother : dev ≠ ifName ∨ (ns ≠ defaultVrf ∧ ns ≠ mgmtVrfName)) :
    (ns, dev) ∈ (unbind answers known mgmtVrfName ifName h).2.kernel.links ↔
      (ns, dev) ∈ h.kernel.links := by
  have hmove := @mem_links_linkNetns answers mgmtVrfName ifName defaultVrf h ns dev
    (hother.imp_right And.symm)
  rw [unbind, if_neg (by decide), if_neg (by simp)]
  generalize "net.ipv4.conf.".toList ++ ifName ++ ".route_localnet=0".toList = setting
  simp only [runAll]
  cases hrun : runCommand answers (.linkNetns mgmtVrfName ifName defaultVrf) h with
  | mk lines h₁ =>
    rw [hrun] at hmove
    cases lines with
    | none => exact hmove
    | some lines =>
      have hset := @links_runCommand_still answers (.sysctl defaultVrf setting) rfl h₁
      cases hrun₂ : runCommand answers (.sysctl defaultVrf setting) h₁ with
      | mk lines₂ h₂ =>
        rw [hrun₂] at hset
        dsimp only at hset ⊢
        rw [hrun₂]
        cases lines₂ <;> simpa [hset] using hmove

theorem links_bindDefault {ifName : Str} {h : Host} :
    (bindDefault answers ifName h).2.kernel.links = h.kernel.links := by
  have hshow := @links_runCommand_still answers (.linkShow defaultVrf ifName) rfl h
  unfold bindDefault
  split
  · rename_i heq
    rw [← hshow, heq]
  · rename_i heq
    rw [heq] at hshow
    split <;> exact hshow

end Links

/-! ## Steps -/

/-- A request to bind an interface to a data VRF, with the address it gets. -/
def Request.Creates (r : Request) (vrfName ifName : Str) (mac : Option Str) : Prop :=
  r.operation = .create ∧ (vrfName ≠ defaultVrf ∧ vrfName ≠ mgmtVrfName) ∧
    ∃ ifType, r.attrs = some (ifName, vrfName, ifType) ∧
      r.macs (macUse vrfName ifType) = .returned mac

/-- A request whose MAC-VLAN interface is made and gets to the VRF. -/
def Binds (vrfName ifName : Str) (d : Daemon) (r : Request) : Prop :=
  d.mutexHeld = false ∧ ∃ mac, r.Creates vrfName ifName mac ∧
    Made r.answers d.kernel ifName mac ∧ Moved r.answers d.kernel vrfName ifName

/-- A request whose MAC-VLAN interface is made and stays where it is. -/
def Strands (ifName : Str) (d : Daemon) (r : Request) : Prop :=
  d.mutexHeld = false ∧ ∃ vrfName mac, r.Creates vrfName ifName mac ∧
    Made r.answers d.kernel ifName mac ∧ ¬ Moved r.answers d.kernel vrfName ifName

/-- A request to unbind an interface, whose commands can be run. -/
def Unbinds (vrfName ifName : Str) (d : Daemon) (r : Request) : Prop :=
  d.mutexHeld = false ∧ r.operation = .delete ∧
    (∃ ifType, r.attrs = some (ifName, vrfName, ifType)) ∧
      (r.answers 0).ok = true ∧ (r.answers 1).ok = true

theorem Request.Creates.unique {r : Request} {vrfName ifName vrfName' ifName' : Str}
    {mac mac' : Option Str} (h : r.Creates vrfName ifName mac)
    (h' : r.Creates vrfName' ifName' mac') :
    vrfName = vrfName' ∧ ifName = ifName' ∧ mac = mac' := by
  obtain ⟨-, -, ifType, hattrs, hmac⟩ := h
  obtain ⟨-, -, ifType', hattrs', hmac'⟩ := h'
  rw [hattrs, Option.some_inj] at hattrs'
  obtain ⟨rfl, hrest⟩ := Prod.mk.inj hattrs'
  obtain ⟨rfl, rfl⟩ := Prod.mk.inj hrest
  rw [hmac] at hmac'
  exact ⟨rfl, rfl, Outcome.returned.inj hmac'⟩

theorem kernel_setVrfIntfCb {d : Daemon} {r : Request} (hfree : d.mutexHeld = false) :
    (step d r).kernel = (setVrfIntfCbInt r d.kernel).2 := by
  unfold step setVrfIntfCb
  rw [if_neg (by simp [hfree])]
  split
  · rename_i heq
    rw [heq]
  · rename_i heq
    rw [heq]

theorem kernel_setVrfIntfCbInt {r : Request} {k : Kernel} {ifName vrfName ifType : Str}
    (hattrs : r.attrs = some (ifName, vrfName, ifType)) (hop : r.operation ≠ .set) :
    (setVrfIntfCbInt r k).2 = (processVrfIntfConfig r.answers r.known r.macs
      (decide (r.operation ≠ .delete)) ifName vrfName ifType ⟨k, 0⟩).2.kernel := by
  unfold setVrfIntfCbInt
  rw [hattrs]
  dsimp only
  rw [if_neg hop]
  split <;> rename_i heq <;> rw [heq]

/-- The place of an interface that a request for the management VRF does not
name. -/
def Request.Spares (r : Request) (ns dev : Str) : Prop :=
  r.vrfName = some mgmtVrfName → r.ifName = some dev → ns ≠ defaultVrf ∧ ns ≠ mgmtVrfName

theorem attrs_fields {r : Request} {ifName vrfName ifType : Str}
    (h : r.attrs = some (ifName, vrfName, ifType)) :
    r.ifName = some ifName ∧ r.vrfName = some vrfName := by
  unfold Request.attrs at h
  cases hif : r.ifName with
  | none => simp [hif] at h
  | some ifName' =>
    cases hvrf : r.vrfName with
    | none => simp [hif, hvrf] at h
    | some vrfName' =>
      simp only [hif, hvrf, Option.bind_eq_bind, Option.bind_some] at h
      split_ifs at h
      · simp_all
      · cases htype : r.ifType with
        | none => simp [htype] at h
        | some ifType' => simp_all

/-- Everything that a request can do to the interfaces. -/
inductive Effect (d : Daemon) (r : Request) (links : Finset (Str × Str)) : Prop where
  | strands {vrfName ifName : Str} {mac : Option Str} (hfree : d.mutexHeld = false)
      (hcreates : r.Creates vrfName ifName mac) (hmade : Made r.answers d.kernel ifName mac)
      (hstays : ¬ Moved r.answers d.kernel vrfName ifName)
      (hlinks : links = insert (defaultVrf, vName ifName) d.kernel.links)
  | binds {vrfName ifName : Str} {mac : Option Str} (hfree : d.mutexHeld = false)
      (hcreates : r.Creates vrfName ifName mac) (hmade : Made r.answers d.kernel ifName mac)
      (hmoved : Moved r.answers d.kernel vrfName ifName)
      (hlinks : links = insert (vrfName, vName ifName) d.kernel.links)
  | unbinds {vrfName ifName : Str} (hdata : vrfName ≠ defaultVrf ∧ vrfName ≠ mgmtVrfName)
      (hunbinds : Unbinds vrfName ifName d r)
      (hlinks : links = d.kernel.links.erase (vrfName, vName ifName))
  | keeps (hmakes : ∀ vrfName ifName mac, d.mutexHeld = false → r.Creates vrfName ifName mac →
        ¬ Made r.answers d.kernel ifName mac)
      (hdeletes : ∀ vrfName ifName, vrfName ≠ defaultVrf ∧ vrfName ≠ mgmtVrfName →
        ¬ Unbinds vrfName ifName d r)
      (hlinks : ∀ ns dev, r.Spares ns dev → ((ns, dev) ∈ links ↔ (ns, dev) ∈ d.kernel.links))

theorem effect_create {d : Daemon} {r : Request} {ifName vrfName ifType : Str}
    (hfree : d.mutexHeld = false) (hattrs : r.attrs = some (ifName, vrfName, ifType))
    (hop : r.operation = .create) : Effect d r (step d r).kernel.links := by
  obtain ⟨hifName, hvrfName⟩ := attrs_fields hattrs
  have hdeletes : ∀ vrfName ifName, vrfName ≠ defaultVrf ∧ vrfName ≠ mgmtVrfName →
      ¬ Unbinds vrfName ifName d r := by
    rintro _ _ - ⟨-, hdelete, -⟩
    rw [hop] at hdelete
    cases hdelete
  have hsame {vrfName' ifName' : Str} {mac : Option Str} (h : r.Creates vrfName' ifName' mac) :
      vrfName = vrfName' ∧ ifName = ifName' ∧ r.macs (macUse vrfName ifType) = .returned mac := by
    obtain ⟨-, -, _, hattrs', hmac⟩ := h
    rw [hattrs, Option.some_inj] at hattrs'
    obtain ⟨rfl, hrest⟩ := Prod.mk.inj hattrs'
    obtain ⟨rfl, rfl⟩ := Prod.mk.inj hrest
    exact ⟨rfl, rfl, hmac⟩
  rw [kernel_setVrfIntfCb hfree, kernel_setVrfIntfCbInt hattrs (by simp [hop]),
    processVrfIntfConfig, if_pos (by simp [hop])]
  by_cases hdefault : vrfName = defaultVrf
  · rw [if_pos hdefault]
    refine .keeps (fun _ _ _ _ hcreates => ?_) hdeletes fun ns dev _ => by rw [links_bindDefault]
    exact absurd ((hsame hcreates).1 ▸ hdefault) hcreates.2.1.1
  rw [if_neg hdefault]
  cases hmac : r.macs (macUse vrfName ifType) with
  | raised =>
    refine .keeps (fun _ _ _ _ hcreates => ?_) hdeletes fun _ _ _ => Iff.rfl
    rw [(hsame hcreates).2.2] at hmac
    cases hmac
  | returned mac =>
    dsimp only
    by_cases hmgmt : vrfName = mgmtVrfName
    · rw [if_pos hmgmt]
      refine .keeps (fun _ _ _ _ hcreates => ?_) hdeletes fun ns dev hspares => ?_
      · exact absurd ((hsame hcreates).1 ▸ hmgmt) hcreates.2.1.2
      · refine mem_links_bindMgmt (or_iff_not_imp_left.mpr fun hdev => ?_)
        exact hspares (hmgmt ▸ hvrfName) (by rw [hifName, not_not.mp hdev])
    · rw [if_neg hmgmt]
      have hcreates : r.Creates vrfName ifName mac := ⟨hop, ⟨hdefault, hmgmt⟩, ifType, hattrs, hmac⟩
      cases hbind : bindData r.answers r.known vrfName ifName mac ⟨d.kernel, 0⟩ with
      | mk result h =>
        obtain ⟨hnot, -, hlinks⟩ | ⟨hmade, hstays, -, hlinks⟩ | ⟨hmade, hmoved, hlinks⟩ :=
          bindData_cases hdefault hbind
        · refine .keeps (fun _ _ _ _ hcreates' => ?_) hdeletes fun ns dev _ => by rw [hlinks]
          obtain ⟨-, rfl, rfl⟩ := hcreates.unique hcreates'
          exact hnot
        · exact .strands hfree hcreates hmade hstays hlinks
        · exact .binds hfree hcreates hmade hmoved hlinks

theorem effect_delete {d : Daemon} {r : Request} {ifName vrfName ifType : Str}
    (hfree : d.mutexHeld = false) (hattrs : r.attrs = some (ifName, vrfName, ifType))
    (hop : r.operation = .delete) : Effect d r (step d r).kernel.links := by
  obtain ⟨hifName, hvrfName⟩ := attrs_fields hattrs
  have hmakes : ∀ vrfName ifName mac, d.mutexHeld = false → r.Creates vrfName ifName mac →
      ¬ Made r.answers d.kernel ifName mac := by
    rintro _ _ _ - ⟨hcreate, -⟩
    rw [hop] at hcreate
    cases hcreate
  have hsame {vrfName' ifName' : Str} (h : Unbinds vrfName' ifName' d r) :
      vrfName = vrfName' ∧ ifName = ifName' := by
    obtain ⟨-, -, ⟨_, hattrs'⟩, -⟩ := h
    rw [hattrs, Option.some_inj] at hattrs'
    obtain ⟨rfl, hrest⟩ := Prod.mk.inj hattrs'
    exact ⟨congrArg Prod.fst hrest, rfl⟩
  rw [kernel_setVrfIntfCb hfree, kernel_setVrfIntfCbInt hattrs (by simp [hop]),
    processVrfIntfConfig, if_neg (by simp [hop])]
  by_cases hdefault : vrfName = defaultVrf
  · refine .keeps hmakes (fun _ _ hdata hunbinds => ?_) fun ns dev _ => by
      rw [unbind, if_pos hdefault]
    exact hdata.1 ((hsame hunbinds).1 ▸ hdefault)
  by_cases hmgmt : vrfName = mgmtVrfName
  · refine .keeps hmakes (fun _ _ hdata hunbinds => ?_) fun ns dev hspares => ?_
    · exact hdata.2 ((hsame hunbinds).1 ▸ hmgmt)
    · rw [hmgmt]
      refine mem_links_unbindMgmt (or_iff_not_imp_left.mpr fun hdev => ?_)
      exact hspares (hmgmt ▸ hvrfName) (by rw [hifName, not_not.mp hdev])
  · have hlinks := @links_unbind r.answers r.known vrfName ifName d.kernel hdefault hmgmt
    by_cases hok : (r.answers 0).ok = true ∧ (r.answers 1).ok = true
    · rw [if_pos hok] at hlinks
      exact .unbinds ⟨hdefault, hmgmt⟩ ⟨hfree, hop, ⟨ifType, hattrs⟩, hok⟩ hlinks
    · rw [if_neg hok] at hlinks
      exact .keeps hmakes (fun _ _ _ hunbinds => hok hunbinds.2.2.2) fun ns dev _ => by rw [hlinks]

/-- Who waits for the mutex changes nothing. -/
theorem step_held {d : Daemon} (hheld : d.mutexHeld = true) (r : Request) : step d r = d := by
  rw [step, setVrfIntfCb, if_pos hheld]

theorem run_held {d : Daemon} (hheld : d.mutexHeld = true) (requests : List Request) :
    run step d requests = d := by
  induction requests with
  | nil => rfl
  | cons r rest ih => rw [run_cons, step_held hheld, ih]

/-- A callback that raises keeps the mutex. -/
theorem step_raised {d : Daemon} {r : Request} (hraised : (setVrfIntfCb d r).1 = some .raised) :
    (step d r).mutexHeld = true := by
  rw [setVrfIntfCb] at hraised
  rw [step, setVrfIntfCb]
  by_cases hheld : d.mutexHeld = true
  · rw [if_pos hheld] at hraised
    cases hraised
  · rw [if_neg hheld] at hraised ⊢
    cases hanswer : setVrfIntfCbInt r d.kernel with
    | mk answer k =>
      cases answer with
      | returned ok reply =>
        rw [hanswer] at hraised
        cases hraised
      | raised => rfl

theorem effect_step (d : Daemon) (r : Request) : Effect d r (step d r).kernel.links := by
  by_cases hheld : d.mutexHeld = true
  · have hstep : step d r = d := step_held hheld r
    have hbusy : ¬ d.mutexHeld = false := by simp [hheld]
    exact .keeps (fun _ _ _ hfree => absurd hfree hbusy)
      (fun _ _ _ hunbinds => hbusy hunbinds.1) fun ns dev _ => by rw [hstep]
  have hfree : d.mutexHeld = false := Bool.not_eq_true _ ▸ hheld
  cases hattrs : r.attrs with
  | none =>
    refine .keeps ?_ ?_ fun _ _ _ => ?_
    · rintro _ _ _ - ⟨-, -, _, hsome, -⟩
      rw [hattrs] at hsome
      cases hsome
    · rintro _ _ - ⟨-, -, ⟨_, hsome⟩, -⟩
      rw [hattrs] at hsome
      cases hsome
    · rw [kernel_setVrfIntfCb hfree, setVrfIntfCbInt, hattrs]
  | some attrs =>
    cases hop : r.operation with
    | create => exact effect_create hfree hattrs hop
    | delete => exact effect_delete hfree hattrs hop
    | set =>
      refine .keeps ?_ ?_ fun _ _ _ => ?_
      · rintro _ _ _ - ⟨hcreate, -⟩
        rw [hop] at hcreate
        cases hcreate
      · rintro _ _ - ⟨-, hdelete, -⟩
        rw [hop] at hdelete
        cases hdelete
      · rw [kernel_setVrfIntfCb hfree, setVrfIntfCbInt, hattrs]
        dsimp only
        rw [if_pos hop]

theorem Request.Creates.not_unbinds {r : Request} {vrfName ifName vrfName' ifName' : Str}
    {mac : Option Str} (h : r.Creates vrfName ifName mac) (d : Daemon) :
    ¬ Unbinds vrfName' ifName' d r := by
  rintro ⟨-, hdelete, -⟩
  rw [h.1] at hdelete
  cases hdelete

theorem Unbinds.unique {vrfName ifName vrfName' ifName' : Str} {d : Daemon} {r : Request}
    (h : Unbinds vrfName ifName d r) (h' : Unbinds vrfName' ifName' d r) :
    vrfName = vrfName' ∧ ifName = ifName' := by
  obtain ⟨-, -, ⟨_, hattrs⟩, -⟩ := h
  obtain ⟨-, -, ⟨_, hattrs'⟩, -⟩ := h'
  rw [hattrs, Option.some_inj] at hattrs'
  obtain ⟨rfl, hrest⟩ := Prod.mk.inj hattrs'
  exact ⟨congrArg Prod.fst hrest, rfl⟩

/-- What a request does to the interface in a data VRF. -/
theorem bound_step {vrfName : Str} (hdata : vrfName ≠ defaultVrf ∧ vrfName ≠ mgmtVrfName)
    (ifName : Str) (d : Daemon) (r : Request) :
    (vrfName, vName ifName) ∈ (step d r).kernel.links ↔ Binds vrfName ifName d r ∨
      (vrfName, vName ifName) ∈ d.kernel.links ∧ ¬ Unbinds vrfName ifName d r := by
  cases effect_step d r with
  | strands hfree hcreates hmade hstays hlinks =>
    have hbinds : ¬ Binds vrfName ifName d r := by
      rintro ⟨-, mac, hcreates', -, hmoved⟩
      obtain ⟨rfl, rfl, -⟩ := hcreates.unique hcreates'
      exact hstays hmoved
    simp [hlinks, hbinds, hcreates.not_unbinds, hdata.1]
  | @binds vrfName' ifName' mac hfree hcreates hmade hmoved hlinks =>
    have hbinds : Binds vrfName ifName d r ↔ vrfName = vrfName' ∧ ifName = ifName' := by
      constructor
      · rintro ⟨-, mac, hcreates', -⟩
        obtain ⟨rfl, rfl, -⟩ := hcreates.unique hcreates'
        exact ⟨rfl, rfl⟩
      · rintro ⟨rfl, rfl⟩
        exact ⟨hfree, mac, hcreates, hmade, hmoved⟩
    have hname : vName ifName = vName ifName' ↔ ifName = ifName' := ⟨vName_inj, congrArg vName⟩
    rw [hlinks, hbinds, Finset.mem_insert, Prod.mk.injEq, hname]
    simp [hcreates.not_unbinds]
  | @unbinds vrfName' ifName' _ hunbinds hlinks =>
    have hbinds : ¬ Binds vrfName ifName d r := fun ⟨_, _, hcreates, _⟩ =>
      hcreates.not_unbinds d hunbinds
    have hsame : Unbinds vrfName ifName d r ↔ vrfName = vrfName' ∧ ifName = ifName' :=
      ⟨fun h => h.unique hunbinds, fun ⟨hvrf, hif⟩ => hvrf ▸ hif ▸ hunbinds⟩
    have hname : vName ifName = vName ifName' ↔ ifName = ifName' := ⟨vName_inj, congrArg vName⟩
    rw [hlinks, Finset.mem_erase, Ne, Prod.mk.injEq, hname, hsame, or_iff_right hbinds, and_comm]
  | keeps hmakes hdeletes hlinks =>
    have hbinds : ¬ Binds vrfName ifName d r := fun ⟨hfree, mac, hcreates, hmade, _⟩ =>
      hmakes _ _ _ hfree hcreates hmade
    rw [hlinks _ _ fun _ _ => hdata, or_iff_right hbinds, and_iff_left (hdeletes _ _ hdata)]

/-- What a request does to an interface that is where it was made. -/
theorem stranded_step {ifName : Str} (d : Daemon) {r : Request}
    (hspares : r.Spares defaultVrf (vName ifName)) :
    (defaultVrf, vName ifName) ∈ (step d r).kernel.links ↔
      Strands ifName d r ∨ (defaultVrf, vName ifName) ∈ d.kernel.links := by
  cases effect_step d r with
  | @strands vrfName' ifName' mac hfree hcreates hmade hstays hlinks =>
    have hstrands : Strands ifName d r ↔ ifName = ifName' := by
      constructor
      · rintro ⟨-, vrfName, mac, hcreates', -⟩
        exact (hcreates'.unique hcreates).2.1
      · rintro rfl
        exact ⟨hfree, vrfName', mac, hcreates, hmade, hstays⟩
    have hname : vName ifName = vName ifName' ↔ ifName = ifName' := ⟨vName_inj, congrArg vName⟩
    rw [hlinks, Finset.mem_insert, Prod.mk.injEq, hname, hstrands, and_iff_right rfl]
  | @binds vrfName' ifName' mac hfree hcreates hmade hmoved hlinks =>
    have hstrands : ¬ Strands ifName d r := by
      rintro ⟨-, vrfName, mac, hcreates', -, hstays⟩
      obtain ⟨rfl, rfl, -⟩ := hcreates.unique hcreates'
      exact hstays hmoved
    have hne : (defaultVrf, vName ifName) ≠ (vrfName', vName ifName') :=
      fun heq => hcreates.2.1.1 (congrArg Prod.fst heq).symm
    rw [hlinks, Finset.mem_insert, or_iff_right hne, or_iff_right hstrands]
  | @unbinds vrfName' ifName' hdata hunbinds hlinks =>
    have hstrands : ¬ Strands ifName d r := fun ⟨_, _, _, hcreates, _⟩ =>
      hcreates.not_unbinds d hunbinds
    have hne : (defaultVrf, vName ifName) ≠ (vrfName', vName ifName') :=
      fun heq => hdata.1 (congrArg Prod.fst heq).symm
    rw [hlinks, Finset.mem_erase, and_iff_right hne, or_iff_right hstrands]
  | keeps hmakes hdeletes hlinks =>
    have hstrands : ¬ Strands ifName d r := fun ⟨hfree, _, mac, hcreates, hmade, _⟩ =>
      hmakes _ _ _ hfree hcreates hmade
    rw [hlinks _ _ hspares, or_iff_right hstrands]

/-- A binding that is answered with `True` has made its interface. -/
theorem made_of_answered {d : Daemon} {r : Request} {vrfName ifName : Str} {mac : Option Str}
    {reply : Option RouterIntf} (hcreates : r.Creates vrfName ifName mac)
    (hanswer : (setVrfIntfCb d r).1 = some (.returned true reply)) :
    Made r.answers d.kernel ifName mac := by
  obtain ⟨hop, ⟨hdefault, hmgmt⟩, ifType, hattrs, hmac⟩ := hcreates
  cases hbind : bindData r.answers r.known vrfName ifName mac ⟨d.kernel, 0⟩ with
  | mk result h =>
    have hdone : ∃ intf, result = .done intf := by
      have hint : processVrfIntfConfig r.answers r.known r.macs
          (decide (Operation.create ≠ Operation.delete)) ifName vrfName ifType ⟨d.kernel, 0⟩ =
            (result, h) := by
        simp [processVrfIntfConfig, hdefault, hmgmt, hmac, hbind]
      simp only [setVrfIntfCb, setVrfIntfCbInt, hattrs, hint, hop, reduceCtorEq,
        if_false] at hanswer
      split at hanswer
      · cases hanswer
      · cases result with
        | raised => cases hanswer
        | refused => cases hanswer
        | done intf => exact ⟨intf, rfl⟩
    obtain ⟨intf, rfl⟩ := hdone
    obtain ⟨-, hnot, -⟩ | ⟨hmade, -, -⟩ | ⟨hmade, -⟩ := bindData_cases hdefault hbind
    · exact absurd rfl (hnot intf)
    · exact hmade
    · exact hmade

/-! ## Runs -/

/-- The MAC-VLAN interface on an interface is in a data VRF when a request has
bound it there and none has unbound it since, whatever the requests were
answered.  After a callback that raised nothing changes any more. -/
theorem bound_iff (vrfName ifName : Str)
    (hdata : vrfName ≠ defaultVrf ∧ vrfName ≠ mgmtVrfName) (d : Daemon)
    (requests : List Request) :
    ((vrfName, vName ifName) ∈ (run step d requests).kernel.links ↔
      ((vrfName, vName ifName) ∈ d.kernel.links ∧
        Along step (fun d r => ¬ Unbinds vrfName ifName d r) d requests) ∨
      ∃ front r back, requests = front ++ r :: back ∧ Binds vrfName ifName (run step d front) r ∧
        Along step (fun d r => ¬ Unbinds vrfName ifName d r) (run step d (front ++ [r])) back) ∧
    ∀ front r back, requests = front ++ r :: back →
      (setVrfIntfCb (run step d front) r).1 = some .raised →
        (run step d (front ++ [r])).mutexHeld = true ∧
          run step d requests = run step d (front ++ [r]) := by
  constructor
  · exact @run_since_along _ _ step (fun d => (vrfName, vName ifName) ∈ d.kernel.links)
      (fun _ => True) (Binds vrfName ifName) (Unbinds vrfName ifName) (fun _ => True)
      (fun _ _ _ _ => trivial) (fun d r _ _ => bound_step hdata ifName d r) d requests trivial
      fun _ _ => trivial
  · rintro front r back rfl hraised
    have hheld : (run step d (front ++ [r])).mutexHeld = true := by
      rw [run_append]
      exact step_raised hraised
    refine ⟨hheld, ?_⟩
    rw [List.append_cons, run_append step d (front ++ [r])]
    exact run_held hheld back

/-- An interface that is bound and unbound again, and one whose address cannot be
found: the callback raises, and the last request waits. -/
theorem bound_iff_unbound :
    let answers : ℕ → Answer := fun _ => ⟨true, ["7: e1: <UP>".toList]⟩
    let attrs (op : Operation) (macs : Macs) : Request :=
      ⟨op, some "e1".toList, some "blue".toList, some "ianaift:ethernetCsmacd".toList, answers,
        macs, true⟩
    let found : Macs := fun _ => .returned (some "00:11:22:33:44:55".toList)
    let lost : Macs := fun _ => .raised
    let d : Daemon := ⟨⟨{(defaultVrf, "e1".toList)}, [], []⟩, false⟩
    ("blue".toList, vName "e1".toList) ∈ (run step d [attrs .create found]).kernel.links ∧
      ("blue".toList, vName "e1".toList) ∉
        (run step d [attrs .create found, attrs .delete found]).kernel.links ∧
      run step d [attrs .create lost, attrs .create found] = run step d [attrs .create lost] := by
  intro answers attrs found lost d
  obtain ⟨-, hends⟩ := bound_iff "blue".toList "e1".toList (by decide) d
    [attrs .create lost, attrs .create found]
  obtain ⟨hbound, -⟩ := bound_iff "blue".toList "e1".toList (by decide) d [attrs .create found]
  refine ⟨hbound.mpr (Or.inr ⟨[], _, [], rfl, ?_, trivial⟩), by decide +kernel,
    (hends [] _ _ rfl rfl).2⟩
  refine ⟨rfl, some "00:11:22:33:44:55".toList, ⟨rfl, by decide, _, rfl, rfl⟩, ?_, ?_⟩
  · exact ⟨⟨rfl, by decide⟩, Or.inl rfl, rfl, by decide⟩
  · exact ⟨rfl, by decide⟩

/-- A MAC-VLAN interface is where it was made when a request could not move it,
and then it is there for good: no later request takes it away, and none that
binds its interface to a data VRF is answered with `True`. -/
theorem stranded_for_good (ifName : Str) (d : Daemon) (requests : List Request)
    (hspares : ∀ r ∈ requests, r.Spares defaultVrf (vName ifName)) :
    ((defaultVrf, vName ifName) ∈ (run step d requests).kernel.links ↔
      (defaultVrf, vName ifName) ∈ d.kernel.links ∨
      ∃ front r back, requests = front ++ r :: back ∧ Strands ifName (run step d front) r) ∧
    ((defaultVrf, vName ifName) ∈ (run step d requests).kernel.links →
      ∀ r vrfName mac reply, r.Creates vrfName ifName mac →
        (setVrfIntfCb (run step d requests) r).1 ≠ some (.returned true reply)) := by
  constructor
  · have hsince := @run_since _ _ step (fun d => (defaultVrf, vName ifName) ∈ d.kernel.links)
      (fun _ => True) (Strands ifName) (fun _ => False)
      (fun r => r.Spares defaultVrf (vName ifName)) (fun _ _ _ _ => trivial)
      (fun d r _ hr => by simpa using stranded_step d hr) d requests trivial hspares
    simpa using hsince
  · intro hstranded r vrfName mac reply hcreates hanswer
    exact (made_of_answered hcreates hanswer).2.2.2 hstranded

/-- A request whose third command fails. -/
theorem stranded_for_good_refused :
    let r : Request := ⟨.create, some "e1".toList, some "blue".toList, some [],
      fun n => ⟨decide (n ≠ 2), []⟩, fun _ => .returned (some []), true⟩
    let d : Daemon := ⟨⟨{(defaultVrf, "e1".toList)}, [], []⟩, false⟩
    ((defaultVrf, vName "e1".toList) ∈ (run step d [r]).kernel.links ↔
      (defaultVrf, vName "e1".toList) ∈ d.kernel.links ∨
      ∃ front r' back, [r] = front ++ r' :: back ∧ Strands "e1".toList (run step d front) r') ∧
    ((defaultVrf, vName "e1".toList) ∈ (run step d [r]).kernel.links →
      ∀ r' vrfName mac reply, r'.Creates vrfName "e1".toList mac →
        (setVrfIntfCb (run step d [r]) r').1 ≠ some (.returned true reply)) :=
  stranded_for_good "e1".toList _ _ (by
    rw [List.forall_mem_singleton]
    rintro - hname
    exact absurd hname (by decide))

end VrfIntf

end OpxNasLinux
