import OpxNasLinux.Host
import OpxNasLinux.Lib.Alloc
import OpxNasLinux.Lib.Delimited

/-!
# The VRF tool

The functions of `dn_base_vrf_tool.py` that create and delete VRFs, set up the
veth pairs between them, and keep the source addresses and the service rules
of the addresses of a VRF.

The globals of the module are the fields of `VrfTool`.  Four of its
dictionaries have texts between stars as keys: `vethKey` and `addrKey` write
them, `field` reads one text out of them, and `names` is the substring test
with which the code searches them.

The set `{'iptables', 'ip6tables'}` is gone through in this order, and
`{'tcp', 'udp'}` too.
-/

namespace OpxNasLinux

open Delimited

/-! ## Keys -/

/-- The key of a veth in `_vrf_sub_net_map`. -/
def vethKey (src dst : Str) : Str := enclose '*' [src, dst]

/-- The key of an address in `_vrf_src_ip_map` and in
`_vrf_ip_service_ip_addr`. -/
def addrKey (vrf : Str) (af : Af) (addr : Str) : Str := enclose '*' [vrf, af.name, addr]

/-- `key.split("*")[i]`. -/
def field (i : ℕ) (key : Str) : Str := (key.splitOn '*').getD i []

/-- `'*'+vrf+'*' in key`. -/
def names (key vrf : Str) : Bool := decide (enclose '*' [vrf] <:+: key)

/-- The keys of `_outgoing_ip_svcs_map`. -/
structure Alias where
  vrfName : Str
  af : Af
  publicIp : Option Bytes
  protocol : Option VrfSvcsRuleProto
  publicPort : Option ℤ
deriving DecidableEq

/-! ## Addresses of a veth -/

/-- The device of a VRF that leads to the VRF with the id. -/
def vethDev (id : ℕ) : Str := "vdst-nsid".toList ++ str id

/-- The IPv4 address of one end of a veth. -/
def vethIp (val : ℕ) (suffix : Str) : Str := "127.".toList ++ (str val ++ suffix)

/-- The IPv6 address of one end of a veth. -/
def vethIp6 (val : ℕ) (suffix : Str) : Str := "fda5:74c8:b79e:4:".toList ++ (str val ++ suffix)

/-- The two suffixes of an IPv4 address, the first one for the VRF that set the
veth up. -/
def vethIntfIpSuffix (isSrc : Bool) : Str := if isSrc then ".100.1".toList else ".100.2".toList

def vethIntfIp6Suffix (isSrc : Bool) : Str := if isSrc then "::1".toList else "::2".toList

/-- The addresses of the two ends of a veth. -/
structure VethIps where
  srcIp : Str
  dstIp : Str
  srcIp6 : Str
  dstIp6 : Str

/-- The addresses that belong to a sub net value. -/
def vethIps (val : ℕ) : VethIps :=
  { srcIp := vethIp val (vethIntfIpSuffix true), dstIp := vethIp val (vethIntfIpSuffix false)
    srcIp6 := vethIp6 val (vethIntfIp6Suffix true)
    dstIp6 := vethIp6 val (vethIntfIp6Suffix false) }

/-! ## The globals -/

/-- The globals of the module, and the host. -/
structure VrfTool where
  vrfSubNetMap : Dict Str ℕ
  vrfSrcIpMap : Dict Str ℕ
  vrfNameToId : Dict Str ℕ
  vrfIpServiceIpAddr : Dict Str ℕ
  outgoingIpSvcsMap : Dict Alias ℕ
  host : Host

namespace VrfTool

/-- The module when the daemon starts. -/
def init (env : Env) : VrfTool :=
  { vrfSubNetMap := ∅, vrfSrcIpMap := ∅, vrfNameToId := ∅, vrfIpServiceIpAddr := ∅
    outgoingIpSvcsMap := ∅, host := ⟨.init, env⟩ }

def setHost (t : VrfTool) (h : Host) : VrfTool := { t with host := h }

def setSubNet (t : VrfTool) (m : Dict Str ℕ) : VrfTool := { t with vrfSubNetMap := m }

def setIds (t : VrfTool) (m : Dict Str ℕ) : VrfTool := { t with vrfNameToId := m }

/-! ## `process_veth_config` -/

/-- The commands that set up a veth. -/
def vethCmds (src dst : Str) (srcId dstId : ℕ) (ips : VethIps) : List Cmd :=
  [.linkAdd src (vethDev dstId) (vethDev srcId),
    .linkUp src (vethDev dstId),
    .linkNetns src (vethDev srcId) dst,
    .linkUp dst (vethDev srcId),
    .vethAddr src (ips.srcIp ++ "/24".toList) (vethDev dstId),
    .vethAddr dst (ips.dstIp ++ "/24".toList) (vethDev srcId),
    .vethAddr src (ips.srcIp6 ++ "/80".toList) (vethDev dstId),
    .vethAddr dst (ips.dstIp6 ++ "/80".toList) (vethDev srcId),
    .routeLocalnet src (vethDev dstId),
    .routeLocalnet dst (vethDev srcId)]

/-- `process_veth_config(True)` with the ids of the two VRFs. -/
def addVeth (src dst : Str) (srcId dstId : ℕ) (ips : VethIps) (h : Host) : Bool × Host :=
  match h.runAll (vethCmds src dst srcId dstId ips) with
  | (false, h) => (false, h)
  | (true, h) => (true, h.setVeths ((src, dst) :: h.kernel.veths))

/-- `process_veth_config(False)` with the ids of the two VRFs. -/
def deleteVeth (src dst : Str) (srcId dstId : ℕ) (h : Host) : Bool × Host :=
  match h.runCommand (.linkDelete src (vethDev dstId)) with
  | (true, h) => (true, h.setVeths (h.kernel.veths.filter fun p => decide (p ≠ (src, dst))))
  | (false, h) =>
    match h.runCommand (.linkDelete src (vethDev srcId)) with
    | (true, h) => (true, h.setVeths (h.kernel.veths.filter fun p => decide (p ≠ (src, dst))))
    | (false, h) => (false, h)

/-- `process_veth_config`.  It gets addresses when it sets up the veth. -/
def processVethConfig (ips : Option VethIps) (src dst : Str) (t : VrfTool) : Bool × VrfTool :=
  match t.vrfNameToId.lookup src, t.vrfNameToId.lookup dst with
  | some srcId, some dstId =>
    match ips with
    | some ips => ((addVeth src dst srcId dstId ips t.host).1,
        t.setHost (addVeth src dst srcId dstId ips t.host).2)
    | none => ((deleteVeth src dst srcId dstId t.host).1,
        t.setHost (deleteVeth src dst srcId dstId t.host).2)
  | _, _ => (false, t)

/-! ## The service rules of the addresses of a VRF -/

/-- An address is in the prefix of the veths. -/
def isInternal (addr : Str) : Bool := decide ("fda5:74c8:b79e:4:".toList <:+: addr)

/-- An address is taken for a link local one. -/
def isLinkLocal (addr : Str) : Bool := decide ("fe80:".toList <:+: addr)

/-- The key of an address is added or deleted. -/
def setIpKey (isAdd : Bool) (key : Str) (t : VrfTool) : VrfTool :=
  { t with
    vrfIpServiceIpAddr :=
      if isAdd then t.vrfIpServiceIpAddr.insert key 1 else t.vrfIpServiceIpAddr.erase key }

/-- The rule of an address is added or deleted, after its key. -/
def setIpRule (isAdd : Bool) (vrf : Str) (af : Af) (addr : Str) (t : VrfTool) : Bool × VrfTool :=
  ((t.host.runCommand (.jump isAdd vrf af addr)).1,
    (t.setIpKey isAdd (addrKey vrf af addr)).setHost
      (t.host.runCommand (.jump isAdd vrf af addr)).2)

/-- The loop of `ip_svcs_iptable_rule_setup` over the addresses of an
interface.  `af` is the variable of that name, which the loop does not set
back. -/
def setUpIps (vrf : Str) (isAdd : Bool) : List IpAddr → Af → VrfTool → Bool × VrfTool
  | [], _, t => (true, t)
  | ip :: rest, af, t =>
    let af := if ip.af = .inet6 then .inet6 else af
    if ip.af = .inet6 ∧ (isInternal ip.text ∨ isLinkLocal ip.text) then
      setUpIps vrf isAdd rest af t
    else if isAdd = decide (addrKey vrf af ip.text ∈ t.vrfIpServiceIpAddr) then
      setUpIps vrf isAdd rest af t
    else
      match t.setIpRule isAdd vrf af ip.text with
      | (true, t) => setUpIps vrf isAdd rest af t
      | (false, t) => (false, t)

/-- The loop of `ip_svcs_iptable_rule_setup` over the interfaces. -/
def setUpInterfaces (vrf : Str) (isAdd : Bool) : List InterfaceObject → VrfTool → Bool × VrfTool
  | [], t => (true, t)
  | line :: rest, t =>
    if line.type = 1 then
      match setUpIps vrf isAdd line.ip .inet t with
      | (true, t) => setUpInterfaces vrf isAdd rest t
      | (false, t) => (false, t)
    else setUpInterfaces vrf isAdd rest t

/-- `ip_svcs_iptable_rule_setup`. -/
def ipSvcsIptableRuleSetup (vrf : Str) (isAdd : Bool) (t : VrfTool) : Bool × VrfTool :=
  match setUpInterfaces vrf isAdd t.host.readInterfaces.1 (t.setHost t.host.readInterfaces.2) with
  | (false, t) => (false, t)
  | (true, t) => (true, t.setHost (t.host.runCommand (.linkLocalJump isAdd vrf)).2)

/-! ## `ip_svcs_subnet_setup` -/

/-- `add_ip_addr` for a source address. -/
def addIpAddr (addr dev : Str) (vrf : Str) (h : Host) : Host :=
  (h.runCommand (.addrAdd vrf addr dev)).2

/-- `del_ip_addr`. -/
def delIpAddr (addr dev : Str) (vrf : Str) (h : Host) : Host :=
  (h.runCommand (.addrDel vrf addr dev)).2

/-- The loop that puts the source addresses of `vrf` on its device to the VRF
with the id. -/
def applySrcIps (vrf : Str) (id : ℕ) (keys : List Str) (h : Host) : Host :=
  keys.foldl
    (fun h key =>
      if names key vrf then addIpAddr (field 3 key) (vethDev id) (field 1 key) h else h) h

/-- The loop for the side of `vrf`, when `other` is known. -/
def applySide (vrf other : Str) (t : VrfTool) : VrfTool :=
  match t.vrfNameToId.lookup other with
  | none => t.setHost (t.host.keysOf t.vrfSrcIpMap).2
  | some id =>
    t.setHost (applySrcIps vrf id (t.host.keysOf t.vrfSrcIpMap).1 (t.host.keysOf t.vrfSrcIpMap).2)

/-- The text of an address as `--to-source` takes it. -/
def toSource (tool : Af) (addr : Str) : Str :=
  match tool with
  | .inet => addr
  | .inet6 => '[' :: (addr ++ [']'])

/-- The commands for the source translation towards the default VRF. -/
def snatCmds (isAdd : Bool) (src : Str) (val : ℕ) (tool : Af) : List Cmd :=
  let ips := vethIps val
  let srcIp := toSource tool (match tool with | .inet => ips.srcIp | .inet6 => ips.srcIp6)
  let dstIp := match tool with | .inet => ips.dstIp | .inet6 => ips.dstIp6
  let range := srcIp ++ ":62000-65000".toList
  [.snat isAdd src tool dstIp (some "tcp".toList) range,
    .snat isAdd src tool dstIp (some "udp".toList) range,
    .snat isAdd src tool dstIp none srcIp]

/-- The rules for the source translation go, and with them the rest of the
`nat` tables. -/
def dropNat (src : Str) (val : ℕ) : List Af → Host → Bool × Host
  | [], h => (true, h)
  | tool :: rest, h =>
    match h.runAll (snatCmds false src val tool) with
    | (false, h) => (false, h)
    | (true, h) => dropNat src val rest (h.runEach [.natFlush src tool, .natDropVrf src tool])

/-- The commands for the default VRF are run for a pair that leads there. -/
def isNatPair (src dst : Str) : Bool := decide (src ≠ defaultVrf ∧ dst = defaultVrf)

/-- `ip_svcs_subnet_setup(False)` from the lookup of the key on. -/
def deleteSubNet (src dst : Str) (t : VrfTool) : (Bool × Option ℕ) × VrfTool :=
  match t.vrfSubNetMap.lookup (vethKey src dst) with
  | none => ((false, none), t)
  | some val =>
    match processVethConfig none src dst t with
    | (false, t) => ((false, some val), t)
    | (true, t) =>
      let t := t.setSubNet (t.vrfSubNetMap.erase (vethKey src dst))
      if isNatPair src dst then
        (((dropNat src val [.inet, .inet6] t.host).1, some val),
          t.setHost (dropNat src val [.inet, .inet6] t.host).2)
      else ((true, some val), t)

/-- `ip_svcs_subnet_setup(True)` after the veth has been set up. -/
def applyVeth (src dst : Str) (val : ℕ) (t : VrfTool) : (Bool × Option ℕ) × VrfTool :=
  let t := applySide dst src (applySide src dst t)
  if isNatPair src dst then
    let cmds := snatCmds true src val .inet ++ snatCmds true src val .inet6
    (((t.host.runAll cmds).1, some val), t.setHost (t.host.runAll cmds).2)
  else ((true, some val), t)

/-- `ip_svcs_subnet_setup(True)` from the lookup of the key on. -/
def addSubNet (src dst : Str) (t : VrfTool) : (Bool × Option ℕ) × VrfTool :=
  match t.vrfSubNetMap.lookup (vethKey src dst) with
  | some val => ((true, some val), t)
  | none =>
    match Alloc.firstFree 100 200 t.vrfSubNetMap.values with
    | none => ((false, none), t)
    | some val =>
      match processVethConfig (some (vethIps val)) src dst
          (t.setSubNet (t.vrfSubNetMap.insert (vethKey src dst) val)) with
      | (false, t) => ((false, some val), t)
      | (true, t) => applyVeth src dst val t

/-- The rules of the addresses of the VRF that is connected to the default
one. -/
def setUpSide (isAdd : Bool) (src dst : Str) (t : VrfTool) : VrfTool :=
  if src ≠ defaultVrf ∧ dst = defaultVrf then (ipSvcsIptableRuleSetup src isAdd t).2
  else if dst ≠ defaultVrf ∧ src = defaultVrf then (ipSvcsIptableRuleSetup dst isAdd t).2
  else t

/-- `ip_svcs_subnet_setup`. -/
def ipSvcsSubnetSetup (isAdd : Bool) (src dst : Str) (t : VrfTool) :
    (Bool × Option ℕ) × VrfTool :=
  match t.vrfNameToId.lookup src with
  | none => ((false, none), t)
  | some _ =>
    if isAdd then addSubNet src dst (setUpSide true src dst t)
    else deleteSubNet src dst (setUpSide false src dst t)

/-! ## `_veth_ip_get` -/

/-- The addresses of the end that `isSrc` says. -/
def nexthop (val : ℕ) (isSrc : Bool) : Str × Str :=
  (vethIp val (vethIntfIpSuffix isSrc), vethIp6 val (vethIntfIp6Suffix isSrc))

/-- `_veth_ip_get`: the next hops, `none` for a failure. -/
def vethIpGet (src dst : Str) (isPeerIp : Bool) (t : VrfTool) : Option (Str × Str) × VrfTool :=
  if src = defaultVrf ∧ dst = defaultVrf then (none, t)
  else
    match t.vrfSubNetMap.lookup (vethKey src dst) with
    | some val => (some (nexthop val (!isPeerIp)), t)
    | none =>
      match t.vrfSubNetMap.lookup (vethKey dst src) with
      | some val => (some (nexthop val isPeerIp), t)
      | none =>
        match ipSvcsSubnetSetup true src dst t with
        | ((true, some val), t) => (some (nexthop val (!isPeerIp)), t)
        | (_, t) => (none, t)

/-- `get_veth_ip_str`, with its default destination. -/
def getVethIpStr (af : Af) (vrf : Str) (isPeerIp : Bool) (t : VrfTool) : Option Str × VrfTool :=
  ((vethIpGet vrf defaultVrf isPeerIp t).1.map fun hops =>
      match af with
      | .inet => hops.1
      | .inet6 => hops.2,
    (vethIpGet vrf defaultVrf isPeerIp t).2)

/-- `get_veth_ip_subnet`, with its default destination. -/
def getVethIpSubnet (vrf : Str) (t : VrfTool) : Option ℕ :=
  (t.vrfSubNetMap.lookup (vethKey vrf defaultVrf)).or
    (t.vrfSubNetMap.lookup (vethKey defaultVrf vrf))

/-! ## `process_vrf_config` -/

/-- `process_default_vrf_chain`. -/
def defaultVrfChain (isAdd : Bool) : List Cmd :=
  [Af.inet, .inet6].map fun tool =>
    .vrfChain (if isAdd then 'N' else 'X') defaultVrf tool "raw".toList

/-- The commands of `process_vrf_top_chain_rule` for the rules. -/
def topChainCmds (isAdd : Bool) (vrf : Str) : List Cmd :=
  let rejChains :=
    if vrf = defaultVrf then ["INPUT".toList] else ["INPUT".toList, "FORWARD".toList]
  [Af.inet, .inet6].flatMap fun tool =>
    .topJump isAdd vrf tool :: rejChains.map (.topReject isAdd vrf tool ·)

/-- `process_vrf_top_chain_rule`. -/
def processVrfTopChainRule (isAdd : Bool) (vrf : Str) (h : Host) : Bool × Host :=
  match h.runAll (if isAdd ∧ vrf = defaultVrf then defaultVrfChain true else []) with
  | (false, h) => (false, h)
  | (true, h) =>
    match h.runAll (topChainCmds isAdd vrf) with
    | (false, h) => (false, h)
    | (true, h) =>
      (true, (h.runAll (if !isAdd ∧ vrf = defaultVrf then defaultVrfChain false else [])).2)

/-- The commands for the chain `VRF` of the tables `nat` and `raw`. -/
def vrfChainCmds (actions : List Char) (vrf : Str) : List Cmd :=
  [Af.inet, .inet6].flatMap fun tool =>
    ["nat".toList, "raw".toList].flatMap fun table =>
      actions.map fun action => .vrfChain action vrf tool table

/-- The loop of `process_vrf_config(False)` over the veths. -/
def deleteSubNets (vrf : Str) : List Str → VrfTool → Bool × VrfTool
  | [], t => (true, t)
  | key :: rest, t =>
    if names key vrf then
      match ipSvcsSubnetSetup false (field 1 key) (field 2 key) t with
      | ((true, _), t) => deleteSubNets vrf rest t
      | ((false, _), t) => (false, t)
    else deleteSubNets vrf rest t

/-- The namespace of a VRF is deleted. -/
def removeNetns (vrf : Str) (t : VrfTool) : Bool × VrfTool :=
  let h := t.host.runEach (vrfChainCmds ['F', 'X'] vrf)
  ((h.runCommand (.netnsDelete vrf)).1, t.setHost (h.runCommand (.netnsDelete vrf)).2)

/-- The soft link of the default namespace goes with the last VRF.  The call
of `process_vrf_config` returns here when this is `false`. -/
def unlinkDefault (t : VrfTool) : Bool × VrfTool :=
  if t.vrfNameToId.keys.length = 1 then
    match t.host.osCall with
    | (false, h) => (true, t.setHost h)
    | (true, h) =>
      let t := t.setHost (h.setNetns (h.kernel.netns.filter fun n => decide (n ≠ defaultVrf)))
      match t.vrfNameToId.lookup defaultVrf with
      | none => (false, t)
      | some _ => (true, (t.setIds (t.vrfNameToId.erase defaultVrf)).setHost t.host.osCall.2)
  else (true, t.setHost t.host.osCall.2)

/-- `process_vrf_config(False)`. -/
def deleteVrf (vrf : Str) (t : VrfTool) : Bool × VrfTool :=
  let t := t.setHost (processVrfTopChainRule false vrf t.host).2
  match deleteSubNets vrf (t.host.keysOf t.vrfSubNetMap).1
      (t.setHost (t.host.keysOf t.vrfSubNetMap).2) with
  | (false, t) => (false, t)
  | (true, t) =>
    match t.vrfNameToId.lookup vrf with
    | none => (false, t)
    | some _ =>
      match unlinkDefault (t.setIds (t.vrfNameToId.erase vrf)) with
      | (false, t) => (false, t)
      | (true, t) => removeNetns vrf t

/-- A VRF gets its id, and the first one brings the default VRF. -/
def registerVrf (vrf : Str) (id : ℕ) (t : VrfTool) : VrfTool :=
  let t := t.setIds (t.vrfNameToId.insert vrf id)
  if t.vrfNameToId.keys.length = 1 then
    match t.host.osCall with
    | (false, h) => t.setHost h
    | (true, h) =>
      let h := h.setNetns (defaultVrf :: h.kernel.netns)
      (t.setIds (t.vrfNameToId.insert defaultVrf 0)).setHost h.osCall.2
  else t.setHost t.host.osCall.2

/-- The words of a line. -/
def words (line : Str) : List Str := (line.splitOnP Char.isWhitespace).filter fun w => !w.isEmpty

/-- The value of a setting after a line has been read, `none` for an
`IndexError`. -/
def igmpValue (setting line : Str) (val : Option Str) : Option (Option Str) :=
  if setting <:+: line then (words line)[2]?.map some else some val

/-- The loop over the lines of `dn-igmp.conf`. -/
def igmpValues : List Str → Option Str → Option Str → Option (Option Str × Option Str)
  | [], members, msf => some (members, msf)
  | line :: rest, members, msf =>
    match igmpValue "net.ipv4.igmp_max_memberships".toList line members with
    | none => none
    | some members =>
      match igmpValue "net.ipv4.igmp_max_msf".toList line msf with
      | none => none
      | some msf => igmpValues rest members msf

/-- The multicast settings of a new VRF. -/
def igmpCmds (vrf : Str) (lines : Option (List Str)) : List Cmd :=
  match lines.bind fun lines => igmpValues lines none none with
  | none => []
  | some (members, msf) =>
    (members.map fun v => .sysctl vrf ("net.ipv4.igmp_max_memberships=".toList ++ v)).toList ++
      (msf.map fun v => .sysctl vrf ("net.ipv4.igmp_max_msf=".toList ++ v)).toList

/-- The commands that prepare the namespace of a new VRF. -/
def prepareNetns (vrf : Str) (h : Host) : Bool × Host :=
  match h.runAll [.sysctl vrf "net.ipv6.conf.all.forwarding=1".toList] with
  | (false, h) => (false, h)
  | (true, h) =>
    match h.readIgmpConf.2.runAll (igmpCmds vrf h.readIgmpConf.1) with
    | (false, h) => (false, h)
    | (true, h) =>
      match h.runAll [.loUp vrf] with
      | (false, h) => (false, h)
      | (true, h) =>
        match (h.runEach [.loAddr defaultVrf, .loAddr vrf]).runAll (vrfChainCmds ['N'] vrf) with
        | (false, h) => (false, h)
        | (true, h) => processVrfTopChainRule true vrf h

/-- `process_vrf_config(True)`. -/
def createVrf (vrf : Str) (id : ℕ) (t : VrfTool) : Bool × VrfTool :=
  match t.host.runAll [.netnsAdd vrf, .netnsSet vrf id] with
  | (false, h) => (false, t.setHost h)
  | (true, h) =>
    let t := registerVrf vrf id (t.setHost h)
    ((prepareNetns vrf t.host).1, t.setHost (prepareNetns vrf t.host).2)

/-- `process_vrf_config`. -/
def processVrfConfig (isAdd : Bool) (vrf : Str) (id : ℕ) (t : VrfTool) : Bool × VrfTool :=
  if isAdd then createVrf vrf id t else deleteVrf vrf t

/-! ## `process_src_ip_config` -/

/-- An address with the prefix length of a host. -/
def hostAddr (ip : IpAddr) : Str :=
  ip.text ++
    match ip.af with
    | .inet => "/32".toList
    | .inet6 => "/128".toList

/-- The VRF at the other end of a veth of `vrf`.  The variable keeps its value
when the key has `vrf` at neither end. -/
def otherEnd (vrf key : Str) (dst : Option Str) : Option Str :=
  let dst := if field 1 key = vrf then some (field 2 key) else dst
  if field 2 key = vrf then some (field 1 key) else dst

/-- The loop of `process_src_ip_config` over the veths. -/
def changeVeths (isAdd : Bool) (vrf addr : Str) (ids : Dict Str ℕ) :
    List Str → Option Str → Host → Host
  | [], _, h => h
  | key :: rest, dst, h =>
    if names key vrf then
      let dst := otherEnd vrf key dst
      match dst.bind fun dst => ids.lookup dst with
      | none => changeVeths isAdd vrf addr ids rest dst h
      | some id =>
        changeVeths isAdd vrf addr ids rest dst
          (if isAdd then addIpAddr addr (vethDev id) vrf h else delIpAddr addr (vethDev id) vrf h)
    else changeVeths isAdd vrf addr ids rest dst h

/-- `process_src_ip_config`, which always returns `True`. -/
def processSrcIpConfig (vrf : Str) (isAdd : Bool) (ip : IpAddr) (t : VrfTool) : VrfTool :=
  let key := addrKey vrf ip.af (hostAddr ip)
  if isAdd = decide (key ∈ t.vrfSrcIpMap) then t
  else
    let t := { t with
      vrfSrcIpMap := if isAdd then t.vrfSrcIpMap.insert key 1 else t.vrfSrcIpMap.erase key }
    t.setHost (changeVeths isAdd vrf (hostAddr ip) t.vrfNameToId
      (t.host.keysOf t.vrfSubNetMap).1 none (t.host.keysOf t.vrfSubNetMap).2)

/-! ## `ipv4_rule_programming` and `ipv6_rule_programming` -/

/-- An address event.  An attribute that is missing, or an address of the
wrong length, makes the functions return. -/
structure IpEvent (af : Af) where
  vrfName : Option Str
  name : Option Str
  ip : Option { ip : IpAddr // ip.af = af }

/-- The rule of one address follows the address. -/
def ruleProgramming {af : Af} (skipped : Str → Bool) (e : IpEvent af) (isAdd : Bool)
    (t : VrfTool) : Bool × VrfTool :=
  match e.vrfName, e.name, e.ip with
  | some vrf, some _, some ip =>
    if (getVethIpSubnet vrf t).isNone then (true, t)
    else
      let isMgmt := decide (vrf = "management".toList)
      let t' := if isMgmt then t else t.setHost t.host.readInterfaces.2
      if !isMgmt && t.host.readInterfaces.1.any fun line => decide (line.type ≠ 1) then (true, t')
      else if skipped ip.1.text then (true, t')
      else if isAdd = decide (addrKey vrf af ip.1.text ∈ t'.vrfIpServiceIpAddr) then (true, t')
      else t'.setIpRule isAdd vrf af ip.1.text
  | _, _, _ => (true, t)

/-- `ipv4_rule_programming`. -/
def ipv4RuleProgramming (e : IpEvent .inet) (isAdd : Bool) (t : VrfTool) : Bool × VrfTool :=
  ruleProgramming (fun _ => false) e isAdd t

/-- `ipv6_rule_programming`. -/
def ipv6RuleProgramming (e : IpEvent .inet6) (isAdd : Bool) (t : VrfTool) : Bool × VrfTool :=
  ruleProgramming (fun addr => isInternal addr || isLinkLocal addr) e isAdd t

end VrfTool

end OpxNasLinux
