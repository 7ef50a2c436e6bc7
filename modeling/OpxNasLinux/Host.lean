import Mathlib.Data.Stream.Defs
import Mathlib.Logic.Function.Basic
import OpxNasLinux.OutgoingRule

/-!
# The host

The code changes the host by running `ip`, `iptables` and `sysctl`, and looks
at nothing of a command but whether it succeeded.

* `Kernel` is the part of the host that the commands edit and that the results
  are about.
* `Env` holds what the host answers in the time to come: whether each command
  succeeds, whether a call of the `os` module raises, what `ip addr show`
  lists, what is in `dn-igmp.conf`, and in which order a dictionary is iterated
  over.  The commands of one place of the code share a tape, so that what one
  place is answered does not depend on how often another one has asked.
* `Host.runCommand` runs one command.  A command that fails changes nothing.
-/

namespace OpxNasLinux

/-! ## Texts -/

/-- `str` of a number. -/
def str (n : ℕ) : Str := Nat.toDigits 10 n

/-- Different numbers have different texts. -/
theorem str_inj {m n : ℕ} (h : str m = str n) : m = n := by
  have hval := congrArg (fun ds => Nat.ofDigitChars 10 ds 0) h
  simpa only [str, Nat.ofDigitChars_ten_toDigits] using hval

/-- The family as the code writes it in its keys. -/
def Af.name : Af → Str
  | .inet => "ipv4".toList
  | .inet6 => "ipv6".toList

/-- An address as `socket.inet_ntop` and `ip addr show` write it. -/
structure IpAddr where
  af : Af
  text : Str
  starFree : '*' ∉ text
  colon : ':' ∈ text ↔ af = .inet6

/-- Two addresses with one text have one family. -/
theorem IpAddr.af_eq {a b : IpAddr} (h : a.text = b.text) : a.af = b.af := by
  have hiff : a.af = .inet6 ↔ b.af = .inet6 := by rw [← a.colon, ← b.colon, h]
  cases ha : a.af <;> cases hb : b.af <;> simp_all

/-- The address `10.0.0.1`. -/
def sampleIpv4 : IpAddr := ⟨.inet, "10.0.0.1".toList, by decide, by decide⟩

/-- The address `2001:db8::1`. -/
def sampleIpv6 : IpAddr := ⟨.inet6, "2001:db8::1".toList, by decide, by decide⟩

/-! ## Commands -/

/-- A command of the code.  `ns` is the namespace it runs in, and `tool` is
`iptables` for `inet` and `ip6tables` for `inet6`. -/
inductive Cmd where
  /-- `ip link add name dev type veth peer name peer`. -/
  | linkAdd (ns dev peer : Str)
  /-- `ip link set dev up`. -/
  | linkUp (ns dev : Str)
  /-- `ip link set dev dev netns dst`. -/
  | linkNetns (ns dev dst : Str)
  /-- `ip address add addr dev dev`, for a veth. -/
  | vethAddr (ns addr dev : Str)
  /-- `sysctl -w net.ipv4.conf.dev.route_localnet=1`. -/
  | routeLocalnet (ns dev : Str)
  /-- `ip link delete dev dev`. -/
  | linkDelete (ns dev : Str)
  /-- `tool -t nat -A|-D POSTROUTING -o vdst-nsid0 -d dst [-p proto] -j SNAT --to-source src`. -/
  | snat (isAdd : Bool) (ns : Str) (tool : Af) (dst : Str) (proto : Option Str) (src : Str)
  /-- `tool -t nat -F`. -/
  | natFlush (ns : Str) (tool : Af)
  /-- `tool -t nat -X VRF`. -/
  | natDropVrf (ns : Str) (tool : Af)
  /-- `tool -t nat -A|-D PREROUTING -d addr -j VRF`. -/
  | jump (isAdd : Bool) (ns : Str) (tool : Af) (addr : Str)
  /-- `ip6tables -t nat -A|-D PREROUTING -d fe80::/10 -j VRF`. -/
  | linkLocalJump (isAdd : Bool) (ns : Str)
  /-- `ip addr add addr dev dev`. -/
  | addrAdd (ns addr dev : Str)
  /-- `ip addr del addr dev dev`. -/
  | addrDel (ns addr dev : Str)
  /-- `ip netns add ns`. -/
  | netnsAdd (ns : Str)
  /-- `ip netns set ns id`. -/
  | netnsSet (ns : Str) (id : ℕ)
  /-- `ip netns delete ns`. -/
  | netnsDelete (ns : Str)
  /-- `sysctl -w setting`. -/
  | sysctl (ns setting : Str)
  /-- `ip link set lo up`. -/
  | loUp (ns : Str)
  /-- `ifconfig lo 127.0.0.1/16`. -/
  | loAddr (ns : Str)
  /-- `tool -t table -N|-F|-X VRF`. -/
  | vrfChain (action : Char) (ns : Str) (tool : Af) (table : Str)
  /-- `tool -t raw -A|-D PREROUTING ! -i lo -j VRF`. -/
  | topJump (isAdd : Bool) (ns : Str) (tool : Af)
  /-- `tool -A|-D chain -m mark --mark 255 -j REJECT`. -/
  | topReject (isAdd : Bool) (ns : Str) (tool : Af) (chain : Str)

/-- The places of the code that run commands. -/
inductive CmdKind where
  | veth
  | vethDelete
  | snat
  | natFlush
  | jump
  | linkLocal
  | srcAddr
  | netns
  | vrf
  | netnsShow
  | iptables
deriving DecidableEq

def Cmd.kind : Cmd → CmdKind
  | .linkAdd .. | .linkUp .. | .linkNetns .. | .vethAddr .. | .routeLocalnet .. => .veth
  | .linkDelete .. => .vethDelete
  | .snat .. => .snat
  | .natFlush .. | .natDropVrf .. => .natFlush
  | .jump .. => .jump
  | .linkLocalJump .. => .linkLocal
  | .addrAdd .. | .addrDel .. => .srcAddr
  | .netnsAdd .. | .netnsSet .. | .netnsDelete .. => .netns
  | .sysctl .. | .loUp .. | .loAddr .. | .vrfChain .. | .topJump .. | .topReject .. => .vrf

/-! ## The kernel -/

/-- A rule of a `PREROUTING` chain that jumps to the chain `VRF`. -/
structure Jump where
  ns : Str
  tool : Af
  addr : Str
deriving DecidableEq

/-- The state of the kernel.  `veths` are the pairs of VRFs that have a
complete veth between them, `addrs` are the addresses of an interface, and
`incoming` and `outgoing` are the chains of the service rules. -/
structure Kernel where
  netns : List Str
  veths : List (Str × Str)
  addrs : Str → Str → List Str
  jumps : List Jump
  incoming : Loc → List VrfIncomingSvcsRule
  outgoing : Loc → List VrfOutgoingSvcsRule

namespace Kernel

/-- A kernel with the root namespace only. -/
def init : Kernel :=
  { netns := [], veths := [], addrs := fun _ _ => [], jumps := [], incoming := fun _ => []
    outgoing := fun _ => [] }

/-- The addresses of one interface are set. -/
def setAddrs (k : Kernel) (ns dev : Str) (addrs : List Str) : Kernel :=
  { k with
    addrs := fun ns' dev' => if ns' = ns ∧ dev' = dev then addrs else k.addrs ns' dev' }

/-- What a namespace holds is gone.  The root namespace stays as it is. -/
def wipe (k : Kernel) (ns : Str) : Kernel :=
  if ns = defaultVrf then k
  else
    { k with
      veths := k.veths.filter fun p => decide (p.1 ≠ ns ∧ p.2 ≠ ns)
      addrs := fun ns' dev => if ns' = ns then [] else k.addrs ns' dev
      jumps := k.jumps.filter fun j => decide (j.ns ≠ ns)
      incoming := fun lc => if lc.vrfName = ns then [] else k.incoming lc
      outgoing := fun lc => if lc.vrfName = ns then [] else k.outgoing lc }

/-- A namespace that exists cannot be added. -/
def accepts (k : Kernel) : Cmd → Bool
  | .netnsAdd ns => decide (ns ∉ k.netns)
  | _ => true

/-- The rules of the `nat` table of a namespace are gone.  Those are the outgoing
ones, and the incoming IP rules of a VRF that is not the default one. -/
def flushNat (k : Kernel) (ns : Str) (tool : Af) : Kernel :=
  { k with
    jumps := k.jumps.filter fun j => decide (j.ns ≠ ns ∨ j.tool ≠ tool)
    incoming := fun lc =>
      if lc.vrfName = ns ∧ lc.af = tool ∧ lc.table = .ipRules ∧ ns ≠ defaultVrf then []
      else k.incoming lc
    outgoing := fun lc => if lc.vrfName = ns ∧ lc.af = tool then [] else k.outgoing lc }

/-- What a command does.  An interface that is created or moved has no
address.  The chains of the service rules are edited by `proc_rule`, emptied by
a flush, and go with their namespace. -/
def effect (k : Kernel) : Cmd → Kernel
  | .linkAdd ns dev peer => (k.setAddrs ns dev []).setAddrs ns peer []
  | .linkNetns ns dev dst => (k.setAddrs ns dev []).setAddrs dst dev []
  | .vethAddr ns addr dev | .addrAdd ns addr dev =>
    k.setAddrs ns dev (addr :: (k.addrs ns dev).filter fun a => decide (a ≠ addr))
  | .addrDel ns addr dev => k.setAddrs ns dev ((k.addrs ns dev).filter fun a => decide (a ≠ addr))
  | .linkDelete ns dev => k.setAddrs ns dev []
  | .natFlush ns tool => k.flushNat ns tool
  | .jump true ns tool addr => { k with jumps := k.jumps ++ [⟨ns, tool, addr⟩] }
  | .jump false ns tool addr => { k with jumps := k.jumps.erase ⟨ns, tool, addr⟩ }
  | .netnsAdd ns => { k with netns := ns :: k.netns }
  | .netnsDelete ns => ({ k with netns := k.netns.filter fun n => decide (n ≠ ns) }).wipe ns
  | _ => k

end Kernel

/-! ## What the host answers -/

/-- An interface that `InterfaceObject` has read.  Its type is 1 for a macvlan
interface. -/
structure InterfaceObject where
  type : ℕ
  ip : List IpAddr

/-- The order in which a dictionary is iterated over. -/
structure KeyOrder where
  order : List Str → List Str
  perm : ∀ keys, (order keys).Perm keys

/-- What the host answers in the time to come. -/
structure Env where
  answers : CmdKind → Stream' Bool
  osCalls : Stream' Bool
  interfaces : Stream' (List InterfaceObject)
  igmpConf : Stream' (Option (List Str))
  orders : Stream' KeyOrder

/-- An environment that answers commands as given, and in which nothing else
fails or changes. -/
def Env.steady (answers : CmdKind → Stream' Bool) : Env :=
  { answers, osCalls := .const true, interfaces := .const [], igmpConf := .const none
    orders := .const ⟨fun keys => keys, fun keys => .refl keys⟩ }

/-- An environment in which every command succeeds. -/
def Env.willing : Env := .steady fun _ => .const true

/-- The host. -/
structure Host where
  kernel : Kernel
  env : Env

namespace Host

/-- The next answer of a kind. -/
def answer (kind : CmdKind) (h : Host) : Bool × Host :=
  ((h.env.answers kind).head,
    { h with
      env := { h.env with
        answers := Function.update h.env.answers kind (h.env.answers kind).tail } })

/-- `run_command`: whether the command returned 0. -/
def runCommand (c : Cmd) (h : Host) : Bool × Host :=
  if (h.answer c.kind).1 && h.kernel.accepts c then
    (true, { (h.answer c.kind).2 with kernel := h.kernel.effect c })
  else (false, (h.answer c.kind).2)

/-- Commands that are run until one fails. -/
def runAll : List Cmd → Host → Bool × Host
  | [], h => (true, h)
  | c :: rest, h =>
    match h.runCommand c with
    | (true, h) => runAll rest h
    | (false, h) => (false, h)

/-- Commands whose failure is only logged. -/
def runEach (cmds : List Cmd) (h : Host) : Host := cmds.foldl (fun h c => (h.runCommand c).2) h

/-- A call of the `os` module: whether it returns. -/
def osCall (h : Host) : Bool × Host :=
  (h.env.osCalls.head, { h with env := { h.env with osCalls := h.env.osCalls.tail } })

/-- `_get_ip_addr_details`, read by `InterfaceObject`. -/
def readInterfaces (h : Host) : List InterfaceObject × Host :=
  (h.env.interfaces.head, { h with env := { h.env with interfaces := h.env.interfaces.tail } })

/-- The lines of `/etc/sysctl.d/dn-igmp.conf`, if it can be read. -/
def readIgmpConf (h : Host) : Option (List Str) × Host :=
  (h.env.igmpConf.head, { h with env := { h.env with igmpConf := h.env.igmpConf.tail } })

/-- `dict.keys()`. -/
def keysOf {V : Type} (d : Dict Str V) (h : Host) : List Str × Host :=
  (h.env.orders.head.order d.keys, { h with env := { h.env with orders := h.env.orders.tail } })

/-- The namespaces that have a name. -/
def setNetns (h : Host) (netns : List Str) : Host := { h with kernel := { h.kernel with netns } }

/-- The pairs of VRFs that have a complete veth. -/
def setVeths (h : Host) (veths : List (Str × Str)) : Host :=
  { h with kernel := { h.kernel with veths } }

end Host

end OpxNasLinux
