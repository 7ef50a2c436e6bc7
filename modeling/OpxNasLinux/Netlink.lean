import Mathlib.Tactic.TypeStar

/-!
# The numbers of netlink

What the headers of the kernel define.  The source keeps these numbers in
fields and variables of different widths, so each is a numeral of any type.

* `NLMSG_…` are the types of control messages, and `NLM_F_…` the flags of a
  header.
* `RTM_…` are the types of the messages about links, addresses, routes,
  neighbours, settings and multicast groups.
* `AF_…` are address families, and `RTN_…` types of routes.
-/

namespace OpxNasLinux.Netlink

variable {α : Type*}

/-! ## Headers -/

def nlmsgNoop [OfNat α (nat_lit 1)] : α := 1
def nlmsgError [OfNat α (nat_lit 2)] : α := 2
def nlmsgDone [OfNat α (nat_lit 3)] : α := 3
def nlmFRequest [OfNat α (nat_lit 0x1)] : α := 0x1
def nlmFMulti [OfNat α (nat_lit 0x2)] : α := 0x2
def nlmFAck [OfNat α (nat_lit 0x4)] : α := 0x4
def nlmFDumpIntr [OfNat α (nat_lit 0x10)] : α := 0x10
def nlmFReplace [OfNat α (nat_lit 0x100)] : α := 0x100
def nlmFExcl [OfNat α (nat_lit 0x200)] : α := 0x200
def nlmFCreate [OfNat α (nat_lit 0x400)] : α := 0x400
def nlmFAppend [OfNat α (nat_lit 0x800)] : α := 0x800

/-! ## Messages -/

def rtmBase [OfNat α (nat_lit 16)] : α := 16
def rtmNewlink [OfNat α (nat_lit 16)] : α := 16
def rtmDellink [OfNat α (nat_lit 17)] : α := 17
def rtmGetlink [OfNat α (nat_lit 18)] : α := 18
def rtmSetlink [OfNat α (nat_lit 19)] : α := 19
def rtmNewaddr [OfNat α (nat_lit 20)] : α := 20
def rtmDeladdr [OfNat α (nat_lit 21)] : α := 21
def rtmGetaddr [OfNat α (nat_lit 22)] : α := 22
def rtmNewroute [OfNat α (nat_lit 24)] : α := 24
def rtmDelroute [OfNat α (nat_lit 25)] : α := 25
def rtmGetroute [OfNat α (nat_lit 26)] : α := 26
def rtmNewneigh [OfNat α (nat_lit 28)] : α := 28
def rtmDelneigh [OfNat α (nat_lit 29)] : α := 29
def rtmGetneigh [OfNat α (nat_lit 30)] : α := 30
def rtmNewnetconf [OfNat α (nat_lit 80)] : α := 80
def rtmGetnetconf [OfNat α (nat_lit 82)] : α := 82
def rtmNewmdb [OfNat α (nat_lit 84)] : α := 84
def rtmDelmdb [OfNat α (nat_lit 85)] : α := 85
def rtmGetmdb [OfNat α (nat_lit 86)] : α := 86

/-! ## Addresses and routes -/

def afInet [OfNat α (nat_lit 2)] : α := 2
def afBridge [OfNat α (nat_lit 7)] : α := 7
def afInet6 [OfNat α (nat_lit 10)] : α := 10
def rtnUnicast [OfNat α (nat_lit 1)] : α := 1
def rtnLocal [OfNat α (nat_lit 2)] : α := 2
def rtnBlackhole [OfNat α (nat_lit 6)] : α := 6
def rtnUnreachable [OfNat α (nat_lit 7)] : α := 7
def rtnProhibit [OfNat α (nat_lit 8)] : α := 8

end OpxNasLinux.Netlink
