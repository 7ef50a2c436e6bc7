import OpxNasLinux.IncomingIptables
import OpxNasLinux.Lib.Search

/-!
# Reading a listing of iptables rules

`check_ipt_rules` compares the rules of a cache with those that it reads from
`iptables -L -v`.  `ipt_tokens_to_rule` makes a rule of the columns of one line.

* `columns` is the line that iptables prints for the arguments of a rule, all
  in numeric form.
* `iptTokensToRule` is the code that reads it, with its regular expressions as
  patterns of `Lib/Search`.
* For each pattern, the texts of the option column that it is found in, and
  those that it is blind for.
-/

namespace OpxNasLinux

open Search

/-! ## The listing -/

namespace FltArg

/-- A source or destination column. -/
def addressColumn (inet : InetText) (af : Af) (ip : Bytes) (prefixLen : Option ℤ) : Str :=
  if prefixLen = some 0 then "anywhere".toList
  else if prefixLen = some (8 * af.length) then inet.ntop af ip
  else inet.ntop af ip ++ prefixText prefixLen

def target : FltArg → Option Str
  | jump name => some name
  | _ => none

/-- The protocol column.  `-p ip` is any protocol. -/
def protocol : FltArg → Option Str
  | proto name => some (if name = "ip".toList then "all".toList else name)
  | _ => none

def interface : FltArg → Option Str
  | inIntf negated name => some (if negated then '!' :: name else name)
  | _ => none

def source (inet : InetText) (af : Af) : FltArg → Option Str
  | src ip prefixLen => some (addressColumn inet af ip prefixLen)
  | _ => none

def destination (inet : InetText) (af : Af) : FltArg → Option Str
  | dst ip prefixLen => some (addressColumn inet af ip prefixLen)
  | _ => none

/-- What the option column has of the argument. -/
def option (inet : InetText) (af : Af) : FltArg → Option Str
  | dport port => some ("dpt:".toList ++ intStr port)
  | dports low high => some ("multiport dports ".toList ++ (intStr low ++ ':' :: portText high))
  | toDestination ip => some ("to:".toList ++ inet.ntop af ip)
  | setMark mark => some ("MARK set 0x".toList ++ Nat.toDigits 16 mark)
  | _ => none

end FltArg

/-- The columns of the rule with these arguments.  `pkts` and `bytes` are its
counters. -/
def columns (inet : InetText) (af : Af) (pkts bytes : Str) (args : List FltArg) : List Str :=
  [pkts, bytes, (args.findSome? FltArg.target).getD [],
    (args.findSome? FltArg.protocol).getD "all".toList,
    (args.findSome? FltArg.interface).getD "any".toList, "any".toList,
    (args.findSome? (FltArg.source inet af)).getD "anywhere".toList,
    (args.findSome? (FltArg.destination inet af)).getD "anywhere".toList,
    join ' ' (args.filterMap (FltArg.option inet af))]

/-! ## The parser -/

/-- `\s` of a regular expression. -/
def isSpace (c : Char) : Bool := c ∈ [' ', '\t', '\n', '\r', '\x0b', '\x0c']

/-- `\S`. -/
def notSpace (c : Char) : Bool := !isSpace c

/-- `dpt:(\S+)`. -/
def dptPattern : List (Atom Char) := text "dpt:".toList [.many notSpace true]

/-- `multiport\s+dports\s+(\S+):(\S+)`. -/
def multiportPattern : List (Atom Char) :=
  text "multiport".toList (.many isSpace false :: text "dports".toList
    [.many isSpace false, .many notSpace true, .char ':', .many notSpace true])

/-- `MARK\s+set\s+(\S+)`. -/
def markPattern : List (Atom Char) :=
  text "MARK".toList (.many isSpace false :: text "set".toList
    [.many isSpace false, .many notSpace true])

/-- `to:(\S+)`. -/
def toPattern : List (Atom Char) := text "to:".toList [.many notSpace true]

/-- `isdigit` of a text. -/
def isDigits (t : Str) : Bool := !t.isEmpty && t.all Char.isDigit

/-- `int` of a text with a sign or without one. -/
def pyInt : Str → Option ℤ
  | '-' :: t => if isDigits t then some (-(Nat.ofDigitChars 10 t 0 : ℤ)) else none
  | '+' :: t => if isDigits t then some (Nat.ofDigitChars 10 t 0) else none
  | t => if isDigits t then some (Nat.ofDigitChars 10 t 0) else none

/-- `int(.., 16)` of a text without a sign. -/
def pyHex (t : Str) : Option ℕ :=
  let digits := match t with
    | '0' :: 'x' :: rest => rest
    | '0' :: 'X' :: rest => rest
    | _ => t
  let lower := digits.map Char.toLower
  if lower ≠ [] ∧ lower.all (· ∈ "0123456789abcdef".toList) then some (hexVal lower) else none

namespace IptablesHandler

/-- `get_l4_port_num`.  `services` is `socket.getservbyname`. -/
def getL4PortNum (services : Str → Option ℕ) (portStr : Str) : Option ℤ :=
  if isDigits portStr then some (Nat.ofDigitChars 10 portStr 0) else services portStr

/-- `get_ip_prefix`, `none` when `inet_pton` raises. -/
def getIpPrefix (inet : InetText) (af : Af) (ipStr : Str) : Option (Option Bytes × Option ℤ) :=
  if ipStr = "anywhere".toList then some (none, none)
  else
    match ipStr.splitOn '/' with
    | addr :: mask =>
      (inet.pton af addr).map fun ip =>
        match mask with
        | [] => (some ip, some (8 * af.length))
        | n :: _ =>
          match pyInt n with
          | some n => (some ip, some n)
          | none => (none, none)
    | [] => none

/-- The action of a target, and the address that it translates to. -/
def readTarget (inet : InetText) (af : Af) (target opt : Str) :
    Option (VrfSvcsRuleAction × Option Bytes) :=
  if target = "ACCEPT".toList then some (.allow, none)
  else if target = "DROP".toList then some (.deny, none)
  else if target = "MARK".toList then
    match search markPattern opt with
    | some [mark] => if pyHex mark = some rejRuleMarkValue then some (.reject, none) else none
    | _ => none
  else if target = "DNAT".toList then
    match search toPattern opt with
    | some [ip] => (inet.pton af ip).map fun ip => (.dnat, some ip)
    | _ => none
  else none

/-- `proto_type_map`. -/
def readProto (proto : Str) : Option VrfSvcsRuleProto :=
  if proto = "tcp".toList then some .tcp
  else if proto = "udp".toList then some .udp
  else if proto = "icmp".toList then some .icmp
  else if proto = "icmpv6".toList then some .icmpv6
  else none

def readInIntf (ruleType : VrfSvcsRuleType) (vrfName inIf : Str) : Option Str :=
  if inIf = "any".toList then none
  else if ruleType = .ip ∧ vrfName = defaultVrf ∧ inIf = "!vdst-nsid+".toList then none
  else some inIf

/-- The port of the option column, `none` when the parser gives up. -/
def readDport (services : Str → Option ℕ) (opt : Str) : Option (Option ℤ) :=
  match search dptPattern opt with
  | some [port] => (getL4PortNum services port).map some
  | _ => some none

/-- The port range of the option column. -/
def readDports (services : Str → Option ℕ) (opt : Str) : Option (Option ℤ × Option ℤ) :=
  match search multiportPattern opt with
  | some [low, high] =>
    match getL4PortNum services low, getL4PortNum services high with
    | some low, some high => some (some low, some high)
    | _, _ => none
  | _ => some (none, none)

open VrfIncomingSvcsRule

/-- `ipt_tokens_to_rule`. -/
def iptTokensToRule (inet : InetText) (services : Str → Option ℕ) (ruleType : VrfSvcsRuleType)
    (af : Af) (vrfName : Str) (tokens : List Str) : Outcome (Option VrfIncomingSvcsRule) :=
  match tokens with
  | _ :: _ :: target :: proto :: inIf :: _ :: source :: destination :: opt :: _ =>
    match readTarget inet af target opt with
    | none => .returned none
    | some (action, dnatIp) =>
      match getIpPrefix inet af source with
      | none => .raised
      | some (srcIp, srcPrefixLen) =>
        match if ruleType = .acl then getIpPrefix inet af destination else some (dnatIp, none) with
        | none => .raised
        | some (dstIp, dstPrefixLen) =>
          match readDport services opt with
          | none => .returned none
          | some dstPort =>
            match readDports services opt with
            | none => .returned none
            | some (lowDstPort, highDstPort) =>
              match init
                  { ruleType := ruleType.value, vrfName, action := action.value, af := af.value
                    srcIp, srcPrefixLen, protocol := (readProto proto).map VrfSvcsRuleProto.value
                    dstPort, dstIp, dstPrefixLen, inIntf := readInIntf ruleType vrfName inIf
                    lowDstPort, highDstPort } with
              | none => .raised
              | some rule => if rule.strRaises then .raised else .returned (some rule)
  | _ => .returned none

/-- The loop of `get_rule_from_ipt`.  A line that gives no rule is left out. -/
def getRuleFromIpt (inet : InetText) (services : Str → Option ℕ) (ruleType : VrfSvcsRuleType)
    (af : Af) (vrfName : Str) : List (List Str) → Outcome (List VrfIncomingSvcsRule)
  | [] => .returned []
  | tokens :: lines =>
    match iptTokensToRule inet services ruleType af vrfName tokens with
    | .raised => .raised
    | .returned rule =>
      match getRuleFromIpt inet services ruleType af vrfName lines with
      | .raised => .raised
      | .returned rules => .returned (rule.toList ++ rules)

end IptablesHandler

/-- `check_ipt_rules` for the rules of a list and the lines of its chain. -/
def checkIptRules (inet : InetText) (services : Str → Option ℕ) (ruleType : VrfSvcsRuleType)
    (af : Af) (vrfName : Str) (rules : List VrfIncomingSvcsRule) (lines : List (List Str)) :
    Outcome Bool :=
  match IptablesHandler.getRuleFromIpt inet services ruleType af vrfName lines with
  | .raised => .raised
  | .returned read =>
    .returned (decide (rules.map VrfIncomingSvcsRule.keyAttrs =
      read.map VrfIncomingSvcsRule.keyAttrs))

/-! ## The patterns in an option column -/

theorem dptPattern_eq : dptPattern =
  [.char 'd', .char 'p', .char 't', .char ':', .many notSpace true] := rfl

theorem multiportPattern_eq : multiportPattern =
    .char 'm' :: (text "ultiport".toList (.many isSpace false :: text "dports".toList
      [.many isSpace false, .many notSpace true, .char ':', .many notSpace true])) := rfl

theorem markPattern_eq : markPattern =
    .char 'M' :: (text "ARK".toList (.many isSpace false :: text "set".toList
      [.many isSpace false, .many notSpace true])) := rfl

theorem toPattern_eq : toPattern = [.char 't', .char 'o', .char ':', .many notSpace true] := rfl

/-- A text of digits, signs and the letters of `None`. -/
def Plain (t : Str) : Prop := t ≠ [] ∧ ∀ c ∈ t, c.isDigit = true ∨ c ∈ "-None".toList

theorem Plain.not_mem {t : Str} {c : Char} (h : Plain t)
    (hc : c.isDigit = false ∧ c ∉ "-None".toList) : c ∉ t := by
  intro hmem
  rcases h.2 c hmem with hd | hn
  · rw [hc.1] at hd
    cases hd
  · exact hc.2 hn

theorem Plain.notSpace {t : Str} (h : Plain t) : ∀ c ∈ t, notSpace c = true := by
  intro c hc
  have hplain : ∀ x ∈ [' ', '\t', '\n', '\r', '\x0b', '\x0c'],
      x.isDigit = false ∧ x ∉ "-None".toList := forall_mem_of_all (by decide)
  have hspace : ∀ x ∈ [' ', '\t', '\n', '\r', '\x0b', '\x0c'], x ∉ t :=
    fun x hx => h.not_mem (hplain x hx)
  rw [OpxNasLinux.notSpace, isSpace, Bool.not_eq_true', decide_eq_false_iff_not]
  exact fun hx => hspace c hx hc

theorem plain_intStr (n : ℤ) : Plain (intStr n) := by
  have hdigits : ∀ c ∈ str n.natAbs, c.isDigit = true ∨ c ∈ "-None".toList :=
    fun c hc => Or.inl (Nat.isDigit_of_mem_toDigits (by decide) (by decide) hc)
  rw [intStr]
  split
  · refine ⟨List.cons_ne_nil _ _, ?_⟩
    rintro c (_ | ⟨_, hc⟩)
    · exact Or.inr (by decide)
    · exact hdigits c hc
  · exact ⟨Nat.toDigits_ne_nil, hdigits⟩

theorem plain_portText (n : Option ℤ) : Plain (FltArg.portText n) := by
  cases n with
  | none => exact ⟨by decide, fun c hc => Or.inr (List.mem_cons_of_mem _ hc)⟩
  | some n => exact plain_intStr n

theorem notSpace_sep : notSpace ' ' = false := rfl

theorem dpt_found {t : Str} (h : Plain t) : Found ' ' dptPattern ("dpt:".toList ++ t) [t] := by
  intro s hs
  refine search_of_matchAt ?_
  rw [dptPattern, List.append_assoc, matchAt_text]
  exact matchAt_word notSpace_sep h.notSpace h.1 hs

theorem Plain.range_not_mem {a b : Str} {c : Char} (ha : Plain a) (hb : Plain b)
    (hc : c.isDigit = false ∧ c ∉ "-None".toList ∧ c ≠ ':') : c ∉ a ++ ':' :: b := by
  rw [List.mem_append, List.mem_cons]
  rintro (h | h | h)
  · exact ha.not_mem ⟨hc.1, hc.2.1⟩ h
  · exact hc.2.2 h
  · exact hb.not_mem ⟨hc.1, hc.2.1⟩ h

theorem dpt_blind_multiport {a b : Str} (ha : Plain a) (hb : Plain b) :
    Blind ' ' dptPattern ("multiport dports ".toList ++ (a ++ ':' :: b)) := by
  intro s hs
  have hwords : ∀ u, search dptPattern ("multiport dports ".toList ++ u) = search dptPattern u := by
    intro u
    rw [dptPattern_eq]
    simp [search, matchAt]
  rw [List.append_assoc, hwords, dptPattern_eq]
  exact search_skip (ha.range_not_mem hb (by decide)) s

theorem dpt_blind_mark : Blind ' ' dptPattern "MARK set 0xff".toList :=
  blind_of_not_mem (by decide)

theorem dpt_blind_to {t : Str} (h : ∀ c ∈ t, c ∈ "0123456789abcdef.:".toList) :
    Blind ' ' dptPattern ("to:".toList ++ t) := by
  intro s hs
  rw [dptPattern_eq]
  refine search_skip_second (fun hp => ?_) ?_
  · rcases List.mem_append.mp hp with hp | hp
    · revert hp
      decide
    · exact absurd (h _ hp) (by decide)
  · obtain rfl | ⟨u, rfl⟩ := hs
    · exact fun hp => nomatch hp
    · rw [List.head?_cons]
      decide

theorem multiport_blind {t : Str} (h : 'm' ∉ t) : Blind ' ' multiportPattern t :=
  blind_of_not_mem h

theorem multiport_found {a b : Str} (ha : Plain a) (hb : Plain b) :
    Found ' ' multiportPattern ("multiport dports ".toList ++ (a ++ ':' :: b)) [a, b] := by
  intro s hs
  have hcolon : ':' ∉ b := hb.not_mem (by decide)
  have hrange : matchAt [.many notSpace true, .char ':', .many notSpace true]
      (a ++ ':' :: (b ++ s)) = some [a, b] :=
    matchAt_last notSpace_sep (by decide) ha.notSpace ha.1 hcolon hs
      (matchAt_word notSpace_sep hb.notSpace hb.1 hs)
  have hgap : ∀ c, (a ++ ':' :: (b ++ s)).head? = some c → isSpace c = false := by
    intro c hc
    obtain ⟨x, a', rfl⟩ := List.exists_cons_of_ne_nil ha.1
    obtain rfl := Option.some_inj.mp hc
    simpa [notSpace] using ha.notSpace x List.mem_cons_self
  have htext : "multiport dports ".toList ++ (a ++ ':' :: b) ++ s =
      "multiport".toList ++ ' ' :: ("dports".toList ++ ' ' :: (a ++ ':' :: (b ++ s))) := by
    simp
  refine search_of_matchAt ?_
  rw [htext, multiportPattern, matchAt_text]
  refine matchAt_gap rfl (by simp [isSpace]) ?_
  rw [matchAt_text]
  exact matchAt_gap rfl hgap hrange

theorem mark_found : Found ' ' markPattern "MARK set 0xff".toList ["0xff".toList] := by
  intro s hs
  have htext : "MARK set 0xff".toList ++ s =
      "MARK".toList ++ ' ' :: ("set".toList ++ ' ' :: ("0xff".toList ++ s)) := by
    simp
  refine search_of_matchAt ?_
  rw [htext, markPattern, matchAt_text]
  refine matchAt_gap rfl (by simp [isSpace]) ?_
  rw [matchAt_text]
  exact matchAt_gap rfl (by simp [isSpace])
    (matchAt_word notSpace_sep (forall_mem_of_all (by decide)) (by decide) hs)

theorem mark_blind {t : Str} (h : 'M' ∉ t) : Blind ' ' markPattern t := blind_of_not_mem h

theorem to_found {t : Str} (h : t ≠ []) (hc : ∀ c ∈ t, c ∈ "0123456789abcdef.:".toList) :
    Found ' ' toPattern ("to:".toList ++ t) [t] := by
  have hspace : ∀ c ∈ "0123456789abcdef.:".toList, notSpace c = true :=
    forall_mem_of_all (by decide)
  intro s hs
  refine search_of_matchAt ?_
  rw [toPattern, List.append_assoc, matchAt_text]
  exact matchAt_word notSpace_sep (fun c hm => hspace c (hc c hm)) h hs

theorem to_blind_dpt {t : Str} (h : Plain t) : Blind ' ' toPattern ("dpt:".toList ++ t) := by
  intro s hs
  have hword : ∀ u, search toPattern ("dpt:".toList ++ u) = search toPattern u := by
    intro u
    rw [toPattern_eq]
    simp [search, matchAt]
  rw [List.append_assoc, hword, toPattern_eq]
  exact search_skip (h.not_mem (by decide)) s

theorem to_blind_multiport {a b : Str} (ha : Plain a) (hb : Plain b) :
    Blind ' ' toPattern ("multiport dports ".toList ++ (a ++ ':' :: b)) := by
  intro s hs
  have hwords : ∀ u, search toPattern ("multiport dports ".toList ++ u) = search toPattern u := by
    intro u
    rw [toPattern_eq]
    simp [search, matchAt]
  rw [List.append_assoc, hwords, toPattern_eq]
  exact search_skip (ha.range_not_mem hb (by decide)) s

end OpxNasLinux
