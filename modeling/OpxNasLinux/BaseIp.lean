import OpxNasLinux.Host

/-!
# Attributes of an interface

`trans_cb` of `base_ip.py` writes the attributes of a request to the kernel: in
the default VRF to a file, in another one with `sysctl` in the namespace of the
VRF.  The two ways report a failure by different values.

* `Kernel` is what a write leads to.
* `Block` is what a `try` block of `trans_cb` does for one attribute.
* `trans_cb_iff` says for which requests the result and the table of the
  requested status can be trusted.
-/

namespace OpxNasLinux.BaseIp

/-! ## Writes -/

/-- A write of a setting. -/
inductive Write where
  /-- The value is written to the file. -/
  | proc (path value : Str)
  /-- `ip netns exec vrf sysctl -w assignment`. -/
  | sysctl (vrf assignment : Str)
deriving DecidableEq

/-- What a write leads to. -/
structure Kernel where
  /-- Whether the file could be written. -/
  proc : Str → Str → Bool
  /-- The exit status, `none` when the command could not be started. -/
  sysctl : Str → Str → Option ℤ

/-- The write succeeds. -/
def Kernel.ok (k : Kernel) : Write → Bool
  | .proc path value => k.proc path value
  | .sysctl vrf assignment => k.sysctl vrf assignment = some 0

/-- The file of a setting. -/
def procPath (af : Af) (dev file : Str) : Str :=
  "/proc/sys/net/".toList ++ (af.name ++ ("/conf/".toList ++ (dev ++ ('/' :: file))))

/-- The argument of `sysctl -w`. -/
def assignment (af : Af) (dev file value : Str) : Str :=
  "net.".toList ++ (af.name ++ (".conf.".toList ++ (dev ++ ('.' :: (file ++ ('=' :: value))))))

/-- The write of a setting in a VRF. -/
def settingWrite (vrf : Str) (af : Af) (dev file value : Str) : Write :=
  if vrf = defaultVrf then .proc (procPath af dev file) value
  else .sysctl vrf (assignment af dev file value)

/-- What a helper returns. -/
inductive RetVal where
  | none
  | minusOne
  | bool (b : Bool)
deriving DecidableEq

/-- What a helper returns, `none` for an exception, and the writes that it has
attempted. -/
abbrev Ret := Option RetVal × List Write

section Code

variable (k : Kernel)

/-- `_set_proc_variable`. -/
def setProcVariable (path value : Str) : Ret :=
  (some (if k.proc path value then .none else .minusOne), [.proc path value])

/-- The helpers of `dn_base_ip_tool.py` run one command each. -/
def sysctlConfig (af : Af) (dev file value vrf : Str) : Ret :=
  let a := assignment af dev file value
  ((k.sysctl vrf a).map fun code => .bool (code = 0), [.sysctl vrf a])

/-- `ip_forwarding_config`. -/
def ipForwardingConfig (af : Af) (dev fwd vrf : Str) : Ret :=
  sysctlConfig k af dev "forwarding".toList fwd vrf

/-- `disable_ipv6_config`. -/
def disableIpv6Config (dev disable vrf : Str) : Ret :=
  sysctlConfig k .inet6 dev "disable_ipv6".toList disable vrf

/-- `ipv6_autoconf_config`.  In the management VRF the device accepts router
advertisements even though it forwards. -/
def ipv6AutoconfConfig (dev : Str) (autoconf : ℕ) (vrf : Str) : Ret :=
  let config := sysctlConfig k .inet6 dev "autoconf".toList (str autoconf) vrf
  if vrf = mgmtVrfName then
    let acceptRa := if autoconf ≠ 0 then 2 else 1
    let a := assignment .inet6 dev "accept_ra".toList (str acceptRa)
    match k.sysctl vrf a with
    | none => (none, [.sysctl vrf a])
    | some code =>
      if code ≠ 0 then (some (.bool false), [.sysctl vrf a])
      else (config.1, .sysctl vrf a :: config.2)
  else config

/-- `ipv6_accept_dad_config`. -/
def ipv6AcceptDadConfig (dev acceptDad vrf : Str) : Ret :=
  sysctlConfig k .inet6 dev "accept_dad".toList acceptDad vrf

/-- `ipv4_arp_accept_config`. -/
def ipv4ArpAcceptConfig (dev arpAccept vrf : Str) : Ret :=
  sysctlConfig k .inet dev "arp_accept".toList arpAccept vrf

/-! ## The blocks -/

/-- The object of a request. -/
structure Request where
  operation : Str
  af : Af
  /-- What `_get_key_from_obj` returns. -/
  name : Option Str
  vrfName : Option Str
  enabled : Option ℕ
  autoconf : Option ℕ
  acceptDad : Option ℕ
  arpAccept : Option ℕ
  forwarding : Option ℕ

/-- The VRF of a request. -/
def Request.vrf (req : Request) : Str := req.vrfName.getD defaultVrf

/-- What a `try` block does. -/
structure Block where
  /-- The request is left with `False`. -/
  leaves : Bool
  attempted : List Write
  /-- The assignments to `_ipv6_enable_status`. -/
  records : List (Str × ℕ)
deriving DecidableEq

/-- The attribute is not there, and the exception is swallowed. -/
def Block.skip : Block := ⟨false, [], []⟩

/-- The end of a block looks for -1 only. -/
def Block.ofRet (r : Ret) (records : List (Str × ℕ)) : Block :=
  ⟨r.1 = some .minusOne, r.2, records⟩

variable (req : Request) (name : Str)

/-- The block of `enabled`.  The status is recorded before it is written. -/
def enabledBlock : Block :=
  match req.enabled with
  | none => .skip
  | some enabled =>
    let disable := str (if enabled = 1 then 0 else 1)
    .ofRet
      (if req.vrf = defaultVrf then
        setProcVariable k (procPath .inet6 name "disable_ipv6".toList) disable
      else disableIpv6Config k name disable req.vrf)
      [(name, enabled)]

/-- The block of `autoconf`. -/
def autoconfBlock : Block :=
  match req.autoconf with
  | none => .skip
  | some autoconf =>
    .ofRet
      (if req.vrf = defaultVrf then
        setProcVariable k (procPath .inet6 name "autoconf".toList) (str autoconf)
      else ipv6AutoconfConfig k name autoconf req.vrf) []

/-- The block of `accept-dad`. -/
def acceptDadBlock : Block :=
  match req.acceptDad with
  | none => .skip
  | some acceptDad =>
    if acceptDad ∉ [1, 2, 3] then ⟨true, [], []⟩
    else
      let value := str (acceptDad - 1)
      .ofRet
        (if req.vrf = defaultVrf then
          setProcVariable k (procPath .inet6 name "accept_dad".toList) value
        else ipv6AcceptDadConfig k name value req.vrf) []

/-- The block of `arp-accept`. -/
def arpAcceptBlock : Block :=
  match req.arpAccept with
  | none => .skip
  | some arpAccept =>
    let value := str (if arpAccept = 1 then 0 else 1)
    .ofRet
      (if req.vrf = defaultVrf then
        setProcVariable k (procPath .inet name "arp_accept".toList) value
      else ipv4ArpAcceptConfig k name value req.vrf) []

/-- The block of `forwarding`. -/
def forwardingBlock : Block :=
  match req.forwarding with
  | none => .skip
  | some fwd =>
    .ofRet
      (if req.vrf = defaultVrf then
        setProcVariable k (procPath req.af name "forwarding".toList) (str fwd)
      else ipForwardingConfig k req.af name (str fwd) req.vrf) []

/-- The blocks for the family of a request. -/
def blocks : List Block :=
  match req.af with
  | .inet6 => [enabledBlock k req name, autoconfBlock k req name, acceptDadBlock k req name,
      forwardingBlock k req name]
  | .inet => [arpAcceptBlock k req name, forwardingBlock k req name]

end Code

/-- What a request leads to. -/
structure Result where
  ret : Bool
  attempted : List Write
  records : List (Str × ℕ)
deriving DecidableEq

/-- One block after the other, until one leaves. -/
def runBlocks : List Block → Result
  | [] => ⟨true, [], []⟩
  | b :: rest =>
    if b.leaves then ⟨false, b.attempted, b.records⟩
    else
      let later := runBlocks rest
      ⟨later.ret, b.attempted ++ later.attempted, b.records ++ later.records⟩

/-- `trans_cb`. -/
def transCb (k : Kernel) (req : Request) : Result :=
  match req.name with
  | none => ⟨false, [], []⟩
  | some name =>
    if req.operation = "set".toList then runBlocks (blocks k req name) else ⟨false, [], []⟩

/-! ## The writes of a request -/

section

variable (req : Request) (name : Str)

/-- The write of the status. -/
def enabledWrite (vrf dev : Str) (enabled : ℕ) : Write :=
  settingWrite vrf .inet6 dev "disable_ipv6".toList (str (if enabled = 1 then 0 else 1))

def autoconfWrites (vrf dev : Str) (autoconf : ℕ) : List Write :=
  (if vrf = mgmtVrfName then
    [settingWrite vrf .inet6 dev "accept_ra".toList (str (if autoconf ≠ 0 then 2 else 1))]
  else []) ++ [settingWrite vrf .inet6 dev "autoconf".toList (str autoconf)]

def acceptDadWrite (vrf dev : Str) (acceptDad : ℕ) : Write :=
  settingWrite vrf .inet6 dev "accept_dad".toList (str (acceptDad - 1))

def arpAcceptWrite (vrf dev : Str) (arpAccept : ℕ) : Write :=
  settingWrite vrf .inet dev "arp_accept".toList (str (if arpAccept = 1 then 0 else 1))

def forwardingWrite (vrf : Str) (af : Af) (dev : Str) (fwd : ℕ) : Write :=
  settingWrite vrf af dev "forwarding".toList (str fwd)

/-- The writes that a request calls for, attribute by attribute. -/
def requested : List (List Write) :=
  match req.af with
  | .inet6 => [req.enabled.toList.map (enabledWrite req.vrf name),
      req.autoconf.toList.flatMap (autoconfWrites req.vrf name),
      req.acceptDad.toList.map (acceptDadWrite req.vrf name),
      req.forwarding.toList.map (forwardingWrite req.vrf req.af name)]
  | .inet => [req.arpAccept.toList.map (arpAcceptWrite req.vrf name),
      req.forwarding.toList.map (forwardingWrite req.vrf req.af name)]

/-- The request has an `accept-dad` that is refused. -/
def RefusedDad : Prop := req.af = .inet6 ∧ ∃ dad ∈ req.acceptDad, dad ∉ [1, 2, 3]

end

/-! ## What a block does -/

section

variable (k : Kernel)

/-- All writes have succeeded. -/
def AllOk (writes : List Write) : Prop := ∀ w ∈ writes, k.ok w = true

variable {k}

theorem allOk_append {ws ws' : List Write} : AllOk k (ws ++ ws') ↔ AllOk k ws ∧ AllOk k ws' :=
  List.forall_mem_append

/-- The write of a setting: a failure is seen in the default VRF only. -/
theorem ofRet_setting (vrf : Str) (af : Af) (dev file value : Str) (records : List (Str × ℕ)) :
    Block.ofRet
        (if vrf = defaultVrf then setProcVariable k (procPath af dev file) value
          else sysctlConfig k af dev file value vrf) records =
      ⟨decide (vrf = defaultVrf) && !k.ok (settingWrite vrf af dev file value),
        [settingWrite vrf af dev file value], records⟩ := by
  by_cases hvrf : vrf = defaultVrf
  · cases hok : k.proc (procPath af dev file) value <;>
      simp [Block.ofRet, hvrf, setProcVariable, settingWrite, Kernel.ok, hok]
  · cases hrun : k.sysctl vrf (assignment af dev file value) <;>
      simp [Block.ofRet, hvrf, sysctlConfig, settingWrite, hrun]

/-- What a block for the given writes does in a VRF. -/
structure Block.Serves (k : Kernel) (vrf : Str) (writes : List Write) (b : Block) : Prop where
  default : vrf = defaultVrf → b.leaves = false → AllOk k b.attempted
  other : vrf ≠ defaultVrf → b.leaves = false ∧ (AllOk k b.attempted ↔ AllOk k writes)

theorem serves_skip (vrf : Str) : Block.skip.Serves k vrf [] :=
  ⟨fun _ _ => List.forall_mem_nil _, fun _ => ⟨rfl, Iff.rfl⟩⟩

/-- The block for one setting. -/
theorem ofRet_serves (vrf : Str) (af : Af) (dev file value : Str) (records : List (Str × ℕ)) :
    (Block.ofRet
        (if vrf = defaultVrf then setProcVariable k (procPath af dev file) value
          else sysctlConfig k af dev file value vrf) records).Serves k vrf
      [settingWrite vrf af dev file value] := by
  rw [ofRet_setting]
  refine ⟨fun hvrf hleaves => List.forall_mem_singleton.mpr ?_, fun hvrf => ⟨?_, Iff.rfl⟩⟩
  · simpa [hvrf] using hleaves
  · simp [hvrf]

variable (req : Request) (name : Str)

theorem enabledBlock_serves : (enabledBlock k req name).Serves k req.vrf
    (req.enabled.toList.map (enabledWrite req.vrf name)) := by
  rw [enabledBlock]
  cases req.enabled with
  | none => exact serves_skip _
  | some enabled => exact ofRet_serves req.vrf .inet6 name _ _ _

/-- In the management VRF there are two writes, the second one if the first one
succeeds. -/
theorem autoconfBlock_serves : (autoconfBlock k req name).Serves k req.vrf
    (req.autoconf.toList.flatMap (autoconfWrites req.vrf name)) := by
  rw [autoconfBlock]
  cases req.autoconf with
  | none => exact serves_skip _
  | some autoconf =>
    rw [Option.toList_some, List.flatMap_singleton, autoconfWrites]
    have hlast := @ofRet_serves k req.vrf .inet6 name "autoconf".toList (str autoconf) []
    by_cases hmgmt : req.vrf = mgmtVrfName
    · have hvrf : mgmtVrfName ≠ defaultVrf := by decide
      rw [hmgmt] at hlast ⊢
      refine ⟨fun h => absurd h hvrf, fun _ => ?_⟩
      obtain ⟨hleaves, hlast⟩ := hlast.other hvrf
      simp only [if_neg hvrf] at hleaves hlast
      simp only [if_neg hvrf, if_true, ipv6AutoconfConfig, settingWrite]
      generalize assignment .inet6 name "accept_ra".toList
        (str (if autoconf ≠ 0 then 2 else 1)) = a
      cases hrun : k.sysctl mgmtVrfName a with
      | none =>
        have hfail : k.ok (.sysctl mgmtVrfName a) = false := by simp [Kernel.ok, hrun]
        exact ⟨rfl, by simp [Block.ofRet, AllOk, hfail]⟩
      | some code =>
        by_cases hcode : code = 0
        · simp only [hcode, ne_eq, not_true_eq_false, if_false]
          refine ⟨hleaves, ?_⟩
          calc AllOk k ([.sysctl mgmtVrfName a] ++ _)
            _ ↔ AllOk k [.sysctl mgmtVrfName a] ∧ _ := allOk_append
            _ ↔ AllOk k [.sysctl mgmtVrfName a] ∧ _ := and_congr_right fun _ => hlast
            _ ↔ AllOk k ([.sysctl mgmtVrfName a] ++ _) := allOk_append.symm
        · have hfail : k.ok (.sysctl mgmtVrfName a) = false := by simp [Kernel.ok, hrun, hcode]
          simp only [ne_eq, hcode, not_false_eq_true, if_true]
          exact ⟨rfl, by simp [Block.ofRet, AllOk, hfail]⟩
    · simpa only [ipv6AutoconfConfig, if_neg hmgmt, List.nil_append] using hlast

theorem acceptDadBlock_serves (hdad : ∀ dad ∈ req.acceptDad, dad ∈ [1, 2, 3]) :
    (acceptDadBlock k req name).Serves k req.vrf
      (req.acceptDad.toList.map (acceptDadWrite req.vrf name)) := by
  rw [acceptDadBlock]
  cases hreq : req.acceptDad with
  | none => exact serves_skip _
  | some acceptDad =>
    have hvalid : acceptDad ∈ [1, 2, 3] := hdad acceptDad hreq
    dsimp only
    rw [if_neg (not_not.mpr hvalid)]
    exact ofRet_serves req.vrf .inet6 name _ _ _

theorem arpAcceptBlock_serves : (arpAcceptBlock k req name).Serves k req.vrf
    (req.arpAccept.toList.map (arpAcceptWrite req.vrf name)) := by
  rw [arpAcceptBlock]
  cases req.arpAccept with
  | none => exact serves_skip _
  | some arpAccept => exact ofRet_serves req.vrf .inet name _ _ _

theorem forwardingBlock_serves : (forwardingBlock k req name).Serves k req.vrf
    (req.forwarding.toList.map (forwardingWrite req.vrf req.af name)) := by
  rw [forwardingBlock]
  cases req.forwarding with
  | none => exact serves_skip _
  | some fwd => exact ofRet_serves req.vrf req.af name _ _ _

end

/-! ## The run of the blocks -/

theorem runBlocks_of_stays {bs : List Block} (h : ∀ b ∈ bs, b.leaves = false) :
    runBlocks bs = ⟨true, bs.flatMap Block.attempted, bs.flatMap Block.records⟩ := by
  induction bs with
  | nil => rfl
  | cons b rest ih =>
    obtain ⟨hb, hrest⟩ := List.forall_mem_cons.mp h
    rw [runBlocks, hb, if_neg Bool.false_ne_true, ih hrest]
    rfl

theorem runBlocks_ret_iff {bs : List Block} :
    (runBlocks bs).ret = true ↔ ∀ b ∈ bs, b.leaves = false := by
  refine ⟨fun hret => ?_, fun h => by rw [runBlocks_of_stays h]⟩
  induction bs with
  | nil => exact List.forall_mem_nil _
  | cons b rest ih =>
    rw [runBlocks] at hret
    split at hret
    · cases hret
    · rename_i hb
      exact List.forall_mem_cons.mpr ⟨Bool.not_eq_true _ ▸ hb, ih hret⟩

/-- The first block is run in any case. -/
theorem runBlocks_first {b : Block} {bs : List Block} :
    b.attempted ⊆ (runBlocks (b :: bs)).attempted ∧ b.records ⊆ (runBlocks (b :: bs)).records := by
  rw [runBlocks]
  split
  · exact ⟨List.Subset.refl _, List.Subset.refl _⟩
  · exact ⟨List.subset_append_left _ _, List.subset_append_left _ _⟩

theorem mem_runBlocks_records {bs : List Block} {e : Str × ℕ} (h : e ∈ (runBlocks bs).records) :
    ∃ b ∈ bs, e ∈ b.records := by
  induction bs with
  | nil => cases h
  | cons b rest ih =>
    rw [runBlocks] at h
    split at h
    · exact ⟨b, List.mem_cons_self, h⟩
    · rcases List.mem_append.mp h with h | h
      · exact ⟨b, List.mem_cons_self, h⟩
      · obtain ⟨b', hb', he⟩ := ih h
        exact ⟨b', List.mem_cons_of_mem _ hb', he⟩

section

variable {k : Kernel} (req : Request) (name : Str)

theorem refusedDad_ret (h : RefusedDad req) : (runBlocks (blocks k req name)).ret = false := by
  obtain ⟨haf, dad, hdad, hrefused⟩ := h
  rw [Bool.eq_false_iff, ne_eq, runBlocks_ret_iff]
  intro hall
  have hleaves : (acceptDadBlock k req name).leaves = true := by
    rw [acceptDadBlock, Option.mem_def.mp hdad]
    dsimp only
    rw [if_pos hrefused]
  have hmem : acceptDadBlock k req name ∈ blocks k req name := by simp [blocks, haf]
  rw [hall _ hmem] at hleaves
  cases hleaves

theorem blocks_serve (h : ¬ RefusedDad req) :
    List.Forall₂ (fun b writes => b.Serves k req.vrf writes) (blocks k req name)
      (requested req name) := by
  rw [blocks, requested]
  have hforwarding := @forwardingBlock_serves k req name
  cases haf : req.af with
  | inet =>
    rw [haf] at hforwarding
    exact .cons (arpAcceptBlock_serves req name) (.cons hforwarding .nil)
  | inet6 =>
    rw [haf] at hforwarding
    have hdad : ∀ dad ∈ req.acceptDad, dad ∈ [1, 2, 3] := by
      intro dad hdad
      by_contra hrefused
      exact h ⟨haf, dad, hdad, hrefused⟩
    exact .cons (enabledBlock_serves req name) (.cons (autoconfBlock_serves req name)
      (.cons (acceptDadBlock_serves req name hdad) (.cons hforwarding .nil)))

/-- In the default VRF a block that goes on has succeeded. -/
theorem stays_allOk {vrf : Str} {bs : List Block} {ws : List (List Write)}
    (h : List.Forall₂ (fun b writes => b.Serves k vrf writes) bs ws) (hvrf : vrf = defaultVrf)
    (hret : (runBlocks bs).ret = true) : AllOk k (runBlocks bs).attempted := by
  have hstays := runBlocks_ret_iff.mp hret
  rw [runBlocks_of_stays hstays]
  intro w hw
  obtain ⟨b, hb, hw⟩ := List.mem_flatMap.mp hw
  obtain ⟨i, hi, rfl⟩ := List.getElem_of_mem hb
  exact (h.get hi (h.length_eq ▸ hi)).default hvrf (hstays _ hb) w hw

/-- In another VRF every block goes on. -/
theorem other_runBlocks {vrf : Str} {bs : List Block} {ws : List (List Write)}
    (h : List.Forall₂ (fun b writes => b.Serves k vrf writes) bs ws) (hvrf : vrf ≠ defaultVrf) :
    (runBlocks bs).ret = true ∧
      (AllOk k (runBlocks bs).attempted ↔ ∀ writes ∈ ws, AllOk k writes) := by
  induction h with
  | nil => exact ⟨rfl, iff_of_true (List.forall_mem_nil _) (List.forall_mem_nil _)⟩
  | cons hb _ ih =>
    obtain ⟨hstays, hok⟩ := hb.other hvrf
    rw [runBlocks, hstays, if_neg Bool.false_ne_true, List.forall_mem_cons, ← hok, ← ih.2]
    exact ⟨ih.1, allOk_append⟩

/-- A request that returns `True` has attempted no write that failed exactly in
the default VRF, when no write fails, or when it is refused. -/
theorem runBlocks_honest_iff :
    ((runBlocks (blocks k req name)).ret = true → AllOk k (runBlocks (blocks k req name)).attempted)
      ↔ req.vrf = defaultVrf ∨ (∀ writes ∈ requested req name, AllOk k writes) ∨
        RefusedDad req := by
  by_cases hdad : RefusedDad req
  · have hfalse := @refusedDad_ret k req name hdad
    exact iff_of_true (fun htrue => absurd (htrue.symm.trans hfalse) (by decide))
      (Or.inr (Or.inr hdad))
  · have hserve := @blocks_serve k req name hdad
    by_cases hvrf : req.vrf = defaultVrf
    · exact iff_of_true (stays_allOk hserve hvrf) (Or.inl hvrf)
    · obtain ⟨hret, hok⟩ := other_runBlocks hserve hvrf
      rw [hok]
      simp [hret, hvrf, hdad]

theorem autoconfBlock_records : (autoconfBlock k req name).records = [] := by
  rw [autoconfBlock]
  cases req.autoconf <;> rfl

theorem acceptDadBlock_records : (acceptDadBlock k req name).records = [] := by
  rw [acceptDadBlock]
  split
  · rfl
  · split <;> rfl

theorem arpAcceptBlock_records : (arpAcceptBlock k req name).records = [] := by
  rw [arpAcceptBlock]
  cases req.arpAccept <;> rfl

theorem forwardingBlock_records : (forwardingBlock k req name).records = [] := by
  rw [forwardingBlock]
  cases req.forwarding <;> rfl

/-- What the first block does with a status. -/
theorem enabledBlock_some {enabled : ℕ} (h : req.enabled = some enabled) :
    (enabledBlock k req name).attempted = [enabledWrite req.vrf name enabled] ∧
      (enabledBlock k req name).records = [(name, enabled)] := by
  rw [enabledBlock, h]
  refine ⟨?_, rfl⟩
  exact congrArg Block.attempted (ofRet_setting req.vrf .inet6 name _ _ _)

/-- The status of an IPv6 request is recorded in any case, and its write is
attempted. -/
theorem runBlocks_recorded {enabled : ℕ} (haf : req.af = .inet6) (h : req.enabled = some enabled) :
    (name, enabled) ∈ (runBlocks (blocks k req name)).records ∧
      enabledWrite req.vrf name enabled ∈ (runBlocks (blocks k req name)).attempted := by
  obtain ⟨hattempted, hrecords⟩ := @enabledBlock_some k req name enabled h
  rw [blocks, haf]
  refine ⟨runBlocks_first.2 ?_, runBlocks_first.1 ?_⟩
  · simp [hrecords]
  · simp [hattempted]

theorem mem_records {e : Str × ℕ} (he : e ∈ (runBlocks (blocks k req name)).records) :
    req.af = .inet6 ∧ ∃ enabled, req.enabled = some enabled ∧ e = (name, enabled) := by
  obtain ⟨b, hb, he⟩ := mem_runBlocks_records he
  have hnone : b.records ≠ [] := List.ne_nil_of_mem he
  rw [blocks] at hb
  cases haf : req.af with
  | inet =>
    rw [haf] at hb
    rcases List.mem_pair.mp hb with rfl | rfl
    · exact absurd (arpAcceptBlock_records req name) hnone
    · exact absurd (forwardingBlock_records req name) hnone
  | inet6 =>
    rw [haf] at hb
    simp only [List.mem_cons, List.not_mem_nil, or_false] at hb
    rcases hb with rfl | rfl | rfl | rfl
    · cases henabled : req.enabled with
      | none =>
        rw [enabledBlock, henabled] at he
        cases he
      | some enabled =>
        rw [(enabledBlock_some req name henabled).2] at he
        exact ⟨rfl, enabled, rfl, List.mem_singleton.mp he⟩
    · exact absurd (autoconfBlock_records req name) hnone
    · exact absurd (acceptDadBlock_records req name) hnone
    · exact absurd (forwardingBlock_records req name) hnone

end

/-! ## The request -/

/-- A request returns `True` only when every write that it has attempted has
succeeded, and a status is recorded only when its write has. -/
structure Trusted (k : Kernel) (req : Request) (r : Result) : Prop where
  returned : r.ret = true → AllOk k r.attempted
  recorded : ∀ e ∈ r.records,
    enabledWrite req.vrf e.1 e.2 ∈ r.attempted ∧ k.ok (enabledWrite req.vrf e.1 e.2) = true

/-- The result of a request that sets attributes can be trusted exactly when the
write of an IPv6 status succeeds and, outside of the default VRF, all writes do
or the request is refused. -/
theorem trans_cb_iff (k : Kernel) (req : Request) :
    Trusted k req (transCb k req) ↔
      ∀ name ∈ req.name, req.operation = "set".toList →
        (req.af = .inet6 → ∀ enabled ∈ req.enabled,
            k.ok (enabledWrite req.vrf name enabled) = true) ∧
          (req.vrf = defaultVrf ∨ (∀ writes ∈ requested req name, AllOk k writes) ∨
            RefusedDad req) := by
  have hidle : Trusted k req ⟨false, [], []⟩ :=
    ⟨fun hret => absurd hret Bool.false_ne_true, List.forall_mem_nil _⟩
  rw [transCb]
  cases req.name with
  | none => exact iff_of_true hidle fun name hname => by cases hname
  | some name =>
    by_cases hset : req.operation = "set".toList
    · dsimp only
      rw [if_pos hset]
      constructor
      · rintro ⟨hreturned, hrecorded⟩ name' hname' -
        obtain rfl := Option.some.inj (Option.mem_def.mp hname')
        refine ⟨fun haf enabled henabled => ?_, (runBlocks_honest_iff req name).mp hreturned⟩
        exact (hrecorded _ (runBlocks_recorded req name haf henabled).1).2
      · intro h
        obtain ⟨henabled, hhonest⟩ := h name rfl hset
        refine ⟨(runBlocks_honest_iff req name).mpr hhonest, fun e he => ?_⟩
        obtain ⟨haf, enabled, hreq, rfl⟩ := mem_records req name he
        exact ⟨(runBlocks_recorded req name haf hreq).2, henabled haf enabled hreq⟩
    · dsimp only
      rw [if_neg hset]
      exact iff_of_true hidle fun _ _ hset' => absurd hset' hset

/-- In another VRF a status is recorded and reported as set when `sysctl` has
failed. -/
theorem failed_sysctl_reported_true :
    let k : Kernel := ⟨fun _ _ => true, fun _ _ => some 255⟩
    let req : Request :=
      { operation := "set".toList, af := .inet6, name := some "e101-001-0".toList
        vrfName := some "blue".toList, enabled := some 1, autoconf := none, acceptDad := none
        arpAccept := none, forwarding := none }
    let w := enabledWrite "blue".toList "e101-001-0".toList 1
    transCb k req = ⟨true, [w], [("e101-001-0".toList, 1)]⟩ ∧ k.ok w = false ∧
      ¬ Trusted k req (transCb k req) := by
  intro k req w
  have hres : transCb k req = ⟨true, [w], [("e101-001-0".toList, 1)]⟩ := by decide +kernel
  have hfail : k.ok w = false := by decide +kernel
  refine ⟨hres, hfail, fun htrust => ?_⟩
  rw [hres] at htrust
  have hok := htrust.returned rfl w (List.mem_singleton_self _)
  rw [hfail] at hok
  cases hok

end OpxNasLinux.BaseIp
