import OpxNasLinux.CacheSteps
import OpxNasLinux.Lib.Run
import OpxNasLinux.OutgoingRule

/-!
# Invariants of the caches

What holds of a cache after any sequence of requests: the rule lists are
aligned, for both caches, as long as no call raises (`ruleLists_aligned`).

Conditions on the answers of iptables are stated over handlers that keep a log
of the calls of `proc_rule` (`Handlers.logged`).  What every handler does to
the world, an edit does (`Edit.respects`), so the log only grows.
-/

namespace OpxNasLinux

open SvcsRule Run

namespace SvcsRuleCache

variable {R W : Type} [SvcsRule R]

/-! ## Alignment -/

/-- A call that does not raise keeps a cache sound. -/
theorem Sound.step [LawfulSvcsRule R] {h : Handlers R W} {s : SvcsRuleCache R W} (hs : s.Sound)
    {q : Request R} (hnr : (exec h s q).1 = false) : (step h s q).Sound :=
  hs.changes (exec_changes hs (Or.inr hnr))

/-- After a run in which no call raises, every rule list is aligned. -/
theorem run_aligned [LawfulSvcsRule R] (h : Handlers R W) (w : W) {requests : List (Request R)}
    (hnr : Along (step h) (fun s q => (exec h s q).1 = false) (init w) requests) {lc : Loc}
    {l : SvcsRuleList R} (hl : (run (step h) (init w) requests).rules.lookup lc = some l) :
    l.Aligned := by
  have hs : (run (step h) (init w) requests).Sound :=
    run_preserves (fun s q hs hq => hs.step hq) (sound_init w) hnr
  have hal := hs.aligned lc
  rwa [listAt_of_lookup hl] at hal

/-! ## Sequences of edits -/

/-- What every edit keeps beside soundness, a sequence of edits keeps. -/
theorem Steps.keeps [LawfulSvcsRule R] {h : Handlers R W} {inv : SvcsRuleCache R W → Prop}
    (hedit : ∀ s s', s.Sound → inv s → Edit h s s' → inv s') {s s' : SvcsRuleCache R W}
    (hsteps : Steps h s s') (hs : s.Sound) (hinv : inv s) : inv s' := by
  induction hsteps with
  | refl => exact hinv
  | tail hsteps he ih => exact hedit _ _ (hs.steps hsteps) ih he

/-- What every change keeps beside soundness, a sequence of changes keeps. -/
theorem Changes.keeps [LawfulSvcsRule R] {h : Handlers R W} {inv : SvcsRuleCache R W → Prop}
    (hchange : ∀ s s', s.Sound → inv s → Edit h s s' ∨ Clear h s s' → inv s')
    {s s' : SvcsRuleCache R W} (hsteps : Changes h s s') (hs : s.Sound) (hinv : inv s) :
    inv s' := by
  induction hsteps with
  | refl => exact hinv
  | tail hsteps hc ih => exact hchange _ _ (hs.changes hsteps) ih hc

end SvcsRuleCache

/-! ## The calls of `proc_rule` in a log -/

/-- A call of `proc_rule` with its answer. -/
structure ProcCall (R : Type) where
  op : IptOp
  rule : R
  idx : Option ℕ
  answer : Outcome Bool

/-- The same handlers, in a world that keeps a log of the calls. -/
def Handlers.logged {R W : Type} (h : Handlers R W) : Handlers R (W × List (ProcCall R)) where
  procRule op rule idx w :=
    ((h.procRule op rule idx w.1).1, (h.procRule op rule idx w.1).2,
      ⟨op, rule, idx, (h.procRule op rule idx w.1).1⟩ :: w.2)
  getStats rule idx w := ((h.getStats rule idx w.1).1, (h.getStats rule idx w.1).2, w.2)
  subNetInsert rule w := ((h.subNetInsert rule w.1).1, (h.subNetInsert rule w.1).2, w.2)
  subNetDelete rule w := (h.subNetDelete rule w.1, w.2)

/-- A relation between the worlds before and after a call of any handler. -/
structure Handlers.Respects {R W : Type} (h : Handlers R W) (rel : W → W → Prop) : Prop where
  refl : ∀ w, rel w w
  trans : ∀ w w' w'', rel w w' → rel w' w'' → rel w w''
  procRule : ∀ op rule idx w, rel w (h.procRule op rule idx w).2
  getStats : ∀ rule idx w, rel w (h.getStats rule idx w).2
  subNetInsert : ∀ rule w, rel w (h.subNetInsert rule w).2
  subNetDelete : ∀ rule w, rel w (h.subNetDelete rule w)

/-- The log only grows. -/
theorem Handlers.logged_respects {R W : Type} (h : Handlers R W) :
    h.logged.Respects (fun w w' => ∀ c ∈ w.2, c ∈ w'.2) where
  refl _ _ hc := hc
  trans _ _ _ h1 h2 c hc := h2 c (h1 c hc)
  procRule _ _ _ _ _ hc := List.mem_cons_of_mem _ hc
  getStats _ _ _ _ hc := hc
  subNetInsert _ _ _ hc := hc
  subNetDelete _ _ _ hc := hc

/-- The log has the last call. -/
theorem Handlers.mem_calls {R W : Type} {h : Handlers R W} {op : IptOp} {rule : R} {idx : Option ℕ}
    {w w' : W × List (ProcCall R)} {out : Outcome Bool}
    (hproc : h.logged.procRule op rule idx w = (out, w')) : ⟨op, rule, idx, out⟩ ∈ w'.2 := by
  obtain ⟨rfl, rfl⟩ := Prod.mk.inj hproc
  exact List.mem_cons_self

/-- What the handlers do to a world, they do to it when it keeps a log. -/
theorem Handlers.Respects.logged {R W : Type} {h : Handlers R W} {rel : W → W → Prop}
    (hr : h.Respects rel) : h.logged.Respects (fun w w' => rel w.1 w'.1) where
  refl w := hr.refl w.1
  trans _ _ _ h1 h2 := hr.trans _ _ _ h1 h2
  procRule op rule idx w := hr.procRule op rule idx w.1
  getStats rule idx w := hr.getStats rule idx w.1
  subNetInsert rule w := hr.subNetInsert rule w.1
  subNetDelete rule w := hr.subNetDelete rule w.1

namespace SvcsRuleCache

variable {R W : Type} [SvcsRule R]

theorem freed_respects {h : Handlers R W} {rel : W → W → Prop} (hr : h.Respects rel) (rule : R)
    (w : W) : rel w (freed h rule w) := by
  rw [freed]
  split
  · exact hr.subNetDelete rule w
  · exact hr.refl w

theorem Prepared.respects {h : Handlers R W} {rel : W → W → Prop} (hr : h.Respects rel)
    {g g' : IdGenerator} {w w' : W} {rule rule' : R} (hp : Prepared h g w rule rule' g' w') :
    rel w w' := by
  cases hp with
  | plain hid hneed => exact hr.refl w
  | @ported i _ p _ hid hneed hsub =>
    have := hr.subNetInsert (setRuleId i rule) w
    rwa [hsub] at this

theorem clearRules_respects {h : Handlers R W} {rel : W → W → Prop} (hr : h.Respects rel)
    (rules : List R) (g : IdGenerator) (w : W) : rel w (clearRules h rules g w).2.2 := by
  induction rules generalizing g w with
  | nil => exact hr.refl w
  | cons rule rest ih =>
    have hproc := hr.procRule .delete rule none w
    rw [clearRules]
    split
    · rename_i w' heq
      rwa [heq] at hproc
    · rename_i b w' heq
      rw [heq] at hproc
      exact hr.trans _ _ _ hproc (hr.trans _ _ _ (freed_respects hr rule w') (ih _ _))

/-- What every handler does to the world, an edit does. -/
theorem Edit.respects {h : Handlers R W} {rel : W → W → Prop} (hr : h.Respects rel)
    {s s' : SvcsRuleCache R W} (he : Edit h s s') : rel s.world s'.world := by
  have hproc : ∀ {op rule idx w out w'}, h.procRule op rule idx w = (out, w') → rel w w' := by
    intro op rule idx w out w' heq
    have := hr.procRule op rule idx w
    rwa [heq] at this
  cases he with
  | mutex n => exact hr.refl _
  | openList lc hlc => exact hr.refl _
  | closeList lc hlc => exact hr.refl _
  | @readStats lc idx rule st w hrule hget =>
    have := hr.getStats rule idx s.world
    rwa [hget] at this
  | readNothing rule idx => exact hr.getStats _ _ _
  | @insertUnported rule i g w hid hneed hp =>
    have := hr.subNetInsert (setRuleId i rule) s.world
    rwa [hp] at this
  | insertMatched hp => exact hr.trans _ _ _ (hp.respects hr) (freed_respects hr _ _)
  | insertRefused hp hidx hid hkey hins =>
    exact hr.trans _ _ _ (hr.trans _ _ _ (hp.respects hr) (hproc hins)) (freed_respects hr _ _)
  | inserted hp hidx hid hkey hins hout => exact hr.trans _ _ _ (hp.respects hr) (hproc hins)
  | deleted hdel hd => exact hr.trans _ _ _ (hproc hd) (freed_respects hr _ _)
  | deleteRefused hdel hl hd => exact hproc hd
  | deleteRaised hdel hd => exact hproc hd
  | replaced hold hloc hid hseq hkey hrep => exact hproc hrep
  | replaceRefused hrep hout => exact hproc hrep

/-- What every handler does to the world, clearing a list does. -/
theorem Clear.respects {h : Handlers R W} {rel : W → W → Prop} (hr : h.Respects rel)
    {s s' : SvcsRuleCache R W} (hc : Clear h s s') : rel s.world s'.world := by
  obtain ⟨hclear⟩ := hc
  rename_i lc g w
  have := clearRules_respects hr (s.stored lc) s.idGenerator s.world
  rwa [hclear] at this

/-! ## Small runs -/

/-- Handlers that give one answer to every edit of a chain. -/
def answering (R : Type) (answer : Bool) : Handlers R Unit where
  procRule _ _ _ w := (.returned answer, w)
  getStats _ _ w := (.returned none, w)
  subNetInsert _ w := (some ⟨[127, 100, 100, 1], 62000⟩, w)
  subNetDelete _ w := w

/-- An iteration in the order of the dictionaries. -/
def listOrder : DictOrder := ⟨fun _ _ names => names, fun _ _ _ => .refl _⟩

/-- A rule of the VRF `blue` that accepts everything. -/
def allowAll (seqNum : ℤ) (inIntf : Str) : VrfIncomingSvcsRule :=
  (VrfIncomingSvcsRule.init
    { ruleType := 2, vrfName := "blue".toList, action := 1, af := 2, seqNum := seqNum
      inIntf := some inIntf }).get rfl

/-- A binding of a port of the VRF `blue`. -/
def bindPort (dstPort : ℤ) : VrfOutgoingSvcsRule :=
  (VrfOutgoingSvcsRule.init
    { ruleType := 3, vrfName := "blue".toList, action := 3, af := 2, dstIp := some [10, 0, 0, 1]
      protocol := some 1, dstPort := some dstPort }).get rfl

/-! ## The rule lists of the two caches -/

/-- After any run of either cache in which no call raises, every rule list is
aligned. -/
theorem ruleLists_aligned {WI WO : Type} (hI : Handlers VrfIncomingSvcsRule WI)
    (hO : Handlers VrfOutgoingSvcsRule WO) (wI : WI) (wO : WO)
    (requestsI : List (Request VrfIncomingSvcsRule))
    (requestsO : List (Request VrfOutgoingSvcsRule))
    (hnrI : Along (step hI) (fun s q => (exec hI s q).1 = false) (init wI) requestsI)
    (hnrO : Along (step hO) (fun s q => (exec hO s q).1 = false) (init wO) requestsO) :
    (∀ lc l, (run (step hI) (init wI) requestsI).rules.lookup lc = some l → l.Aligned) ∧
      (∀ lc l, (run (step hO) (init wO) requestsO).rules.lookup lc = some l → l.Aligned) :=
  ⟨fun _ _ hl => run_aligned hI wI hnrI hl, fun _ _ hl => run_aligned hO wO hnrO hl⟩

theorem ruleLists_aligned_small :
    (∀ lc l, (run (step (answering VrfIncomingSvcsRule true)) (init ())
        [.insertRule (allowAll 10 "eth1".toList), .insertRule (allowAll 5 "eth2".toList),
          .updateRule listOrder 1 [.dstPort 22], .deleteRuleById listOrder 2]).rules.lookup lc =
        some l → l.Aligned) ∧
      (∀ lc l, (run (step (answering VrfOutgoingSvcsRule true)) (init ())
        [.insertRule (bindPort 22), .insertRule (bindPort 80),
          .updateRule listOrder 1 [.seqNum 7], .clearAllRules listOrder none none]).rules.lookup
        lc = some l → l.Aligned) :=
  ruleLists_aligned _ _ () () _ _
    ⟨by decide, by decide, by decide, by decide, trivial⟩
    ⟨by decide, by decide, by decide, by decide, trivial⟩

end SvcsRuleCache

end OpxNasLinux
