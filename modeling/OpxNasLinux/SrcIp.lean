import OpxNasLinux.SrcIpEffects
import OpxNasLinux.VethRegistry

/-!
# Source addresses on veths

A source address of a VRF is put on the veths of the VRF by two pieces of code:
by the one that changes the address, on the veths that are there, and by the
one that sets up a veth, for the addresses that are there.

* `SrcIpInv` is the invariant: the devices of every veth in the registry have
  the addresses of the map.
* `srcIps_shown` says that it holds after any requests, in any order, as long as
  no veth is asked for whose destination is not known.
-/

namespace OpxNasLinux

open Delimited Run

namespace VrfTool

/-- The devices of the veths show the source addresses of the map. -/
structure SrcIpInv (t : VrfTool) : Prop where
  willing : ∀ kind, t.host.Willing kind
  registry : Registry t.vrfSubNetMap
  known : ∀ a b, vethKey a b ∈ t.vrfSubNetMap → a ∈ t.vrfNameToId ∧ b ∈ t.vrfNameToId
  distinctIds : ∀ v w id, t.vrfNameToId.lookup v = some id → t.vrfNameToId.lookup w = some id →
    v = w
  inNetns : ∀ v ∈ t.vrfNameToId, v ∈ t.host.kernel.netns
  keys : SrcIpKeys t.vrfSrcIpMap
  shown : ∀ a b id, (vethKey a b ∈ t.vrfSubNetMap ∨ vethKey b a ∈ t.vrfSubNetMap) →
    t.vrfNameToId.lookup b = some id → ∀ ip,
      (hostAddr ip ∈ t.host.kernel.addrs a (vethDev id) ↔
        addrKey a ip.af (hostAddr ip) ∈ t.vrfSrcIpMap)

/-- The request is for names without stars and for different VRFs, gives a VRF
an id that no other one has, and asks for no veth to a VRF that is not known. -/
def SrcIpOk (t : VrfTool) : Request → Prop
  | .vethIpGet src dst _ =>
    ('*' ∉ src ∧ '*' ∉ dst ∧ src ≠ dst) ∧ (OpensVeth src dst t → dst ∈ t.vrfNameToId)
  | .vrfConfig isAdd vrf id =>
    isAdd = true →
      (∀ v, t.vrfNameToId.lookup v = some id → v = vrf) ∧ (id = 0 → vrf = defaultVrf)
  | .srcIpConfig vrf _ _ => '*' ∉ vrf

theorem vethDev_inj {id id' : ℕ} (h : vethDev id = vethDev id') : id = id' :=
  str_inj (List.append_cancel_left h)

/-- The other fields follow when only rules of addresses are changed. -/
theorem SrcIpInv.of_onlyRuns {t t' : VrfTool} (ht : SrcIpInv t) {kinds : List CmdKind}
    (hruns : t.OnlyRuns kinds t') (haddrs : t'.host.kernel.addrs = t.host.kernel.addrs) :
    SrcIpInv t' :=
  { willing := fun kind => hruns.host.willing kind (ht.willing kind)
    registry := hruns.subNet ▸ ht.registry
    known := by rw [hruns.subNet, hruns.ids]; exact ht.known
    distinctIds := by rw [hruns.ids]; exact ht.distinctIds
    inNetns := by rw [hruns.ids, hruns.host.frame.netns]; exact ht.inNetns
    keys := hruns.srcIp ▸ ht.keys
    shown := by rw [hruns.subNet, hruns.ids, hruns.srcIp, haddrs]; exact ht.shown }

/-! ## A veth that is opened -/

theorem vethIpGet_srcIpInv {src dst : Str} {isPeerIp : Bool} {t : VrfTool} (ht : SrcIpInv t)
    (hok : SrcIpOk t (.vethIpGet src dst isPeerIp)) :
    SrcIpInv (vethIpGet src dst isPeerIp t).2 := by
  obtain ⟨hdistinct, hdstKnown⟩ := hok
  obtain ⟨hsrcStar, hdstStar, hne⟩ := hdistinct
  have hregistry := step_registry t (.vethIpGet src dst isPeerIp) ht.registry
    ⟨hsrcStar, hdstStar, hne⟩
  obtain ⟨hruns, -⟩ | ⟨hopens, val, -, hruns, -, -⟩ := vethIpGet_cases src dst isPeerIp t
  · exact ht.of_onlyRuns hruns (hruns.host.addrs (by decide) (by decide) (by decide))
  obtain ⟨srcId, hsrc⟩ := Dict.mem_iff.mp hopens.known
  obtain ⟨dstId, hdst⟩ := Dict.mem_iff.mp (hdstKnown hopens)
  obtain ⟨t1, hmap1, hids1, hwill1, haddrs1, hfinal⟩ :=
    @vethIpGet_addrs src dst isPeerIp srcId dstId t hopens (ht.willing _) hsrc hdst
  have hmap : (vethIpGet src dst isPeerIp t).2.vrfSubNetMap =
      t.vrfSubNetMap.insert (vethKey src dst) val := hruns.subNet
  have hids : (vethIpGet src dst isPeerIp t).2.vrfNameToId = t.vrfNameToId := hruns.ids
  have hsrcIp : (vethIpGet src dst isPeerIp t).2.vrfSrcIpMap = t.vrfSrcIpMap := hruns.srcIp
  have hnetns : (vethIpGet src dst isPeerIp t).2.host.kernel.netns = t.host.kernel.netns :=
    hruns.host.frame.netns
  refine ⟨fun kind => hruns.host.willing kind (ht.willing kind), hregistry, ?_, ?_, ?_, ?_, ?_⟩
  · intro a b hab
    rw [hids]
    rw [hmap, Dict.mem_insert_iff] at hab
    rcases hab with heq | hold
    · obtain ⟨rfl, rfl⟩ := vethKey_inj hsrcStar hdstStar heq
      exact ⟨hopens.known, hdstKnown hopens⟩
    · exact ht.known a b hold
  · rw [hids]
    exact ht.distinctIds
  · rw [hids, hnetns]
    exact ht.inNetns
  · rw [hsrcIp]
    exact ht.keys
  · intro a b id hentry hid ip
    rw [hids] at hid
    rw [hsrcIp, hfinal]
    have hsideA := applySide_onlyRuns src dst t1
    obtain ⟨hmonoA, hsoundA, hfullA⟩ := @mem_addrs_applySide src dst dstId t1 ip
      (hwill1 _ (ht.willing _)) (hmap1 ▸ ht.keys) hsrcStar (hids1 ▸ hdst)
    obtain ⟨hmonoB, hsoundB, hfullB⟩ := @mem_addrs_applySide dst src srcId
      (applySide src dst t1) ip (hsideA.host.willing _ (hwill1 _ (ht.willing _)))
      (hsideA.srcIp ▸ hmap1 ▸ ht.keys) hdstStar (hsideA.ids ▸ hids1 ▸ hsrc)
    rw [hsideA.srcIp, hmap1] at hsoundB hfullB
    rw [hmap1] at hsoundA hfullA
    -- an entry is that of the new veth, one way or the other, or an old one
    have hcases : a = src ∧ b = dst ∨ a = dst ∧ b = src ∨
        (vethKey a b ∈ t.vrfSubNetMap ∨ vethKey b a ∈ t.vrfSubNetMap) := by
      rw [hmap, Dict.mem_insert_iff, Dict.mem_insert_iff] at hentry
      rcases hentry with (heq | hold) | (heq | hold)
      · exact Or.inl (vethKey_inj hsrcStar hdstStar heq)
      · exact Or.inr (Or.inr (Or.inl hold))
      · exact Or.inr (Or.inl (vethKey_inj hsrcStar hdstStar heq).symm)
      · exact Or.inr (Or.inr (Or.inr hold))
    constructor
    · intro hmem
      rcases hsoundB _ _ hmem with hmem | hkey
      · rcases hsoundA _ _ hmem with hmem | hkey
        · obtain ⟨hold, hnot1, -, hnot3⟩ := (haddrs1 ip a (vethDev id)).mp hmem
          rcases hcases with ⟨rfl, rfl⟩ | ⟨rfl, rfl⟩ | hentry'
          · rw [Option.some_inj.mp (hid.symm.trans hdst)] at hnot1
            exact absurd ⟨rfl, rfl⟩ hnot1
          · rw [Option.some_inj.mp (hid.symm.trans hsrc)] at hnot3
            exact absurd ⟨rfl, rfl⟩ hnot3
          · exact (ht.shown a b id hentry' hid ip).mp hold
        · exact hkey
      · exact hkey
    · intro hkey
      rcases hcases with ⟨rfl, rfl⟩ | ⟨rfl, rfl⟩ | hentry'
      · rw [Option.some_inj.mp (hid.symm.trans hdst)]
        exact hmonoB _ _ (hfullA hkey)
      · rw [Option.some_inj.mp (hid.symm.trans hsrc)]
        exact hfullB hkey
      · refine hmonoB _ _ (hmonoA _ _ ((haddrs1 ip a (vethDev id)).mpr
          ⟨(ht.shown a b id hentry' hid ip).mpr hkey, ?_, ?_, ?_⟩))
        · rintro ⟨rfl, hdev⟩
          rw [vethDev_inj hdev] at hid
          obtain rfl := ht.distinctIds b dst dstId hid hdst
          exact hentry'.elim hopens.new hopens.newBack
        · rintro ⟨rfl, hdev⟩
          rw [vethDev_inj hdev] at hid
          obtain rfl := ht.distinctIds b a srcId hid hsrc
          exact hentry'.elim (fun h => ht.registry.oneWay b b h h)
            fun h => ht.registry.oneWay b b h h
        · rintro ⟨rfl, hdev⟩
          rw [vethDev_inj hdev] at hid
          obtain rfl := ht.distinctIds b src srcId hid hsrc
          exact hentry'.elim hopens.newBack hopens.new

/-! ## A VRF that is created or deleted -/

/-- VRFs may get ids when those that have one keep it. -/
theorem SrcIpInv.of_onlyNames {t t' : VrfTool} (ht : SrcIpInv t) (hnames : t.OnlyNames t')
    (hkept : ∀ v ∈ t.vrfNameToId, t'.vrfNameToId.lookup v = t.vrfNameToId.lookup v)
    (hinj : ∀ v w id, t'.vrfNameToId.lookup v = some id → t'.vrfNameToId.lookup w = some id →
      v = w)
    (hnetns : ∀ v ∈ t'.vrfNameToId, v ∈ t'.host.kernel.netns) : SrcIpInv t' := by
  have hmap : t'.vrfSubNetMap = t.vrfSubNetMap := hnames.subNet
  have hsrcIp : t'.vrfSrcIpMap = t.vrfSrcIpMap := hnames.srcIp
  have haddrs : t'.host.kernel.addrs = t.host.kernel.addrs :=
    hnames.host.addrs (by decide) (by decide) (by decide)
  have hknown : ∀ v ∈ t.vrfNameToId, v ∈ t'.vrfNameToId := by
    intro v hv
    obtain ⟨id, hid⟩ := Dict.mem_iff.mp hv
    exact Dict.mem_iff.mpr ⟨id, (hkept v hv).trans hid⟩
  refine ⟨fun kind => hnames.host.willing kind (ht.willing kind), hmap ▸ ht.registry, ?_, hinj,
    hnetns, hsrcIp ▸ ht.keys, ?_⟩
  · intro a b hab
    rw [hmap] at hab
    exact ⟨hknown a (ht.known a b hab).1, hknown b (ht.known a b hab).2⟩
  · intro a b id hentry hid
    rw [hmap] at hentry
    have hb : b ∈ t.vrfNameToId := hentry.elim (fun h => (ht.known a b h).2)
      fun h => (ht.known b a h).1
    rw [hsrcIp, haddrs]
    exact ht.shown a b id hentry ((hkept b hb).symm.trans hid)

theorem createVrf_srcIpInv {vrf : Str} {id : ℕ} {t : VrfTool} (ht : SrcIpInv t)
    (hok : SrcIpOk t (.vrfConfig true vrf id)) : SrcIpInv (createVrf vrf id t).2 := by
  obtain ⟨hfresh, hzero⟩ := hok rfl
  obtain ⟨hnames, hcreated, -⟩ := createVrf_cases vrf id t
  generalize (createVrf vrf id t).2 = t' at hnames hcreated
  cases hcreated with
  | refused hids hnetns =>
    refine ht.of_onlyNames hnames (fun v _ => by rw [hids]) (hids ▸ ht.distinctIds) ?_
    intro v hv
    rw [hids] at hv
    rcases hnetns with hnetns | hnetns <;> rw [hnetns]
    · exact ht.inNetns v hv
    · exact List.mem_cons_of_mem _ (ht.inNetns v hv)
  | added hnew hran hshared hids hnetns =>
    have hvrf : vrf ∉ t.vrfNameToId := fun hmem => hnew (ht.inNetns vrf hmem)
    refine ht.of_onlyNames hnames ?_ ?_ ?_
    · intro v hv
      have hne : v ≠ vrf := fun heq => hvrf (heq ▸ hv)
      rw [hids, AList.lookup_insert_ne hne]
    · intro v w i hv hw
      rw [hids] at hv hw
      rcases Dict.lookup_insert_iff.mp hv with ⟨rfl, rfl⟩ | ⟨-, hv'⟩ <;>
        rcases Dict.lookup_insert_iff.mp hw with ⟨rfl, hi⟩ | ⟨-, hw'⟩
      · rfl
      · exact (hfresh w hw').symm
      · exact hfresh v (hi ▸ hv')
      · exact ht.distinctIds v w i hv' hw'
    · intro v hv
      rw [hids, Dict.mem_insert_iff] at hv
      rw [hnetns]
      rcases hv with rfl | hv
      · exact List.mem_cons_self
      · exact List.mem_cons_of_mem _ (ht.inNetns v hv)
  | first hnew halone hids hnetns =>
    have hvrf : vrf ∉ t.vrfNameToId := fun hmem => hnew (ht.inNetns vrf hmem)
    -- no VRF was known before
    have hempty : ∀ v, v ∉ t.vrfNameToId := fun v hv => hvrf <|
      Dict.eq_of_length_one halone (Dict.mem_insert_iff.mpr (Or.inr hv))
        (Dict.mem_insert_iff.mpr (Or.inl rfl)) ▸ hv
    have hlookup : ∀ v i, t'.vrfNameToId.lookup v = some i →
        v = defaultVrf ∧ i = 0 ∨ v ≠ defaultVrf ∧ v = vrf ∧ i = id := by
      intro v i hv
      rw [hids] at hv
      rcases Dict.lookup_insert_iff.mp hv with ⟨hdef, hi⟩ | ⟨hdef, hv⟩
      · exact Or.inl ⟨hdef, hi.symm⟩
      · rcases Dict.lookup_insert_iff.mp hv with ⟨hvrf', hi⟩ | ⟨-, hv⟩
        · exact Or.inr ⟨hdef, hvrf', hi.symm⟩
        · exact absurd (Dict.mem_iff.mpr ⟨i, hv⟩) (hempty v)
    refine ht.of_onlyNames hnames (fun v hv => absurd hv (hempty v)) ?_ ?_
    · intro v w i hv hw
      rcases hlookup v i hv with ⟨hv, hi⟩ | ⟨hne, hv, hi⟩ <;>
        rcases hlookup w i hw with ⟨hw, hi'⟩ | ⟨hne', hw, hi'⟩
      · rw [hv, hw]
      · exact absurd (hw.trans (hzero (hi'.symm.trans hi))) hne'
      · exact absurd (hv.trans (hzero (hi.symm.trans hi'))) hne
      · rw [hv, hw]
    · intro v hv
      rw [hnetns]
      obtain ⟨i, hi⟩ := Dict.mem_iff.mp hv
      rcases hlookup v i hi with ⟨rfl, -⟩ | ⟨-, rfl, -⟩
      · exact List.mem_cons_self
      · exact List.mem_cons_of_mem _ List.mem_cons_self

/-- A veth that is deleted takes no addresses of the others along. -/
theorem dropSubNet_srcIpInv (src dst : Str) (t : VrfTool) (ht : SrcIpInv t) :
    SrcIpInv (ipSvcsSubnetSetup false src dst t).2 := by
  have hkept : ∀ key ∈ t.vrfSubNetMap, t.vrfSubNetMap.erase key ≠ t.vrfSubNetMap := by
    intro key hmem heq
    have herased : key ∈ t.vrfSubNetMap.erase key := by rwa [heq]
    exact (Dict.mem_erase_iff.mp herased).1 rfl
  obtain ⟨-, hruns⟩ | ⟨hmem, hruns, -⟩ := dropSubNet_cases src dst t
  · obtain ⟨-, haddrs⟩ | ⟨hmem, hmap, -⟩ := dropSubNet_addrs src dst t
    · exact ht.of_onlyRuns hruns haddrs
    · exact absurd (hmap.symm.trans hruns.subNet) (hkept _ hmem)
  have hmap : (ipSvcsSubnetSetup false src dst t).2.vrfSubNetMap =
      t.vrfSubNetMap.erase (vethKey src dst) := hruns.subNet
  obtain ⟨hsame, -⟩ | ⟨-, -, srcId, dstId, hsrc, hdst, haddrs⟩ := dropSubNet_addrs src dst t
  · exact absurd (hmap.symm.trans hsame) (hkept _ hmem)
  have hids : (ipSvcsSubnetSetup false src dst t).2.vrfNameToId = t.vrfNameToId := hruns.ids
  have hsrcIp : (ipSvcsSubnetSetup false src dst t).2.vrfSrcIpMap = t.vrfSrcIpMap := hruns.srcIp
  have hnetns : (ipSvcsSubnetSetup false src dst t).2.host.kernel.netns = t.host.kernel.netns :=
    hruns.host.frame.netns
  refine ⟨fun kind => hruns.host.willing kind (ht.willing kind), hmap ▸ ht.registry.erase _, ?_,
    hids ▸ ht.distinctIds, ?_, hsrcIp ▸ ht.keys, ?_⟩
  · intro a b hab
    rw [hmap, Dict.mem_erase_iff] at hab
    rw [hids]
    exact ht.known a b hab.2
  · rw [hids, hnetns]
    exact ht.inNetns
  · intro a b id hentry hid
    rw [hids] at hid
    rw [hmap, Dict.mem_erase_iff, Dict.mem_erase_iff] at hentry
    have hold : vethKey a b ∈ t.vrfSubNetMap ∨ vethKey b a ∈ t.vrfSubNetMap :=
      hentry.imp And.right And.right
    -- the devices of another veth are other devices
    have hother : ¬ (a = src ∧ (vethDev id = vethDev srcId ∨ vethDev id = vethDev dstId)) := by
      rintro ⟨rfl, hdev | hdev⟩ <;> rw [vethDev_inj hdev] at hid
      · obtain rfl := ht.distinctIds b a srcId hid hsrc
        exact hold.elim (fun h => ht.registry.oneWay b b h h) fun h => ht.registry.oneWay b b h h
      · obtain rfl := ht.distinctIds b dst dstId hid hdst
        exact hentry.elim (fun h => h.1 rfl) fun h => ht.registry.oneWay a b hmem h.2
    rw [hsrcIp, haddrs a (vethDev id) hother]
    exact ht.shown a b id hold hid

theorem deleteVrf_srcIpInv (vrf : Str) (t : VrfTool) (ht : SrcIpInv t) :
    SrcIpInv (deleteVrf vrf t).2 := by
  obtain ⟨t0, keys, done, t1, ok, t', heq, hstart, hkeys, hloop, hend⟩ := deleteVrf_cases vrf t
  have ht0 : SrcIpInv t0 :=
    ht.of_onlyRuns hstart (hstart.host.addrs (by decide) (by decide) (by decide))
  have ht1 : SrcIpInv t1 := by
    have hkeep := deleteSubNets_keeps dropSubNet_srcIpInv vrf keys ht0
    rwa [hloop] at hkeep
  rw [heq]
  obtain ⟨-, rfl⟩ | ⟨rfl, k, hdrop⟩ := hend
  · exact ht1
  have hformed : Formed t0.vrfSubNetMap := fun key hkey => by
    obtain ⟨src, dst, hsrc, hdst, -, rfl⟩ := ht0.registry.ends key hkey
    exact ⟨src, dst, hsrc, hdst, rfl⟩
  have hclean := deleteSubNets_clean hformed
    (fun key hkey _ => (hkeys key).mpr (hstart.subNet ▸ hkey)) hloop
  have hmap : t'.vrfSubNetMap = t1.vrfSubNetMap := hdrop.names.subNet
  have hsrcIp : t'.vrfSrcIpMap = t1.vrfSrcIpMap := hdrop.names.srcIp
  -- an entry is for two VRFs that stay
  have hends : ∀ a b, vethKey a b ∈ t1.vrfSubNetMap → a ≠ vrf ∧ b ≠ vrf := by
    intro a b hab
    have hfalse := hclean _ hab
    constructor <;> rintro rfl <;> refine Bool.false_ne_true (hfalse.symm.trans (names_vethKey ?_))
    · exact Or.inl rfl
    · exact Or.inr rfl
  have hknown : ∀ a b, vethKey a b ∈ t1.vrfSubNetMap →
      a ∈ t'.vrfNameToId ∧ b ∈ t'.vrfNameToId := by
    intro a b hab
    obtain ⟨ha, hb⟩ := hends a b hab
    have ha' : a ∈ t1.vrfNameToId.erase vrf :=
      Dict.mem_erase_iff.mpr ⟨ha, (ht1.known a b hab).1⟩
    have hb' : b ∈ t1.vrfNameToId.erase vrf :=
      Dict.mem_erase_iff.mpr ⟨hb, (ht1.known a b hab).2⟩
    rcases hdrop.ids with ⟨hids, -⟩ | ⟨-, hone⟩
    · exact hids ▸ ⟨ha', hb'⟩
    · obtain rfl := Dict.eq_of_length_one hone ha' hb'
      exact absurd hab (ht1.registry.oneWay a a hab)
  have hwilling : ∀ kind, t'.host.Willing kind := fun kind =>
    hdrop.names.host.willing kind (ht1.willing kind)
  refine ⟨hwilling, hmap ▸ ht1.registry, hmap ▸ hknown, ?_, ?_, hsrcIp ▸ ht1.keys, ?_⟩
  · intro v w id hv hw
    exact ht1.distinctIds v w id (hdrop.lookup hv).2 (hdrop.lookup hw).2
  · intro v hv
    obtain ⟨id, hid⟩ := Dict.mem_iff.mp hv
    exact hdrop.mem_netns hv (ht1.inNetns v (Dict.mem_iff.mpr ⟨id, (hdrop.lookup hid).2⟩))
  · intro a b id hentry hid
    rw [hmap] at hentry
    have ha : a ≠ vrf := hentry.elim (fun h => (hends a b h).1) fun h => (hends b a h).2
    rw [hsrcIp, hdrop.addrs ha]
    exact ht1.shown a b id hentry (hdrop.lookup hid).2

/-! ## A source address that changes -/

/-- Two keys for host addresses are one key when they have one VRF and one
address. -/
theorem addrKey_eq_iff {a vrf : Str} {ip ip' : IpAddr} :
    addrKey a ip'.af (hostAddr ip') = addrKey vrf ip.af (hostAddr ip) ↔
      a = vrf ∧ hostAddr ip' = hostAddr ip := by
  constructor
  · intro h
    obtain ⟨hvrf, -, haddr⟩ := addrKey_inj (hostAddr_starFree ip') (hostAddr_starFree ip) h
    exact ⟨hvrf, haddr⟩
  · rintro ⟨rfl, heq⟩
    rw [heq, hostAddr_af heq]

theorem SrcIpKeys.insert {m : Dict Str ℕ} (hm : SrcIpKeys m) {vrf : Str} (hvrf : '*' ∉ vrf)
    (ip : IpAddr) (v : ℕ) : SrcIpKeys (m.insert (addrKey vrf ip.af (hostAddr ip)) v) := by
  intro key hkey
  rcases Dict.mem_insert_iff.mp hkey with rfl | hold
  · exact ⟨vrf, ip, hvrf, rfl⟩
  · exact hm key hold

/-- A change of a source address is made on every veth of the VRF. -/
theorem processSrcIpConfig_srcIpInv {vrf : Str} {isAdd : Bool} {ip : IpAddr} {t : VrfTool}
    (ht : SrcIpInv t) (hvrf : '*' ∉ vrf) : SrcIpInv (processSrcIpConfig vrf isAdd ip t) := by
  have hruns := processSrcIpConfig_onlyRuns vrf isAdd ip t
  have hwilling : ∀ kind, (processSrcIpConfig vrf isAdd ip t).host.Willing kind := fun kind =>
    hruns.host.willing kind (ht.willing kind)
  have hnetns : (processSrcIpConfig vrf isAdd ip t).host.kernel.netns = t.host.kernel.netns :=
    hruns.host.frame.netns
  rw [processSrcIpConfig] at hwilling hnetns ⊢
  dsimp only at hwilling hnetns ⊢
  split
  · exact ht
  rename_i hchange
  rw [if_neg hchange] at hwilling hnetns
  have hends : ∀ key ∈ (t.host.keysOf t.vrfSubNetMap).1,
      ∃ src dst, '*' ∉ src ∧ '*' ∉ dst ∧ src ≠ dst ∧ key = vethKey src dst := fun key hkey =>
    ht.registry.ends key (Host.mem_keysOf.mp hkey)
  have hkeysRun := Host.keysOf_runs [.srcAddr] t.vrfSubNetMap t.host
  refine ⟨hwilling, ht.registry, ht.known, ht.distinctIds, ?_, ?_, ?_⟩
  · intro v hv
    rw [hnetns]
    exact ht.inNetns v hv
  · cases isAdd with
    | true => exact ht.keys.insert hvrf ip 1
    | false => exact fun key hkey => ht.keys key (Dict.mem_erase_iff.mp hkey).2
  · intro a b id hentry hid ip'
    have hold := ht.shown a b id hentry hid ip'
    have hmem := @mem_addrs_changeVeths isAdd vrf (hostAddr ip) a (vethDev id) (hostAddr ip')
      t.vrfNameToId _ hvrf hends none _ (hkeysRun.willing _ (ht.willing _))
    -- the device is one of those that the loop comes to
    have htowards : a = vrf →
        Towards vrf (t.host.keysOf t.vrfSubNetMap).1 t.vrfNameToId (vethDev id) := by
      rintro rfl
      rcases hentry with hentry | hentry
      · exact ⟨_, Host.mem_keysOf.mpr hentry, b, id, Or.inl rfl, hid, rfl⟩
      · exact ⟨_, Host.mem_keysOf.mpr hentry, b, id, Or.inr rfl, hid, rfl⟩
    refine hmem.trans ?_
    change (if isAdd = true then hostAddr ip' ∈ t.host.kernel.addrs a (vethDev id) ∨ _ else
      hostAddr ip' ∈ t.host.kernel.addrs a (vethDev id) ∧ _) ↔ addrKey a ip'.af (hostAddr ip') ∈
        if isAdd = true then t.vrfSrcIpMap.insert (addrKey vrf ip.af (hostAddr ip)) 1
        else t.vrfSrcIpMap.erase (addrKey vrf ip.af (hostAddr ip))
    rw [hold]
    cases isAdd with
    | true =>
      rw [if_pos rfl, if_pos rfl, Dict.mem_insert_iff, addrKey_eq_iff]
      constructor
      · rintro (hin | ⟨ha, haddr, -⟩)
        · exact Or.inr hin
        · exact Or.inl ⟨ha, haddr⟩
      · rintro (⟨ha, haddr⟩ | hin)
        · exact Or.inr ⟨ha, haddr, htowards ha⟩
        · exact Or.inl hin
    | false =>
      rw [if_neg Bool.false_ne_true, if_neg Bool.false_ne_true, Dict.mem_erase_iff, Ne,
        addrKey_eq_iff]
      constructor
      · rintro ⟨hin, hnot⟩
        exact ⟨fun h => hnot ⟨h.1, h.2, htowards h.1⟩, hin⟩
      · rintro ⟨hnot, hin⟩
        exact ⟨hin, fun h => hnot ⟨h.1, h.2.1⟩⟩

/-! ## Runs -/

theorem init_srcIpInv {env : Env} (hw : ∀ kind, (init env).host.Willing kind) :
    SrcIpInv (init env) := by
  have hnone : ∀ (v : Str) (i : ℕ), (∅ : Dict Str ℕ).lookup v ≠ some i := by
    intro v i h
    rw [AList.lookup_empty] at h
    cases h
  refine ⟨hw, registry_empty, ?_, ?_, ?_, ?_, ?_⟩
  · exact fun _ _ h => absurd h (AList.notMem_empty _)
  · exact fun v _ id h => absurd h (hnone v id)
  · exact fun _ h => absurd h (AList.notMem_empty _)
  · exact fun _ h => absurd h (AList.notMem_empty _)
  · exact fun _ b id _ h => absurd h (hnone b id)

/-- What a request keeps. -/
theorem step_srcIpInv (t : VrfTool) (q : Request) (ht : SrcIpInv t) (hok : SrcIpOk t q) :
    SrcIpInv (step t q) := by
  cases q with
  | vethIpGet src dst isPeerIp => exact vethIpGet_srcIpInv ht hok
  | vrfConfig isAdd vrf id =>
    cases isAdd with
    | true => exact createVrf_srcIpInv ht hok
    | false => exact deleteVrf_srcIpInv vrf t ht
  | srcIpConfig vrf isAdd ip => exact processSrcIpConfig_srcIpInv ht hok

/-- After any requests the two ends of every veth have exactly the source
addresses of their VRFs, in whatever order the veths and the addresses came. -/
theorem srcIps_shown {env : Env} {requests : List Request}
    (hw : ∀ kind, (init env).host.Willing kind)
    (hok : Along step SrcIpOk (init env) requests) :
    let t := run step (init env) requests
    ∀ a b, (vethKey a b ∈ t.vrfSubNetMap ∨ vethKey b a ∈ t.vrfSubNetMap) →
      ∃ id, t.vrfNameToId.lookup b = some id ∧ ∀ ip,
        (hostAddr ip ∈ t.host.kernel.addrs a (vethDev id) ↔
          addrKey a ip.af (hostAddr ip) ∈ t.vrfSrcIpMap) := by
  have hrun : SrcIpInv (run step (init env) requests) :=
    run_preserves step_srcIpInv (init_srcIpInv hw) hok
  intro t a b hentry
  have hb : b ∈ t.vrfNameToId :=
    hentry.elim (fun h => (hrun.known a b h).2) fun h => (hrun.known b a h).1
  obtain ⟨id, hid⟩ := Dict.mem_iff.mp hb
  exact ⟨id, hid, hrun.shown a b id hentry hid⟩

theorem srcIps_shown_small :
    let t := run step (init .willing)
      [.vrfConfig true "blue".toList 1, .srcIpConfig "blue".toList true sampleIpv4,
        .vethIpGet "blue".toList defaultVrf true]
    hostAddr sampleIpv4 ∈ t.host.kernel.addrs "blue".toList (vethDev 0) := by
  have hfirst : ∀ v, (init .willing).vrfNameToId.lookup v = some 1 → v = "blue".toList :=
    fun v h => absurd h (by simp [init])
  have hok : Along step SrcIpOk (init .willing)
      [.vrfConfig true "blue".toList 1, .srcIpConfig "blue".toList true sampleIpv4,
        .vethIpGet "blue".toList defaultVrf true] :=
    ⟨fun _ => ⟨hfirst, by decide⟩, (by decide : '*' ∉ "blue".toList),
      ⟨⟨by decide, by decide, by decide⟩, fun _ => by decide +kernel⟩, trivial⟩
  obtain ⟨id, hid, hshown⟩ := srcIps_shown (fun _ _ => rfl) hok "blue".toList defaultVrf
    (Or.inl (by decide +kernel))
  have hzero : some 0 = some id := (by decide +kernel : _ = some 0).symm.trans hid
  rw [← Option.some_inj.mp hzero] at hshown
  exact (hshown sampleIpv4).mpr (by decide +kernel)

/-- A veth to a VRF that is not known gets an entry although no command is run
and none fails.  When the VRF comes, the entry is for a veth that is not there
and that shows no source address. -/
theorem unknown_destination_shows_none :
    let t := run step (init .willing)
      [.vrfConfig true "blue".toList 1, .srcIpConfig "blue".toList true sampleIpv4,
        .vethIpGet "blue".toList "red".toList true, .vrfConfig true "red".toList 2]
    vethKey "blue".toList "red".toList ∈ t.vrfSubNetMap ∧
      t.vrfNameToId.lookup "red".toList = some 2 ∧
      addrKey "blue".toList .inet (hostAddr sampleIpv4) ∈ t.vrfSrcIpMap ∧
      hostAddr sampleIpv4 ∉ t.host.kernel.addrs "blue".toList (vethDev 2) := by
  decide +kernel

end VrfTool

end OpxNasLinux
