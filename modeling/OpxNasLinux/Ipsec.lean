import OpxNasLinux.Host
import OpxNasLinux.Lib.Dict

/-!
# IPsec

`ipsec_trans_cb` of `dn_base_ipsec_utils.py` turns the object of a security
association or of a policy into an `ip xfrm` command.  The attributes of the
object are looked up in tables, which are dictionaries, so `Orders` has the
order in which each of them is gone through.

* `configSad` and `configSpd` assemble the command.  They are left by an
  exception, or with `False` for a key of the wrong length.
* `Stop` and `Outcome` say how a request ends and which command was run.
* `ipsec_trans_cb_iff` says when a result of `True` can be trusted.
-/

namespace OpxNasLinux.Ipsec

/-! ## Tables -/

/-- The value of an attribute, or an argument of a command. -/
inductive Val where
  | text (t : Str)
  | num (n : ℕ)
deriving DecidableEq

/-- `str`. -/
def Val.str : Val → Str
  | .text t => t
  | .num n => OpxNasLinux.str n

/-- The database, by which an entry of a table has its path. -/
inductive Db where
  | sad
  | spd
deriving DecidableEq

/-- An entry of a table. -/
structure MapEntry where
  name : Str
  sadPath : Option Str
  spdPath : Option Str
  cmd : Str
deriving DecidableEq

/-- `obj_map[xfrm_cmd][key]`, `none` for a `KeyError`. -/
def MapEntry.path (e : MapEntry) : Db → Option Str
  | .sad => e.sadPath
  | .spd => e.spdPath

/-- `config_sad_key_prefix`. -/
def sadPrefix : Str := "eipsec/ipsec/sad/sad-entries".toList

/-- `config_sad_options_key_prefix`. -/
def sadOptionsPrefix : Str := "ipsec-sad/eipsec/ipsec/sad/sad-entries".toList

/-- `config_spd_key_prefix`. -/
def spdPrefix : Str := "spd/eipsec/ipsec/spd/spd-entries".toList

/-- An entry with the paths below the prefix of the associations, or of their
options, and below that of the policies. -/
def entry (name : String) (sadAt : Str) (sad spd cmd : String) : MapEntry :=
  ⟨name.toList, some (sadAt ++ sad.toList), some (spdPrefix ++ spd.toList), cmd.toList⟩

/-- An entry for policies only. -/
def spdEntry (name spd cmd : String) : MapEntry :=
  ⟨name.toList, none, some (spdPrefix ++ spd.toList), cmd.toList⟩

/-- `cps_to_xfrm_op`. -/
def xfrmOp (operation : Str) : Option Str :=
  if operation = "create".toList then some "add".toList
  else if operation = "set".toList then some "update".toList
  else if operation = "delete".toList then some "delete".toList
  else none

/-- `ipsec_enum_map`. -/
def enumMap (name : Str) : Option (List (ℕ × Str)) :=
  if name = "sec-proto".toList then some [(0, "ah".toList), (1, "esp".toList)]
  else if name = "mode".toList then some [(0, "transport".toList), (1, "tunnel".toList)]
  else if name = "direction".toList then some [(0, "in".toList), (1, "out".toList)]
  else if name = "level".toList then some [(1, "required".toList), (2, "use".toList)]
  else none

/-- `_id_obj_map`. -/
def idObjMap : List MapEntry :=
  [entry "src" sadPrefix "/source-address/ip-address/ipv6-address/ipv6-address"
      "/source-address/ip-address/ipv6-address/ipv6-address" "src",
    entry "dst" sadPrefix "/destination-address/ip-address/ipv6-address/ipv6-address"
      "/destination-address/ip-address/ipv6-address/ipv6-address" "dst",
    entry "sec-proto" sadPrefix "/security-protocol" "/security-protocol" "proto",
    entry "spi" sadPrefix "/spi" "/spi" "spi"]

/-- `_sad_options_obj_map`. -/
def sadOptionsObjMap : List MapEntry := [entry "mode" sadPrefix "/sa-mode" "/sa-mode" "mode"]

/-- `_selector_obj_map`. -/
def selectorObjMap : List MapEntry :=
  [entry "src" sadOptionsPrefix "/source-ip-address" "/source-ip-address" "src",
    entry "dst" sadOptionsPrefix "/destination-ip-address" "/destination-ip-address" "dst",
    entry "dev" sadOptionsPrefix "/ifname" "/ifname" "dev",
    entry "upper-proto" sadPrefix "/upper-protocol" "/upper-protocol" "proto"]

/-- `_spd_cmd_obj_map`. -/
def spdCmdObjMap : List MapEntry := [spdEntry "direction" "/direction" "dir"]

/-- `_spd_options_obj_map`. -/
def spdOptionsObjMap : List MapEntry := [spdEntry "priority" "/priority" "priority"]

/-- `_spd_tmpl_list_obj_map`. -/
def spdTmplListObjMap : List MapEntry :=
  [spdEntry "mode" "/sa-mode" "mode", spdEntry "level" "/policy-level" "level"]

/-- An algorithm with its key. -/
structure Algo where
  /-- `auth` or `enc`. -/
  kind : Str
  sadPath : List Str
  strLen : ℕ
  hexStrLen : ℕ
  cmd : Str
deriving DecidableEq

/-- An algorithm of authentication, for which there are two paths. -/
def authAlgo (alg : String) (len : ℕ) (cmd : String) : Algo where
  kind := "auth".toList
  sadPath := ["/ah", "/esp/authentication"].map fun proto =>
    sadPrefix ++ (proto.toList ++ ("/authentication-algorithm/".toList ++ (alg.toList ++
      ('/' :: (alg.toList ++ "/key-str".toList)))))
  strLen := len
  hexStrLen := 2 * len
  cmd := cmd.toList

/-- An algorithm of encryption. -/
def encAlgo (alg leaf : String) (len : ℕ) (cmd : String) : Algo where
  kind := "enc".toList
  sadPath := [sadPrefix ++ ("/esp/encryption/encryption-algorithm/".toList ++ (alg.toList ++
    ('/' :: (leaf.toList ++ "/key-str".toList))))]
  strLen := len
  hexStrLen := 2 * len
  cmd := cmd.toList

/-- `sad_algo_map`. -/
def sadAlgoMap : List Algo :=
  [authAlgo "hmac-sha1-96" 20 "hmac(sha1)", authAlgo "hmac-md5-96" 16 "hmac(md5)",
    authAlgo "hmac-aes-xcbc" 16 "hmac(aes)", encAlgo "des3-cbc" "des3-cbd" 24 "cbc(des3_ede)",
    encAlgo "des-cbc" "des-cbc" 8 "cbc(des)", encAlgo "aes-128-cbc" "aes-128-cbc" 16 "cbc(aes)",
    encAlgo "aes-192-cbc" "aes-192-cbc" 24 "cbc(aes)",
    encAlgo "aes-256-cbc" "aes-256-cbc" 32 "cbc(aes)"]

/-- The orders in which the tables are gone through. -/
structure Orders where
  idObj : List MapEntry
  selector : List MapEntry
  spdTmplList : List MapEntry
  sadAlgo : List Algo
  idObj_perm : idObj.Perm idObjMap
  selector_perm : selector.Perm selectorObjMap
  spdTmplList_perm : spdTmplList.Perm spdTmplListObjMap
  sadAlgo_perm : sadAlgo.Perm sadAlgoMap

/-- The orders as written. -/
def Orders.written : Orders :=
  ⟨idObjMap, selectorObjMap, spdTmplListObjMap, sadAlgoMap, .refl _, .refl _, .refl _, .refl _⟩

/-! ## Objects -/

/-- The attributes of an object.  The keys of the algorithms are registered as
texts. -/
structure Attrs where
  data : Dict Str Val
  keysText : ∀ a ∈ sadAlgoMap, ∀ path ∈ a.sadPath, ∀ n, data.lookup path ≠ some (.num n)

/-- The kinds of objects. -/
inductive ObjKey where
  | sad
  | spd
  | other
deriving DecidableEq

/-- The object of a request. -/
structure Change where
  key : ObjKey
  operation : Option Str
  attrs : Attrs

/-- How a function that assembles a command is left. -/
inductive Stop where
  | raises
  | returnsFalse
deriving DecidableEq

/-- What assembling a command leads to. -/
abbrev Built := Except Stop (List Val)

def textArgs (args : List String) : List Val := args.map fun t => .text t.toList

/-- The arguments for an entry of a table. -/
def entryArgs (db : Db) (data : Dict Str Val) (e : MapEntry) : Built :=
  match e.path db with
  | none => .error .raises
  | some path =>
    match data.lookup path with
    | none => .ok []
    | some v =>
      match enumMap e.name, v with
      | none, v => .ok [.text e.cmd, .text v.str]
      | some _, .text _ => .error .raises
      | some vals, .num n =>
        match vals.lookup n with
        | none => .error .raises
        | some t => .ok [.text e.cmd, .text t]

/-- `_cmd_from_map`. -/
def cmdFromMap (m : List MapEntry) (db : Db) (data : Dict Str Val) (cmd : List Val) : Built :=
  m.foldlM (fun cmd e => (entryArgs db data e).map (cmd ++ ·)) cmd

/-- The arguments for a key. -/
def keyArgs (data : Dict Str Val) (a : Algo) (path : Str) : Built :=
  match data.lookup path with
  | none => .ok []
  | some (.num _) => .error .raises
  | some (.text key) =>
    if a.strLen = key.length then .ok [.text a.kind, .text a.cmd, .text key]
    else if a.hexStrLen = key.length then
      .ok [.text a.kind, .text a.cmd, .text ("0x".toList ++ key)]
    else .error .returnsFalse

/-- The loop over the algorithms. -/
def keysFromMap (algos : List Algo) (data : Dict Str Val) (cmd : List Val) : Built :=
  (algos.flatMap fun a => a.sadPath.map fun path => (a, path)).foldlM
    (fun cmd p => (keyArgs data p.1 p.2).map (cmd ++ ·)) cmd

/-- An attribute of the table is there. -/
def anyIn (m : List MapEntry) (db : Db) (data : Dict Str Val) : Bool :=
  m.any fun e => (e.path db).any fun path => decide (path ∈ data)

/-- The start of the command.  When the operation is not known, the exception is
caught, and the variable that is used next has no value. -/
def xfrmCmd (vrfKey : Str) (object : String) (c : Change) : Built :=
  match c.operation.bind xfrmOp with
  | none => .error .raises
  | some op =>
    match c.attrs.data.lookup vrfKey with
    | some vrf => .ok (textArgs ["/sbin/ip", "netns", "exec"] ++
        (vrf :: textArgs ["ip", "xfrm", object]) ++ [.text op])
    | none => .ok (textArgs ["/sbin/ip", "xfrm", object] ++ [.text op])

/-- Some attribute has the piece in its path. -/
def anyPath (data : Dict Str Val) (piece : String) : Bool :=
  data.keys.any fun path => decide (piece.toList <:+: path)

/-- The null cipher. -/
def nullCipher (data : Dict Str Val) (cmd : List Val) : List Val :=
  if anyPath data "/esp/authentication" && !anyPath data "/esp/encryption" then
    cmd ++ textArgs ["enc", "ecb(cipher_null)", ""]
  else cmd

/-- The selector of an association, if there is one. -/
def addSelector (o : Orders) (data : Dict Str Val) (cmd : List Val) : Built :=
  if anyIn o.selector .sad data then cmdFromMap o.selector .sad data (cmd ++ textArgs ["sel"])
  else .ok cmd

/-- `config_sad`, as far as the command. -/
def buildSad (o : Orders) (c : Change) : Built := do
  let data := c.attrs.data
  let cmd ← xfrmCmd (sadOptionsPrefix ++ "/vrf-name".toList) "state" c
  let cmd ← cmdFromMap o.idObj .sad data cmd
  let cmd ← cmdFromMap sadOptionsObjMap .sad data cmd
  let cmd ← addSelector o data cmd
  let cmd ← keysFromMap o.sadAlgo data cmd
  return nullCipher data cmd

/-- The word that starts the template, unless it is there already. -/
def addTmpl (o : Orders) (data : Dict Str Val) (cmd : List Val) : List Val :=
  let tmpl := Val.text "tmpl".toList
  let cmd := if anyIn o.idObj .spd data then cmd ++ [tmpl] else cmd
  if tmpl ∉ cmd ∧ anyIn o.spdTmplList .spd data = true then cmd ++ [tmpl] else cmd

/-- The template of a policy, if there is one. -/
def addTemplate (o : Orders) (data : Dict Str Val) (cmd : List Val) : Built :=
  if .text "tmpl".toList ∈ cmd then do
    let cmd ← cmdFromMap o.idObj .spd data cmd
    cmdFromMap o.spdTmplList .spd data cmd
  else .ok cmd

/-- `config_spd`, as far as the command. -/
def buildSpd (o : Orders) (c : Change) : Built := do
  let data := c.attrs.data
  let cmd ← xfrmCmd (spdPrefix ++ "/vrf-name".toList) "policy" c
  let cmd ← cmdFromMap o.selector .spd data cmd
  let cmd ← cmdFromMap spdCmdObjMap .spd data cmd
  let cmd ← cmdFromMap spdOptionsObjMap .spd data cmd
  addTemplate o data (addTmpl o data cmd)

/-- What a command leads to: its exit status, `none` when it could not be
started. -/
abbrev Runner := List Val → Option ℤ

/-- How a function ends, `none` for an exception, and the command that it has
run. -/
structure Outcome where
  ret : Option Bool
  ran : Option (List Val × Option ℤ)
deriving DecidableEq

/-- `config_sad` and `config_spd` from `run_command` on.  A command that could
not be started gives `False`, which is 0. -/
def config (run : Runner) : Built → Outcome
  | .error .raises => ⟨none, none⟩
  | .error .returnsFalse => ⟨some false, none⟩
  | .ok argv => ⟨some ((run argv).getD 0 = 0), some (argv, run argv)⟩

/-- `config_sad`. -/
def configSad (o : Orders) (run : Runner) (c : Change) : Outcome := config run (buildSad o c)

/-- `config_spd`. -/
def configSpd (o : Orders) (run : Runner) (c : Change) : Outcome := config run (buildSpd o c)

/-- `ipsec_trans_cb`.  The result of the two functions is dropped. -/
def ipsecTransCb (o : Orders) (run : Runner) (c : Change) : Outcome :=
  match c.key with
  | .sad => let r := configSad o run c; ⟨r.ret.map fun _ => true, r.ran⟩
  | .spd => let r := configSpd o run c; ⟨r.ret.map fun _ => true, r.ran⟩
  | .other => ⟨some false, none⟩

/-! ## How a command is assembled -/

/-- A part goes on when its attributes are good, and else ends in one way. -/
def Ends (good : Prop) (stop : Stop) (b : Built) : Prop :=
  good ∧ (∃ r, b = .ok r) ∨ ¬ good ∧ b = .error stop

/-- The arguments of a loop are good when those of every turn are. -/
theorem foldlM_ends {ι : Type} {good : ι → Prop} {stop : Stop} {args : ι → Built} {l : List ι}
    (h : ∀ i ∈ l, Ends (good i) stop (args i)) (cmd : List Val) :
    Ends (∀ i ∈ l, good i) stop (l.foldlM (fun cmd i => (args i).map (cmd ++ ·)) cmd) := by
  induction l generalizing cmd with
  | nil => exact Or.inl ⟨List.forall_mem_nil _, cmd, rfl⟩
  | cons i l ih =>
    obtain ⟨hi, hl⟩ := List.forall_mem_cons.mp h
    rw [List.foldlM_cons, List.forall_mem_cons]
    rcases hi with ⟨hgood, as, hargs⟩ | ⟨hbad, hargs⟩
    · rw [hargs]
      rcases ih hl (cmd ++ as) with ⟨hall, hok⟩ | ⟨hnot, hstop⟩
      · exact Or.inl ⟨⟨hgood, hall⟩, hok⟩
      · exact Or.inr ⟨fun hboth => hnot hboth.2, hstop⟩
    · rw [hargs]
      exact Or.inr ⟨fun hboth => hbad hboth.1, rfl⟩

/-- A value is one of its enumeration. -/
def EnumOk (name : Str) (v : Val) : Prop :=
  ∀ vals ∈ enumMap name, ∃ n, v = .num n ∧ (vals.lookup n).isSome = true

/-- The attribute of an entry has a value of its enumeration, if it is there. -/
def EntryOk (db : Db) (data : Dict Str Val) (e : MapEntry) : Prop :=
  ∀ path ∈ e.path db, ∀ v ∈ data.lookup path, EnumOk e.name v

theorem entryArgs_ends {db : Db} {data : Dict Str Val} {e : MapEntry}
    (hpath : (e.path db).isSome = true) :
    Ends (EntryOk db data e) .raises (entryArgs db data e) := by
  obtain ⟨path, hpath⟩ := Option.isSome_iff_exists.mp hpath
  rw [entryArgs, hpath]
  dsimp only
  cases hv : data.lookup path with
  | none =>
    refine Or.inl ⟨fun path' hpath' v hv' => ?_, [], rfl⟩
    obtain rfl := Option.some.inj (hpath.symm.trans hpath')
    rw [hv] at hv'
    cases hv'
  | some v =>
    have hiff : EntryOk db data e ↔ EnumOk e.name v := by
      refine ⟨fun h => h path hpath v hv, fun h path' hpath' v' hv' => ?_⟩
      obtain rfl := Option.some.inj (hpath.symm.trans hpath')
      obtain rfl := Option.some.inj (hv.symm.trans hv')
      exact h
    rw [hiff]
    cases henum : enumMap e.name with
    | none =>
      refine Or.inl ⟨fun vals hvals => ?_, _, rfl⟩
      rw [henum] at hvals
      cases hvals
    | some vals =>
      cases v with
      | text t =>
        refine Or.inr ⟨fun hok => ?_, rfl⟩
        obtain ⟨n, hn, -⟩ := hok vals henum
        cases hn
      | num n =>
        have hval : EnumOk e.name (.num n) ↔ (vals.lookup n).isSome = true := by
          simp [EnumOk, henum]
        rw [hval]
        dsimp only
        cases vals.lookup n with
        | none => exact Or.inr ⟨Bool.false_ne_true, rfl⟩
        | some t => exact Or.inl ⟨rfl, _, rfl⟩

theorem cmdFromMap_ends {m : List MapEntry} {db : Db} (hpath : ∀ e ∈ m, (e.path db).isSome = true)
    (data : Dict Str Val) (cmd : List Val) :
    Ends (∀ e ∈ m, EntryOk db data e) .raises (cmdFromMap m db data cmd) :=
  foldlM_ends (fun e he => entryArgs_ends (hpath e he)) cmd

/-- A key has the length of the algorithm, as it is or in digits. -/
def KeyOk (data : Dict Str Val) (a : Algo) (path : Str) : Prop :=
  ∀ key, data.lookup path = some (.text key) →
    key.length = a.strLen ∨ key.length = a.hexStrLen

theorem keyArgs_ends {data : Dict Str Val} {a : Algo} {path : Str}
    (htext : ∀ n, data.lookup path ≠ some (.num n)) :
    Ends (KeyOk data a path) .returnsFalse (keyArgs data a path) := by
  rw [keyArgs]
  cases hv : data.lookup path with
  | none =>
    refine Or.inl ⟨fun key hkey => ?_, [], rfl⟩
    rw [hv] at hkey
    cases hkey
  | some v =>
    cases v with
    | num n => exact absurd hv (htext n)
    | text key =>
      have hiff : KeyOk data a path ↔ key.length = a.strLen ∨ key.length = a.hexStrLen := by
        simp [KeyOk, hv]
      rw [hiff]
      dsimp only
      split
      · rename_i hstr
        exact Or.inl ⟨Or.inl hstr.symm, _, rfl⟩
      · rename_i hstr
        split
        · rename_i hhex
          exact Or.inl ⟨Or.inr hhex.symm, _, rfl⟩
        · rename_i hhex
          exact Or.inr ⟨fun h => h.elim (fun h => hstr h.symm) (fun h => hhex h.symm), rfl⟩

/-- The operation is one of the table. -/
def OpKnown (c : Change) : Prop := (c.operation.bind xfrmOp).isSome = true

theorem xfrmCmd_ends (vrfKey : Str) (object : String) (c : Change) :
    Ends (OpKnown c) .raises (xfrmCmd vrfKey object c) := by
  rw [xfrmCmd, OpKnown]
  cases c.operation.bind xfrmOp with
  | none => exact Or.inr ⟨Bool.false_ne_true, rfl⟩
  | some op =>
    refine Or.inl ⟨rfl, ?_⟩
    dsimp only
    cases c.attrs.data.lookup vrfKey with
    | none => exact ⟨_, rfl⟩
    | some vrf => exact ⟨_, rfl⟩

/-- A part that is left by exceptions only. -/
theorem Ends.bind_false {good P : Prop} {b : Built} {f : List Val → Built}
    (h : Ends good .raises b) (hf : ∀ cmd, f cmd = .error .returnsFalse ↔ P) :
    b >>= f = .error .returnsFalse ↔ good ∧ P := by
  rcases h with ⟨hgood, cmd, rfl⟩ | ⟨hbad, rfl⟩
  · exact (hf cmd).trans (iff_and_self.mpr fun _ => hgood)
  · exact iff_of_false (fun heq => by cases heq) fun hboth => hbad hboth.1

theorem addSelector_ends (o : Orders) (data : Dict Str Val) (cmd : List Val) :
    Ends (∀ e ∈ selectorObjMap, EntryOk .sad data e) .raises (addSelector o data cmd) := by
  have hmem : ∀ e, e ∈ selectorObjMap ↔ e ∈ o.selector := fun e => o.selector_perm.mem_iff.symm
  have hpath : ∀ e ∈ o.selector, (e.path .sad).isSome = true := by
    intro e he
    have hall : ∀ e ∈ selectorObjMap, (e.path .sad).isSome = true := by decide
    exact hall e ((hmem e).mpr he)
  simp only [hmem]
  rw [addSelector]
  split
  · exact cmdFromMap_ends hpath _ _
  · rename_i hnone
    refine Or.inl ⟨fun e he path hpath v hv => ?_, cmd, rfl⟩
    refine absurd (List.any_eq_true.mpr ⟨e, he, ?_⟩) hnone
    rw [Option.mem_def.mp hpath]
    exact decide_eq_true (Dict.mem_iff.mpr ⟨v, hv⟩)

/-- The attributes of an association are known to the tables. -/
structure SadKnown (c : Change) : Prop where
  operation : OpKnown c
  id : ∀ e ∈ idObjMap, EntryOk .sad c.attrs.data e
  options : ∀ e ∈ sadOptionsObjMap, EntryOk .sad c.attrs.data e
  selector : ∀ e ∈ selectorObjMap, EntryOk .sad c.attrs.data e

/-- The keys have the lengths of their algorithms. -/
def KeysOk (c : Change) : Prop := ∀ a ∈ sadAlgoMap, ∀ path ∈ a.sadPath, KeyOk c.attrs.data a path

theorem keysFromMap_ends (o : Orders) (c : Change) (cmd : List Val) :
    Ends (KeysOk c) .returnsFalse (keysFromMap o.sadAlgo c.attrs.data cmd) := by
  have hiff : KeysOk c ↔ ∀ p ∈ o.sadAlgo.flatMap fun a => a.sadPath.map fun path => (a, path),
      KeyOk c.attrs.data p.1 p.2 := by
    constructor
    · intro h p hp
      obtain ⟨a, ha, hp⟩ := List.mem_flatMap.mp hp
      obtain ⟨path, hpath, rfl⟩ := List.mem_map.mp hp
      exact h a (o.sadAlgo_perm.mem_iff.mp ha) path hpath
    · intro h a ha path hpath
      exact h (a, path) (List.mem_flatMap.mpr
        ⟨a, o.sadAlgo_perm.mem_iff.mpr ha, List.mem_map_of_mem hpath⟩)
  rw [hiff]
  refine foldlM_ends (fun p hp => keyArgs_ends ?_) cmd
  obtain ⟨a, ha, hp⟩ := List.mem_flatMap.mp hp
  obtain ⟨path, hpath, rfl⟩ := List.mem_map.mp hp
  exact c.attrs.keysText a (o.sadAlgo_perm.mem_iff.mp ha) path hpath

/-- An association is rejected exactly when the tables know its attributes and a
key has a wrong length. -/
theorem buildSad_false_iff (o : Orders) (c : Change) :
    buildSad o c = .error .returnsFalse ↔ SadKnown c ∧ ¬ KeysOk c := by
  have hid : ∀ e, e ∈ idObjMap ↔ e ∈ o.idObj := fun e => o.idObj_perm.mem_iff.symm
  have hids : ∀ e ∈ o.idObj, (e.path .sad).isSome = true := by
    intro e he
    have hall : ∀ e ∈ idObjMap, (e.path .sad).isSome = true := by decide
    exact hall e ((hid e).mpr he)
  have hoptions : ∀ e ∈ sadOptionsObjMap, (e.path .sad).isSome = true := by decide
  have hkeys : ∀ cmd, (keysFromMap o.sadAlgo c.attrs.data cmd >>= fun cmd =>
      return nullCipher c.attrs.data cmd) = .error .returnsFalse ↔ ¬ KeysOk c := by
    intro cmd
    rcases keysFromMap_ends o c cmd with ⟨hok, r, hr⟩ | ⟨hbad, hr⟩
    · rw [hr]
      exact iff_of_false (fun heq => by cases heq) (not_not.mpr hok)
    · rw [hr]
      exact iff_of_true rfl hbad
  have hall := (xfrmCmd_ends (sadOptionsPrefix ++ "/vrf-name".toList) "state" c).bind_false
    fun cmd => (cmdFromMap_ends hids c.attrs.data cmd).bind_false
      fun cmd => (cmdFromMap_ends hoptions c.attrs.data cmd).bind_false
        fun cmd => (addSelector_ends o c.attrs.data cmd).bind_false hkeys
  refine Iff.trans hall ?_
  simp only [← hid]
  constructor
  · rintro ⟨hop, hid, hoptions, hselector, hbad⟩
    exact ⟨⟨hop, hid, hoptions, hselector⟩, hbad⟩
  · rintro ⟨⟨hop, hid, hoptions, hselector⟩, hbad⟩
    exact ⟨hop, hid, hoptions, hselector, hbad⟩

theorem addTemplate_ne (o : Orders) (data : Dict Str Val) (cmd : List Val) :
    addTemplate o data cmd = .error .returnsFalse ↔ False := by
  have hid : ∀ e ∈ o.idObj, (e.path .spd).isSome = true := by
    intro e he
    have hall : ∀ e ∈ idObjMap, (e.path .spd).isSome = true := by decide
    exact hall e (o.idObj_perm.mem_iff.mp he)
  have htmpl : ∀ e ∈ o.spdTmplList, (e.path .spd).isSome = true := by
    intro e he
    have hall : ∀ e ∈ spdTmplListObjMap, (e.path .spd).isSome = true := by decide
    exact hall e (o.spdTmplList_perm.mem_iff.mp he)
  have hlast : ∀ cmd, cmdFromMap o.spdTmplList .spd data cmd = .error .returnsFalse ↔ False := by
    intro cmd
    refine iff_false_intro fun heq => ?_
    rcases cmdFromMap_ends htmpl data cmd with ⟨-, r, hr⟩ | ⟨-, hr⟩ <;> rw [hr] at heq <;> cases heq
  rw [addTemplate]
  split
  · exact ((cmdFromMap_ends hid data cmd).bind_false hlast).trans (iff_false_intro And.right)
  · exact iff_false_intro fun heq => by cases heq

/-- A policy is never rejected. -/
theorem buildSpd_ne (o : Orders) (c : Change) : buildSpd o c ≠ .error .returnsFalse := by
  have hselector : ∀ e ∈ o.selector, (e.path .spd).isSome = true := by
    intro e he
    have hall : ∀ e ∈ selectorObjMap, (e.path .spd).isSome = true := by decide
    exact hall e (o.selector_perm.mem_iff.mp he)
  have hcmd : ∀ e ∈ spdCmdObjMap, (e.path .spd).isSome = true := by decide
  have hoptions : ∀ e ∈ spdOptionsObjMap, (e.path .spd).isSome = true := by decide
  have hall := (xfrmCmd_ends (spdPrefix ++ "/vrf-name".toList) "policy" c).bind_false
    fun cmd => (cmdFromMap_ends hselector c.attrs.data cmd).bind_false
      fun cmd => (cmdFromMap_ends hcmd c.attrs.data cmd).bind_false
        fun cmd => (cmdFromMap_ends hoptions c.attrs.data cmd).bind_false
          fun cmd => addTemplate_ne o c.attrs.data (addTmpl o c.attrs.data cmd)
  exact fun heq => (hall.mp heq).2.2.2.2

/-! ## The request -/

/-- A result of `True` means that the command of the object was started and has
exited with 0. -/
def Trusted (r : Outcome) : Prop := r.ret = some true → ∃ argv, r.ran = some (argv, some 0)

/-- The result is dropped, so it can be trusted when nothing was rejected and
the command succeeds. -/
theorem trusted_iff (run : Runner) (b : Built) :
    Trusted ⟨(config run b).ret.map fun _ => true, (config run b).ran⟩ ↔
      b ≠ .error .returnsFalse ∧ ∀ argv, b = .ok argv → run argv = some 0 := by
  rcases b with (_ | _) | argv
  · refine iff_of_true (fun hret => ?_) ⟨fun heq => ?_, fun argv heq => ?_⟩
    · cases hret
    · cases heq
    · cases heq
  · refine iff_of_false (fun htrust => ?_) fun h => h.1 rfl
    obtain ⟨argv, hran⟩ := htrust rfl
    cases hran
  · constructor
    · intro htrust
      refine ⟨fun heq => (by cases heq), fun argv' heq => ?_⟩
      obtain rfl := Except.ok.inj heq
      obtain ⟨argv', hran⟩ := htrust rfl
      exact (Prod.mk.inj (Option.some.inj hran)).2
    · rintro ⟨-, hrun⟩ -
      exact ⟨argv, by rw [config, hrun argv rfl]⟩

/-- The result of a request can be trusted exactly when the object is of another
kind, or its command, if there is one, exits with 0, and it is no association
whose attributes are known but whose key has a wrong length. -/
theorem ipsec_trans_cb_iff (o : Orders) (run : Runner) (c : Change) :
    Trusted (ipsecTransCb o run c) ↔
      (c.key = .sad → (SadKnown c → KeysOk c) ∧ ∀ argv, buildSad o c = .ok argv → run argv = some 0)
        ∧ (c.key = .spd → ∀ argv, buildSpd o c = .ok argv → run argv = some 0) := by
  rw [ipsecTransCb]
  cases c.key with
  | sad =>
    have hreject : buildSad o c ≠ .error .returnsFalse ↔ (SadKnown c → KeysOk c) := by
      rw [ne_eq, buildSad_false_iff, not_and, not_not]
    refine (trusted_iff run (buildSad o c)).trans ?_
    rw [hreject]
    simp
  | spd =>
    refine (trusted_iff run (buildSpd o c)).trans ?_
    simp [buildSpd_ne]
  | other => exact iff_of_true (fun hret => by cases hret) (by simp)

/-- Attributes that are all texts. -/
def Attrs.ofTexts (d : Dict Str Str) : Attrs where
  data := Dict.mapVal .text d
  keysText _ _ path _ n h := by
    rw [Dict.lookup_mapVal] at h
    cases hd : d.lookup path <;> rw [hd] at h <;> cases h

/-- An association with a key of five letters is reported as applied, and so is
a policy whose command fails. -/
theorem rejected_key_reported_true :
    let key := sadPrefix ++ "/ah/authentication-algorithm/hmac-sha1-96/hmac-sha1-96/key-str".toList
    let c : Change := ⟨.sad, some "create".toList, .ofTexts (AList.singleton key "abcde".toList)⟩
    let c' : Change := ⟨.spd, some "create".toList, .ofTexts ∅⟩
    let argv := textArgs ["/sbin/ip", "xfrm", "policy", "add"]
    ipsecTransCb .written (fun _ => some 0) c = ⟨some true, none⟩ ∧
      ¬ Trusted (ipsecTransCb .written (fun _ => some 0) c) ∧
      ipsecTransCb .written (fun _ => some 2) c' = ⟨some true, some (argv, some 2)⟩ ∧
      ¬ Trusted (ipsecTransCb .written (fun _ => some 2) c') := by
  intro key c c' argv
  have hres : ipsecTransCb .written (fun _ => some 0) c = ⟨some true, none⟩ := by decide +kernel
  have hres' : ipsecTransCb .written (fun _ => some 2) c' = ⟨some true, some (argv, some 2)⟩ := by
    decide +kernel
  refine ⟨hres, fun htrust => ?_, hres', fun htrust => ?_⟩
  · rw [hres] at htrust
    obtain ⟨argv, hran⟩ := htrust rfl
    cases hran
  · rw [hres'] at htrust
    obtain ⟨argv, hran⟩ := htrust rfl
    cases hran

end OpxNasLinux.Ipsec
