import Mathlib.Data.List.Pairwise
import Mathlib.Data.List.Perm.Basic
import OpxNasLinux.Lib.Bisect
import OpxNasLinux.SvcsRule

/-!
# The rule lists

`VrfIncomingSvcsRuleList` and `VrfOutgoingSvcsRuleList`: a list of rules with
two structures beside it, the sorted list of the sequence keys and the map
from the rule ids to the positions.

`Aligned` says that the three agree.  There are four groups.

* The operations, as the source has them.
* What `update_rule_id_map` leaves in the map.
* `Aligned` is kept by every operation (`aligned_insertAt`,
  `aligned_removeAt`), and by the assignment of `replace_rule` that bypasses
  the operations (`aligned_setRule`), when the new rule fits.
* What the operations do to an aligned list.  A rule that is taken out and put
  back returns to its place when no later rule has its sequence key
  (`Aligned.reinsert_rules`).
-/

namespace OpxNasLinux

open SvcsRule

/-- A rule list. -/
structure SvcsRuleList (R : Type) where
  rules : List R
  seqNumList : List SeqKey
  ruleIdMap : Dict (Option ℤ) ℕ

namespace SvcsRuleList

variable {R : Type} [SvcsRule R]

/-- `__init__`. -/
def empty : SvcsRuleList R := ⟨[], [], ∅⟩

/-- `update_rule_id_map`: every rule from `startIdx` on gets its position. -/
def updateRuleIdMap (rules : List R) (startIdx : ℕ) (idMap : Dict (Option ℤ) ℕ) :
    Dict (Option ℤ) ℕ :=
  (rules.zipIdx.drop startIdx).foldl (fun m p => m.insert (ruleId p.1) p.2) idMap

/-- `list.index`, which compares with `is_rule_equal`. -/
def index (l : SvcsRuleList R) (rule : R) : Option ℕ :=
  l.rules.findIdx? (fun r => decide (keyAttrs r = keyAttrs rule))

/-- The rule list with `rule` put in at `idx`. -/
def insertAt (l : SvcsRuleList R) (idx : ℕ) (rule : R) : SvcsRuleList R :=
  { rules := l.rules.insertIdx idx rule
    seqNumList := l.seqNumList.insertIdx idx (seqKey rule)
    ruleIdMap := updateRuleIdMap (l.rules.insertIdx idx rule) idx l.ruleIdMap }

/-- `insert`: the position of the new rule, `none` when it is refused. -/
def insert (l : SvcsRuleList R) (rule : R) : Option ℕ × SvcsRuleList R :=
  if (ruleId rule).isNone ∨ ruleId rule ∈ l.ruleIdMap then (none, l)
  else if (l.index rule).isSome then (none, l)
  else
    let idx := Bisect.bisectRight l.seqNumList (seqKey rule)
    (some idx, l.insertAt idx rule)

/-- The rule list with the rule at `idx`, whose id is `id`, taken out. -/
def removeAt (l : SvcsRuleList R) (idx : ℕ) (id : Option ℤ) : SvcsRuleList R :=
  { rules := l.rules.eraseIdx idx
    seqNumList := l.seqNumList.eraseIdx idx
    ruleIdMap := updateRuleIdMap (l.rules.eraseIdx idx) idx (l.ruleIdMap.erase id) }

/-- The position that `remove` picks, by the id if the list knows it and else
by the attributes. -/
def removeIdx (l : SvcsRuleList R) (rule : R) : Option ℕ :=
  if (ruleId rule).isSome ∧ ruleId rule ∈ l.ruleIdMap then l.ruleIdMap.lookup (ruleId rule)
  else
    match l.index rule with
    | none => none
    | some idx => if (l.rules[idx]?).any (otherPrivate rule) then none else some idx

/-- `remove`: the rule taken out with its position, `none` when there is none.
A position beyond the list, for which Python raises, does not occur: see
`Aligned`. -/
def remove (l : SvcsRuleList R) (rule : R) : Option (R × ℕ) × SvcsRuleList R :=
  match l.removeIdx rule with
  | none => (none, l)
  | some idx =>
    match l.rules[idx]? with
    | none => (none, l)
    | some orig => (some (orig, idx), l.removeAt idx (ruleId orig))

/-- `remove_by_id`: the rule taken out. -/
def removeById (l : SvcsRuleList R) (id : ℤ) : Option R × SvcsRuleList R :=
  match l.ruleIdMap.lookup (some id) with
  | none => (none, l)
  | some idx =>
    match l.rules[idx]? with
    | none => (none, l)
    | some orig => (some orig, l.removeAt idx (some id))

/-- The assignment `rule_list[idx] = rule`, which touches the list only. -/
def setRule (l : SvcsRuleList R) (idx : ℕ) (rule : R) : SvcsRuleList R :=
  { l with rules := l.rules.set idx rule }

/-! ## Alignment -/

/-- The three structures of a rule list agree, and no two rules match. -/
structure Aligned (l : SvcsRuleList R) : Prop where
  seqNums : l.seqNumList = l.rules.map seqKey
  sorted : l.seqNumList.Pairwise (· ≤ ·)
  idMap : ∀ k i, l.ruleIdMap.lookup k = some i ↔ (l.rules[i]?).map ruleId = some k
  nodup : l.rules.Pairwise (fun r r' => keyAttrs r ≠ keyAttrs r')

theorem aligned_empty : (empty : SvcsRuleList R).Aligned := by
  refine ⟨rfl, List.Pairwise.nil, ?_, List.Pairwise.nil⟩
  intro k i
  simp [empty]

/-- The rules of an aligned list have distinct ids. -/
theorem Aligned.ids_nodup {l : SvcsRuleList R} (hl : l.Aligned) :
    (l.rules.map ruleId).Nodup := by
  rw [List.nodup_iff_getElem?_ne_getElem?]
  intro i j hij hj heq
  rw [List.getElem?_map, List.getElem?_map] at heq
  rw [List.length_map] at hj
  have hk : (l.rules[j]?).map ruleId = some (ruleId l.rules[j]) := by
    rw [List.getElem?_eq_getElem hj, Option.map_some]
  have h1 := (hl.idMap _ i).mpr (heq.trans hk)
  have h2 := (hl.idMap _ j).mpr hk
  rw [h1] at h2
  exact absurd (Option.some_inj.mp h2) (Nat.ne_of_lt hij)

/-- Two positions with one id are one position. -/
theorem ids_inj {rules : List R} (hd : (rules.map ruleId).Nodup) {i j : ℕ} {k : Option ℤ}
    (hi : (rules[i]?).map ruleId = some k) (hj : (rules[j]?).map ruleId = some k) : i = j := by
  rw [← List.getElem?_map] at hi hj
  have hlt := (List.getElem?_eq_some_iff.mp hi).1
  exact (List.getElem?_inj hlt hd).mp (hi.trans hj.symm)

/-- An id in the map is the id of a rule of the list. -/
theorem Aligned.mem_ruleIdMap {l : SvcsRuleList R} (hl : l.Aligned) {k : Option ℤ} :
    k ∈ l.ruleIdMap ↔ ∃ r ∈ l.rules, ruleId r = k := by
  rw [← AList.lookup_isSome, Option.isSome_iff_exists]
  constructor
  · rintro ⟨i, hi⟩
    obtain ⟨r, hr, hk⟩ := Option.map_eq_some_iff.mp ((hl.idMap k i).mp hi)
    exact ⟨r, List.mem_of_getElem? hr, hk⟩
  · rintro ⟨r, hr, rfl⟩
    obtain ⟨i, hi⟩ := List.mem_iff_getElem?.mp hr
    exact ⟨i, (hl.idMap _ i).mpr (by rw [hi]; rfl)⟩

/-! ## What `update_rule_id_map` leaves -/

/-- What a loop of assignments leaves under a key: the last assignment to it,
or the old entry. -/
theorem lookup_foldl_insert (ps : List (R × ℕ)) (m : Dict (Option ℤ) ℕ) (k : Option ℤ) :
    (ps.foldl (fun m p => m.insert (ruleId p.1) p.2) m).lookup k =
      ((ps.reverse.find? (fun p => decide (ruleId p.1 = k))).map Prod.snd).or (m.lookup k) := by
  induction ps generalizing m with
  | nil => rfl
  | cons p ps ih =>
    rw [List.foldl_cons, ih, List.reverse_cons, List.find?_append, Option.map_or, Option.or_assoc]
    congr 1
    by_cases hk : ruleId p.1 = k
    · rw [List.find?_singleton, if_pos (by simpa using hk), ← hk, AList.lookup_insert]
      rfl
    · rw [List.find?_singleton, if_neg (by simpa using hk), AList.lookup_insert_ne (Ne.symm hk)]
      rfl

theorem mem_drop_zipIdx {α : Type} {l : List α} {n i : ℕ} {a : α} :
    (a, i) ∈ l.zipIdx.drop n ↔ n ≤ i ∧ l[i]? = some a := by
  rw [List.mem_iff_getElem?]
  constructor
  · rintro ⟨j, hj⟩
    rw [List.getElem?_drop, List.getElem?_zipIdx] at hj
    obtain ⟨b, hb, he⟩ := Option.map_eq_some_iff.mp hj
    obtain ⟨rfl, rfl⟩ := Prod.mk.inj he
    exact ⟨by omega, by rwa [Nat.zero_add]⟩
  · rintro ⟨hn, hi⟩
    refine ⟨i - n, ?_⟩
    rw [List.getElem?_drop, List.getElem?_zipIdx, show n + (i - n) = i by omega, hi]
    simp

/-- `update_rule_id_map` writes the positions from `n` on and keeps the other
entries. -/
theorem lookup_updateRuleIdMap {rules : List R} (hd : (rules.map ruleId).Nodup) (n : ℕ)
    (m : Dict (Option ℤ) ℕ) (k : Option ℤ) (i : ℕ) :
    (updateRuleIdMap rules n m).lookup k = some i ↔
      (n ≤ i ∧ (rules[i]?).map ruleId = some k) ∨
        (∀ j, n ≤ j → (rules[j]?).map ruleId ≠ some k) ∧ m.lookup k = some i := by
  rw [updateRuleIdMap, lookup_foldl_insert]
  cases hf : ((rules.zipIdx.drop n).reverse).find? (fun p => decide (ruleId p.1 = k)) with
  | none =>
    have hnone : ∀ j, n ≤ j → (rules[j]?).map ruleId ≠ some k := by
      intro j hj hk
      obtain ⟨r, hr, hrk⟩ := Option.map_eq_some_iff.mp hk
      have hmem := List.mem_reverse.mpr (mem_drop_zipIdx.mpr ⟨hj, hr⟩)
      have := List.find?_eq_none.mp hf _ hmem
      exact this (by simpa using hrk)
    simp only [Option.map_none, Option.none_or]
    constructor
    · exact fun h => Or.inr ⟨hnone, h⟩
    · rintro (⟨hn, hk⟩ | ⟨_, h⟩)
      · exact absurd hk (hnone i hn)
      · exact h
  | some p =>
    obtain ⟨r, j⟩ := p
    have hp := List.find?_some hf
    have hk : ruleId r = k := by simpa using hp
    have hmem := List.mem_reverse.mp (List.mem_of_find?_eq_some hf)
    obtain ⟨hn, hj⟩ := mem_drop_zipIdx.mp hmem
    have hjk : (rules[j]?).map ruleId = some k := by rw [hj, ← hk]; rfl
    simp only [Option.map_some, Option.some_or, Option.some_inj]
    constructor
    · rintro rfl
      exact Or.inl ⟨hn, hjk⟩
    · rintro (⟨_, hik⟩ | ⟨hnone, _⟩)
      · exact ids_inj hd hjk hik
      · exact absurd hjk (hnone j hn)

/-- `update_rule_id_map` repairs a map that is right below `n` and whose other
entries belong to rules that stand at `n` or behind. -/
theorem updateRuleIdMap_repairs {rules : List R} (hd : (rules.map ruleId).Nodup) {n : ℕ}
    {m : Dict (Option ℤ) ℕ}
    (hlow : ∀ k i, i < n → (m.lookup k = some i ↔ (rules[i]?).map ruleId = some k))
    (hhigh : ∀ k i, n ≤ i → m.lookup k = some i → ∃ j, n ≤ j ∧ (rules[j]?).map ruleId = some k)
    (k : Option ℤ) (i : ℕ) :
    (updateRuleIdMap rules n m).lookup k = some i ↔ (rules[i]?).map ruleId = some k := by
  rw [lookup_updateRuleIdMap hd]
  constructor
  · rintro (⟨_, hk⟩ | ⟨hnone, hm⟩)
    · exact hk
    · rcases Nat.lt_or_ge i n with hi | hi
      · exact (hlow k i hi).mp hm
      · obtain ⟨j, hj, hjk⟩ := hhigh k i hi hm
        exact absurd hjk (hnone j hj)
  · intro hk
    rcases Nat.lt_or_ge i n with hi | hi
    · refine Or.inr ⟨?_, (hlow k i hi).mpr hk⟩
      intro j hj hjk
      have := ids_inj hd hk hjk
      omega
    · exact Or.inl ⟨hi, hk⟩

/-! ## The operations keep the alignment -/

/-- A rule with a new id and new key attributes, put in at a right point of
the sequence keys. -/
theorem aligned_insertAt {l : SvcsRuleList R} (hl : l.Aligned) {rule : R} {idx : ℕ}
    (hidx : Bisect.IsRightPoint l.seqNumList (seqKey rule) idx)
    (hid : ruleId rule ∉ l.ruleIdMap) (hkey : ∀ r ∈ l.rules, keyAttrs r ≠ keyAttrs rule) :
    (l.insertAt idx rule).Aligned := by
  have hlen : idx ≤ l.rules.length := by
    have := hidx.le_length
    rwa [hl.seqNums, List.length_map] at this
  have hperm := List.perm_insertIdx rule l.rules hlen
  have hd : ((l.rules.insertIdx idx rule).map ruleId).Nodup := by
    rw [(hperm.map ruleId).nodup_iff, List.map_cons, List.nodup_cons]
    refine ⟨?_, hl.ids_nodup⟩
    intro hmem
    exact hid (hl.mem_ruleIdMap.mpr (List.mem_map.mp hmem))
  refine ⟨?_, ?_, ?_, ?_⟩
  · rw [insertAt, List.map_insertIdx, hl.seqNums]
  · exact Bisect.sorted_insertIdx hl.sorted hidx
  · refine updateRuleIdMap_repairs hd ?_ ?_
    · intro k i hi
      rw [hl.idMap, List.getElem?_insertIdx_of_lt hi]
    · intro k i hi hk
      refine ⟨i + 1, by omega, ?_⟩
      rw [List.getElem?_insertIdx_of_gt (by omega), Nat.add_sub_cancel]
      exact (hl.idMap k i).mp hk
  · refine (List.Perm.pairwise_iff (fun h => Ne.symm h) hperm).mpr ?_
    exact List.pairwise_cons.mpr ⟨fun r hr => Ne.symm (hkey r hr), hl.nodup⟩

/-- The rule at a position taken out. -/
theorem aligned_removeAt {l : SvcsRuleList R} (hl : l.Aligned) {idx : ℕ} {orig : R}
    (horig : l.rules[idx]? = some orig) : (l.removeAt idx (ruleId orig)).Aligned := by
  have hsub := List.eraseIdx_sublist l.rules idx
  refine ⟨?_, ?_, ?_, hl.nodup.sublist hsub⟩
  · simp only [removeAt, hl.seqNums, List.eraseIdx_map]
  · exact hl.sorted.sublist (List.eraseIdx_sublist _ _)
  · refine updateRuleIdMap_repairs (hl.ids_nodup.sublist (hsub.map ruleId)) ?_ ?_
    · intro k i hi
      rw [Dict.lookup_erase_iff, hl.idMap, List.getElem?_eraseIdx_of_lt hi]
      refine and_iff_right_of_imp ?_
      rintro hk rfl
      have := ids_inj hl.ids_nodup hk (by rw [horig]; rfl)
      omega
    · intro k i hi hk
      obtain ⟨hne, hk⟩ := Dict.lookup_erase_iff.mp hk
      rw [hl.idMap] at hk
      have hii : i ≠ idx := by
        rintro rfl
        rw [horig] at hk
        exact hne (Option.some_inj.mp hk).symm
      refine ⟨i - 1, by omega, ?_⟩
      rw [List.getElem?_eraseIdx_of_ge (by omega), show i - 1 + 1 = i by omega]
      exact hk

/-- A list keeps what a new entry has in common with the old one. -/
theorem map_set_of_eq {α β : Type} (f : α → β) {l : List α} {idx : ℕ} {old new : α}
    (hold : l[idx]? = some old) (hf : f new = f old) : (l.set idx new).map f = l.map f := by
  rw [List.map_set, hf]
  refine List.ext_getElem? fun i => ?_
  rw [List.getElem?_set]
  split_ifs with h1 h2
  · subst h1
    rw [List.getElem?_map, hold]
    rfl
  · exact (List.getElem?_eq_none (by omega)).symm
  · rfl

/-- A new version of a rule put in its place: it keeps the id and the sequence
key, and matches no other rule. -/
theorem aligned_setRule {l : SvcsRuleList R} (hl : l.Aligned) {idx : ℕ} {old rule : R}
    (hold : l.rules[idx]? = some old) (hid : ruleId rule = ruleId old)
    (hseq : seqKey rule = seqKey old)
    (hkey : ∀ r ∈ l.rules, keyAttrs r = keyAttrs rule → ruleId r = ruleId rule) :
    (l.setRule idx rule).Aligned := by
  refine ⟨?_, hl.sorted, ?_, ?_⟩
  · rw [setRule, map_set_of_eq seqKey hold hseq]
    exact hl.seqNums
  · intro k i
    rw [setRule, ← List.getElem?_map, map_set_of_eq ruleId hold hid, List.getElem?_map]
    exact hl.idMap k i
  · have hpair : l.rules.Pairwise (fun r r' => keyAttrs r ≠ keyAttrs r' ∧ ruleId r ≠ ruleId r') :=
      hl.nodup.and (List.pairwise_map.mp hl.ids_nodup)
    rw [List.pairwise_iff_getElem] at hpair
    rw [setRule, List.pairwise_iff_getElem]
    intro i j hi hj hij
    rw [List.length_set] at hi hj
    have hne := hpair i j hi hj hij
    rw [List.getElem_set, List.getElem_set]
    obtain ⟨hlt, rfl⟩ := List.getElem?_eq_some_iff.mp hold
    split_ifs with h1 h2 h2
    · omega
    · subst h1
      intro heq
      exact hne.2 (hid.symm.trans (hkey _ (List.getElem_mem hj) heq.symm).symm)
    · subst h2
      intro heq
      exact hne.2 ((hkey _ (List.getElem_mem hi) heq).trans hid)
    · exact hne.1

/-! ## What the operations do to an aligned list -/

/-- `insert` refuses a rule, or puts it in at its right point. -/
theorem Aligned.insert_cases {l : SvcsRuleList R} (hl : l.Aligned) (rule : R) :
    l.insert rule = (none, l) ∨
      ∃ idx, Bisect.IsRightPoint l.seqNumList (seqKey rule) idx ∧
        ruleId rule ∉ l.ruleIdMap ∧ (∀ r ∈ l.rules, keyAttrs r ≠ keyAttrs rule) ∧
        l.insert rule = (some idx, l.insertAt idx rule) := by
  rw [insert]
  split_ifs with hid hkey
  · exact Or.inl rfl
  · exact Or.inl rfl
  · refine Or.inr ⟨_, Bisect.bisectRight_isRightPoint hl.sorted _, (not_or.mp hid).2, ?_, rfl⟩
    intro r hr heq
    refine hkey ?_
    rw [index, List.findIdx?_isSome, List.any_eq_true]
    exact ⟨r, hr, decide_eq_true heq⟩

/-- `insert` takes a rule with an id that the list does not know and with key
attributes that no rule of the list has. -/
theorem Aligned.insert_eq {l : SvcsRuleList R} {rule : R} (hsome : (ruleId rule).isSome)
    (hid : ruleId rule ∉ l.ruleIdMap) (hkey : ∀ r ∈ l.rules, keyAttrs r ≠ keyAttrs rule) :
    l.insert rule = (some (Bisect.bisectRight l.seqNumList (seqKey rule)),
      l.insertAt (Bisect.bisectRight l.seqNumList (seqKey rule)) rule) := by
  rw [insert, if_neg, if_neg]
  · rw [index, List.findIdx?_isSome, List.any_eq_true]
    rintro ⟨r, hr, heq⟩
    exact hkey r hr (of_decide_eq_true heq)
  · rintro (h | h)
    · rw [Option.isNone_iff_eq_none] at h
      rw [h] at hsome
      cases hsome
    · exact hid h

/-- `remove` refuses, or takes out the rule at a position. -/
theorem remove_cases (l : SvcsRuleList R) (rule : R) :
    l.remove rule = (none, l) ∨
      ∃ orig idx, l.rules[idx]? = some orig ∧
        l.remove rule = (some (orig, idx), l.removeAt idx (ruleId orig)) := by
  rw [remove]
  split
  · exact Or.inl rfl
  · split
    · exact Or.inl rfl
    · rename_i orig horig
      exact Or.inr ⟨orig, _, horig, rfl⟩

/-- `remove` takes out the rule whose id it is given. -/
theorem Aligned.remove_eq {l : SvcsRuleList R} (hl : l.Aligned) {rule : R} {idx : ℕ}
    (hidx : l.rules[idx]? = some rule) (hsome : (ruleId rule).isSome) :
    l.remove rule = (some (rule, idx), l.removeAt idx (ruleId rule)) := by
  have hlookup : l.ruleIdMap.lookup (ruleId rule) = some idx := by
    rw [hl.idMap, hidx]
    rfl
  have hmem : ruleId rule ∈ l.ruleIdMap := by
    rw [← AList.lookup_isSome, hlookup]
    rfl
  rw [remove, removeIdx, if_pos ⟨hsome, hmem⟩, hlookup]
  dsimp only
  rw [hidx]

/-- `remove_by_id` takes out the rule at the position of the id. -/
theorem Aligned.removeById_eq {l : SvcsRuleList R} (hl : l.Aligned) {id : ℤ} {idx : ℕ} {orig : R}
    (hidx : l.rules[idx]? = some orig) (hid : ruleId orig = some id) :
    l.removeById id = (some orig, l.removeAt idx (some id)) := by
  have hlookup : l.ruleIdMap.lookup (some id) = some idx := by
    rw [hl.idMap, hidx, ← hid]
    rfl
  rw [removeById, hlookup]
  dsimp only
  rw [hidx]

/-- A rule put in at a position is at that position. -/
theorem getElem?_insertAt {l : SvcsRuleList R} (hl : l.Aligned) {rule : R} {idx : ℕ}
    (hidx : Bisect.IsRightPoint l.seqNumList (seqKey rule) idx) :
    (l.insertAt idx rule).rules[idx]? = some rule := by
  have hlen : idx ≤ l.rules.length := by
    have := hidx.le_length
    rwa [hl.seqNums, List.length_map] at this
  rw [insertAt, List.getElem?_insertIdx_self, if_pos hlen]

/-- Taking out the rule just put in restores the list of rules. -/
theorem removeAt_insertAt_rules {l : SvcsRuleList R} (idx : ℕ) (rule : R) (id : Option ℤ) :
    ((l.insertAt idx rule).removeAt idx id).rules = l.rules := by
  rw [removeAt, insertAt, List.eraseIdx_insertIdx_self]

/-- The rules of a list, with the one at a position in front. -/
theorem perm_removeAt {l : SvcsRuleList R} {idx : ℕ} {orig : R}
    (horig : l.rules[idx]? = some orig) (id : Option ℤ) :
    (orig :: (l.removeAt idx id).rules).Perm l.rules := by
  obtain ⟨hlt, rfl⟩ := List.getElem?_eq_some_iff.mp horig
  exact List.getElem_cons_eraseIdx_perm hlt

/-- After a rule has been taken out, `insert` takes it back. -/
theorem Aligned.insert_removeAt {l : SvcsRuleList R} (hl : l.Aligned) {idx : ℕ} {orig : R}
    (horig : l.rules[idx]? = some orig) (hsome : (ruleId orig).isSome) :
    let l' := l.removeAt idx (ruleId orig)
    l'.insert orig = (some (Bisect.bisectRight l'.seqNumList (seqKey orig)),
        l'.insertAt (Bisect.bisectRight l'.seqNumList (seqKey orig)) orig) ∧
      ruleId orig ∉ l'.ruleIdMap ∧ (∀ r ∈ l'.rules, keyAttrs r ≠ keyAttrs orig) := by
  intro l'
  have hl' : l'.Aligned := aligned_removeAt hl horig
  have hperm : l.rules.Perm (orig :: l'.rules) := (perm_removeAt horig _).symm
  have hid : ruleId orig ∉ l'.ruleIdMap := by
    rw [hl'.mem_ruleIdMap]
    rintro ⟨r, hr, hk⟩
    have hnd := hl.ids_nodup
    rw [(hperm.map ruleId).nodup_iff, List.map_cons, List.nodup_cons] at hnd
    exact hnd.1 (List.mem_map.mpr ⟨r, hr, hk⟩)
  have hkey : ∀ r ∈ l'.rules, keyAttrs r ≠ keyAttrs orig := by
    have hnd := (List.Perm.pairwise_iff (fun h => Ne.symm h) hperm).mp hl.nodup
    exact fun r hr => Ne.symm ((List.pairwise_cons.mp hnd).1 r hr)
  exact ⟨Aligned.insert_eq hsome hid hkey, hid, hkey⟩

/-- A rule taken out and put back changes the order at most. -/
theorem reinsert_perm {l : SvcsRuleList R} (hl : l.Aligned) {idx idx' : ℕ} {orig : R}
    (horig : l.rules[idx]? = some orig)
    (hidx : Bisect.IsRightPoint (l.removeAt idx (ruleId orig)).seqNumList (seqKey orig) idx') :
    ((l.removeAt idx (ruleId orig)).insertAt idx' orig).rules.Perm l.rules := by
  have hlen : idx' ≤ (l.removeAt idx (ruleId orig)).rules.length := by
    have := hidx.le_length
    rwa [(aligned_removeAt hl horig).seqNums, List.length_map] at this
  exact (List.perm_insertIdx orig _ hlen).trans (perm_removeAt horig _)

/-- A rule taken out and put back returns to its place when no later rule has
its sequence key. -/
theorem Aligned.reinsert_rules {l : SvcsRuleList R} (hl : l.Aligned) {idx : ℕ} {orig : R}
    (horig : l.rules[idx]? = some orig)
    (hties : ∀ j r, idx < j → l.rules[j]? = some r → seqKey r ≠ seqKey orig) :
    let l' := l.removeAt idx (ruleId orig)
    (l'.insertAt (Bisect.bisectRight l'.seqNumList (seqKey orig)) orig).rules = l.rules := by
  intro l'
  have hseq : l.seqNumList[idx]? = some (seqKey orig) := by
    rw [hl.seqNums, List.getElem?_map, horig]
    rfl
  have hpoint : Bisect.bisectRight l'.seqNumList (seqKey orig) = idx := by
    refine (Bisect.bisectRight_eraseIdx_iff hl.sorted hseq).mpr ?_
    intro j hj hjx
    rw [hl.seqNums, List.getElem?_map] at hjx
    obtain ⟨r, hr, hrx⟩ := Option.map_eq_some_iff.mp hjx
    exact hties j r hj hr hrx
  rw [hpoint]
  obtain ⟨hlt, rfl⟩ := List.getElem?_eq_some_iff.mp horig
  exact List.insertIdx_eraseIdx_getElem hlt

end SvcsRuleList

end OpxNasLinux
