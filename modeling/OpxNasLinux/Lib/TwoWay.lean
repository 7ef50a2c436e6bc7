import OpxNasLinux.Lib.Dict

/-!
# Two dictionaries that are inverse to each other

A table that is searched by its keys and by its values keeps two dictionaries.
`TwoWay` says that each is the inverse of the other.  It is kept by entering a
new pair in both (`TwoWay.insert`) and by taking a pair out of both
(`TwoWay.erase`).
-/

namespace OpxNasLinux

variable {A B : Type} [DecidableEq A] [DecidableEq B]

/-- The two dictionaries hold the same pairs. -/
def TwoWay (there : Dict A B) (back : Dict B A) : Prop :=
  ∀ a b, there.lookup a = some b ↔ back.lookup b = some a

namespace TwoWay

variable {there : Dict A B} {back : Dict B A}

theorem empty : TwoWay (∅ : Dict A B) (∅ : Dict B A) := by
  intro a b
  rw [AList.lookup_empty, AList.lookup_empty]
  exact ⟨fun h => (nomatch h), fun h => (nomatch h)⟩

/-- Two keys with one value are one key. -/
theorem inj (h : TwoWay there back) {a a' : A} {b : B} (ha : there.lookup a = some b)
    (ha' : there.lookup a' = some b) : a = a' := by
  have hb := (h a b).mp ha
  rw [(h a' b).mp ha'] at hb
  exact (Option.some.inj hb).symm

/-- A pair with a new key and a new value. -/
theorem insert (h : TwoWay there back) {a : A} {b : B} (ha : there.lookup a = none)
    (hb : back.lookup b = none) : TwoWay (there.insert a b) (back.insert b a) := by
  intro a' b'
  rw [Dict.lookup_insert_iff, Dict.lookup_insert_iff, h a' b']
  constructor
  · rintro (⟨rfl, rfl⟩ | ⟨-, hold⟩)
    · exact Or.inl ⟨rfl, rfl⟩
    · refine Or.inr ⟨?_, hold⟩
      rintro rfl
      rw [hb] at hold
      cases hold
  · rintro (⟨rfl, rfl⟩ | ⟨-, hold⟩)
    · exact Or.inl ⟨rfl, rfl⟩
    · refine Or.inr ⟨?_, hold⟩
      rintro rfl
      rw [← h a' b', ha] at hold
      cases hold

/-- A pair taken out. -/
theorem erase (h : TwoWay there back) {a : A} {b : B} (ha : there.lookup a = some b) :
    TwoWay (there.erase a) (back.erase b) := by
  intro a' b'
  rw [Dict.lookup_erase_iff, Dict.lookup_erase_iff, h a' b']
  have hb := (h a b).mp ha
  constructor
  · rintro ⟨hne, hold⟩
    refine ⟨?_, hold⟩
    rintro rfl
    rw [hb] at hold
    exact hne (Option.some.inj hold).symm
  · rintro ⟨hne, hold⟩
    refine ⟨?_, hold⟩
    rintro rfl
    rw [← h a' b', ha] at hold
    exact hne (Option.some.inj hold).symm

end TwoWay

end OpxNasLinux
