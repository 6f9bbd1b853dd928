/-
A table with a secondary index.

Values are stored under an id, and an index leads from a key of the
value to its id. `Indexed` says that the index is exact: it has one
entry for every value, and no other. It makes keys unique, so that one
value can be dropped by dropping its id and its key.
-/
import Mathlib

namespace Eular.Lib

variable {κ ι ν : Type*}

/-- The index leads from the key of every stored value to its id, and from
nowhere else. -/
def Indexed (key : ν → κ) (table : ι → Option ν) (index : κ → Option ι) : Prop :=
  ∀ k id, index k = some id ↔ ∃ v, table id = some v ∧ key v = k

namespace Indexed

variable {key : ν → κ} {table : ι → Option ν} {index : κ → Option ι} {id : ι} {v w : ν}

theorem empty (key : ν → κ) : Indexed key (fun _ : ι => none) (fun _ => none) := by
  intro k id
  simp

theorem lookup (hix : Indexed key table index) (hv : table id = some v) :
    index (key v) = some id :=
  (hix (key v) id).mpr ⟨v, hv, rfl⟩

theorem unique (hix : Indexed key table index) {id' : ι} (hv : table id = some v)
    (hw : table id' = some w) (hkey : key v = key w) : id = id' :=
  Option.some_injective _ ((hix.lookup hv).symm.trans (hkey ▸ hix.lookup hw))

variable [DecidableEq ι] [DecidableEq κ]

theorem insert (hix : Indexed key table index) (hid : table id = none)
    (hkey : index (key v) = none) :
    Indexed key (Function.update table id (some v)) (Function.update index (key v) (some id)) := by
  intro k id'
  by_cases hk : k = key v
  · subst hk
    rw [Function.update_self]
    constructor
    · intro h
      obtain rfl := Option.some_injective _ h
      exact ⟨v, Function.update_self .., rfl⟩
    · rintro ⟨w, hw, hkw⟩
      by_cases hid' : id' = id
      · rw [hid']
      · rw [Function.update_of_ne hid'] at hw
        have := hkw ▸ hix.lookup hw
        rw [hkey] at this
        cases this
  · rw [Function.update_of_ne hk, hix]
    by_cases hid' : id' = id
    · subst hid'
      simp only [Function.update_self, Option.some.injEq, exists_eq_left', hid, reduceCtorEq,
        false_and, exists_false, false_iff]
      exact fun h => hk h.symm
    · rw [Function.update_of_ne hid']

omit [DecidableEq κ] in
theorem replace (hix : Indexed key table index) (hv : table id = some v)
    (hkey : key w = key v) : Indexed key (Function.update table id (some w)) index := by
  intro k id'
  rw [hix]
  by_cases hid' : id' = id
  · subst hid'
    rw [Function.update_self]
    simp only [hv, Option.some.injEq, exists_eq_left', hkey]
  · rw [Function.update_of_ne hid']

theorem erase (hix : Indexed key table index) (hv : table id = some v) :
    Indexed key (Function.update table id none) (Function.update index (key v) none) := by
  intro k id'
  by_cases hk : k = key v
  · subst hk
    rw [Function.update_self]
    simp only [reduceCtorEq, false_iff, not_exists, not_and]
    intro w hw hkw
    by_cases hid' : id' = id
    · subst hid'
      rw [Function.update_self] at hw
      cases hw
    · rw [Function.update_of_ne hid'] at hw
      exact hid' (hix.unique hw hv hkw)
  · rw [Function.update_of_ne hk, hix]
    by_cases hid' : id' = id
    · subst hid'
      simp only [Function.update_self, hv, Option.some.injEq, exists_eq_left', reduceCtorEq,
        false_and, exists_false, iff_false]
      exact fun h => hk h.symm
    · rw [Function.update_of_ne hid']

end Indexed

end Eular.Lib
