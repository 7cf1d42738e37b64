import Mathlib.Data.List.Nodup

/-! # Lists in the order of a key

A list whose keys ascend is determined by what can be looked up in it, and so
is the part of it that a test leaves.
-/

namespace Grunt.Foundation

/-- Values in the order of their keys, each key at most once. -/
structure Ordered {Value Key : Type} [LT Key] (key : Value → Key) where
  values : List Value
  ascending : values.Pairwise fun first second => key first < key second

namespace Ordered

variable {Value Key : Type} [LT Key] {key : Value → Key}

def find [DecidableEq Key] (list : Ordered key) (wanted : Key) : Option Value :=
  list.values.find? fun value => key value = wanted

theorem key_of_find [DecidableEq Key] {list : Ordered key} {wanted : Key} {value : Value}
    (found : list.find wanted = some value) : key value = wanted := by
  have passed := List.find?_some found
  exact of_decide_eq_true passed

section Lookup

variable [Std.Asymm fun first second : Key => first < second]

theorem keys_nodup (list : Ordered key) : (list.values.map key).Nodup := by
  apply List.Pairwise.map key _ list.ascending
  intro first second before same
  rw [same] at before
  exact Std.Asymm.asymm _ _ before before

theorem nodup (list : Ordered key) : list.values.Nodup :=
  list.keys_nodup.of_map

variable [DecidableEq Key]

theorem find_eq_some_iff (list : Ordered key) {wanted : Key} {value : Value} :
    list.find wanted = some value ↔ value ∈ list.values ∧ key value = wanted := by
  constructor
  · intro found
    exact ⟨List.mem_of_find?_eq_some found, key_of_find found⟩
  · rintro ⟨member, same⟩
    cases found : list.find wanted with
    | none =>
        have other := List.find?_eq_none.mp found value member
        exact absurd (decide_eq_true same) other
    | some first =>
        have inside := List.mem_of_find?_eq_some found
        have keyed := (key_of_find found).trans same.symm
        rw [List.inj_on_of_nodup_map list.keys_nodup inside member keyed]

/-- Two lists in order that agree on the keys of what passes a test have the
same values that pass it, in the same order. -/
theorem filter_eq_of_find {one two : Ordered key} {test : Value → Bool}
    (same : ∀ value, test value = true → one.find (key value) = two.find (key value)) :
    one.values.filter test = two.values.filter test := by
  have members : ∀ value, value ∈ one.values.filter test ↔ value ∈ two.values.filter test := by
    intro value
    rw [List.mem_filter, List.mem_filter]
    apply and_congr_left
    intro passes
    have looked := same value passes
    constructor
    · intro member
      have found := one.find_eq_some_iff.mpr ⟨member, rfl⟩
      exact (two.find_eq_some_iff.mp (looked.symm.trans found)).1
    · intro member
      have found := two.find_eq_some_iff.mpr ⟨member, rfl⟩
      exact (one.find_eq_some_iff.mp (looked.trans found)).1
  apply List.Perm.eq_of_pairwise _ (one.ascending.filter test) (two.ascending.filter test)
  · exact (List.perm_ext_iff_of_nodup (one.nodup.filter test) (two.nodup.filter test)).mpr members
  · intro first second _ _ before after
    exact absurd after (Std.Asymm.asymm _ _ before)

end Lookup

end Ordered

end Grunt.Foundation
