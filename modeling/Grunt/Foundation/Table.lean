import Mathlib.Data.List.Nodup
import Mathlib.Data.List.Pairwise

/-! # Tables with a key

A `KeyedTable` keeps its rows in the order they were inserted and carries the
uniqueness of its key. A `NumberedTable` numbers its rows itself, in strictly
increasing order and never twice, up to a largest number.
-/

namespace Grunt.Foundation

theorem find?_of_nodup {Row Key : Type} [DecidableEq Key] {rows : List Row} {key : Row → Key}
    (nodup : (rows.map key).Nodup) {row : Row} (member : row ∈ rows) :
    (rows.find? fun other => key other = key row) = some row := by
  cases found : rows.find? fun other => key other = key row with
  | none => simpa using List.find?_eq_none.mp found row member
  | some other =>
      have same : key other = key row := by simpa using List.find?_some found
      rw [List.inj_on_of_nodup_map nodup (List.mem_of_find?_eq_some found) member same]

theorem filter_of_nodup {Row Key : Type} {rows : List Row} {key : Row → Key}
    (nodup : (rows.map key).Nodup) {row : Row} (member : row ∈ rows) {matching : Row → Bool}
    (own : matching row = true) (only : ∀ other, matching other = true → key other = key row) :
    rows.filter matching = [row] := by
  induction rows with
  | nil => cases member
  | cons head tail induction =>
      rw [List.map_cons, List.nodup_cons] at nodup
      rcases List.mem_cons.mp member with rfl | later
      · have others : tail.filter matching = [] := by
          rw [List.filter_eq_nil_iff]
          intro other otherMem matched
          exact nodup.1 (only other matched ▸ List.mem_map_of_mem otherMem)
        rw [List.filter_cons_of_pos own, others]
      · have unmatched : ¬ matching head = true := by
          intro matched
          exact nodup.1 (only head matched ▸ List.mem_map_of_mem later)
        rw [List.filter_cons_of_neg unmatched, induction nodup.2 later]

/-- A table with a uniqueness constraint on `key`. -/
structure KeyedTable (Row : Type) {Key : Type} (key : Row → Key) where
  rows : List Row
  unique : (rows.map key).Nodup

namespace KeyedTable

variable {Row Key : Type} {key : Row → Key}

def empty : KeyedTable Row key where
  rows := []
  unique := List.nodup_nil

@[ext] theorem ext {left right : KeyedTable Row key}
    (rows : left.rows = right.rows) : left = right := by
  cases left
  cases right
  cases rows
  rfl

theorem eq_of_key_eq (table : KeyedTable Row key) {left right : Row}
    (leftMem : left ∈ table.rows) (rightMem : right ∈ table.rows)
    (equal : key left = key right) : left = right :=
  List.inj_on_of_nodup_map table.unique leftMem rightMem equal

section Insert

variable [DecidableEq Key]

def find (table : KeyedTable Row key) (wanted : Key) : Option Row :=
  table.rows.find? fun row => key row = wanted

theorem find_eq_some {table : KeyedTable Row key} {wanted : Key} {row : Row} :
    table.find wanted = some row ↔ row ∈ table.rows ∧ key row = wanted := by
  constructor
  · intro found
    exact ⟨List.mem_of_find?_eq_some found, by simpa using List.find?_some found⟩
  · rintro ⟨member, rfl⟩
    exact find?_of_nodup table.unique member

/-- Insert at the end; `none` when the key is taken. -/
def insert (table : KeyedTable Row key) (row : Row) : Option (KeyedTable Row key) :=
  if taken : key row ∈ table.rows.map key then none
  else some {
    rows := table.rows ++ [row]
    unique := by
      rw [List.map_append]
      refine List.nodup_append.mpr ⟨table.unique, by simp, ?_⟩
      intro existing member inserted insertedMem equal
      simp only [List.map_cons, List.map_nil, List.mem_singleton] at insertedMem
      subst insertedMem
      exact taken (equal ▸ member) }

theorem insert_eq_some {table after : KeyedTable Row key} {row : Row} :
    table.insert row = some after ↔
      key row ∉ table.rows.map key ∧ after.rows = table.rows ++ [row] := by
  unfold insert
  split
  case isTrue taken => simp [taken]
  case isFalse free =>
    constructor
    · intro inserted
      cases inserted
      exact ⟨free, rfl⟩
    · rintro ⟨-, rows⟩
      exact congrArg some (ext rows.symm)

theorem insert_eq_none {table : KeyedTable Row key} {row : Row} :
    table.insert row = none ↔ key row ∈ table.rows.map key := by
  unfold insert
  split <;> simp_all

theorem find_insert {table after : KeyedTable Row key} {row : Row}
    (inserted : table.insert row = some after) (wanted : Key) :
    after.find wanted = if key row = wanted then some row else table.find wanted := by
  obtain ⟨free, rows⟩ := insert_eq_some.mp inserted
  rw [find, rows, List.find?_append, List.find?_singleton]
  by_cases same : key row = wanted
  · have missing : table.rows.find? (fun other => key other = wanted) = none := by
      refine List.find?_eq_none.mpr fun other member => ?_
      rw [decide_eq_true_eq]
      rintro rfl
      exact free (same ▸ List.mem_map_of_mem member)
    simp [same, missing]
  · simp [same, find]

end Insert

def update (table : KeyedTable Row key) (matching : Row → Bool) (change : Row → Row)
    (keeps : ∀ row, key (change row) = key row) : KeyedTable Row key where
  rows := table.rows.map fun row => bif matching row then change row else row
  unique := by
    have keys : (table.rows.map fun row => bif matching row then change row else row).map
        key = table.rows.map key := by
      rw [List.map_map]
      apply List.map_congr_left
      intro row _
      cases found : matching row <;> simp [found, keeps]
    rw [keys]
    exact table.unique

@[simp] theorem update_rows (table : KeyedTable Row key) (matching : Row → Bool)
    (change : Row → Row) (keeps : ∀ row, key (change row) = key row) :
    (table.update matching change keeps).rows =
      table.rows.map fun row => bif matching row then change row else row := rfl

@[simp] theorem update_keys (table : KeyedTable Row key) (matching : Row → Bool)
    (change : Row → Row) (keeps : ∀ row, key (change row) = key row) :
    (table.update matching change keeps).rows.map key = table.rows.map key := by
  rw [update_rows, List.map_map]
  apply List.map_congr_left
  intro row _
  cases found : matching row <;> simp [found, keeps]

theorem find_update [DecidableEq Key] (table : KeyedTable Row key) (matching : Row → Bool)
    (change : Row → Row) (keeps : ∀ row, key (change row) = key row) (wanted : Key) :
    (table.update matching change keeps).find wanted =
      (table.find wanted).map fun row => bif matching row then change row else row := by
  have same : (fun row => decide (key row = wanted)) ∘
      (fun row => bif matching row then change row else row) =
        fun row => decide (key row = wanted) := by
    funext row
    cases found : matching row <;> simp [found, keeps]
  rw [find, update_rows, List.find?_map, same]
  rfl

theorem mem_update {table : KeyedTable Row key} {matching : Row → Bool}
    {change : Row → Row} {keeps : ∀ row, key (change row) = key row} {row : Row} :
    row ∈ (table.update matching change keeps).rows ↔
      (∃ old ∈ table.rows, matching old = true ∧ row = change old) ∨
        (row ∈ table.rows ∧ matching row = false) := by
  rw [update_rows, List.mem_map]
  constructor
  · rintro ⟨old, member, rfl⟩
    cases found : matching old with
    | true => exact .inl ⟨old, member, found, by simp⟩
    | false => exact .inr ⟨by simpa using member, by simpa using found⟩
  · rintro (⟨old, member, found, rfl⟩ | ⟨member, found⟩)
    · exact ⟨old, member, by simp [found]⟩
    · exact ⟨row, member, by simp [found]⟩

end KeyedTable

/-! ## Self-numbering tables -/

/-- A table that gives every row the number after the last one it ever gave,
up to `limit`. -/
structure NumberedTable (Row : Type) (limit : Nat) where
  rows : List (Nat × Row)
  last : Nat
  ascending : (rows.map Prod.fst).Pairwise (· < ·)
  bounded : ∀ entry ∈ rows, entry.1 ≤ last
  last_le : last ≤ limit

namespace NumberedTable

variable {Row : Type} {limit : Nat}

def empty : NumberedTable Row limit where
  rows := []
  last := 0
  ascending := List.Pairwise.nil
  bounded := by simp
  last_le := Nat.zero_le limit

@[ext] theorem ext {left right : NumberedTable Row limit}
    (rows : left.rows = right.rows) (last : left.last = right.last) : left = right := by
  cases left
  cases right
  cases rows
  cases last
  rfl

/-- Insert a row under the next number; `none` when the numbers have run out. -/
def insert (table : NumberedTable Row limit) (row : Row) :
    Option (NumberedTable Row limit) :=
  if room : table.last < limit then
    some {
      rows := table.rows ++ [(table.last + 1, row)]
      last := table.last + 1
      ascending := by
        rw [List.map_append]
        refine List.pairwise_append.mpr ⟨table.ascending, by simp, ?_⟩
        intro number member next nextMem
        simp only [List.map_cons, List.map_nil, List.mem_singleton] at nextMem
        subst nextMem
        obtain ⟨entry, entryMem, rfl⟩ := List.mem_map.mp member
        exact Nat.lt_succ_of_le (table.bounded entry entryMem)
      bounded := by
        intro entry member
        rcases List.mem_append.mp member with old | new
        · exact Nat.le_succ_of_le (table.bounded entry old)
        · exact Nat.le_of_eq (congrArg Prod.fst (List.mem_singleton.mp new))
      last_le := room }
  else none

theorem insert_eq_some {table after : NumberedTable Row limit} {row : Row}
    (inserted : table.insert row = some after) :
    after.last = table.last + 1 ∧ after.rows = table.rows ++ [(table.last + 1, row)] := by
  unfold insert at inserted
  split at inserted
  case isTrue room =>
    cases inserted
    exact ⟨rfl, rfl⟩
  case isFalse => cases inserted

def remove (table : NumberedTable Row limit) (matching : Nat → Row → Bool) :
    NumberedTable Row limit where
  rows := table.rows.filter fun entry => !matching entry.1 entry.2
  last := table.last
  ascending := table.ascending.sublist (List.filter_sublist.map Prod.fst)
  bounded := fun entry member => table.bounded entry (List.mem_filter.mp member).1
  last_le := table.last_le

@[simp] theorem mem_remove {table : NumberedTable Row limit}
    {matching : Nat → Row → Bool} {entry : Nat × Row} :
    entry ∈ (table.remove matching).rows ↔
      entry ∈ table.rows ∧ matching entry.1 entry.2 = false := by
  simp [remove]

end NumberedTable

end Grunt.Foundation
