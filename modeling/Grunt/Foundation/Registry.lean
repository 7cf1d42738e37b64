import Mathlib.Data.Finset.Insert
import Mathlib.Logic.Function.Basic
import Grunt.Foundation.Table

/-! # Registries

A registry is a finite map from ids to entries that never gives an id twice. A
self-numbering table keeps one: its rows are what is live, and the numbers up
to its last are what it has given.
-/

namespace Grunt.Foundation

structure Registry (Id Entry : Type) where
  live : Id → Option Entry
  /-- Every id that was ever given, live or not. -/
  given : Finset Id
  live_given : ∀ id, live id ≠ none → id ∈ given

namespace Registry

section Map

variable {Id Entry : Type}

def empty : Registry Id Entry where
  live := fun _ => none
  given := ∅
  live_given := fun _ live => absurd rfl live

/-- These are the live entries, each of them once and in any order. -/
structure Lists (registry : Registry Id Entry) (entries : List (Id × Entry)) : Prop where
  once : (entries.map Prod.fst).Nodup
  exact : ∀ id entry, (id, entry) ∈ entries ↔ registry.live id = some entry

variable [DecidableEq Id]

def create (registry : Registry Id Entry) (id : Id) (entry : Entry) : Registry Id Entry where
  live := Function.update registry.live id (some entry)
  given := insert id registry.given
  live_given := by
    intro other live
    by_cases same : other = id
    · simp [same]
    · rw [Function.update_of_ne same] at live
      exact Finset.mem_insert_of_mem (registry.live_given other live)

def remove (registry : Registry Id Entry) (id : Id) : Registry Id Entry where
  live := Function.update registry.live id none
  given := registry.given
  live_given := by
    intro other live
    by_cases same : other = id
    · simp [same] at live
    · rw [Function.update_of_ne same] at live
      exact registry.live_given other live

variable {registry : Registry Id Entry} {id other : Id} {entry wanted : Entry}

theorem live_create : (registry.create id entry).live other = some wanted ↔
    (other = id ∧ entry = wanted) ∨ (other ≠ id ∧ registry.live other = some wanted) := by
  by_cases same : other = id
  · simp [create, same]
  · simp [create, same, Function.update_of_ne]

theorem live_remove : (registry.remove id).live other = some wanted ↔
    other ≠ id ∧ registry.live other = some wanted := by
  by_cases same : other = id
  · simp [remove, same]
  · simp [remove, same, Function.update_of_ne]

@[simp] theorem mem_given_create :
    other ∈ (registry.create id entry).given ↔ other = id ∨ other ∈ registry.given :=
  Finset.mem_insert

@[simp] theorem given_remove : (registry.remove id).given = registry.given := rfl

end Map

/-! ## Kept in a table -/

section Table

variable {Row Entry : Type} {limit : Nat}

/-- The registry is what the table keeps, with an entry for each row. -/
structure Reflects (entryOf : Row → Entry) (registry : Registry Nat Entry)
    (table : NumberedTable Row limit) : Prop where
  live : ∀ id entry, registry.live id = some entry ↔
    ∃ row, (id, row) ∈ table.rows ∧ entryOf row = entry
  given : ∀ id, id ∈ registry.given ↔ 0 < id ∧ id ≤ table.last

variable {entryOf : Row → Entry} {registry : Registry Nat Entry}
variable {table after : NumberedTable Row limit}

theorem Reflects.empty :
    Reflects entryOf Registry.empty (NumberedTable.empty : NumberedTable Row limit) where
  live := by simp [Registry.empty, NumberedTable.empty]
  given := by
    intro id
    simp only [Registry.empty, NumberedTable.empty, Finset.notMem_empty, false_iff]
    omega

theorem Reflects.live_ne_none (reflects : Reflects entryOf registry table) {id : Nat} {row : Row}
    (member : (id, row) ∈ table.rows) : registry.live id ≠ none := by
  rw [(reflects.live id _).mpr ⟨row, member, rfl⟩]
  exact Option.some_ne_none _

theorem Reflects.fresh (reflects : Reflects entryOf registry table) :
    table.last + 1 ∉ registry.given := by
  intro given
  have old := ((reflects.given _).mp given).2
  omega

theorem Reflects.insert (reflects : Reflects entryOf registry table) {row : Row}
    (inserted : table.insert row = some after) :
    Reflects entryOf (registry.create after.last (entryOf row)) after where
  live := by
    intro id entry
    obtain ⟨last, rows⟩ := NumberedTable.insert_eq_some inserted
    have unused : ∀ row, (after.last, row) ∉ table.rows := by
      intro row member
      have old := table.bounded _ member
      omega
    rw [live_create, reflects.live, rows, ← last]
    constructor
    · intro live
      rcases live with ⟨rfl, same⟩ | ⟨-, row, member, same⟩
      · exact ⟨row, by simp, same⟩
      · exact ⟨row, List.mem_append_left _ member, same⟩
    · rintro ⟨stored, member, same⟩
      rcases List.mem_append.mp member with old | new
      · refine .inr ⟨?_, stored, old, same⟩
        rintro rfl
        exact unused stored old
      · cases List.mem_singleton.mp new
        exact .inl ⟨rfl, same⟩
  given := by
    intro id
    obtain ⟨last, -⟩ := NumberedTable.insert_eq_some inserted
    rw [mem_given_create, reflects.given]
    omega

theorem Reflects.full (reflects : Reflects entryOf registry table) (positive : 0 < limit)
    {row : Row} (refused : table.insert row = none) : limit ∈ registry.given := by
  have last : limit ≤ table.last := by
    by_contra room
    rw [NumberedTable.insert, dif_pos (Nat.lt_of_not_le room)] at refused
    cases refused
  exact (reflects.given limit).mpr ⟨positive, last⟩

theorem Reflects.remove (reflects : Reflects entryOf registry table) {id : Nat}
    {matching : Nat → Row → Bool}
    (own : ∀ number row, matching number row = true ↔ number = id) :
    Reflects entryOf (registry.remove id) (table.remove matching) where
  live := by
    intro other entry
    rw [live_remove, reflects.live]
    simp only [NumberedTable.mem_remove, ← Bool.not_eq_true, own]
    constructor
    · rintro ⟨different, row, member, same⟩
      exact ⟨row, ⟨member, different⟩, same⟩
    · rintro ⟨row, ⟨member, different⟩, same⟩
      exact ⟨different, row, member, same⟩
  given := reflects.given

theorem Reflects.remove_none (reflects : Reflects entryOf registry table)
    {matching : Nat → Row → Bool}
    (others : ∀ entry ∈ table.rows, matching entry.1 entry.2 = false) :
    Reflects entryOf registry (table.remove matching) where
  live := by
    intro id entry
    rw [reflects.live]
    have kept : ∀ row, (id, row) ∈ (table.remove matching).rows ↔ (id, row) ∈ table.rows := by
      intro row
      rw [NumberedTable.mem_remove, and_iff_left_iff_imp]
      exact others (id, row)
    simp only [kept]
  given := reflects.given

theorem Reflects.lists (reflects : Reflects entryOf registry table) {rows : List (Nat × Row)}
    (same : rows.Perm table.rows) :
    registry.Lists (rows.map fun entry => (entry.1, entryOf entry.2)) where
  once := by
    rw [List.map_map]
    apply (same.map Prod.fst).nodup_iff.mpr
    exact table.ascending.imp Nat.ne_of_lt
  exact := by
    intro id entry
    rw [reflects.live, List.mem_map]
    constructor
    · rintro ⟨⟨number, row⟩, member, listed⟩
      cases listed
      exact ⟨row, same.subset member, rfl⟩
    · rintro ⟨row, member, rfl⟩
      exact ⟨(id, row), same.symm.subset member, rfl⟩

end Table

end Registry

end Grunt.Foundation
