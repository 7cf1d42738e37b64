import Mathlib.Data.List.DropRight
import Mathlib.Data.List.Basic

/-! # Reading a numbered list by pages

A list ascends by a number. A reader asks for what lies above a number, with a
limit that keeps the newest, and goes on from the highest number it was given
until nothing comes.
-/

namespace Grunt.Foundation

variable {Row : Type}

def newest (limit : Int) (rows : List Row) : List Row :=
  if 0 < limit then rows.rtake limit.toNat else rows

section Newest

variable {limit : Int} {rows : List Row}

theorem newest_suffix : newest limit rows <:+ rows := by
  rw [newest]
  split
  · exact List.drop_suffix _ _
  · exact List.suffix_rfl

theorem length_newest (limited : 0 < limit) :
    (newest limit rows).length = min limit.toNat rows.length := by
  rw [newest, if_pos limited, List.rtake, List.length_drop]
  omega

theorem newest_eq_self_iff :
    newest limit rows = rows ↔ limit ≤ 0 ∨ rows.length ≤ limit.toNat := by
  by_cases limited : 0 < limit
  · constructor
    · intro same
      have length : (newest limit rows).length = min limit.toNat rows.length :=
        length_newest limited
      rw [same] at length
      omega
    · intro enough
      apply newest_suffix.eq_of_length
      rw [length_newest limited]
      omega
  · rw [newest, if_neg limited]
    simp only [true_iff]
    omega

end Newest

/-! ## Pages -/

section Pages

variable (number : Row → Nat)

def above (since : Int) (rows : List Row) : List Row :=
  rows.filter fun row => since < number row

def highest (page : List Row) : Option Nat := (page.map number).max?

/-- A reader has been given these pages, each from where the one before it
ended, and after them an empty one. -/
inductive Pulls (page : Nat → List Row → Prop) : Nat → List (List Row) → Prop
  | done {since : Nat} : page since [] → Pulls page since []
  | more {since : Nat} {rows : List Row} {next : Nat} {pages : List (List Row)} :
      page since rows → highest number rows = some next → Pulls page next pages →
      Pulls page since (rows :: pages)

variable {number}
variable {since limit : Int} {rows : List Row}

theorem mem_above {row : Row} :
    row ∈ above number since rows ↔ row ∈ rows ∧ since < number row := by
  simp [above]

theorem ascending_above (ascending : (rows.map number).Pairwise (· < ·)) :
    ((above number since rows).map number).Pairwise (· < ·) :=
  ascending.sublist (List.filter_sublist.map number)

theorem less_of_left_out (ascending : (rows.map number).Pairwise (· < ·)) {kept left : Row}
    (inside : kept ∈ newest limit rows) (member : left ∈ rows)
    (outside : left ∉ newest limit rows) : number left < number kept := by
  rcases @newest_suffix _ limit rows with ⟨earlier, parts⟩
  rw [← parts, List.map_append] at ascending
  rw [← parts] at member
  rcases List.mem_append.mp member with before | now
  · exact (List.pairwise_append.mp ascending).2.2 _ (List.mem_map_of_mem before) _
      (List.mem_map_of_mem inside)
  · exact absurd now outside

variable {page : Nat → List Row → Prop}

end Pages

end Grunt.Foundation
