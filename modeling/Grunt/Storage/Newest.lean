import Mathlib.Data.List.DropRight
import Grunt.Storage.Sqlite

/-! # The newest messages

The table of messages is in the order of its ids, so what the queries for
messages answer is the end of it.
-/

namespace Grunt.Storage

open Foundation

/-- An id above the first of the newest messages, or any id when there are
fewer of them than were asked for. -/
def Newer (limit : Nat) (newest : List Nat) (id : Nat) : Prop :=
  newest.length < limit ∨ ∃ first ∈ newest, first < id

section Rows

variable {rows sorted : List (Nat × MessageRow)}

instance : Std.Total fun left right : Nat × MessageRow => left.1 ≤ right.1 where
  total := fun left right => Nat.le_total left.1 right.1

instance : IsTrans (Nat × MessageRow) fun left right => left.1 ≤ right.1 where
  trans := fun _ _ _ => Nat.le_trans

theorem eq_of_ascending (same : rows.Perm sorted)
    (ascending : (sorted.map Prod.fst).Pairwise (· < ·))
    (ordered : rows.Pairwise fun left right => left.1 ≤ right.1) : rows = sorted := by
  have distinct : (sorted.map Prod.fst).Nodup := ascending.imp fun less => Nat.ne_of_lt less
  have sortedOrdered : sorted.Pairwise fun left right => left.1 ≤ right.1 :=
    (List.pairwise_map.mp ascending).imp Nat.le_of_lt
  apply List.Perm.eq_of_pairwise _ ordered sortedOrdered same
  intro one two oneMem twoMem less more
  exact List.inj_on_of_nodup_map distinct (same.mem_iff.mp oneMem) twoMem
    (Nat.le_antisymm less more)

theorem orderAscending_eq (same : rows.Perm sorted)
    (ascending : (sorted.map Prod.fst).Pairwise (· < ·)) :
    Query.orderAscending rows = sorted :=
  eq_of_ascending ((List.perm_insertionSort _ rows).trans same) ascending
    (List.pairwise_insertionSort _ rows)

theorem orderedInsert_descending {least : Nat × MessageRow}
    (below : ∀ row ∈ rows, least.1 < row.1) :
    rows.orderedInsert (fun left right => right.1 ≤ left.1) least = rows ++ [least] := by
  induction rows with
  | nil => rfl
  | cons row rows induction =>
      have first : ¬ row.1 ≤ least.1 := Nat.not_le_of_lt (below row List.mem_cons_self)
      rw [List.orderedInsert_cons, if_neg first, List.cons_append]
      rw [induction fun other member => below other (List.mem_cons_of_mem row member)]

theorem orderDescending_eq (ascending : (rows.map Prod.fst).Pairwise (· < ·)) :
    Query.orderDescending rows = rows.reverse := by
  induction rows with
  | nil => rfl
  | cons row rows induction =>
      rcases List.pairwise_cons.mp ascending with ⟨least, others⟩
      have sorted : rows.insertionSort (fun left right => right.1 ≤ left.1) = rows.reverse :=
        induction others
      rw [Query.orderDescending, List.insertionSort_cons, sorted, List.reverse_cons]
      apply orderedInsert_descending
      intro other member
      exact least other.1 (List.mem_map_of_mem (List.mem_reverse.mp member))

end Rows

section Newest

variable {tables : Tables} {since : Int} {limit : Nat}

theorem ascending_after : ((Query.after since tables.messages.rows).map Prod.fst).Pairwise
    (· < ·) :=
  tables.messages.ascending.sublist (List.filter_sublist.map Prod.fst)

theorem eval_lastMessages :
    Query.eval (.lastMessages since limit) tables =
      (Query.after since tables.messages.rows).rtake limit := by
  have ascending := @ascending_after tables since
  have newest : (((Query.after since tables.messages.rows).rtake limit).map Prod.fst).Pairwise
      (· < ·) := ascending.sublist ((List.drop_sublist _ _).map Prod.fst)
  have reversed : (Query.orderDescending (Query.after since tables.messages.rows)).take limit =
      ((Query.after since tables.messages.rows).rtake limit).reverse := by
    rw [orderDescending_eq ascending, List.rtake_eq_reverse_take_reverse, List.reverse_reverse]
  have sorted := orderAscending_eq (List.reverse_perm _) newest
  rw [← reversed] at sorted
  exact sorted

def answered (since : Int) (limit : Nat) (tables : Tables) : List Nat :=
  (Query.eval (.lastMessages since limit) tables : List (Nat × MessageRow)).map Prod.fst

theorem answered_eq : answered since limit tables =
    ((Query.after since tables.messages.rows).map Prod.fst).rtake limit := by
  rw [answered, eval_lastMessages, List.rtake, List.rtake, List.map_drop, List.length_map]

theorem nodup_answered : (answered since limit tables).Nodup := by
  rw [answered_eq]
  have distinct := (@ascending_after tables since).imp fun less => Nat.ne_of_lt less
  exact List.Nodup.sublist (List.drop_sublist _ _) distinct

theorem saved_of_answered {id : Nat} (member : id ∈ answered since limit tables) :
    id ∈ tables.messages.rows.map Prod.fst := by
  rw [answered_eq] at member
  exact (List.filter_sublist.map Prod.fst).subset (List.mem_of_mem_drop member)

theorem mem_rtake {ids : List Nat} {id : Nat} (ascending : ids.Pairwise (· < ·))
    (member : id ∈ ids) (newer : Newer limit (ids.rtake limit) id) : id ∈ ids.rtake limit := by
  have parts : ids.take (ids.length - limit) ++ ids.rtake limit = ids :=
    List.take_append_drop _ ids
  rw [← parts] at member ascending
  rcases List.mem_append.mp member with earlier | now
  · rcases newer with short | ⟨first, inside, less⟩
    · have everything : ids.length - limit = 0 := by
        rw [List.rtake, List.length_drop] at short
        omega
      rw [everything] at earlier
      cases earlier
    · have more := (List.pairwise_append.mp ascending).2.2 id earlier first inside
      exact absurd less (Nat.lt_asymm more)
  · exact now

theorem answered_of_newer {id : Nat} (saved : id ∈ tables.messages.rows.map Prod.fst)
    (above : since < id) (newer : Newer limit (answered since limit tables) id) :
    id ∈ answered since limit tables := by
  rw [answered_eq] at newer ⊢
  apply mem_rtake ascending_after _ newer
  rcases List.mem_map.mp saved with ⟨row, inside, rfl⟩
  exact List.mem_map_of_mem (List.mem_filter.mpr ⟨inside, decide_eq_true above⟩)

end Newest

end Grunt.Storage
