import Mathlib.Data.Set.Prod
import Mathlib.Order.Interval.Set.LinearOrder
import Mathlib.Algebra.Order.Group.Abs
import Mathlib.Algebra.Order.Group.Int
import Mathlib.Tactic.Ring
import Mathlib.Data.Int.ConditionallyCompleteOrder
import Mathlib.Order.ConditionallyCompleteLattice.Basic

/-! # Rectangles

Rectangles of the integer grid, without their right and lower edges, and what
it means for a square to lie in the middle of one.
-/

namespace Grunt.Foundation

/-! ## Lines -/

/-- From `start` on, `side` of the cells from `low` up to `high` are taken, with
the same number left on both sides or one more on one of them. -/
structure Centres (low high start side : Int) : Prop where
  low_le : low ≤ start
  le_high : start + side ≤ high
  even : |(start - low) - (high - (start + side))| ≤ 1

theorem centres_iff {low high start side : Int} (fits : side ≤ high - low) :
    Centres low high start side ↔
      start - low = (high - low - side) / 2 ∨
        ((high - low - side) % 2 = 1 ∧ start - low = (high - low - side) / 2 + 1) := by
  constructor
  · intro centres
    have even := abs_le.mp centres.even
    omega
  · intro middle
    have even : -1 ≤ (start - low) - (high - (start + side)) ∧
        (start - low) - (high - (start + side)) ≤ 1 := by omega
    exact ⟨by omega, by omega, abs_le.mpr even⟩

/-! ## Rectangles -/

structure Point where
  x : Int
  y : Int
  deriving DecidableEq, Repr

structure Rectangle where
  min : Point
  max : Point
  deriving DecidableEq, Repr

namespace Rectangle

def ofCorners (x0 y0 x1 y1 : Int) : Rectangle where
  min := ⟨Min.min x0 x1, Min.min y0 y1⟩
  max := ⟨Max.max x0 x1, Max.max y0 y1⟩

def dx (rectangle : Rectangle) : Int := rectangle.max.x - rectangle.min.x
def dy (rectangle : Rectangle) : Int := rectangle.max.y - rectangle.min.y

def empty (rectangle : Rectangle) : Bool :=
  rectangle.max.x ≤ rectangle.min.x || rectangle.max.y ≤ rectangle.min.y

def points (rectangle : Rectangle) : Set (Int × Int) :=
  Set.Ico rectangle.min.x rectangle.max.x ×ˢ Set.Ico rectangle.min.y rectangle.max.y

variable {inner outer : Rectangle}

theorem nonempty_iff : outer.empty = false ↔ 0 < outer.dx ∧ 0 < outer.dy := by
  simp only [empty, dx, dy, Bool.or_eq_false_iff, decide_eq_false_iff_not]
  omega

theorem points_subset_iff (nonempty : inner.empty = false) :
    inner.points ⊆ outer.points ↔
      (outer.min.x ≤ inner.min.x ∧ inner.max.x ≤ outer.max.x) ∧
        outer.min.y ≤ inner.min.y ∧ inner.max.y ≤ outer.max.y := by
  rcases nonempty_iff.mp nonempty with ⟨wide, tall⟩
  have across : inner.min.x < inner.max.x := Int.sub_pos.mp wide
  have down : inner.min.y < inner.max.y := Int.sub_pos.mp tall
  have some : inner.points.Nonempty :=
    ⟨(inner.min.x, inner.min.y), ⟨le_rfl, across⟩, ⟨le_rfl, down⟩⟩
  rw [points, points, Set.prod_subset_prod_iff, Set.Ico_subset_Ico_iff across,
    Set.Ico_subset_Ico_iff down]
  have none := Set.prod_nonempty_iff.mp some
  simp only [none.1.ne_empty, none.2.ne_empty, or_false]

/-! ## The middle square -/

/-- A largest square of the rectangle, in its middle up to one cell. -/
structure MiddleSquare (square bounds : Rectangle) : Prop where
  inside : square.points ⊆ bounds.points
  width : square.dx = Min.min bounds.dx bounds.dy
  height : square.dy = Min.min bounds.dx bounds.dy
  /-- The margins on the left and on the right. -/
  across : |(square.min.x - bounds.min.x) - (bounds.max.x - square.max.x)| ≤ 1
  /-- The margins at the top and at the bottom. -/
  down : |(square.min.y - bounds.min.y) - (bounds.max.y - square.max.y)| ≤ 1

theorem middleSquare_iff {square bounds : Rectangle} (nonempty : bounds.empty = false) :
    MiddleSquare square bounds ↔
      (square.dx = Min.min bounds.dx bounds.dy ∧ square.dy = Min.min bounds.dx bounds.dy) ∧
        Centres bounds.min.x bounds.max.x square.min.x (Min.min bounds.dx bounds.dy) ∧
        Centres bounds.min.y bounds.max.y square.min.y (Min.min bounds.dx bounds.dy) := by
  have sides := nonempty_iff.mp nonempty
  have filled : square.dx = Min.min bounds.dx bounds.dy →
      square.dy = Min.min bounds.dx bounds.dy → square.empty = false := by
    intro width height
    apply nonempty_iff.mpr
    omega
  have right : square.min.x + square.dx = square.max.x := by
    rw [dx]
    ring
  have bottom : square.min.y + square.dy = square.max.y := by
    rw [dy]
    ring
  constructor
  · rintro ⟨inside, width, height, across, down⟩
    rcases (points_subset_iff (filled width height)).mp inside with ⟨⟨x0, x1⟩, y0, y1⟩
    rw [width] at right
    rw [height] at bottom
    exact ⟨⟨width, height⟩, ⟨x0, by omega, by rwa [right]⟩, y0, by omega, by rwa [bottom]⟩
  · rintro ⟨⟨width, height⟩, ⟨x0, x1, across⟩, y0, y1, down⟩
    rw [← width, right] at x1 across
    rw [← height, bottom] at y1 down
    exact ⟨(points_subset_iff (filled width height)).mpr ⟨⟨x0, x1⟩, y0, y1⟩,
      width, height, across, down⟩

end Rectangle

end Grunt.Foundation
