import FairyMoves.Plane

/-!
# Directions

Direction letters restrict a piece to the steps that point one way. Forward is up the `y` axis, left
is down the `x` axis.

## Main definitions

* `Direction.agrees` — a step points in a direction; a slanting step points in two
* `Directions` — a set of directions, with `insert`, `contains` and `ofList`
* `Directions.allows` — a step points in one of them

## Main results

* `Directions.contains_insert` — inserting adds one direction and nothing else
* `Directions.allows_iff` — one direction that agrees with a step is enough
-/

namespace FairyMoves

/-- A direction of the board, as its owner sees it. -/
inductive Direction where
  | forward
  | backward
  | left
  | right
  deriving DecidableEq, Repr, Inhabited

namespace Direction

/-- The directions in the order in which they are listed. -/
def all : List Direction := [forward, backward, left, right]

theorem mem_all (dir : Direction) : dir ∈ all := by
  cases dir <;> decide

/-- The word for a direction. -/
def name : Direction → String
  | forward => "Forward"
  | backward => "Backward"
  | left => "Left"
  | right => "Right"

/-- The step points in this direction. -/
def agrees : Direction → Delta → Bool
  | forward, d => 0 < d.dy
  | backward, d => d.dy < 0
  | left, d => d.dx < 0
  | right, d => 0 < d.dx

end Direction

/-- A set of directions. -/
structure Directions where
  forward : Bool := false
  backward : Bool := false
  left : Bool := false
  right : Bool := false
  deriving DecidableEq, Repr, Inhabited

namespace Directions

/-- The set without directions. -/
def empty : Directions := {}

/-- The direction belongs to the set. -/
def contains (ds : Directions) : Direction → Bool
  | .forward => ds.forward
  | .backward => ds.backward
  | .left => ds.left
  | .right => ds.right

/-- The set with one more direction. -/
def insert (ds : Directions) : Direction → Directions
  | .forward => { ds with forward := true }
  | .backward => { ds with backward := true }
  | .left => { ds with left := true }
  | .right => { ds with right := true }

theorem contains_insert {ds : Directions} {a b : Direction} :
    (ds.insert a).contains b = (a == b || ds.contains b) := by
  cases a <;> cases b <;> rfl

/-- The set with all directions of a list added to it. -/
def insertAll (ds : Directions) (list : List Direction) : Directions := list.foldl insert ds

/-- The directions of a list, as a set. -/
def ofList (list : List Direction) : Directions := empty.insertAll list

/-- The directions of a set, in their usual order. -/
def toList (ds : Directions) : List Direction := Direction.all.filter ds.contains

/-- The step points in a direction of the set. -/
def allows (ds : Directions) (d : Delta) : Bool :=
  Direction.all.any fun dir => ds.contains dir && dir.agrees d

theorem allows_iff {ds : Directions} {d : Delta} :
    ds.allows d = true ↔ ∃ dir, ds.contains dir = true ∧ dir.agrees d = true := by
  simp [allows, Direction.mem_all]

/-- A set is written in braces, as in `{Forward, Left}`. -/
def toText (ds : Directions) : String :=
  "\x7b" ++ ", ".intercalate (ds.toList.map Direction.name) ++ "\x7d"

end Directions

end FairyMoves
