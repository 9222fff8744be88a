import FairyMoves.Grid.Text

/-!
# Setting up grids

A grid can be described by its rows, by a text or by its sides, and changed square by square after
that.

## Main definitions

* `GridSetup` — a description of a grid
* `GridSetup.build` — the grid it describes, or the first fault of its rows
-/

namespace FairyMoves

/-- Where a grid comes from before any change. -/
inductive GridSource where
  | rows (rows : List String)
  | text (text : String)
  | sides (width height : Nat)
  deriving DecidableEq, Repr

/-- One square to write: column, row and state. -/
structure Placement where
  x : Nat
  y : Nat
  state : SquareState
  deriving DecidableEq, Repr

/-- A grid and the squares to write on it, in their order. -/
structure GridSetup where
  source : GridSource
  placements : List Placement := []
  deriving DecidableEq, Repr

/-- The grid of a source, or the first fault of its rows. -/
def GridSource.read : GridSource → Except GridError Grid
  | rows list => Grid.ofRows (list.map String.toList)
  | text t => Grid.ofText t
  | sides w h => .ok (Grid.empty w h)

/-- The grid after a list of placements. -/
def Grid.place (g : Grid) (placements : List Placement) : Grid :=
  placements.foldl (fun g p => g.set p.x p.y p.state) g

/-- The grid that a setup describes, or the first fault of its rows. -/
def GridSetup.build (setup : GridSetup) : Except GridError Grid :=
  setup.source.read.map fun g => g.place setup.placements

end FairyMoves
