import FairyMoves.Moves
import FairyMoves.Spelling

/-!
# Pieces

A piece is a spelling compiled once, for one side of the board. The side that plays down the board
sees it flipped: its deltas change sign in `y`. Direction letters choose among the deltas before
that, so forward is forward for either side.

## Main definitions

* `Geometry`, `Geometry.apply` — which side a piece plays from, and an atom as that side sees it
* `Piece`, `Piece.compile` — a named piece, and the one that a text spells
* `Piece.moves` — its destinations from a square
-/

namespace FairyMoves

/-- The side of the board that a piece plays from. -/
inductive Geometry where
  /-- Forward is up the `y` axis. -/
  | square
  /-- Forward is down the `y` axis. -/
  | flipped
  deriving DecidableEq, Repr, Inhabited

/-- An atom as a side of the board sees it. -/
def Geometry.apply : Geometry → MoveAtom → MoveAtom
  | square, a => a
  | flipped, a => a.withDeltas (a.deltas.map Delta.flipped)

/-- A piece with a name, its spelling and its atoms. -/
structure Piece where
  id : String
  source : String
  atoms : List MoveAtom
  deriving DecidableEq, Repr

namespace Piece

/-- The piece that a text spells for one side of the board, or what is wrong with the text. -/
def compile (geometry : Geometry) (id source : String) : Except SpellingError Piece :=
  (Spelling.compile source).map fun atoms => ⟨id, source, atoms.map geometry.apply⟩

/-- The squares to which a piece leads from a square of a board. -/
def moves (p : Piece) (board : Board) (origin : Square) : List Square :=
  generate p.atoms board origin

end Piece

end FairyMoves
