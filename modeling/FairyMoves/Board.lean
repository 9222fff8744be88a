import FairyMoves.Plane

/-!
# Boards as seen by the side to move

## Main definitions

* `SquareState` — what stands on a square: nothing, a piece of the side to move, or one of the other
* `Board` — the state of each square of the plane, none for a square that is off the board

## Main results

* `SquareState.ofSymbol?_eq_some_iff` — a character reads as a state just when it is its symbol
-/

namespace FairyMoves

/-- What the side to move sees on a square. -/
inductive SquareState where
  | empty
  | friendly
  | enemy
  deriving DecidableEq, Repr, Inhabited

namespace SquareState

/-- The states in the order in which they are listed. -/
def all : List SquareState := [.empty, .friendly, .enemy]

/-- The character that stands for a state in a board's text. -/
def symbol : SquareState → Char
  | .empty => '.'
  | .friendly => 'F'
  | .enemy => 'E'

/-- The state that a character stands for. -/
def ofSymbol? (c : Char) : Option SquareState := all.find? fun state => state.symbol == c

theorem ofSymbol?_symbol (state : SquareState) : ofSymbol? state.symbol = some state := by
  cases state <;> rfl

theorem ofSymbol?_eq_some_iff {c : Char} {state : SquareState} :
    ofSymbol? c = some state ↔ c = state.symbol := by
  constructor
  · intro h
    have hc := List.find?_some h
    exact (beq_iff_eq.mp hc).symm
  · rintro rfl
    exact ofSymbol?_symbol state

/-- The word for a state. -/
def name : SquareState → String
  | .empty => "Empty"
  | .friendly => "Friendly"
  | .enemy => "Enemy"

end SquareState

/-- A board says what stands on each square, and gives nothing for a square that it does not
have. -/
abbrev Board := Square → Option SquareState

end FairyMoves
