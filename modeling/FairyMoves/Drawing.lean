import FairyMoves.Grid

/-!
# Drawings of moves

A drawing shows a grid with the destinations of a piece marked on it, one row to a line, each line
ended by a newline.

## Main definitions

* `Drawing.mark` — the character that is drawn on a square
* `Drawing.draw` — the drawing of a list of destinations

## Main results

* `Drawing.mark_origin`, `Drawing.mark_of_not_mem` — the origin is marked whatever stands there, and
  a square that is neither it nor a destination shows its own symbol
-/

namespace FairyMoves.Drawing

/-- The character drawn on a square: `O` on the origin, `x` on an enemy at a destination, `*` on
another destination, and elsewhere the symbol of what stands there. -/
def mark (g : Grid) (origin : Square) (moves : List Square) (s : Square) : Char :=
  let state := (g.get? s).getD .empty
  if s = origin then 'O'
  else if moves.contains s then
    if state = .enemy then 'x' else '*'
  else state.symbol

@[simp] theorem mark_origin {g : Grid} {origin : Square} {moves : List Square} :
    mark g origin moves origin = 'O' := by
  simp [mark]

theorem mark_of_not_mem {g : Grid} {origin s : Square} {moves : List Square} (ho : s ≠ origin)
    (hm : s ∉ moves) : mark g origin moves s = ((g.get? s).getD .empty).symbol := by
  simp [mark, ho, hm]

/-- The number of columns or rows that can be drawn of a side: those with a coordinate. -/
def drawnSide (side : Nat) : Nat := min side 2147483647

/-- The line drawn for row `y`, without its newline. -/
def line (g : Grid) (origin : Square) (moves : List Square) (y : Nat) : List Char :=
  (List.range (drawnSide g.width)).map fun (x : Nat) => mark g origin moves ⟨x, y⟩

/-- The drawing of a list of destinations. -/
def draw (g : Grid) (origin : Square) (moves : List Square) : String :=
  String.ofList
    ((List.range (drawnSide g.height)).flatMap fun y => line g origin moves y ++ ['\n'])

end FairyMoves.Drawing
