import FairyMoves.Moves.Hop
import FairyMoves.Moves.Leap
import FairyMoves.Moves.Slide

/-!
# Moves

The destinations of a piece are those of its atoms, one atom after the other. A square that several
atoms or deltas lead to is listed as often.

## Main definitions

* `MoveAtom.moves`, `MoveAtom.pushMoves` — the destinations of one atom, alone and put behind those
  in a list
* `Generation`, `generation` — the list that the atoms fill in turn, and the count of what each adds
* `generate` — the destinations of a list of atoms

## Main results

* `generate_eq_flatMap`, `counts_generation` — the list and the counts, atom by atom
* `generate_append` — the moves of two lists of atoms are those of the one and then of the other
-/

namespace FairyMoves

/-- The squares to which an atom leads from a square of a board. -/
def MoveAtom.moves (a : MoveAtom) (board : Board) (origin : Square) : List Square :=
  match a.kind with
  | .leap => Leap.moves a board origin
  | .slide => Slide.moves a board origin
  | .hop => Hop.moves a board origin

theorem MoveAtom.moves_of_slide {a : MoveAtom} (h : a.kind = .slide) (board : Board)
    (origin : Square) : a.moves board origin = Slide.moves a board origin := by
  rw [moves, h]

theorem MoveAtom.moves_of_hop {a : MoveAtom} (h : a.kind = .hop) (board : Board)
    (origin : Square) : a.moves board origin = Hop.moves a board origin := by
  rw [moves, h]

/-- Puts the moves of an atom behind those that are in the list. -/
def MoveAtom.pushMoves (a : MoveAtom) (board : Board) (origin : Square) (out : Array Square) :
    Array Square :=
  match a.kind with
  | .leap => Leap.push a board origin out
  | .slide => Slide.push a board origin out
  | .hop => Hop.push a board origin out

/-- No kind of move touches what is in the list. -/
theorem MoveAtom.toList_pushMoves (a : MoveAtom) (board : Board) (origin : Square)
    (out : Array Square) :
    (a.pushMoves board origin out).toList = out.toList ++ a.moves board origin := by
  unfold pushMoves moves
  cases a.kind with
  | leap => exact Leap.toList_push a board origin out
  | slide => exact Slide.toList_push a board origin out
  | hop => exact Hop.toList_push a board origin out

/-! ## Generating -/

/-- What has been generated so far: the moves, and how many of them each atom has given. -/
structure Generation where
  moves : Array Square
  counts : List (MoveAtom × Nat)
  deriving DecidableEq, Repr

namespace Generation

variable {board : Board} {origin : Square} {found : Generation} {a : MoveAtom}

/-- Nothing has been generated. -/
def start : Generation := ⟨#[], []⟩

/-- One more atom puts its moves behind those that have been found. It has given as many as the list
is longer by. -/
def add (board : Board) (origin : Square) (found : Generation) (a : MoveAtom) : Generation :=
  let before := found.moves.size
  let moves := a.pushMoves board origin found.moves
  ⟨moves, found.counts ++ [(a, moves.size - before)]⟩

theorem size_pushMoves (out : Array Square) :
    (a.pushMoves board origin out).size = out.size + (a.moves board origin).length := by
  rw [← Array.length_toList, a.toList_pushMoves, List.length_append, Array.length_toList]

/-- Each atom adds its own moves. -/
theorem toList_moves_foldl_add (atoms : List MoveAtom) :
    (atoms.foldl (add board origin) found).moves.toList =
      found.moves.toList ++ atoms.flatMap fun a => a.moves board origin := by
  induction atoms generalizing found with
  | nil => simp
  | cons a atoms ih =>
    rw [List.foldl_cons, ih, add, a.toList_pushMoves, List.append_assoc, List.flatMap_cons]

/-- Each atom counts its own moves. -/
theorem counts_foldl_add (atoms : List MoveAtom) :
    (atoms.foldl (add board origin) found).counts =
      found.counts ++ atoms.map fun a => (a, (a.moves board origin).length) := by
  induction atoms generalizing found with
  | nil => simp
  | cons a atoms ih =>
    rw [List.foldl_cons, ih, add, size_pushMoves, Nat.add_sub_cancel_left, List.append_assoc]
    rfl

end Generation

/-- Generates the moves of the atoms of a piece from a square of a board, one atom after the
other. -/
def generation (atoms : List MoveAtom) (board : Board) (origin : Square) : Generation :=
  atoms.foldl (Generation.add board origin) .start

/-- The squares to which the atoms of a piece lead from a square of a board. -/
def generate (atoms : List MoveAtom) (board : Board) (origin : Square) : List Square :=
  (generation atoms board origin).moves.toList

theorem generate_eq_flatMap (atoms : List MoveAtom) (board : Board) (origin : Square) :
    generate atoms board origin = atoms.flatMap fun a => a.moves board origin :=
  Generation.toList_moves_foldl_add atoms

theorem counts_generation (atoms : List MoveAtom) (board : Board) (origin : Square) :
    (generation atoms board origin).counts =
      atoms.map fun a => (a, (a.moves board origin).length) :=
  Generation.counts_foldl_add atoms

@[simp] theorem generate_nil {board : Board} {origin : Square} : generate [] board origin = [] :=
  rfl

@[simp] theorem generate_cons {a : MoveAtom} {atoms : List MoveAtom} {board : Board}
    {origin : Square} :
    generate (a :: atoms) board origin = a.moves board origin ++ generate atoms board origin := by
  rw [generate_eq_flatMap, List.flatMap_cons, generate_eq_flatMap]

theorem mem_generate {atoms : List MoveAtom} {board : Board} {origin s : Square} :
    s ∈ generate atoms board origin ↔ ∃ a ∈ atoms, s ∈ a.moves board origin := by
  rw [generate_eq_flatMap, List.mem_flatMap]

theorem generate_append {as bs : List MoveAtom} {board : Board} {origin : Square} :
    generate (as ++ bs) board origin = generate as board origin ++ generate bs board origin := by
  simp only [generate_eq_flatMap, List.flatMap_append]

end FairyMoves
