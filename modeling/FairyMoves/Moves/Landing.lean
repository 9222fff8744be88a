import FairyMoves.Board
import FairyMoves.ModifierSet

/-!
# Landing

Where a move may end. Every kind of move that ends on one target uses the same rule for it.

## Main definitions

* `ModifierSet.mayLand` — a move may end on a square in this state
* `leapOn?` — the empty square to which a piece leaps on from the one where it captured
* `ModifierSet.land?` — the square where a leap or hop ends that comes down on a target
* `pushEnds` — the ends of the moves along deltas, put behind what is in a list

## Main results

* `leapOn?_eq_some_iff` — leaping on needs an enemy to capture and an empty square beyond
-/

namespace FairyMoves

/-- A move may end on a square in this state: on an empty one unless it has to capture, on an enemy
unless it must not, on a friend never. -/
def ModifierSet.mayLand (set : ModifierSet) : SquareState → Bool
  | .empty => !set.captureOnly && !set.mustCaptureFirst
  | .enemy => !set.moveOnly && !set.mustNotCaptureFirst
  | .friendly => false

/-- The square to which a piece leaps on from `target`, where `state` stands: as far again, if it
captures there and the square beyond is empty. -/
def leapOn? (board : Board) (d : Delta) (target : Square) (state : SquareState) : Option Square :=
  if state = .enemy then
    (target.offset? d).filter fun beyond => board beyond == some .empty
  else none

theorem leapOn?_eq_some_iff {board : Board} {d : Delta} {target beyond : Square} {q : SquareState} :
    leapOn? board d target q = some beyond ↔
      q = .enemy ∧ target.offset? d = some beyond ∧ board beyond = some .empty := by
  by_cases h : q = .enemy <;> simp [leapOn?, h]

/-- The square where a leap or hop along `d` ends that comes down on `target`, where `state`
stands. -/
def ModifierSet.land? (set : ModifierSet) (board : Board) (d : Delta) (target : Square)
    (state : SquareState) : Option Square :=
  if set.captureThenLeap then leapOn? board d target state
  else if set.mayLand state then some target
  else none

/-! ## Pushing -/

/-- Puts the squares where the moves along deltas end behind those that are in the list. -/
def pushEnds (end? : Delta → Option Square) (ds : List Delta) (out : Array Square) : Array Square :=
  ds.foldl (fun out d => (end? d).elim out out.push) out

theorem toList_pushEnds (end? : Delta → Option Square) (ds : List Delta) (out : Array Square) :
    (pushEnds end? ds out).toList = out.toList ++ ds.filterMap end? := by
  unfold pushEnds
  induction ds generalizing out with
  | nil => simp
  | cons d ds ih =>
    rw [List.foldl_cons, ih]
    cases hend : end? d with
    | none => rw [List.filterMap_cons_none hend, Option.elim_none]
    | some s =>
      rw [List.filterMap_cons_some hend, Option.elim_some, Array.toList_push, List.append_assoc,
        List.singleton_append]

end FairyMoves
