import FairyMoves.MoveAtom
import FairyMoves.Moves.Landing

/-!
# Leaps

A leap goes straight to its target, whatever stands between, unless it asks for a clear path. Then
every square on the way must be empty: the squares that divide the delta into equal steps, as many
as its greatest common divisor says.

## Main definitions

* `Leap.euclid`, `Leap.pathSteps` — the divisor, and the number of equal steps on the way
* `Leap.isPathClear` — the squares between those steps are on the board and empty
* `Leap.destination?`, `Leap.moves` — where a leap along one delta ends, and all leaps of an atom
* `Leap.push` — the leaps, put behind what is in a list

## Main results

* `Leap.euclid_eq_gcd` — the remainders lead to the greatest common divisor
-/

namespace FairyMoves.Leap

/-- The greatest common divisor of two numbers, by taking remainders until one is zero. -/
def euclid (a b : Nat) : Nat :=
  if _h : b = 0 then a else euclid b (a % b)
termination_by b
decreasing_by exact Nat.mod_lt a (Nat.pos_of_ne_zero _h)

theorem euclid_eq_gcd (a b : Nat) : euclid a b = Nat.gcd a b := by
  induction a, b using euclid.induct with
  | case1 a =>
    rw [euclid, dif_pos rfl, Nat.gcd_zero_right]
  | case2 a b hb ih =>
    rw [euclid, dif_neg hb, ih, Nat.gcd_comm b, ← Nat.gcd_rec, Nat.gcd_comm]

/-- The number of equal steps that a delta divides into, the greatest common divisor of its sides.
The count is a signed number of 32 bits, so that `2147483648`, the one divisor beyond the greatest
coordinate, wraps to `-2147483648`. -/
def pathSteps (d : Delta) : Int := (euclid d.dx.natAbs d.dy.natAbs : Int).bmod 4294967296

theorem pathSteps_eq_gcd (d : Delta) :
    pathSteps d = (Int.gcd d.dx d.dy : Int).bmod 4294967296 := by
  unfold pathSteps
  exact congrArg (fun n : Nat => (n : Int).bmod 4294967296)
    (euclid_eq_gcd d.dx.natAbs d.dy.natAbs)

/-- One of the equal steps of a delta. -/
def unitStep (d : Delta) : Delta := ⟨d.dx / pathSteps d, d.dy / pathSteps d⟩

/-- The square after `i` of these steps is on the board and empty. -/
def isStepClear (board : Board) (origin : Square) (step : Delta) (i : Nat) : Bool :=
  ((step.scaled? i).bind origin.offset?).bind board == some .empty

/-- Every square between the first step and the target is on the board and empty. A delta of at most
one step, by its signed count, has nothing on its way. -/
def isPathClear (board : Board) (origin : Square) (d : Delta) : Bool :=
  let step := unitStep d
  -- The last of the steps comes down on the target itself, which need not be empty.
  (pathSteps d - 1).toNat.all fun i _ => isStepClear board origin step (i + 1)

/-- The square where a leap along `d` ends, if there is one. -/
def destination? (set : ModifierSet) (board : Board) (origin : Square) (d : Delta) :
    Option Square :=
  (origin.offset? d).bind fun target =>
    (board target).bind fun state =>
      if set.requiresClearPath && !isPathClear board origin d then none
      else set.land? board d target state

/-- The leaps of an atom, in the order of its deltas. -/
def moves (a : MoveAtom) (board : Board) (origin : Square) : List Square :=
  a.deltas.filterMap (destination? a.modifiers board origin)

/-- Puts the leaps of an atom behind the moves that are in the list. -/
def push (a : MoveAtom) (board : Board) (origin : Square) (out : Array Square) : Array Square :=
  pushEnds (destination? a.modifiers board origin) a.deltas out

theorem toList_push (a : MoveAtom) (board : Board) (origin : Square) (out : Array Square) :
    (push a board origin out).toList = out.toList ++ moves a board origin :=
  toList_pushEnds _ _ _

end FairyMoves.Leap
