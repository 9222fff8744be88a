import FairyMoves.MoveAtom
import FairyMoves.Moves.Landing

/-!
# Slides

A slide looks at square after square until it runs into something, off the board or to its limit,
and may end on the squares that it has seen. The square of a step is a multiple of a delta away from
the origin; a zigzag takes its delta in turn from two.

## Main definitions

* `Slide.Course` — the delta that each step multiplies
* `Slide.courses` — the courses of an atom: one zigzag, or one straight course for each delta
* `Slide.reach?` — the square of a step
* `Slide.blocks`, `Slide.mayStop` — what ends a slide, and where it may end
* `Slide.sights` — the squares that a slide looks at, with what stands on each
* `Slide.walk`, `Slide.moves` — the slides along one course, and all slides of an atom
* `Slide.pushWalk`, `Slide.push` — the same, put behind what is in a list, a square at a time

## Main results

* `Slide.step_le_of_reach?` — a step has a square only if its number is a coordinate, which is why a
  slide ends
* `Slide.reach?_eq_some_iff` — the square of a step is the exact multiple
* `Slide.toList_push` — pushing keeps what is in the list, and puts the slides behind
-/

namespace FairyMoves.Slide

/-! ## Courses -/

/-- The delta whose multiple leads to the square of each step. Steps are numbered from one. -/
abbrev Course := Nat → Delta

/-- The course along one delta. -/
def straight (d : Delta) : Course := fun _ => d

/-- The course that takes one delta at odd steps and another at even ones. -/
def zigzag (odd even : Delta) : Course := fun step => if step % 2 = 1 then odd else even

/-- The courses of an atom. A zigzag needs two deltas, and uses the first two only. -/
def courses (a : MoveAtom) : List Course :=
  match a.modifiers.zigzag, a.deltas with
  -- Deltas beyond the first two play no part in a zigzag.
  | true, odd :: even :: _ => [zigzag odd even]
  | _, ds => ds.map straight

/-- The square of a step: the delta is taken `step` times, with neither the number of the step nor
the multiple nor the sum leaving the plane. -/
def reach? (origin : Square) (d : Delta) (step : Nat) : Option Square :=
  if (step : Int) ≤ maxCoordinate then (d.scaled? step).bind origin.offset? else none

theorem reach?_eq_some_iff {origin s : Square} {d : Delta} {step : Nat} :
    reach? origin d step = some s ↔
      (step : Int) ≤ maxCoordinate ∧ (d.scaled step).InPlane ∧
        (origin.offset (d.scaled step)).InPlane ∧ origin.offset (d.scaled step) = s := by
  by_cases h : (step : Int) ≤ maxCoordinate
  · simp only [reach?, h, if_true, Option.bind_eq_some_iff, Delta.scaled?_eq_some_iff,
      Square.offset?_eq_some_iff, true_and]
    constructor
    · rintro ⟨e, ⟨he, rfl⟩, ho, rfl⟩
      exact ⟨he, ho, rfl⟩
    · rintro ⟨he, ho, rfl⟩
      exact ⟨_, ⟨he, rfl⟩, ho, rfl⟩
  · simp [reach?, h]

theorem step_le_of_reach? {origin s : Square} {d : Delta} {step : Nat}
    (h : reach? origin d step = some s) : step ≤ 2147483647 := by
  have hs := (reach?_eq_some_iff.mp h).1
  simp only [maxCoordinate] at hs
  omega

/-! ## The walk -/

/-- A slide does not go on past a square in this state. -/
def blocks (set : ModifierSet) : SquareState → Bool
  | .empty => false
  | .friendly => !set.unblockable
  | .enemy => !set.unblockable && !set.takeAndContinue

/-- A slide may end on a square in this state. One that takes and goes on may end wherever no friend
stands. -/
def mayStop (set : ModifierSet) (state : SquareState) : Bool :=
  if set.takeAndContinue then state ≠ .friendly else set.mayLand state

/-- A slide goes on past what it sees on a square: not off the board, and not past what blocks
it. -/
def goesOn (set : ModifierSet) : Option SquareState → Bool
  | none => false
  | some state => !blocks set state

/-- What a slide sees from a step on: the squares that it looks at, one a step, with what stands on
each. Only the last of them can be off the board. -/
def sights (a : MoveAtom) (board : Board) (origin : Square) (course : Course) (step : Nat) :
    List (Square × Option SquareState) :=
  if a.limit.allows step then
    match _h : reach? origin (course step) step with
    | none => []
    | some s =>
      (s, board s) ::
        if goesOn a.modifiers (board s) then sights a board origin course (step + 1) else []
  else []
termination_by 2147483648 - step
decreasing_by
  have := step_le_of_reach? _h
  omega

/-- What a slide sees at a step, and then at the later ones if it goes on. -/
theorem sights_eq_reach? {a : MoveAtom} {board : Board} {origin : Square} {course : Course}
    {step : Nat} :
    sights a board origin course step =
      if a.limit.allows step then
        (reach? origin (course step) step).elim [] fun s =>
          (s, board s) ::
            if goesOn a.modifiers (board s) then sights a board origin course (step + 1) else []
      else [] := by
  rw [sights]
  split
  · split
    case h_1 hreach => rw [hreach, Option.elim_none]
    case h_2 s hreach => rw [hreach, Option.elim_some]
  · rfl

/-- The squares on which a slide along one course may end, nearest step first. -/
def walk (a : MoveAtom) (board : Board) (origin : Square) (course : Course) : List Square :=
  ((sights a board origin course 1).filter fun sight => sight.2.any (mayStop a.modifiers)).map
    Prod.fst

/-- The slides of an atom, course by course. -/
def moves (a : MoveAtom) (board : Board) (origin : Square) : List Square :=
  (courses a).flatMap (walk a board origin)

/-- Puts the squares on which a slide may end from a step on behind the moves that are in the
list. -/
def pushWalk (a : MoveAtom) (board : Board) (origin : Square) (course : Course) (step : Nat)
    (out : Array Square) : Array Square :=
  if a.limit.allows step then
    match _h : reach? origin (course step) step with
    | none => out
    | some s =>
      match board s with
      | none => out
      | some state =>
        let out := if mayStop a.modifiers state then out.push s else out
        if blocks a.modifiers state then out else pushWalk a board origin course (step + 1) out
  else out
termination_by 2147483648 - step
decreasing_by
  have := step_le_of_reach? _h
  omega

/-- Puts the slides of an atom behind the moves that are in the list. -/
def push (a : MoveAtom) (board : Board) (origin : Square) (out : Array Square) : Array Square :=
  (courses a).foldl (fun out course => pushWalk a board origin course 1 out) out

theorem pushWalk_eq_reach? {a : MoveAtom} {board : Board} {origin : Square} {course : Course}
    {step : Nat} {out : Array Square} :
    pushWalk a board origin course step out =
      if a.limit.allows step then
        (reach? origin (course step) step).elim out fun s =>
          (board s).elim out fun state =>
            let out := if mayStop a.modifiers state then out.push s else out
            if blocks a.modifiers state then out else pushWalk a board origin course (step + 1) out
      else out := by
  rw [pushWalk]
  split
  · split
    case h_1 hreach => rw [hreach, Option.elim_none]
    case h_2 s hreach =>
      rw [hreach, Option.elim_some]
      cases board s <;> rfl
  · rfl

/-- A walk keeps what is in the list and puts its own squares behind. -/
theorem toList_pushWalk (a : MoveAtom) (board : Board) (origin : Square) (course : Course)
    (step : Nat) (out : Array Square) :
    (pushWalk a board origin course step out).toList = out.toList ++
      ((sights a board origin course step).filter
        fun sight => sight.2.any (mayStop a.modifiers)).map Prod.fst := by
  induction step, out using pushWalk.induct a board origin course with
  | case1 step out hallows hreach =>
    rw [pushWalk_eq_reach?, sights_eq_reach?]
    simp [hallows, hreach]
  | case2 step out hallows s hreach hb =>
    rw [pushWalk_eq_reach?, sights_eq_reach?]
    simp [hallows, hreach, hb, goesOn]
  | case3 step out hallows s hreach state hb hblocks =>
    rw [pushWalk_eq_reach?, sights_eq_reach?]
    cases hstop : mayStop a.modifiers state <;> simp [hallows, hreach, hb, goesOn, hblocks, hstop]
  | case4 step out hallows s hreach state hb out' hblocks ih =>
    rw [pushWalk_eq_reach?, sights_eq_reach?, if_pos hallows, if_pos hallows, hreach,
      Option.elim_some, Option.elim_some, hb, Option.elim_some, if_neg hblocks]
    refine ih.trans ?_
    cases hstop : mayStop a.modifiers state <;> simp [goesOn, hblocks, hstop, out']
  | case5 step out hallows =>
    rw [pushWalk_eq_reach?, sights_eq_reach?]
    simp [hallows]

theorem toList_push (a : MoveAtom) (board : Board) (origin : Square) (out : Array Square) :
    (push a board origin out).toList = out.toList ++ moves a board origin := by
  unfold push moves
  induction courses a generalizing out with
  | nil => simp
  | cons course rest ih =>
    rw [List.foldl_cons, ih, toList_pushWalk, List.append_assoc, List.flatMap_cons]
    rfl

end FairyMoves.Slide
