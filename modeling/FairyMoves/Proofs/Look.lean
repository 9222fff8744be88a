import FairyMoves.Moves

/-!
# What a piece sees

A piece looks at one square after another, and all that it learns of a square is whether it is there
and what stands on it. A square beyond the edge of the plane and one that is off the board look
alike. Here every kind of move is told in terms of such looks, and so are the two inductions that
follow a piece on its way.

## Main definitions

* `Board.look` — a square with what stands on it; nothing if the square is not there
* `Slide.walkFrom` — the destinations of a slide from a step on

## Main results

* `leapOn?_eq_look`, `Leap.destination?_eq_look`, `Leap.isStepClear_eq_look`,
  `Slide.walkFrom_eq_look`, `Hop.nextHurdle?_eq_look`, `Hop.landing?_eq_look` — the moves by what
  they see
* `Leap.destination?_eq_some_iff_look` — what it takes for a leap to end on a square
* `Slide.step_induction`, `Hop.offset_induction` — a slide and the search for a hurdle come to an
  end
-/

namespace FairyMoves

/-- A square with what stands on it; nothing when there is no such square or it is off the board. -/
def Board.look (board : Board) (square? : Option Square) : Option (Square × SquareState) :=
  square?.bind fun s => (board s).map fun q => (s, q)

namespace Board

variable {board : Board} {square? : Option Square} {s : Square} {q : SquareState}

theorem look_eq_some_iff :
    board.look square? = some (s, q) ↔ square? = some s ∧ board s = some q := by
  simp only [look, Option.bind_eq_some_iff, Option.map_eq_some_iff, Prod.mk.injEq]
  constructor
  · rintro ⟨t, ht, q', hq, rfl, rfl⟩
    exact ⟨ht, hq⟩
  · rintro ⟨hs, hq⟩
    exact ⟨s, hs, q, hq, rfl, rfl⟩

theorem look_offset?_eq_some_iff {origin : Square} {d : Delta} :
    board.look (origin.offset? d) = some (s, q) ↔
      (origin.offset d).InPlane ∧ origin.offset d = s ∧ board s = some q := by
  rw [look_eq_some_iff, Square.offset?_eq_some_iff, and_assoc]

end Board

/-! ## Leaps -/

theorem leapOn?_eq_look {board : Board} {d : Delta} {target : Square} {q : SquareState} :
    leapOn? board d target q =
      if q = .enemy then
        ((board.look (target.offset? d)).filter fun seen => seen.2 == .empty).map Prod.fst
      else none := by
  unfold leapOn? Board.look
  split
  · cases target.offset? d with
    | none => rfl
    | some beyond => rcases h : board beyond with _ | (_ | _ | _) <;> simp [Option.filter, h]
  · rfl

namespace Leap

theorem isStepClear_eq_look {board : Board} {origin : Square} {step : Delta} {i : Nat} :
    isStepClear board origin step i =
      (board.look ((step.scaled? i).bind origin.offset?)).any fun seen => seen.2 == .empty := by
  unfold isStepClear Board.look
  cases (step.scaled? i).bind origin.offset? with
  | none => rfl
  | some s => rcases h : board s with _ | (_ | _ | _) <;> simp [h]

theorem destination?_eq_look {set : ModifierSet} {board : Board} {origin : Square} {d : Delta} :
    destination? set board origin d =
      (board.look (origin.offset? d)).bind fun seen =>
        if set.requiresClearPath && !isPathClear board origin d then none
        else set.land? board d seen.1 seen.2 := by
  unfold destination? Board.look
  rw [Option.bind_assoc]
  congr 1
  funext target
  rw [Option.bind_map]
  rfl

/-- A leap ends where it lands from its target, if a path that it asks for is clear. -/
theorem destination?_eq_some_iff_look {set : ModifierSet} {board : Board} {origin s : Square}
    {d : Delta} :
    destination? set board origin d = some s ↔
      ∃ target q, board.look (origin.offset? d) = some (target, q) ∧
        (set.requiresClearPath → isPathClear board origin d) ∧
        set.land? board d target q = some s := by
  rw [destination?_eq_look, Option.bind_eq_some_iff, Prod.exists]
  refine exists_congr fun target => exists_congr fun q => and_congr_right fun _ => ?_
  cases set.requiresClearPath <;> cases isPathClear board origin d <;> simp

end Leap

/-! ## Slides -/

namespace Slide

/-- The destinations of a slide along one course from a step on, nearest step first. -/
def walkFrom (a : MoveAtom) (board : Board) (origin : Square) (course : Course) (step : Nat) :
    List Square :=
  ((sights a board origin course step).filter fun sight => sight.2.any (mayStop a.modifiers)).map
    Prod.fst

theorem walk_eq_walkFrom {a : MoveAtom} {board : Board} {origin : Square} {course : Course} :
    walk a board origin course = walkFrom a board origin course 1 := rfl

/-- A slide takes the square of its step if it may end there, and goes on unless it is blocked. -/
theorem walkFrom_eq_look {a : MoveAtom} {board : Board} {origin : Square} {course : Course}
    {step : Nat} :
    walkFrom a board origin course step =
      if a.limit.allows step then
        (board.look (reach? origin (course step) step)).elim [] fun seen =>
          (if mayStop a.modifiers seen.2 then [seen.1] else []) ++
            if blocks a.modifiers seen.2 then [] else walkFrom a board origin course (step + 1)
      else [] := by
  unfold walkFrom
  rw [sights_eq_reach?]
  cases a.limit.allows step with
  | false => rfl
  | true =>
    cases hreach : reach? origin (course step) step with
    | none => rfl
    | some s =>
      cases hb : board s with
      | none => simp [Board.look, hb, goesOn]
      | some q =>
        cases hstop : mayStop a.modifiers q <;> cases hblocks : blocks a.modifiers q <;>
          simp [Board.look, hb, goesOn, hstop, hblocks]

/-- What holds of a step when it holds of the next one, if the step has a square, holds of all. -/
theorem step_induction (origin : Square) (course : Course) {motive : Nat → Prop}
    (h : ∀ step, (∀ s, reach? origin (course step) step = some s → motive (step + 1)) → motive step)
    (step : Nat) : motive step :=
  h step fun _ _hs => step_induction origin course h (step + 1)
termination_by 2147483648 - step
decreasing_by
  have := step_le_of_reach? _hs
  omega

end Slide

/-! ## Hops -/

namespace Hop

theorem nextHurdle?_eq_look {board : Board} {d : Delta} {s : Square} (hd : d ≠ .zero) :
    nextHurdle? board d s =
      (board.look (s.offset? d)).bind fun seen =>
        if seen.2 = .empty then nextHurdle? board d seen.1 else some seen.1 := by
  cases hs : s.offset? d with
  | none => rw [nextHurdle?_eq_none_of_offset? hs]; rfl
  | some next =>
    rw [nextHurdle?_eq_of_offset? hs]
    rcases hb : board next with _ | (_ | _ | _) <;> simp [Board.look, hb, hd]

theorem landing?_eq_look {board : Board} {d : Delta} {n : Nat} {origin : Square} :
    landing? board d n origin =
      board.look ((hurdle? board d n origin).bind fun hurdle => hurdle.offset? d) :=
  landing?_eq_hurdle? board d n origin

/-- What holds of a square when it holds of the next one along a delta, if there is one, holds of
all. -/
theorem offset_induction {d : Delta} (hd : d ≠ .zero) {motive : Square → Prop}
    (h : ∀ s, (∀ t, s.offset? d = some t → motive t) → motive s) (s : Square) : motive s :=
  h s fun t _ht => offset_induction hd h t
termination_by room d s
decreasing_by exact room_lt hd _ht

end Hop

end FairyMoves
