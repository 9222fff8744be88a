import FairyMoves.Proofs.Look

/-!
# Along a delta

Words for what a piece meets on its way: the squares along a delta, counted in steps from the
origin, what stands on them, and which of them a move may end on.

## Main definitions

* `Square.along` — the square so many steps along a delta
* `Board.Has` — a square of the plane is on the board, in this state
* `ModifierSet.Eligible` — a move may end on a square in this state

## Main results

* `Square.along_succ` — the first step along a delta leads to where the others start from
* `ModifierSet.mayLand_iff_eligible` — the gates, one by one
* `ModifierSet.land?_eq_some_iff` — where a move ends that comes down on a square
-/

namespace FairyMoves

/-! ## Squares -/

theorem Delta.dx_ne_zero_or_dy_ne_zero {d : Delta} (hd : d ≠ .zero) : d.dx ≠ 0 ∨ d.dy ≠ 0 := by
  obtain ⟨dx, dy⟩ := d
  rw [Ne, zero, mk.injEq] at hd
  exact Decidable.not_and_iff_or_not.mp hd

/-- The square so many steps along a delta, be it in the plane or not. -/
def Square.along (origin : Square) (d : Delta) (k : Nat) : Square := origin.offset (d.scaled k)

namespace Square

variable {origin s : Square} {d : Delta}

@[simp] theorem offset_scaled_zero (origin : Square) (d : Delta) :
    origin.offset (d.scaled 0) = origin := by
  simp [offset, Delta.scaled]

@[simp] theorem along_zero (origin : Square) (d : Delta) : origin.along d 0 = origin :=
  origin.offset_scaled_zero d

theorem along_one (origin : Square) (d : Delta) : origin.along d 1 = origin.offset d := by
  simp [along, offset, Delta.scaled]

theorem along_succ (origin : Square) (d : Delta) (k : Nat) :
    origin.along d (k + 1) = (origin.along d 1).along d k := by
  simp only [along, offset, Delta.scaled, mk.injEq, Int.natCast_add, Int.mul_add]
  omega

theorem offset_along (origin : Square) (d : Delta) (k : Nat) :
    (origin.along d k).offset d = origin.along d (k + 1) := by
  simp only [along, offset, Delta.scaled, mk.injEq, Int.natCast_add, Int.mul_add]
  omega

/-- Different multiples of a delta that leads somewhere lead to different squares. -/
theorem eq_of_offset_scaled_eq (hd : d ≠ .zero) {k k' : Int}
    (h : origin.offset (d.scaled k) = origin.offset (d.scaled k')) : k = k' := by
  simp only [offset, Delta.scaled, mk.injEq, Int.add_right_inj] at h
  rcases Delta.dx_ne_zero_or_dy_ne_zero hd with hne | hne
  · exact Int.eq_of_mul_eq_mul_left hne h.1
  · exact Int.eq_of_mul_eq_mul_left hne h.2

end Square

/-! ## States -/

/-- The square exists, is on the board, and is in this state. -/
def Board.Has (board : Board) (s : Square) (q : SquareState) : Prop := s.InPlane ∧ board s = some q

theorem Board.look_offset?_eq_some_iff_has {board : Board} {origin s : Square} {d : Delta}
    {q : SquareState} :
    board.look (origin.offset? d) = some (s, q) ↔ s = origin.along d 1 ∧ board.Has s q := by
  rw [look_offset?_eq_some_iff, Square.along_one, Has]
  constructor
  · rintro ⟨hp, rfl, hq⟩
    exact ⟨rfl, hp, hq⟩
  · rintro ⟨rfl, hp, hq⟩
    exact ⟨hp, rfl, hq⟩

theorem Board.Has.eq {board : Board} {s : Square} {q q' : SquareState} (h : board.Has s q)
    (h' : board.Has s q') : q = q' :=
  Option.some.inj (h.2.symm.trans h'.2)

/-- A move may end on an empty square unless `c` or `o` asks for a capture, and on an enemy unless
`m` or `x` rules a capture out. -/
def ModifierSet.Eligible (set : ModifierSet) (q : SquareState) : Prop :=
  q = .empty ∧ set.captureOnly = false ∧ set.mustCaptureFirst = false ∨
    q = .enemy ∧ set.moveOnly = false ∧ set.mustNotCaptureFirst = false

theorem ModifierSet.mayLand_iff_eligible {set : ModifierSet} {q : SquareState} :
    set.mayLand q ↔ set.Eligible q := by
  cases q <;> simp [mayLand, Eligible]

/-- A move that comes down on a square ends there if it may, or with `y` leaps on from an enemy to
an empty square. -/
theorem ModifierSet.land?_eq_some_iff {set : ModifierSet} {board : Board} {d : Delta}
    {target s : Square} {q : SquareState} :
    set.land? board d target q = some s ↔
      set.captureThenLeap = false ∧ set.Eligible q ∧ s = target ∨
        set.captureThenLeap = true ∧ q = .enemy ∧ board.Has (target.offset d) .empty ∧
          s = target.offset d := by
  rw [land?, ← mayLand_iff_eligible]
  cases set.captureThenLeap with
  | true =>
    simp only [if_true, leapOn?_eq_some_iff, Square.offset?_eq_some_iff, Board.Has, true_and,
      Bool.true_eq_false, false_and, false_or]
    refine and_congr_right fun _ => ?_
    constructor
    · rintro ⟨⟨hp, rfl⟩, hempty⟩
      exact ⟨⟨hp, hempty⟩, rfl⟩
    · rintro ⟨⟨hp, hempty⟩, rfl⟩
      exact ⟨⟨hp, rfl⟩, hempty⟩
  | false => cases set.mayLand q <;> simp [eq_comm]

end FairyMoves
