import FairyMoves.Grid
import FairyMoves.Proofs.Rays

/-!
# The steps of a leap

A leap that asks for a clear path divides its delta into equal steps. Their number is the greatest
common divisor of the two components. It is counted as a signed number of 32 bits, which holds the
divisor of every delta of the plane but the greatest one, `2147483648`. Three deltas have that one.
Their count is negative, so nothing is looked at on their way, and such a leap passes over what
stands there.

## Main definitions

* `Delta.primitive` — a delta divided by the greatest common divisor of its components
* `Leap.miscounted` — the deltas whose steps are miscounted
* `Leap.DividesExactly` — the steps of a leap are counted and taken without a loss

## Main results

* `Leap.gcd_le` — no delta of the plane has a greater divisor
* `Leap.pathSteps_of_lt`, `Leap.pathSteps_of_eq` — the count is the divisor, or it has wrapped
* `Leap.pathSteps_dvd` — either way the count divides the delta
* `Leap.unitStep_flipped` — the steps of a flipped delta are the flipped steps
* `Leap.isPathClear_iff_has` — what it takes for a path to be clear
* `Leap.path_exact` — the steps are exact but for those of three deltas
-/

namespace FairyMoves

/-! ## On the way -/

/-- Whole steps from `x` do not lead beyond the last of them. -/
theorem between_steps {c k n : Int} (x : Int) (hk : 0 ≤ k) (hkn : k ≤ n) :
    min x (x + c * n) ≤ x + c * k ∧ x + c * k ≤ max x (x + c * n) := by
  -- The sign of `c` says on which side of `x` all steps lie.
  rcases Int.le_total 0 c with hc | hc
  · have h0 : 0 ≤ c * k := Int.mul_nonneg hc hk
    have h1 : c * k ≤ c * n := Int.mul_le_mul_of_nonneg_left hkn hc
    omega
  · have h0 : c * k ≤ 0 := Int.mul_nonpos_of_nonpos_of_nonneg hc hk
    have h1 : c * n ≤ c * k := Int.mul_le_mul_of_nonpos_left hc hkn
    omega

/-- What lies between two coordinates is a coordinate. -/
theorem IsCoordinate.between {x c : Int} {i n : Nat} (hx : IsCoordinate x)
    (hn : IsCoordinate (x + c * n)) (hi : i ≤ n) : IsCoordinate (x + c * i) := by
  have hsteps : min x (x + c * n) ≤ x + c * i ∧ x + c * i ≤ max x (x + c * n) :=
    between_steps x (Int.natCast_nonneg i) (Int.ofNat_le.mpr hi)
  rw [isCoordinate_iff] at *
  omega

namespace Slide

variable {s t : Square} {d : Delta} {n : Nat}

/-- On the way to a square all earlier steps have a square too. -/
theorem reach?_of_le (hs : s.InPlane) (h : reach? s d n = some t) {i : Nat} (hi : i ≤ n) :
    reach? s d i = some (s.offset (d.scaled i)) := by
  obtain ⟨hmax, ⟨hdx, hdy⟩, ⟨hx, hy⟩, _⟩ := reach?_eq_some_iff.mp h
  have hzero : IsCoordinate 0 := by
    decide
  have hscaled : (d.scaled i).InPlane := by
    constructor
    · simpa [Delta.scaled] using hzero.between (c := d.dx) (by simpa [Delta.scaled] using hdx) hi
    · simpa [Delta.scaled] using hzero.between (c := d.dy) (by simpa [Delta.scaled] using hdy) hi
  refine reach?_eq_some_iff.mpr ⟨by omega, hscaled, ⟨?_, ?_⟩, rfl⟩
  · exact hs.1.between hx hi
  · exact hs.2.between hy hi

end Slide

/-- The shortest delta that leads the same way in whole steps. -/
def Delta.primitive (d : Delta) : Delta := ⟨d.dx / Int.gcd d.dx d.dy, d.dy / Int.gcd d.dx d.dy⟩

theorem Delta.scaled_primitive (d : Delta) : d.primitive.scaled (Int.gcd d.dx d.dy) = d := by
  rw [primitive, scaled, Int.ediv_mul_cancel (Int.gcd_dvd_left _ _),
    Int.ediv_mul_cancel (Int.gcd_dvd_right _ _)]

namespace Leap

variable {board : Board} {origin s : Square} {d : Delta}

/-! ## Counting steps -/

theorem gcd_le {d : Delta} (hd : d.InPlane) : Int.gcd d.dx d.dy ≤ 2147483648 := by
  obtain ⟨hx, hy⟩ := hd
  rw [isCoordinate_iff] at hx hy
  rcases Nat.eq_zero_or_pos d.dx.natAbs with h0 | hpos
  · rw [Int.natAbs_eq_zero.mp h0, Int.gcd_zero_left]
    omega
  · have hle : Int.gcd d.dx d.dy ≤ d.dx.natAbs := Nat.le_of_dvd hpos (Nat.gcd_dvd_left _ _)
    omega

theorem pathSteps_of_lt {d : Delta} (h : Int.gcd d.dx d.dy < 2147483648) :
    pathSteps d = Int.gcd d.dx d.dy := by
  rw [pathSteps_eq_gcd]
  exact Int.bmod_eq_of_le (by omega) (by omega)

theorem pathSteps_of_eq {d : Delta} (h : Int.gcd d.dx d.dy = 2147483648) :
    pathSteps d = -2147483648 := by
  rw [pathSteps_eq_gcd, h]
  rfl

/-- The count of steps divides every delta of the plane, be it wrapped or not. -/
theorem pathSteps_dvd {d : Delta} (hd : d.InPlane) : pathSteps d ∣ d.dx ∧ pathSteps d ∣ d.dy := by
  have hx : (Int.gcd d.dx d.dy : Int) ∣ d.dx := Int.gcd_dvd_left _ _
  have hy : (Int.gcd d.dx d.dy : Int) ∣ d.dy := Int.gcd_dvd_right _ _
  rcases Nat.lt_or_eq_of_le (gcd_le hd) with hlt | heq
  · rw [pathSteps_of_lt hlt]
    exact ⟨hx, hy⟩
  · rw [pathSteps_of_eq heq, Int.neg_dvd, Int.neg_dvd]
    rw [heq] at hx hy
    exact ⟨hx, hy⟩

@[simp] theorem pathSteps_flipped (d : Delta) : pathSteps d.flipped = pathSteps d := by
  have hgcd : Int.gcd d.flipped.dx d.flipped.dy = Int.gcd d.dx d.dy := Int.gcd_neg
  rw [pathSteps_eq_gcd, pathSteps_eq_gcd, hgcd]

theorem unitStep_flipped {d : Delta} (hd : d.InPlane) :
    unitStep d.flipped = (unitStep d).flipped := by
  have hneg : -d.dy / pathSteps d = -(d.dy / pathSteps d) :=
    Int.neg_ediv_of_dvd (pathSteps_dvd hd).2
  rw [unitStep, pathSteps_flipped, unitStep]
  simp only [Delta.flipped, hneg]

theorem scaled_unitStep {d : Delta} (hd : d.InPlane) : (unitStep d).scaled (pathSteps d) = d := by
  obtain ⟨hx, hy⟩ := pathSteps_dvd hd
  rw [unitStep, Delta.scaled, Int.ediv_mul_cancel hx, Int.ediv_mul_cancel hy]

theorem pathSteps_le (d : Delta) : pathSteps d ≤ maxCoordinate := by
  have hlt : pathSteps d < (4294967296 + 1) / 2 := Int.bmod_lt (by decide)
  rw [maxCoordinate]
  omega

theorem isStepClear_iff {step : Delta} {i : Nat} (hi : (i : Int) ≤ maxCoordinate) :
    isStepClear board s step i ↔ (Slide.reach? s step i).bind board = some .empty := by
  rw [isStepClear, Slide.reach?, if_pos hi, beq_iff_eq]

theorem isPathClear_iff :
    isPathClear board s d ↔
      ∀ i : Nat, 0 < i → (i : Int) < pathSteps d →
        (Slide.reach? s (unitStep d) i).bind board = some .empty := by
  have hmax := pathSteps_le d
  rw [isPathClear, Nat.all_eq_finRange_all, List.all_eq_true]
  simp only [List.mem_finRange, true_imp_iff, Fin.forall_iff]
  constructor
  · intro h i hpos hlt
    have hclear := h (i - 1) (by omega)
    rw [Nat.sub_add_cancel hpos] at hclear
    exact (isStepClear_iff (by omega)).mp hclear
  · intro h i hi
    exact (isStepClear_iff (by omega)).mpr (h (i + 1) (Nat.succ_pos i) (by omega))

/-! ## Exact steps -/

/-- The deltas of the plane whose greatest common divisor is no coordinate. -/
def miscounted : List Delta :=
  [⟨minCoordinate, 0⟩, ⟨0, minCoordinate⟩, ⟨minCoordinate, minCoordinate⟩]

theorem gcd_eq_iff_mem_miscounted (hd : d.InPlane) :
    Int.gcd d.dx d.dy = 2147483648 ↔ d ∈ miscounted := by
  obtain ⟨dx, dy⟩ := d
  constructor
  · intro h
    have hx : (2147483648 : Int) ∣ dx := by
      simpa [h] using Int.gcd_dvd_left dx dy
    have hy : (2147483648 : Int) ∣ dy := by
      simpa [h] using Int.gcd_dvd_right dx dy
    have hne : ¬ (dx = 0 ∧ dy = 0) := by
      rintro ⟨rfl, rfl⟩
      cases h
    -- The coordinates have two such multiples, zero and the least coordinate.
    simp only [Delta.InPlane, isCoordinate_iff] at hd
    simp only [miscounted, minCoordinate, List.mem_cons, List.not_mem_nil, Delta.mk.injEq]
    omega
  · intro h
    simp only [miscounted, List.mem_cons, List.not_mem_nil, or_false] at h
    rcases h with h | h | h <;> rw [h] <;> rfl

theorem unitStep_eq_primitive (h : Int.gcd d.dx d.dy < 2147483648) : unitStep d = d.primitive := by
  rw [unitStep, pathSteps_of_lt h, Delta.primitive]

/-- None of the steps leaves the plane if both ends of the leap are in it. -/
theorem reach?_primitive (h : Int.gcd d.dx d.dy < 2147483648) (hd : d.InPlane) (ho : origin.InPlane)
    (ht : (origin.offset d).InPlane) {i : Nat} (hi : i ≤ Int.gcd d.dx d.dy) :
    Slide.reach? origin d.primitive i = some (origin.along d.primitive i) := by
  have hmax : (Int.gcd d.dx d.dy : Int) ≤ maxCoordinate := by
    rw [maxCoordinate]
    omega
  have hend : Slide.reach? origin d.primitive (Int.gcd d.dx d.dy) = some (origin.offset d) := by
    rw [Slide.reach?_eq_some_iff, d.scaled_primitive]
    exact ⟨hmax, hd, ht, rfl⟩
  exact Slide.reach?_of_le ho hend hi

theorem isPathClear_iff_has (h : Int.gcd d.dx d.dy < 2147483648) (hd : d.InPlane)
    (ho : origin.InPlane) (ht : (origin.offset d).InPlane) :
    isPathClear board origin d ↔
      ∀ i : Nat, 0 < i → i < Int.gcd d.dx d.dy →
        board.Has (origin.along d.primitive i) .empty := by
  rw [isPathClear_iff, pathSteps_of_lt h, unitStep_eq_primitive h]
  refine forall_congr' fun i => imp_congr_right fun _ => ?_
  rw [Int.ofNat_lt]
  refine imp_congr_right fun hlt => ?_
  -- A step short of the target is in the plane, so the look there depends on the board alone.
  have hreach := reach?_primitive h hd ho ht (Nat.le_of_lt hlt)
  have hplane : (origin.along d.primitive i).InPlane := (Slide.reach?_eq_some_iff.mp hreach).2.2.1
  rw [hreach, Option.bind_some, Board.Has, and_iff_right hplane]

/-- The steps of a leap are counted and taken without a loss. Their number is the greatest common
divisor, each of them is that part of the delta, no multiple and no square on the way leaves the
plane, and the path is clear just when every square on it is empty. -/
structure DividesExactly (board : Board) (origin : Square) (d : Delta) : Prop where
  /-- The divisor is that of two numbers of 32 bits without a sign. -/
  magnitudes : d.dx.natAbs < 4294967296 ∧ d.dy.natAbs < 4294967296
  count : pathSteps d = Int.gcd d.dx d.dy
  unit : unitStep d = d.primitive
  whole : (unitStep d).scaled (Int.gcd d.dx d.dy) = d
  scaled : ∀ i : Nat, i ≤ Int.gcd d.dx d.dy →
    (unitStep d).scaled? i = some (d.primitive.scaled i)
  offset : ∀ i : Nat, i ≤ Int.gcd d.dx d.dy →
    origin.offset? (d.primitive.scaled i) = some (origin.along d.primitive i)
  clear : isPathClear board origin d ↔
    ∀ i : Nat, 0 < i → i < Int.gcd d.dx d.dy → board.Has (origin.along d.primitive i) .empty
  /-- No leap that asks for a clear path passes over anything. -/
  leaps : ∀ set : ModifierSet, set.requiresClearPath →
    ∀ t, destination? set board origin d = some t →
      ∀ i : Nat, 0 < i → i < Int.gcd d.dx d.dy → board.Has (origin.along d.primitive i) .empty

theorem dividesExactly_of_lt (h : Int.gcd d.dx d.dy < 2147483648) (hd : d.InPlane)
    (ho : origin.InPlane) (ht : (origin.offset d).InPlane) (board : Board) :
    DividesExactly board origin d := by
  have hreach {i : Nat} (hi : i ≤ Int.gcd d.dx d.dy) :=
    Slide.reach?_eq_some_iff.mp (reach?_primitive h hd ho ht hi)
  have hunit := unitStep_eq_primitive h
  constructor
  case magnitudes =>
    obtain ⟨hx, hy⟩ := hd
    rw [isCoordinate_iff] at hx hy
    omega
  case count => exact pathSteps_of_lt h
  case unit => exact hunit
  case whole => rw [hunit, d.scaled_primitive]
  case scaled =>
    intro i hi
    rw [hunit, Delta.scaled?_eq_some_iff]
    exact ⟨(hreach hi).2.1, rfl⟩
  case offset =>
    intro i hi
    rw [Square.offset?_eq_some_iff]
    exact ⟨(hreach hi).2.2.1, rfl⟩
  case clear => exact isPathClear_iff_has h hd ho ht
  case leaps =>
    intro set hp t hdest
    obtain ⟨_, _, _, hclear, _⟩ := destination?_eq_some_iff_look.mp hdest
    exact (isPathClear_iff_has h hd ho ht).mp (hclear hp)

/-- A negative count takes every path to be clear. -/
theorem isPathClear_of_eq (h : Int.gcd d.dx d.dy = 2147483648) (board : Board) (origin : Square) :
    isPathClear board origin d := by
  rw [isPathClear_iff, pathSteps_of_eq h]
  intro i hpos hlt
  omega

/-- Within the plane the steps of all deltas but three are exact. Those three have a negative count,
and all of their paths are taken to be clear. -/
theorem path_exact (hd : d.InPlane) (ho : origin.InPlane) (ht : (origin.offset d).InPlane)
    (board : Board) :
    (d ∉ miscounted → DividesExactly board origin d) ∧
      (d ∈ miscounted →
        pathSteps d = -(Int.gcd d.dx d.dy : Int) ∧ isPathClear board origin d) := by
  rw [← gcd_eq_iff_mem_miscounted hd]
  constructor
  · intro hne
    exact dividesExactly_of_lt (Nat.lt_of_le_of_ne (gcd_le hd) hne) hd ho ht board
  · intro heq
    refine ⟨?_, isPathClear_of_eq heq board origin⟩
    rw [pathSteps_of_eq heq, heq]
    rfl

/-- A leap over half a row of the plane and a quarter of a column takes a thousand million steps. -/
theorem path_exact_far :
    Delta.InPlane ⟨-2147483648, 1073741824⟩ ∧ Square.InPlane ⟨2147483647, 0⟩ ∧
    (Square.offset ⟨2147483647, 0⟩ ⟨-2147483648, 1073741824⟩).InPlane ∧
    ⟨-2147483648, 1073741824⟩ ∉ miscounted ∧
    DividesExactly (fun _ => some .empty) ⟨2147483647, 0⟩ ⟨-2147483648, 1073741824⟩ := by
  have hd : Delta.InPlane ⟨-2147483648, 1073741824⟩ := by
    decide
  have ho : Square.InPlane ⟨2147483647, 0⟩ := by
    decide
  have ht : (Square.offset ⟨2147483647, 0⟩ ⟨-2147483648, 1073741824⟩).InPlane := by
    decide
  have hcounted : ⟨-2147483648, 1073741824⟩ ∉ miscounted := by
    decide
  exact ⟨hd, ho, ht, hcounted, (path_exact hd ho ht _).1 hcounted⟩

/-- The board whose squares are all empty, but for an enemy on the left of the origin. -/
def enemyOnTheLeft : Board := ((Grid.empty 1 1).set 0 0 .enemy).placedAt ⟨-1, 0⟩ (some .empty)

/-- A wazir that asks for a clear path and whose one delta leads from the middle of a row to its
end.
-/
def longWazir : MoveAtom :=
  (MoveAtom.ofBase .wazir (.ofRun [.requiresClearPath])).withDeltas [⟨-2147483648, 0⟩]

/-- The steps of the longest delta along a row are miscounted, and the leap passes over an enemy. -/
theorem path_not_exact_longest :
    Delta.InPlane ⟨-2147483648, 0⟩ ∧ Square.InPlane ⟨0, 0⟩ ∧
    (Square.offset ⟨0, 0⟩ ⟨-2147483648, 0⟩).InPlane ∧
    ¬ DividesExactly enemyOnTheLeft ⟨0, 0⟩ ⟨-2147483648, 0⟩ ∧
    longWazir.modifiers.requiresClearPath = true ∧
    enemyOnTheLeft (Square.along ⟨0, 0⟩ (Delta.primitive ⟨-2147483648, 0⟩) 1) = some .enemy ∧
    longWazir.moves enemyOnTheLeft ⟨0, 0⟩ = [⟨-2147483648, 0⟩] := by
  refine ⟨by decide, by decide, by decide, fun h => ?_, rfl, by decide, by decide +kernel⟩
  have hcount : pathSteps ⟨-2147483648, 0⟩ = 2147483648 := h.count
  rw [pathSteps_of_eq (by decide)] at hcount
  cases hcount

end Leap

end FairyMoves
