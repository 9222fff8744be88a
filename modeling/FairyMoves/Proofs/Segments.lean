import FairyMoves.Proofs.Path
import Mathlib.RingTheory.Coprime.Lemmas
import Mathlib.Tactic.IntervalCases
import Mathlib.Tactic.Ring

/-!
# Where leaps end

A leap that asks for a clear path looks at the squares after one step, two steps and so on. Here
those squares are told without counting steps: they are all the squares inside the segment from the
origin to the target, that is, those that lie on the line through both and between them. None of
them is left out because two coprime components have a whole combination that is one.

## Main definitions

* `Square.Inside` — a square lies inside the segment between two others
* `Leap.Contributes` — the square where the leap along a delta ends

## Main results

* `Delta.exists_eq_scaled_of_cross_eq` — on the line of a primitive delta there is nothing but its
  multiples
* `Square.inside_iff` — the squares inside a segment are those after its steps
* `Leap.isPathClear_iff_inside` — a path is clear if every square inside the segment is empty
* `MoveAtom.moves_leap` — the destinations of every atom that leaps
-/

namespace FairyMoves

/-! ## Primitive deltas -/

namespace Delta

variable {d e : Delta}

theorem gcd_pos (hd : d ≠ .zero) : 0 < Int.gcd d.dx d.dy :=
  Int.gcd_pos_iff.mpr (dx_ne_zero_or_dy_ne_zero hd)

theorem primitive_ne_zero (hd : d ≠ .zero) : d.primitive ≠ .zero := by
  intro hzero
  refine hd ?_
  rw [← d.scaled_primitive, hzero]
  simp [scaled, zero]

/-- A whole combination of the components of a primitive delta is one. -/
theorem exists_combination_eq_one (hd : d ≠ .zero) :
    ∃ a b : Int, d.primitive.dx * a + d.primitive.dy * b = 1 := by
  have hcoprime : IsCoprime d.primitive.dx d.primitive.dy :=
    Int.isCoprime_iff_gcd_eq_one.mpr (Int.gcd_ediv_gcd_ediv_gcd (gcd_pos hd))
  obtain ⟨a, b, hab⟩ := hcoprime
  exact ⟨a, b, by rw [mul_comm _ a, mul_comm _ b, hab]⟩

/-- On the line of a primitive delta there is nothing but its whole multiples. -/
theorem exists_eq_scaled_of_cross_eq (hd : d ≠ .zero)
    (h : d.primitive.dx * e.dy = d.primitive.dy * e.dx) : ∃ k : Int, e = d.primitive.scaled k := by
  obtain ⟨a, b, hab⟩ := exists_combination_eq_one hd
  -- The same combination of the components of `e` is the number of its steps.
  have hx : d.primitive.dx * (e.dx * a + e.dy * b) = e.dx :=
    calc d.primitive.dx * (e.dx * a + e.dy * b)
        = e.dx * (d.primitive.dx * a) + d.primitive.dx * e.dy * b := by ring
      _ = e.dx * (d.primitive.dx * a + d.primitive.dy * b) := by rw [h]; ring
      _ = e.dx := by rw [hab, mul_one]
  have hy : d.primitive.dy * (e.dx * a + e.dy * b) = e.dy :=
    calc d.primitive.dy * (e.dx * a + e.dy * b)
        = d.primitive.dy * e.dx * a + e.dy * (d.primitive.dy * b) := by ring
      _ = e.dy * (d.primitive.dx * a + d.primitive.dy * b) := by rw [← h]; ring
      _ = e.dy := by rw [hab, mul_one]
  refine ⟨e.dx * a + e.dy * b, ?_⟩
  rw [scaled, hx, hy]

end Delta

/-! ## Segments -/

/-- The square `u` lies inside the segment between `s` and `t`: on the line through both, between
them in each of its coordinates, and on neither end. -/
structure Square.Inside (s t u : Square) : Prop where
  collinear : (t.x - s.x) * (u.y - s.y) = (t.y - s.y) * (u.x - s.x)
  between_x : min s.x t.x ≤ u.x ∧ u.x ≤ max s.x t.x
  between_y : min s.y t.y ≤ u.y ∧ u.y ≤ max s.y t.y
  ne_start : u ≠ s
  ne_end : u ≠ t

/-- Steps that lead somewhere can be counted by how far they have come. -/
theorem le_and_le_of_between_steps {c k n x : Int} (hc : c ≠ 0) (hn : 0 ≤ n)
    (h : min x (x + c * n) ≤ x + c * k ∧ x + c * k ≤ max x (x + c * n)) : 0 ≤ k ∧ k ≤ n := by
  rcases Int.lt_or_gt_of_ne hc with hneg | hpos
  · have h0 : c * n ≤ 0 := Int.mul_nonpos_of_nonpos_of_nonneg (Int.le_of_lt hneg) hn
    have hk0 : c * k ≤ c * 0 := by omega
    have hkn : c * n ≤ c * k := by omega
    exact ⟨(Int.mul_le_mul_left_of_neg hneg).mp hk0, (Int.mul_le_mul_left_of_neg hneg).mp hkn⟩
  · have h0 : 0 ≤ c * n := Int.mul_nonneg (Int.le_of_lt hpos) hn
    have hk0 : c * 0 ≤ c * k := by omega
    have hkn : c * k ≤ c * n := by omega
    exact ⟨(Int.mul_le_mul_left hpos).mp hk0, (Int.mul_le_mul_left hpos).mp hkn⟩

namespace Square

variable {s u : Square} {d : Delta}

/-- Of the multiples of a primitive delta those lie inside the segment that are greater than none
and less than the whole. -/
theorem inside_scaled_iff (hd : d ≠ .zero) {k : Int} :
    Inside s (s.along d 1) (s.offset (d.primitive.scaled k)) ↔ 0 < k ∧ k < Int.gcd d.dx d.dy := by
  have hne := Delta.primitive_ne_zero hd
  have hend : s.along d 1 = s.offset (d.primitive.scaled (Int.gcd d.dx d.dy)) := by
    rw [along_one, d.scaled_primitive]
  rw [hend]
  constructor
  · rintro ⟨_, hx, hy, hstart, hend⟩
    -- One component of the delta is not zero. There the steps can be counted.
    have hle : 0 ≤ k ∧ k ≤ Int.gcd d.dx d.dy := by
      rcases Delta.dx_ne_zero_or_dy_ne_zero hne with h | h
      · exact le_and_le_of_between_steps h (Int.natCast_nonneg _) hx
      · exact le_and_le_of_between_steps h (Int.natCast_nonneg _) hy
    have h0 : k ≠ 0 := by
      rintro rfl
      exact hstart (s.offset_scaled_zero _)
    have hn : k ≠ Int.gcd d.dx d.dy := by
      rintro rfl
      exact hend rfl
    omega
  · rintro ⟨h0, hn⟩
    constructor
    case collinear =>
      simp only [offset, Delta.scaled]
      ring
    case between_x => exact between_steps s.x (Int.le_of_lt h0) (Int.le_of_lt hn)
    case between_y => exact between_steps s.y (Int.le_of_lt h0) (Int.le_of_lt hn)
    case ne_start =>
      intro h
      have := eq_of_offset_scaled_eq hne (h.trans (s.offset_scaled_zero _).symm)
      omega
    case ne_end =>
      intro h
      have := eq_of_offset_scaled_eq hne h
      omega

/-- Between a square and itself there is no other. -/
theorem not_inside_self (s u : Square) : ¬ Inside s s u := by
  rintro ⟨_, hx, hy, hne, _⟩
  refine hne ?_
  obtain ⟨x, y⟩ := s
  obtain ⟨x', y'⟩ := u
  simp only [mk.injEq] at hx hy ⊢
  omega

/-- The line of a segment is that of its primitive delta. -/
theorem Inside.cross_eq (hd : d ≠ .zero) (h : Inside s (s.along d 1) u) :
    d.primitive.dx * (u.y - s.y) = d.primitive.dy * (u.x - s.x) := by
  have hpos : (Int.gcd d.dx d.dy : Int) ≠ 0 := by
    have := Delta.gcd_pos hd
    omega
  have hline := h.collinear
  rw [along_one, ← d.scaled_primitive] at hline
  simp only [offset, Delta.scaled, add_sub_cancel_left] at hline
  refine Int.eq_of_mul_eq_mul_left hpos ?_
  rw [← mul_assoc, ← mul_assoc, mul_comm _ d.primitive.dx, mul_comm _ d.primitive.dy, hline]

/-- The squares inside a segment are those after its steps, but for the last. -/
theorem inside_iff :
    Inside s (s.along d 1) u ↔
      ∃ i : Nat, 0 < i ∧ i < Int.gcd d.dx d.dy ∧ u = s.along d.primitive i := by
  constructor
  · intro h
    have hd : d ≠ .zero := by
      rintro rfl
      have hstays : s.along .zero 1 = s := by
        simp [along, offset, Delta.scaled, Delta.zero]
      rw [hstays] at h
      exact not_inside_self s u h
    obtain ⟨k, hk⟩ :=
      Delta.exists_eq_scaled_of_cross_eq (e := ⟨u.x - s.x, u.y - s.y⟩) hd (h.cross_eq hd)
    obtain rfl : u = s.offset (d.primitive.scaled k) := by
      rw [← hk]
      simp [offset]
    obtain ⟨h0, hn⟩ := (inside_scaled_iff hd).mp h
    obtain ⟨i, rfl⟩ := Int.eq_ofNat_of_zero_le (Int.le_of_lt h0)
    exact ⟨i, by omega, by omega, rfl⟩
  · rintro ⟨i, h0, hn, rfl⟩
    have hd : d ≠ .zero := by
      rintro rfl
      cases hn
    exact (inside_scaled_iff hd).mpr ⟨by omega, by omega⟩

end Square

/-! ## Leaps -/

namespace Leap

variable {set : ModifierSet} {board : Board} {origin t : Square} {d : Delta}

/-- The leap along a delta ends on the square `t`. With `p` every square inside the segment to its
target has to be empty. It stays on the target if it may, or with `y` leaps on from an enemy to an
empty square. -/
def Contributes (set : ModifierSet) (board : Board) (origin : Square) (d : Delta) (t : Square) :
    Prop :=
  ∃ q, board.Has (origin.along d 1) q ∧
    (set.requiresClearPath = true →
      ∀ u, Square.Inside origin (origin.along d 1) u → board.Has u .empty) ∧
    (set.captureThenLeap = false ∧ set.Eligible q ∧ t = origin.along d 1 ∨
      set.captureThenLeap = true ∧ q = .enemy ∧ board.Has (origin.along d 2) .empty ∧
        t = origin.along d 2)

theorem isPathClear_iff_inside (hcounted : d ∉ miscounted) (hd : d.InPlane) (ho : origin.InPlane)
    (ht : (origin.along d 1).InPlane) :
    isPathClear board origin d ↔
      ∀ u, Square.Inside origin (origin.along d 1) u → board.Has u .empty := by
  have hlt : Int.gcd d.dx d.dy < 2147483648 :=
    Nat.lt_of_le_of_ne (gcd_le hd) fun h => hcounted ((gcd_eq_iff_mem_miscounted hd).mp h)
  rw [Square.along_one] at ht
  rw [isPathClear_iff_has hlt hd ho ht]
  constructor
  · intro h u hu
    obtain ⟨i, hpos, hi, rfl⟩ := Square.inside_iff.mp hu
    exact h i hpos hi
  · intro h i hpos hi
    exact h _ (Square.inside_iff.mpr ⟨i, hpos, hi, rfl⟩)

theorem destination?_eq_some_iff (hcounted : d ∉ miscounted) (hd : d.InPlane)
    (ho : origin.InPlane) :
    destination? set board origin d = some t ↔ Contributes set board origin d t := by
  rw [destination?_eq_some_iff_look, Contributes]
  constructor
  · rintro ⟨target, q, hlook, hclear, hland⟩
    obtain ⟨rfl, hq⟩ := Board.look_offset?_eq_some_iff_has.mp hlook
    rw [isPathClear_iff_inside hcounted hd ho hq.1] at hclear
    rw [ModifierSet.land?_eq_some_iff, Square.offset_along] at hland
    exact ⟨q, hq, hclear, hland⟩
  · rintro ⟨q, hq, hclear, hland⟩
    rw [← isPathClear_iff_inside hcounted hd ho hq.1] at hclear
    refine ⟨origin.along d 1, q, Board.look_offset?_eq_some_iff_has.mpr ⟨rfl, hq⟩, hclear, ?_⟩
    rw [ModifierSet.land?_eq_some_iff, Square.offset_along]
    exact hland

theorem notMem_miscounted (hx : d.dx ≠ minCoordinate) (hy : d.dy ≠ minCoordinate) :
    d ∉ miscounted := by
  simp only [miscounted, List.mem_cons, List.not_mem_nil, or_false]
  rintro (rfl | rfl | rfl)
  · exact hx rfl
  · exact hy rfl
  · exact hx rfl

end Leap

/-- An atom that leaps has the squares that its deltas contribute, in their order, if no delta has
the least coordinate in it. -/
theorem MoveAtom.moves_leap {a : MoveAtom} (h : a.kind = .leap)
    (hdeltas : ∀ d ∈ a.deltas, d.InPlane ∧ d.dx ≠ minCoordinate ∧ d.dy ≠ minCoordinate)
    {origin : Square} (ho : origin.InPlane) (board : Board) :
    ∃ destination? : Delta → Option Square,
      (∀ d ∈ a.deltas, ∀ t,
        destination? d = some t ↔ Leap.Contributes a.modifiers board origin d t) ∧
      a.moves board origin = a.deltas.filterMap destination? := by
  refine ⟨Leap.destination? a.modifiers board origin, fun d hd t => ?_, ?_⟩
  · obtain ⟨hplane, hx, hy⟩ := hdeltas d hd
    exact Leap.destination?_eq_some_iff (Leap.notMem_miscounted hx hy) hplane ho
  · rw [moves, h]
    rfl

/-- A leaper with two squares on its way. It asks for a clear path, and leaps on as far again. -/
def MoveAtom.longLeaper : MoveAtom :=
  (ofBase .zebra (.ofRun [.requiresClearPath, .captureThenLeap])).withDeltas [⟨6, -9⟩, ⟨-9, 6⟩]

/-- Past two empty squares the leaper takes an enemy and leaps on. -/
theorem MoveAtom.moves_leap_past_two :
    longLeaper.kind = .leap ∧
    (∀ d ∈ longLeaper.deltas, d.InPlane ∧ d.dx ≠ minCoordinate ∧ d.dy ≠ minCoordinate) ∧
    Square.InPlane ⟨0, 0⟩ ∧
    ⟨12, -18⟩ ∈ longLeaper.moves (((Grid.empty 1 1).set 0 0 .enemy).placedAt ⟨6, -9⟩ (some .empty))
      ⟨0, 0⟩ := by
  have hkind : longLeaper.kind = .leap := rfl
  have hdeltas :
      ∀ d ∈ longLeaper.deltas, d.InPlane ∧ d.dx ≠ minCoordinate ∧ d.dy ≠ minCoordinate := by
    decide
  have ho : Square.InPlane ⟨0, 0⟩ := by
    decide
  obtain ⟨destination?, hcontributes, hmoves⟩ := moves_leap hkind hdeltas ho
    (((Grid.empty 1 1).set 0 0 .enemy).placedAt ⟨6, -9⟩ (some .empty))
  refine ⟨hkind, hdeltas, ho, ?_⟩
  rw [hmoves, List.mem_filterMap]
  refine ⟨⟨6, -9⟩, by decide, (hcontributes _ (by decide) _).mpr ⟨.enemy, ?_, ?_, .inr ?_⟩⟩
  · exact ⟨by decide, rfl⟩
  · intro _ u hu
    obtain ⟨i, hpos, hi, rfl⟩ := Square.inside_iff.mp hu
    have hthree : i < 3 := hi
    interval_cases i <;> exact ⟨by decide, rfl⟩
  · exact ⟨rfl, rfl, ⟨by decide, rfl⟩, rfl⟩

end FairyMoves
