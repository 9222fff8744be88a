/-!
# The plane of squares

A move is made on a plane of squares with two whole coordinates. A coordinate is a signed number of
32 bits, so the plane has an edge far out on each side: a square beyond it does not exist, and
arithmetic that would reach one gives no square.

## Main definitions

* `Square`, `Delta` — a square, and the difference of two squares
* `Square.InPlane`, `Delta.InPlane` — both components are coordinates
* `Square.offset?` — the square that a delta leads to, if it exists
* `Delta.scaled?` — a whole multiple of a delta, if it exists
* `Delta.flipped` — the delta seen from the other side of the board

## Main results

* `Square.offset?_eq_some_iff`, `Delta.scaled?_eq_some_iff` — a result is the exact one, and exists
  just when it lies in the plane
-/

namespace FairyMoves

/-- The least coordinate. -/
def minCoordinate : Int := -2147483648

/-- The greatest coordinate. -/
def maxCoordinate : Int := 2147483647

/-- A whole number that a coordinate can hold. -/
def IsCoordinate (n : Int) : Prop := minCoordinate ≤ n ∧ n ≤ maxCoordinate

instance (n : Int) : Decidable (IsCoordinate n) :=
  inferInstanceAs (Decidable (minCoordinate ≤ n ∧ n ≤ maxCoordinate))

theorem isCoordinate_iff {n : Int} : IsCoordinate n ↔ -2147483648 ≤ n ∧ n ≤ 2147483647 := Iff.rfl

/-! ## Deltas -/

/-- A step from one square to another. Forward is up the `y` axis. -/
structure Delta where
  dx : Int
  dy : Int
  deriving DecidableEq, Repr, Inhabited

namespace Delta

/-- Both components are coordinates. -/
def InPlane (d : Delta) : Prop := IsCoordinate d.dx ∧ IsCoordinate d.dy

instance (d : Delta) : Decidable d.InPlane :=
  inferInstanceAs (Decidable (IsCoordinate d.dx ∧ IsCoordinate d.dy))

/-- The step that stays where it is. -/
def zero : Delta := ⟨0, 0⟩

/-- The delta itself when it lies in the plane. -/
def checked? (d : Delta) : Option Delta := if d.InPlane then some d else none

theorem checked?_eq_some_iff {d e : Delta} : d.checked? = some e ↔ d.InPlane ∧ d = e := by
  simp [checked?]

/-- The delta taken `k` times. -/
def scaled (d : Delta) (k : Int) : Delta := ⟨d.dx * k, d.dy * k⟩

/-- The delta taken `k` times; none when a component leaves the plane. -/
def scaled? (d : Delta) (k : Int) : Option Delta := (d.scaled k).checked?

theorem scaled?_eq_some_iff {d e : Delta} {k : Int} :
    d.scaled? k = some e ↔ (d.scaled k).InPlane ∧ d.scaled k = e :=
  checked?_eq_some_iff

/-- The delta seen from the other side of the board: forward and backward change places. -/
def flipped (d : Delta) : Delta := ⟨d.dx, -d.dy⟩

@[simp] theorem flipped_flipped (d : Delta) : d.flipped.flipped = d := by
  simp [flipped]

theorem flipped_scaled (d : Delta) (k : Int) : (d.scaled k).flipped = d.flipped.scaled k := by
  simp only [flipped, scaled, Int.neg_mul]

theorem flipped_ne_zero {d : Delta} (hd : d ≠ .zero) : d.flipped ≠ .zero := by
  intro hzero
  refine hd ?_
  rw [← d.flipped_flipped, hzero]
  rfl

/-- Deltas are ordered by `dx`, and by `dy` where that is equal. -/
def le (d e : Delta) : Bool := d.dx < e.dx || (d.dx == e.dx && d.dy ≤ e.dy)

/-- A delta is written as a pair, as in `(1, -2)`. -/
def toText (d : Delta) : String := s!"({d.dx}, {d.dy})"

/-- A list of deltas is written in square brackets, as in `[(1, 0), (0, 1)]`. -/
def listText (ds : List Delta) : String := "[" ++ ", ".intercalate (ds.map toText) ++ "]"

end Delta

/-! ## Squares -/

/-- A square of the plane, by its coordinates. -/
structure Square where
  x : Int
  y : Int
  deriving DecidableEq, Repr, Inhabited

namespace Square

/-- Both coordinates exist. -/
def InPlane (s : Square) : Prop := IsCoordinate s.x ∧ IsCoordinate s.y

instance (s : Square) : Decidable s.InPlane :=
  inferInstanceAs (Decidable (IsCoordinate s.x ∧ IsCoordinate s.y))

/-- Where a delta leads from a square, be it in the plane or not. -/
def offset (s : Square) (d : Delta) : Square := ⟨s.x + d.dx, s.y + d.dy⟩

theorem offset_comm (s : Square) (d e : Delta) : (s.offset d).offset e = (s.offset e).offset d := by
  simp only [offset, mk.injEq]
  omega

/-- The square that a delta leads to; none beyond the edge of the plane. -/
def offset? (s : Square) (d : Delta) : Option Square :=
  if (s.offset d).InPlane then some (s.offset d) else none

theorem offset?_eq_some_iff {s t : Square} {d : Delta} :
    s.offset? d = some t ↔ (s.offset d).InPlane ∧ s.offset d = t := by
  simp [offset?]

/-- Squares are ordered by `x`, and by `y` where that is equal. -/
def le (s t : Square) : Bool := s.x < t.x || (s.x == t.x && s.y ≤ t.y)

/-- A square is listed as its coordinates with a comma between them, as in `2,3`. -/
def toText (s : Square) : String := s!"{s.x},{s.y}"

/-- Within a sentence a square is written as a pair, as in `(2, 3)`. -/
def pairText (s : Square) : String := s!"({s.x}, {s.y})"

end Square

end FairyMoves
