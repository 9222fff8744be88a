import FairyMoves.Board

/-!
# Rectangular boards

A grid is a board of a given width and height whose corner is the square `(0, 0)`. Its cells are
kept row after row, the row of `y = 0` first.

## Main definitions

* `Grid` — the two sides and the cells
* `Grid.ofFn`, `Grid.empty` — the grid with given cells, and the one without pieces
* `Grid.at?` — the state of the cell in a column and row
* `Grid.set` — the grid after one cell is written
* `Grid.flipped` — the grid seen from its other side, the last row first
* `Grid.board`, `Grid.placedAt` — the grid as a board of the plane, at the origin or elsewhere

## Main results

* `Grid.at?_ofFn`, `Grid.at?_empty`, `Grid.at?_set`, `Grid.at?_flipped` — what is read after each
  operation
* `Grid.ext_at?` — a grid is determined by its sides and its cells
* `Grid.get?_eq_none_iff`, `Grid.get?_flipped`, `Grid.placedAt_offset` — a grid as a board, and what
  becomes of it when it is flipped or moved
-/

namespace FairyMoves

/-- A rectangular board. -/
structure Grid where
  width : Nat
  height : Nat
  cells : Array SquareState
  size_cells : cells.size = width * height := by simp
  deriving DecidableEq

namespace Grid

/-- The place of a cell among the cells. -/
def index (g : Grid) (x y : Nat) : Nat := y * g.width + x

theorem index_lt {g : Grid} {x y : Nat} (hx : x < g.width) (hy : y < g.height) :
    g.index x y < g.cells.size := by
  rw [g.size_cells, index]
  calc y * g.width + x < y * g.width + g.width := Nat.add_lt_add_left hx _
    _ = (y + 1) * g.width := (Nat.succ_mul _ _).symm
    _ ≤ g.height * g.width := Nat.mul_le_mul_right _ hy
    _ = g.width * g.height := Nat.mul_comm _ _

theorem index_mod {g : Grid} {x y : Nat} (hx : x < g.width) : g.index x y % g.width = x := by
  rw [index, Nat.mul_comm, Nat.mul_add_mod, Nat.mod_eq_of_lt hx]

theorem index_div {g : Grid} {x y : Nat} (hx : x < g.width) : g.index x y / g.width = y := by
  rw [index, Nat.mul_comm, Nat.mul_add_div (Nat.zero_lt_of_lt hx), Nat.div_eq_of_lt hx,
    Nat.add_zero]

theorem index_inj {g : Grid} {x y x' y' : Nat} (hx : x < g.width) (hx' : x' < g.width) :
    g.index x y = g.index x' y' ↔ x = x' ∧ y = y' := by
  constructor
  · intro h
    exact ⟨by rw [← index_mod (y := y) hx, h, index_mod hx'],
      by rw [← index_div (y := y) hx, h, index_div hx']⟩
  · rintro ⟨rfl, rfl⟩
    rfl

/-- The state of the cell in column `x` of row `y`, if there is such a cell. -/
def at? (g : Grid) (x y : Nat) : Option SquareState :=
  if x < g.width ∧ y < g.height then g.cells[g.index x y]? else none

theorem at?_eq_none_iff {g : Grid} {x y : Nat} :
    g.at? x y = none ↔ ¬ (x < g.width ∧ y < g.height) := by
  constructor
  · intro h hxy
    simp [at?, hxy, index_lt hxy.1 hxy.2] at h
  · intro h
    simp only [at?, h, if_false]

theorem exists_at? {g : Grid} {x y : Nat} (h : x < g.width ∧ y < g.height) :
    ∃ q, g.at? x y = some q := by
  refine Option.ne_none_iff_exists'.mp fun hnone => ?_
  exact at?_eq_none_iff.mp hnone h

/-- Two grids with the same sides that hold the same states are equal. -/
theorem ext_at? {g h : Grid} (hw : g.width = h.width) (hh : g.height = h.height)
    (hc : ∀ x y, g.at? x y = h.at? x y) : g = h := by
  obtain ⟨w, t, cs, hs⟩ := g
  obtain ⟨w', t', ds, hs'⟩ := h
  obtain rfl : w = w' := hw
  obtain rfl : t = t' := hh
  congr
  refine Array.ext (hs.trans hs'.symm) fun i hi hi' => ?_
  have hpos : 0 < w := by
    rcases Nat.eq_zero_or_pos w with rfl | hp
    · simp only [Nat.zero_mul] at hs
      omega
    · exact hp
  -- The cell at place `i` lies in column `i % w` of row `i / w`.
  have hx : i % w < w := Nat.mod_lt _ hpos
  have hy : i / w < t := Nat.div_lt_of_lt_mul (hs ▸ hi)
  have hk : i / w * w + i % w = i := Nat.div_add_mod' i w
  have hread := hc (i % w) (i / w)
  simp only [at?, index, hx, hy, and_self, if_true, hk] at hread
  rw [Array.getElem?_eq_getElem hi, Array.getElem?_eq_getElem hi'] at hread
  exact Option.some.inj hread

/-! ## Building and writing -/

/-- The grid whose cell in column `x` of row `y` is `f x y`. -/
def ofFn (width height : Nat) (f : Nat → Nat → SquareState) : Grid where
  width := width
  height := height
  cells := Array.ofFn fun i : Fin (width * height) => f (i.val % width) (i.val / width)

theorem at?_ofFn {w h x y : Nat} {f : Nat → Nat → SquareState} :
    (ofFn w h f).at? x y = if x < w ∧ y < h then some (f x y) else none := by
  by_cases hxy : x < w ∧ y < h
  · have hi := index_lt (g := ofFn w h f) hxy.1 hxy.2
    have hm := index_mod (g := ofFn w h f) (y := y) hxy.1
    have hd := index_div (g := ofFn w h f) (y := y) hxy.1
    have hread : (ofFn w h f).at? x y = (ofFn w h f).cells[(ofFn w h f).index x y]? :=
      if_pos hxy
    rw [hread, Array.getElem?_eq_getElem hi, if_pos hxy]
    simp only [ofFn, Array.getElem_ofFn] at hm hd ⊢
    rw [hm, hd]
  · rw [if_neg hxy, at?_eq_none_iff]
    exact hxy

/-- The grid without pieces. -/
def empty (width height : Nat) : Grid := ofFn width height fun _ _ => .empty

theorem at?_empty {w h x y : Nat} :
    (empty w h).at? x y = if x < w ∧ y < h then some .empty else none :=
  at?_ofFn

/-- The grid after `state` is written to column `x` of row `y`; the same grid if it has no such
cell. -/
def set (g : Grid) (x y : Nat) (state : SquareState) : Grid :=
  if x < g.width ∧ y < g.height then
    { g with
      cells := g.cells.setIfInBounds (g.index x y) state
      size_cells := by rw [Array.size_setIfInBounds, g.size_cells] }
  else g

@[simp] theorem width_set {g : Grid} {x y : Nat} {q : SquareState} :
    (g.set x y q).width = g.width := by
  unfold set
  split <;> rfl

@[simp] theorem height_set {g : Grid} {x y : Nat} {q : SquareState} :
    (g.set x y q).height = g.height := by
  unfold set
  split <;> rfl

theorem set_of_not_cell {g : Grid} {x y : Nat} {q : SquareState}
    (h : ¬ (x < g.width ∧ y < g.height)) : g.set x y q = g :=
  if_neg h

/-- A write changes its own cell and no other. -/
theorem at?_set {g : Grid} {x y x' y' : Nat} {q : SquareState} :
    (g.set x y q).at? x' y' =
      if x' = x ∧ y' = y ∧ x < g.width ∧ y < g.height then some q else g.at? x' y' := by
  by_cases hxy : x < g.width ∧ y < g.height
  · by_cases hc : x' < g.width ∧ y' < g.height
    · have hi := index_lt hxy.1 hxy.2
      have hread : (g.set x y q).at? x' y' =
          (g.cells.setIfInBounds (g.index x y) q)[g.index x' y']? := by
        simp only [at?, width_set, height_set, hc, and_self, if_true]
        simp [set, hxy, index]
      have hold : g.at? x' y' = g.cells[g.index x' y']? := if_pos hc
      rw [hread, hold, Array.getElem?_setIfInBounds]
      by_cases he : x' = x ∧ y' = y
      · obtain ⟨rfl, rfl⟩ := he
        simp [hxy, hi]
      · have hne : g.index x y ≠ g.index x' y' := by
          rw [Ne, index_inj hxy.1 hc.1]
          exact fun ⟨h1, h2⟩ => he ⟨h1.symm, h2.symm⟩
        rw [if_neg hne, if_neg fun h => he ⟨h.1, h.2.1⟩]
    · have h1 : (g.set x y q).at? x' y' = none := by
        rw [at?_eq_none_iff]
        simpa using hc
      have h2 : g.at? x' y' = none := at?_eq_none_iff.mpr hc
      rw [h1, h2, if_neg]
      rintro ⟨rfl, rfl, h⟩
      exact hc h
  · rw [set_of_not_cell hxy, if_neg fun h => hxy h.2.2]

/-- The grid seen from its other side: its last row comes first. -/
def flipped (g : Grid) : Grid :=
  ofFn g.width g.height fun x y => (g.at? x (g.height - 1 - y)).getD .empty

theorem at?_flipped {g : Grid} {x y : Nat} (hy : y < g.height) :
    g.flipped.at? x y = g.at? x (g.height - 1 - y) := by
  have hy' : g.height - 1 - y < g.height := by omega
  rw [flipped, at?_ofFn]
  by_cases hx : x < g.width
  · have hi := index_lt hx hy'
    simp [at?, hx, hy, hy', hi]
  · rw [if_neg fun h => hx h.1, eq_comm, at?_eq_none_iff]
    exact fun h => hx h.1

/-! ## Grids as boards -/

/-- The state of a square of the plane, if the grid has that square. -/
def get? (g : Grid) (s : Square) : Option SquareState :=
  if 0 ≤ s.x ∧ 0 ≤ s.y then g.at? s.x.toNat s.y.toNat else none

theorem get?_natCast {g : Grid} {x y : Nat} : g.get? ⟨x, y⟩ = g.at? x y := by
  simp [get?]

/-- A grid has just the squares within its sides. -/
theorem get?_eq_none_iff {g : Grid} {s : Square} :
    g.get? s = none ↔ ¬ (0 ≤ s.x ∧ s.x < g.width ∧ 0 ≤ s.y ∧ s.y < g.height) := by
  unfold get?
  split
  · rw [at?_eq_none_iff]
    omega
  · simp only [true_iff]
    omega

theorem bounds_of_get? {g : Grid} {s : Square} {q : SquareState} (h : g.get? s = some q) :
    0 ≤ s.x ∧ s.x < g.width ∧ 0 ≤ s.y ∧ s.y < g.height := by
  refine Decidable.not_not.mp fun hout => ?_
  rw [get?_eq_none_iff.mpr hout] at h
  exact nomatch h

/-- Seen from its other side a grid has the square of the same column in the opposite row. -/
theorem get?_flipped {g : Grid} {s : Square} :
    g.flipped.get? s = g.get? ⟨s.x, g.height - 1 - s.y⟩ := by
  by_cases hy : 0 ≤ s.y ∧ s.y < g.height
  · have hrow : g.height - 1 - s.y.toNat = (g.height - 1 - s.y).toNat := by omega
    have hflip : 0 ≤ s.y ↔ 0 ≤ g.height - 1 - s.y := by omega
    simp only [get?, at?_flipped (show s.y.toNat < g.height by omega), hrow, hflip]
  · have hleft : g.flipped.get? s = none :=
      get?_eq_none_iff.mpr fun h => hy ⟨h.2.2.1, h.2.2.2⟩
    have hright : g.get? ⟨s.x, g.height - 1 - s.y⟩ = none := by
      rw [get?_eq_none_iff]
      dsimp only
      omega
    rw [hleft, hright]

/-- A grid is a board with its corner at the origin of the plane. -/
def board (g : Grid) : Board := g.get?

/-- The grid with its corner at another square of the plane. Squares outside it hold `outside`. -/
def placedAt (g : Grid) (corner : Square) (outside : Option SquareState) : Board := fun s =>
  (g.get? ⟨s.x - corner.x, s.y - corner.y⟩).or outside

theorem board_eq_placedAt {g : Grid} : g.board = g.placedAt ⟨0, 0⟩ none := by
  funext s
  simp only [placedAt, board, Int.sub_zero, Option.or_none]

/-- A grid whose corner is moved has its squares moved along. -/
theorem placedAt_offset {g : Grid} {corner s : Square} {outside : Option SquareState} (v : Delta) :
    g.placedAt (corner.offset v) outside (s.offset v) = g.placedAt corner outside s := by
  have hx : s.x + v.dx - (corner.x + v.dx) = s.x - corner.x := by omega
  have hy : s.y + v.dy - (corner.y + v.dy) = s.y - corner.y := by omega
  simp only [placedAt, Square.offset, hx, hy]

end Grid

end FairyMoves
