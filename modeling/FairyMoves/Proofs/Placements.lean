import FairyMoves.Grid.Setup
import FairyMoves.Proofs.GridRows

/-!
# Runs of placements

A grid behaves as a finite map from its squares to their states, whatever is written to it and in
whatever order. A square holds what was placed on it last, or what the grid was built with.
Placements beyond the sides do nothing, and no placement reaches a second square, although the cells
of all rows lie one behind the other.

## Main definitions

* `Placement.square` — the square that a placement writes to
* `GridSource.stateAt?` — the state that a source gives to a cell
* `Grid.PlaceLaws` — what a run of placements does to a grid

## Main results

* `GridSource.at?_read` — a grid is built with the states of its source
* `Grid.at?_eq_getElem`, `Grid.cells_set` — cells are read and written at places that there are
* `Grid.get?_set_self`, `Grid.get?_set_of_ne` — what one placement does
* `Grid.get?_place_of_forall_ne`, `Grid.get?_place_of_last` — what a run of them does
* `GridSource.place_read` — a grid behaves as a finite map
-/

namespace FairyMoves

/-- The square that a placement writes to. -/
def Placement.square (p : Placement) : Square := ⟨p.x, p.y⟩

/-! ## Sources -/

/-- The state that a source gives to the cell in column `x` of row `y`, if it has this cell. -/
def GridSource.stateAt? (x y : Nat) : GridSource → Option SquareState
  | rows list => (Grid.symbolAt? (list.map String.toList) x y).bind SquareState.ofSymbol?
  | text t => (Grid.symbolAt? (Grid.textRows t) x y).bind SquareState.ofSymbol?
  | sides w h => if x < w ∧ y < h then some .empty else none

theorem Grid.at?_of_ofRows {rows : List (List Char)} {g : Grid} (h : ofRows rows = .ok g)
    (x y : Nat) : g.at? x y = (symbolAt? rows x y).bind SquareState.ofSymbol? := by
  obtain ⟨_, _, rfl⟩ := ofRows_eq_ok_iff_rows.mp h
  rw [symbolAt?_rows, Option.bind_map]
  cases g.at? x y with
  | none => rfl
  | some q => exact (SquareState.ofSymbol?_symbol q).symm

/-- A grid is built with the states of its source. -/
theorem GridSource.at?_read {source : GridSource} {g : Grid} (h : source.read = .ok g) (x y : Nat) :
    g.at? x y = source.stateAt? x y := by
  cases source with
  | rows list => exact Grid.at?_of_ofRows h x y
  | text t => exact Grid.at?_of_ofRows h x y
  | sides width height =>
    obtain rfl := Except.ok.inj h
    exact Grid.at?_empty

namespace Grid

variable {g : Grid} {x y : Nat} {q : SquareState} {s : Square} {ps : List Placement}

/-! ## Cells -/

/-- The cell of a square is read at a place that there is. -/
theorem at?_eq_getElem (hx : x < g.width) (hy : y < g.height) :
    ∃ _ : g.index x y < g.cells.size, g.at? x y = some g.cells[g.index x y] := by
  refine ⟨index_lt hx hy, ?_⟩
  rw [at?, if_pos ⟨hx, hy⟩, Array.getElem?_eq_getElem]

/-- The cell of a square is written at a place that there is. -/
theorem cells_set (hx : x < g.width) (hy : y < g.height) :
    ∃ h : g.index x y < g.cells.size, (g.set x y q).cells = g.cells.set (g.index x y) q h := by
  refine ⟨index_lt hx hy, ?_⟩
  rw [set, if_pos ⟨hx, hy⟩]
  exact dif_pos (index_lt hx hy)

/-! ## One placement -/

theorem get?_set_self (hx : x < g.width) (hy : y < g.height) :
    (g.set x y q).get? ⟨x, y⟩ = some q := by
  rw [get?_natCast, at?_set, if_pos ⟨rfl, rfl, hx, hy⟩]

/-- A placement changes no other square. -/
theorem get?_set_of_ne (hs : s ≠ ⟨x, y⟩) : (g.set x y q).get? s = g.get? s := by
  obtain ⟨sx, sy⟩ := s
  unfold get?
  split
  case isTrue hnonneg =>
    dsimp only at hnonneg ⊢
    rw [at?_set, if_neg]
    rintro ⟨hx, hy, _⟩
    refine hs ?_
    rw [Square.mk.injEq]
    omega
  case isFalse => rfl

/-! ## Runs -/

theorem place_append (ps qs : List Placement) : g.place (ps ++ qs) = (g.place ps).place qs :=
  List.foldl_append

@[simp] theorem width_place : (g.place ps).width = g.width := by
  induction ps generalizing g with
  | nil => rfl
  | cons p ps ih => exact ih.trans width_set

@[simp] theorem height_place : (g.place ps).height = g.height := by
  induction ps generalizing g with
  | nil => rfl
  | cons p ps ih => exact ih.trans height_set

/-- A square keeps its state as long as nothing is placed on it. -/
theorem get?_place_of_forall_ne (h : ∀ p ∈ ps, p.square ≠ s) : (g.place ps).get? s = g.get? s := by
  induction ps generalizing g with
  | nil => rfl
  | cons p ps ih =>
    obtain ⟨hp, hps⟩ := List.forall_mem_cons.mp h
    exact (ih hps).trans (get?_set_of_ne hp.symm)

/-- A square holds what was placed on it last. -/
theorem get?_place_of_last {before after : List Placement} {p : Placement} (hx : p.x < g.width)
    (hy : p.y < g.height) (hafter : ∀ p' ∈ after, p'.square ≠ p.square) :
    (g.place (before ++ p :: after)).get? p.square = some p.state := by
  have hstep : g.place (before ++ p :: after) =
      ((g.place before).set p.x p.y p.state).place after := place_append before (p :: after)
  rw [hstep, get?_place_of_forall_ne hafter]
  exact get?_set_self (by rwa [width_place]) (by rwa [height_place])

/-- What a run of placements does to a grid. -/
structure PlaceLaws (g : Grid) (ps : List Placement) : Prop where
  width : (g.place ps).width = g.width
  height : (g.place ps).height = g.height
  size_cells : (g.place ps).cells.size = g.width * g.height
  /-- After the run the cells of squares are read within bounds. -/
  reads : ∀ x y, x < g.width → y < g.height →
    ∃ _ : (g.place ps).index x y < (g.place ps).cells.size,
      (g.place ps).at? x y = some (g.place ps).cells[(g.place ps).index x y]
  /-- They are written within bounds as well. -/
  writes : ∀ x y q, x < g.width → y < g.height →
    ∃ h : (g.place ps).index x y < (g.place ps).cells.size,
      ((g.place ps).set x y q).cells = (g.place ps).cells.set ((g.place ps).index x y) q h
  get?_eq_none_iff : ∀ s, (g.place ps).get? s = none ↔
    s.x < 0 ∨ s.y < 0 ∨ g.width ≤ s.x ∨ g.height ≤ s.y
  /-- A square holds what was placed on it last. -/
  last : ∀ before p after, ps = before ++ p :: after → p.x < g.width → p.y < g.height →
    (∀ p' ∈ after, p'.square ≠ p.square) → (g.place ps).get? p.square = some p.state
  /-- Without a placement on it, a square holds what it held at first. -/
  kept : ∀ s, (∀ p ∈ ps, p.square ≠ s) → (g.place ps).get? s = g.get? s
  /-- One more placement beyond the sides leaves the same grid. -/
  beyond : ∀ x y q, ¬ (x < g.width ∧ y < g.height) → (g.place ps).set x y q = g.place ps
  /-- One more placement leaves all squares but its own as they are. -/
  others : ∀ x y q s, s ≠ ⟨x, y⟩ → ((g.place ps).set x y q).get? s = (g.place ps).get? s

theorem placeLaws (g : Grid) (ps : List Placement) : g.PlaceLaws ps := by
  have hinside (x y : Nat) : x < (g.place ps).width ∧ y < (g.place ps).height ↔
      x < g.width ∧ y < g.height := by
    rw [width_place, height_place]
  constructor
  case width => exact width_place
  case height => exact height_place
  case size_cells => rw [(g.place ps).size_cells, width_place, height_place]
  case reads =>
    intro x y hx hy
    obtain ⟨hx', hy'⟩ := (hinside x y).mpr ⟨hx, hy⟩
    exact at?_eq_getElem hx' hy'
  case writes =>
    intro x y q hx hy
    obtain ⟨hx', hy'⟩ := (hinside x y).mpr ⟨hx, hy⟩
    exact cells_set hx' hy'
  case get?_eq_none_iff =>
    intro s
    rw [Grid.get?_eq_none_iff, width_place, height_place]
    omega
  case last =>
    rintro before p after rfl hx hy hafter
    exact get?_place_of_last hx hy hafter
  case kept => exact fun s h => get?_place_of_forall_ne h
  case beyond => exact fun x y q hout => set_of_not_cell fun h => hout ((hinside x y).mp h)
  case others => exact fun x y q s hs => get?_set_of_ne hs

end Grid

/-- A grid that is built from sides, from rows or from a text has the states of its source, and
behaves as a finite map from then on, over any run of placements. -/
theorem GridSource.place_read {source : GridSource} {g : Grid} (h : source.read = .ok g)
    (ps : List Placement) : (∀ x y, g.at? x y = source.stateAt? x y) ∧ g.PlaceLaws ps :=
  ⟨at?_read h, g.placeLaws ps⟩

/-- Two placements on one square of a grid of three columns, and one beside the grid that would fall
on the next row if only its place among the cells counted. -/
theorem GridSource.place_read_beside_the_grid :
    GridSource.read (.rows ["..F", "E.."]) =
      .ok (Grid.ofSymbols [['.', '.', 'F'], ['E', '.', '.']]) ∧
    (∀ x y, (Grid.ofSymbols [['.', '.', 'F'], ['E', '.', '.']]).at? x y =
      GridSource.stateAt? x y (.rows ["..F", "E.."])) ∧
    (Grid.ofSymbols [['.', '.', 'F'], ['E', '.', '.']]).PlaceLaws
      [⟨1, 1, .friendly⟩, ⟨1, 1, .enemy⟩, ⟨4, 0, .friendly⟩] ∧
    ((Grid.ofSymbols [['.', '.', 'F'], ['E', '.', '.']]).place
      [⟨1, 1, .friendly⟩, ⟨1, 1, .enemy⟩, ⟨4, 0, .friendly⟩]).get? ⟨1, 1⟩ = some .enemy := by
  have hread : GridSource.read (.rows ["..F", "E.."]) =
      .ok (Grid.ofSymbols [['.', '.', 'F'], ['E', '.', '.']]) := rfl
  obtain ⟨hstates, hlaws⟩ :=
    place_read hread [⟨1, 1, .friendly⟩, ⟨1, 1, .enemy⟩, ⟨4, 0, .friendly⟩]
  have hlast := hlaws.last [⟨1, 1, .friendly⟩] ⟨1, 1, .enemy⟩ [⟨4, 0, .friendly⟩] rfl
    (by decide) (by decide) (by decide)
  exact ⟨hread, hstates, hlaws, hlast⟩

end FairyMoves
