import FairyMoves.Grid.Text
import Mathlib.Data.List.Enum

/-!
# Grids and their rows

Rows of characters describe a grid when the first of them is not empty, all are as long as it, and
each character is the symbol of a state. Such rows are the rows of their grid, and the rows of a
grid that has a square describe this grid. So reading and writing rows undo each other.

## Main definitions

* `Grid.symbolAt?` — the character in a column of a row
* `Grid.IsRectangle` — the rows that describe a grid

## Main results

* `Grid.fault?_eq_none_iff` — rows without a fault are those that describe a grid
* `Grid.map_symbol_at?_ofSymbols`, `Grid.symbolAt?_rows` — what is read from rows and written to
  them
* `Grid.ofRows_eq_ok_iff_rows` — the rows that a grid is read from are the rows it is written as
-/

namespace FairyMoves

theorem SquareState.symbol_injective : Function.Injective symbol := fun p q h =>
  Option.some.inj (by rw [← ofSymbol?_symbol p, h, ofSymbol?_symbol])

namespace Grid

/-- The character in column `x` of row `y`. -/
def symbolAt? (rows : List (List Char)) (x y : Nat) : Option Char :=
  rows[y]?.bind fun row => row[x]?

/-- Rows that describe a grid. There is one at least, since the first is not empty. -/
structure IsRectangle (rows : List (List Char)) : Prop where
  length_pos : 0 < (rows.headD []).length
  length_eq : ∀ row ∈ rows, row.length = (rows.headD []).length
  isSymbol : ∀ row ∈ rows, ∀ c ∈ row, ∃ q : SquareState, c = q.symbol

/-! ## Faults -/

theorem isSome_ofSymbol?_iff {c : Char} :
    (SquareState.ofSymbol? c).isSome ↔ ∃ q : SquareState, c = q.symbol := by
  simp only [Option.isSome_iff_exists, SquareState.ofSymbol?_eq_some_iff]

/-- A search for a fault that does not depend on the place finds none if there is none anywhere. -/
theorem findSome?_zipIdx_eq_none_iff {α β : Type} {l : List α} {f : α × Nat → Option β}
    {p : α → Prop} (h : ∀ a i, f (a, i) = none ↔ p a) :
    l.zipIdx.findSome? f = none ↔ ∀ a ∈ l, p a := by
  rw [List.findSome?_eq_none_iff, List.forall_mem_zipIdx', List.forall_mem_iff_forall_getElem]
  exact forall₂_congr fun i hi => h l[i] i

theorem rowFault?_eq_none_iff {width y : Nat} {row : List Char} :
    rowFault? width y row = none ↔
      row.length = width ∧ ∀ c ∈ row, ∃ q : SquareState, c = q.symbol := by
  unfold rowFault?
  split
  case isTrue hlength =>
    rw [findSome?_zipIdx_eq_none_iff fun c x => ?_, and_iff_right hlength]
    simp [symbolFault?, isSome_ofSymbol?_iff]
  case isFalse hlength => simp [hlength]

theorem fault?_eq_none_iff {rows : List (List Char)} : fault? rows = none ↔ IsRectangle rows := by
  unfold fault?
  split
  case h_1 => exact ⟨nofun, fun h => absurd h.length_pos (Nat.lt_irrefl 0)⟩
  case h_2 => exact ⟨nofun, fun h => absurd h.length_pos (Nat.lt_irrefl 0)⟩
  case h_3 first rest hfirst =>
    have hrows (row : List Char) (y : Nat) : rowFault? first.length y row = none ↔
        row.length = first.length ∧ ∀ c ∈ row, ∃ q : SquareState, c = q.symbol :=
      rowFault?_eq_none_iff
    rw [findSome?_zipIdx_eq_none_iff hrows]
    constructor
    · intro h
      exact ⟨List.length_pos_iff.mpr hfirst, fun row hrow => (h row hrow).1,
        fun row hrow => (h row hrow).2⟩
    · exact fun h row hrow => ⟨h.length_eq row hrow, h.isSymbol row hrow⟩

/-! ## Symbols -/

/-- As many rows with the same characters are the same rows. -/
theorem ext_symbolAt? {rows rows' : List (List Char)} (hlength : rows.length = rows'.length)
    (h : ∀ x y, symbolAt? rows x y = symbolAt? rows' x y) : rows = rows' := by
  refine List.ext_getElem hlength fun y hy hy' => List.ext_getElem? fun x => ?_
  have hread := h x y
  rwa [symbolAt?, symbolAt?, List.getElem?_eq_getElem hy, List.getElem?_eq_getElem hy',
    Option.bind_some, Option.bind_some] at hread

/-- The character of a column and row where each row has one for each column. -/
theorem symbolAt?_map_range {width height x y : Nat} {f : Nat → Nat → Char} :
    symbolAt? ((List.range height).map fun y => (List.range width).map fun x => f x y) x y =
      if x < width ∧ y < height then some (f x y) else none := by
  rw [symbolAt?]
  by_cases hy : y < height
  · by_cases hx : x < width
    · simp [hx, hy]
    · simp [hx, hy]
  · simp [hy]

/-- A grid that is read from rows has the states whose symbols stand there, and no other cells. -/
theorem map_symbol_at?_ofSymbols {rows : List (List Char)} (h : IsRectangle rows) (x y : Nat) :
    ((ofSymbols rows).at? x y).map SquareState.symbol = symbolAt? rows x y := by
  rw [ofSymbols, at?_ofFn, symbolAt?]
  cases hrow : rows[y]? with
  | none =>
    have hy : rows.length ≤ y := List.getElem?_eq_none_iff.mp hrow
    rw [if_neg fun hxy => absurd hxy.2 (Nat.not_lt.mpr hy)]
    rfl
  | some row =>
    obtain ⟨hy, _⟩ := List.getElem?_eq_some_iff.mp hrow
    have hmem : row ∈ rows := List.mem_of_getElem? hrow
    rw [Option.bind_some, ← h.length_eq row hmem]
    cases hc : row[x]? with
    | none =>
      have hx : row.length ≤ x := List.getElem?_eq_none_iff.mp hc
      rw [if_neg fun hxy => absurd hxy.1 (Nat.not_lt.mpr hx)]
      rfl
    | some c =>
      obtain ⟨hx, _⟩ := List.getElem?_eq_some_iff.mp hc
      obtain ⟨q, rfl⟩ := h.isSymbol row hmem c (List.mem_of_getElem? hc)
      rw [if_pos ⟨hx, hy⟩]
      simp [hrow, hc, SquareState.ofSymbol?_symbol]

theorem length_rowSymbols (g : Grid) (y : Nat) : (g.rowSymbols y).length = g.width := by
  rw [rowSymbols, List.length_map, List.length_range]

theorem length_rows {g : Grid} (hw : 0 < g.width) : g.rows.length = g.height := by
  rw [rows, if_neg (Nat.ne_of_gt hw), List.length_map, List.length_range]

/-- A grid is written with the symbols of its states. -/
theorem symbolAt?_rows (g : Grid) (x y : Nat) :
    symbolAt? g.rows x y = (g.at? x y).map SquareState.symbol := by
  by_cases hcell : x < g.width ∧ y < g.height
  · obtain ⟨q, hq⟩ := exists_at? hcell
    rw [rows, if_neg (Nat.ne_of_gt (Nat.zero_lt_of_lt hcell.1))]
    refine symbolAt?_map_range.trans ?_
    rw [if_pos hcell, hq, Option.getD_some, Option.map_some]
  · rw [at?_eq_none_iff.mpr hcell, Option.map_none, rows]
    split
    · rfl
    · exact symbolAt?_map_range.trans (if_neg hcell)

/-! ## Reading and writing -/

theorem length_of_mem_rows {g : Grid} {row : List Char} (h : row ∈ g.rows) :
    row.length = g.width := by
  rw [rows] at h
  split at h
  · cases h
  · obtain ⟨y, _, rfl⟩ := List.mem_map.mp h
    exact g.length_rowSymbols y

theorem length_headD_rows {g : Grid} (hw : 0 < g.width) (hh : 0 < g.height) :
    (g.rows.headD []).length = g.width := by
  obtain ⟨row, rest, hrows⟩ : ∃ row rest, g.rows = row :: rest :=
    List.exists_cons_of_length_pos (by rwa [length_rows hw])
  rw [hrows, List.headD_cons]
  exact length_of_mem_rows (hrows ▸ List.mem_cons_self)

theorem isRectangle_rows {g : Grid} (hw : 0 < g.width) (hh : 0 < g.height) :
    IsRectangle g.rows where
  length_pos := by rwa [length_headD_rows hw hh]
  length_eq row hrow := by rw [length_of_mem_rows hrow, length_headD_rows hw hh]
  isSymbol row hrow c hc := by
    rw [rows, if_neg (Nat.ne_of_gt hw)] at hrow
    obtain ⟨y, _, rfl⟩ := List.mem_map.mp hrow
    obtain ⟨x, _, rfl⟩ := List.mem_map.mp hc
    exact ⟨_, rfl⟩

theorem IsRectangle.length_pos_rows {rows : List (List Char)} (h : IsRectangle rows) :
    0 < rows.length := by
  have hfirst := h.length_pos
  cases rows with
  | nil => cases hfirst
  | cons row rest => exact Nat.succ_pos _

/-- The grid that rows describe has these rows. -/
theorem rows_ofSymbols {rows : List (List Char)} (h : IsRectangle rows) :
    (ofSymbols rows).rows = rows := by
  refine ext_symbolAt? (length_rows h.length_pos) fun x y => ?_
  rw [symbolAt?_rows, map_symbol_at?_ofSymbols h]

/-- The rows of a grid describe this grid. -/
theorem ofSymbols_rows {g : Grid} (hw : 0 < g.width) (hh : 0 < g.height) :
    ofSymbols g.rows = g := by
  refine ext_at? (length_headD_rows hw hh) (length_rows hw) fun x y => ?_
  apply Option.map_injective SquareState.symbol_injective
  rw [map_symbol_at?_ofSymbols (isRectangle_rows hw hh), symbolAt?_rows]

/-- Rows are read as a grid just when it is written as these rows and has a square. -/
theorem ofRows_eq_ok_iff_rows {rows : List (List Char)} {g : Grid} :
    ofRows rows = .ok g ↔ 0 < g.width ∧ 0 < g.height ∧ g.rows = rows := by
  rw [ofRows_eq_ok_iff, fault?_eq_none_iff]
  constructor
  · rintro ⟨h, rfl⟩
    exact ⟨h.length_pos, h.length_pos_rows, rows_ofSymbols h⟩
  · rintro ⟨hw, hh, rfl⟩
    exact ⟨isRectangle_rows hw hh, ofSymbols_rows hw hh⟩

end Grid

end FairyMoves
