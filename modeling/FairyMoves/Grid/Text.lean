import FairyMoves.Grid
import FairyMoves.Text.Blank
import FairyMoves.Text.Quoted

/-!
# Reading and writing grids

A grid is written one row to a line, the row of `y = 0` first, one character to a square. It is read
back from such lines. Blanks around a line and blank lines do not count, so rows are numbered over
the lines that remain.

## Main definitions

* `GridError` — why rows make no grid, and the message that says so
* `Grid.pushRows`, `Grid.ofRows`, `Grid.ofText` — the grid that rows or a text describe, whose cells
  are pushed one by one
* `Grid.fault?` — the first fault of a list of rows, row by row and in each row length before
  content
* `Grid.ofSymbols` — the grid of rows that have no fault
* `Grid.chunks`, `Grid.toText` — the cells of a grid, cut into rows and printed

## Main results

* `Grid.ofRows_eq` — rows are refused just for their first fault, and else give the grid of their
  symbols
* `Grid.toText_eq` — a grid is printed as its rows, joined by newlines
-/

namespace FairyMoves

/-- Why a list of rows does not describe a grid. -/
inductive GridError where
  /-- There is no row, or the first one is empty. -/
  | noRows
  /-- A row is not as long as the first one. -/
  | raggedRow (width length row : Nat)
  /-- A character does not stand for a square state. -/
  | badSquare (symbol : Char) (row column : Nat)
  deriving DecidableEq, Repr

/-- The sentence that reports an error. -/
def GridError.message : GridError → String
  | .noRows => "grid has no rows"
  | .raggedRow width length row => s!"row length: want {width} got {length}, err at row {row}"
  | .badSquare symbol row column =>
    "square: want '.'|'F'|'E' got " ++ Text.quotedChar symbol ++ s!", err at row {row} col {column}"

namespace Grid

/-! ## Reading -/

/-- Puts the states of symbols behind the cells so far. The symbols stand in row `y`, from column
`x` on. -/
def pushSymbols (y x : Nat) (cells : Array SquareState) :
    List Char → Except GridError (Array SquareState)
  | [] => .ok cells
  | c :: cs =>
    match SquareState.ofSymbol? c with
    | some q => pushSymbols y (x + 1) (cells.push q) cs
    | none => .error (.badSquare c y x)

/-- Puts rows of `width` symbols behind the cells so far. The first of them is row `y`. -/
def pushRows (width y : Nat) (cells : Array SquareState) :
    List (List Char) → Except GridError (Array SquareState)
  | [] => .ok cells
  | row :: rows =>
    if row.length = width then
      match pushSymbols y 0 cells row with
      | .ok more => pushRows width (y + 1) more rows
      | .error e => .error e
    else .error (.raggedRow width row.length y)

theorem size_pushSymbols {y x : Nat} {cells more : Array SquareState} {cs : List Char}
    (h : pushSymbols y x cells cs = .ok more) : more.size = cells.size + cs.length := by
  induction cs generalizing x cells with
  | nil =>
    obtain rfl := Except.ok.inj h
    rfl
  | cons c cs ih =>
    rw [pushSymbols] at h
    split at h
    · rw [ih h, Array.size_push, List.length_cons, Nat.add_right_comm, Nat.add_assoc]
    · cases h

theorem size_pushRows {width y : Nat} {cells more : Array SquareState} {rows : List (List Char)}
    (h : pushRows width y cells rows = .ok more) :
    more.size = cells.size + width * rows.length := by
  induction rows generalizing y cells with
  | nil =>
    obtain rfl := Except.ok.inj h
    rfl
  | cons row rows ih =>
    rw [pushRows] at h
    split at h
    case isTrue hlength =>
      split at h
      case h_1 hrow =>
        rw [ih h, size_pushSymbols hrow, hlength, List.length_cons, Nat.mul_succ, Nat.add_assoc,
          Nat.add_comm width]
      case h_2 => cases h
    case isFalse => cases h

/-- The grid that rows of symbols describe, or their first fault. -/
def ofRows (rows : List (List Char)) : Except GridError Grid :=
  if (rows.headD []).length = 0 then .error .noRows
  else
    match h : pushRows (rows.headD []).length 0 #[] rows with
    | .ok cells => .ok ⟨(rows.headD []).length, rows.length, cells, by simpa using size_pushRows h⟩
    | .error e => .error e

/-! ## Faults of rows -/

/-- The fault of a character with its column in row `y`, unless it is a symbol. -/
def symbolFault? (y : Nat) (place : Char × Nat) : Option GridError :=
  if (SquareState.ofSymbol? place.1).isSome then none else some (.badSquare place.1 y place.2)

/-- The first fault of row `y` where rows have `width` squares: its length, else its first character
that is no symbol. -/
def rowFault? (width y : Nat) (row : List Char) : Option GridError :=
  if row.length = width then row.zipIdx.findSome? (symbolFault? y)
  else some (.raggedRow width row.length y)

/-- The first fault of a list of rows; none if they describe a grid. -/
def fault? (rows : List (List Char)) : Option GridError :=
  match rows with
  | [] => some .noRows
  -- An empty row leaves no width to measure the others by.
  | [] :: _ => some .noRows
  | first :: _ => rows.zipIdx.findSome? fun r => rowFault? first.length r.2 r.1

/-- The grid whose cells have the given symbols. A symbol that is missing or unknown makes an empty
square. -/
def ofSymbols (rows : List (List Char)) : Grid :=
  let table := (rows.map List.toArray).toArray
  ofFn (rows.headD []).length rows.length fun x y =>
    ((table[y]?.bind fun row => row[x]?).bind SquareState.ofSymbol?).getD .empty

theorem pushSymbols_eq (y x : Nat) (cells : Array SquareState) (cs : List Char) :
    pushSymbols y x cells cs =
      match (cs.zipIdx x).findSome? (symbolFault? y) with
      | some fault => .error fault
      | none => .ok (cells ++ (cs.map fun c => (SquareState.ofSymbol? c).getD .empty).toArray) := by
  induction cs generalizing x cells with
  | nil => simp [pushSymbols]
  | cons c cs ih =>
    rw [pushSymbols, List.zipIdx_cons, List.findSome?_cons, symbolFault?]
    cases hc : SquareState.ofSymbol? c with
    | some q => simp [ih, hc]
    | none => rfl

theorem pushRows_eq (width y : Nat) (cells : Array SquareState) (rows : List (List Char)) :
    pushRows width y cells rows =
      match (rows.zipIdx y).findSome? fun r => rowFault? width r.2 r.1 with
      | some fault => .error fault
      | none =>
        .ok (cells ++
          (rows.flatten.map fun c => (SquareState.ofSymbol? c).getD .empty).toArray) := by
  induction rows generalizing y cells with
  | nil => simp [pushRows]
  | cons row rows ih =>
    rw [pushRows, List.zipIdx_cons, List.findSome?_cons, rowFault?]
    split
    case isTrue hlength =>
      rw [pushSymbols_eq]
      cases row.zipIdx.findSome? (symbolFault? y) with
      | some fault => rfl
      | none => simp [ih]
    case isFalse => rfl

theorem length_flatten {α : Type} {w : Nat} {rows : List (List α)}
    (h : ∀ row ∈ rows, row.length = w) : rows.flatten.length = w * rows.length := by
  induction rows with
  | nil => rfl
  | cons row rows ih =>
    obtain ⟨hrow, hrows⟩ := List.forall_mem_cons.mp h
    rw [List.flatten_cons, List.length_append, hrow, ih hrows, List.length_cons, Nat.mul_succ,
      Nat.add_comm]

/-- Rows of one length, one behind the other: the place of a column and row among them. -/
theorem getElem?_flatten {α : Type} {w x : Nat} {rows : List (List α)}
    (h : ∀ row ∈ rows, row.length = w) (hx : x < w) (y : Nat) :
    rows.flatten[y * w + x]? = rows[y]?.bind fun row => row[x]? := by
  induction rows generalizing y with
  | nil => rfl
  | cons row rows ih =>
    obtain ⟨hrow, hrows⟩ := List.forall_mem_cons.mp h
    rw [List.flatten_cons]
    cases y with
    | zero => rw [Nat.zero_mul, Nat.zero_add, List.getElem?_append_left (hrow.symm ▸ hx)]; rfl
    | succ y =>
      have hplace : (y + 1) * w + x = row.length + (y * w + x) := by
        rw [hrow, Nat.succ_mul, Nat.add_comm _ w, Nat.add_assoc]
      rw [hplace, List.getElem?_append_right (Nat.le_add_right _ _), Nat.add_sub_cancel_left,
        ih hrows, List.getElem?_cons_succ]

/-- Rows without a fault are of one length. -/
theorem length_of_findSome?_eq_none {width : Nat} {rows : List (List Char)}
    (h : (rows.zipIdx.findSome? fun r => rowFault? width r.2 r.1) = none) :
    ∀ row ∈ rows, row.length = width := by
  intro row hrow
  obtain ⟨y, hy⟩ := List.mem_iff_getElem?.mp hrow
  have hfault := List.findSome?_eq_none_iff.mp h (row, y) (List.mk_mem_zipIdx_iff_getElem?.mpr hy)
  rw [rowFault?] at hfault
  split at hfault
  · assumption
  · cases hfault

/-- Cells that have been pushed row by row are those of the grid of the symbols. -/
theorem eq_ofSymbols {g : Grid} {rows : List (List Char)}
    (hwidth : g.width = (rows.headD []).length) (hheight : g.height = rows.length)
    (h : ∀ row ∈ rows, row.length = g.width)
    (hcells : g.cells.toList = rows.flatten.map fun c => (SquareState.ofSymbol? c).getD .empty) :
    g = ofSymbols rows := by
  refine ext_at? hwidth hheight fun x y => ?_
  rw [ofSymbols, at?_ofFn, ← hwidth, ← hheight, at?]
  split
  case isFalse => rfl
  case isTrue hxy =>
    obtain ⟨row, hrow⟩ : ∃ row, rows[y]? = some row :=
      ⟨_, List.getElem?_eq_getElem (hheight ▸ hxy.2)⟩
    have hlength := h row (List.mem_of_getElem? hrow)
    obtain ⟨c, hc⟩ : ∃ c, row[x]? = some c := ⟨_, List.getElem?_eq_getElem (hlength ▸ hxy.1)⟩
    rw [← Array.getElem?_toList, hcells, List.getElem?_map, index, getElem?_flatten h hxy.1, hrow]
    simp [hrow, hc]

/-- The rows are pushed up to their first fault; without one they fill the grid of their symbols. -/
theorem ofRows_eq (rows : List (List Char)) :
    ofRows rows =
      match fault? rows with
      | some fault => .error fault
      | none => .ok (ofSymbols rows) := by
  match rows with
  | [] => rfl
  | [] :: rest => rfl
  | (c :: cs) :: rest =>
    have hpush := pushRows_eq (c :: cs).length 0 #[] ((c :: cs) :: rest)
    have hfaults : fault? ((c :: cs) :: rest) = ((c :: cs) :: rest).zipIdx.findSome?
      fun r => rowFault? (c :: cs).length r.2 r.1 := rfl
    have hfirst : (((c :: cs) :: rest).headD []).length ≠ 0 := Nat.succ_ne_zero _
    rw [ofRows, if_neg hfirst, hfaults]
    cases hfault : ((c :: cs) :: rest).zipIdx.findSome? fun r =>
        rowFault? (c :: cs).length r.2 r.1 with
    | some fault =>
      rw [hfault] at hpush
      split
      case h_1 cells hcells => exact absurd (hpush.symm.trans hcells) nofun
      case h_2 e he => rw [Except.error.inj (hpush.symm.trans he)]
    | none =>
      rw [hfault] at hpush
      split
      case h_1 cells hcells =>
        refine congrArg Except.ok (eq_ofSymbols rfl rfl (length_of_findSome?_eq_none hfault) ?_)
        simp [← Except.ok.inj (hpush.symm.trans hcells)]
      case h_2 e he => exact absurd (hpush.symm.trans he) nofun

theorem ofRows_eq_error_iff {rows : List (List Char)} {e : GridError} :
    ofRows rows = .error e ↔ fault? rows = some e := by
  rw [ofRows_eq]
  split <;> simp_all

theorem ofRows_eq_ok_iff {rows : List (List Char)} {g : Grid} :
    ofRows rows = .ok g ↔ fault? rows = none ∧ ofSymbols rows = g := by
  rw [ofRows_eq]
  split <;> simp_all

/-- The lines of a text that count as rows: trimmed, and not empty after that. -/
def textRows (text : String) : List (List Char) :=
  ((Text.lines text.toList).map Text.trim).filter fun row => !row.isEmpty

/-- The grid that a text describes, or the first fault of its rows. -/
def ofText (text : String) : Except GridError Grid := ofRows (textRows text)

/-! ## Writing -/

/-- Cuts a list into pieces of `n`. -/
def chunks {α : Type} (n : Nat) (l : List α) : List (List α) :=
  if _h : 0 < n ∧ 0 < l.length then l.take n :: chunks n (l.drop n) else []
termination_by l.length
decreasing_by
  rw [List.length_drop]
  exact Nat.sub_lt _h.2 _h.1

/-- The symbols of rows from row `y` on, with a newline behind each but the last row of `height`. -/
def printRows (height y : Nat) : List (List SquareState) → String
  | [] => ""
  | row :: rows =>
    String.ofList (row.map SquareState.symbol) ++ (if y + 1 = height then "" else "\n") ++
      printRows height (y + 1) rows

/-- A grid is written as its cells, cut into rows. -/
def toText (g : Grid) : String := printRows g.height 0 (chunks (max g.width 1) g.cells.toList)

/-! ## Rows of a grid -/

/-- The symbols of row `y`, from left to right. -/
def rowSymbols (g : Grid) (y : Nat) : List Char :=
  (List.range g.width).map fun x => ((g.at? x y).getD .empty).symbol

/-- The symbols of a grid, row by row. A grid with an empty side has none. -/
def rows (g : Grid) : List (List Char) :=
  if g.width = 0 then [] else (List.range g.height).map g.rowSymbols

/-- Rows of one length are cut out of what they make one behind the other. -/
theorem chunks_flatten {α : Type} {n : Nat} (hn : 0 < n) {rows : List (List α)}
    (h : ∀ row ∈ rows, row.length = n) : chunks n rows.flatten = rows := by
  induction rows with
  | nil => rw [List.flatten_nil, chunks, dif_neg (by simp)]
  | cons row rows ih =>
    obtain ⟨hrow, hrows⟩ := List.forall_mem_cons.mp h
    rw [List.flatten_cons, chunks, dif_pos ⟨hn, by rw [List.length_append]; omega⟩,
      List.take_left' hrow, List.drop_left' hrow, ih hrows]

theorem printRows_eq {height y : Nat} {rows : List (List SquareState)}
    (h : y + rows.length = height) :
    printRows height y rows =
      "\n".intercalate (rows.map fun row => String.ofList (row.map SquareState.symbol)) := by
  induction rows generalizing y with
  | nil => rfl
  | cons row rows ih =>
    rw [List.length_cons] at h
    rw [printRows, ih (by omega)]
    cases rows with
    | nil => simp [← h]
    | cons next rows =>
      rw [if_neg (by rw [List.length_cons] at h; omega)]
      simp [String.append_assoc]

/-- The states of a grid, row by row. -/
def rowStates (g : Grid) : List (List SquareState) :=
  (List.range g.height).map fun y => (List.range g.width).map fun x => (g.at? x y).getD .empty

theorem length_of_mem_rowStates {g : Grid} : ∀ row ∈ g.rowStates, row.length = g.width := by
  simp [rowStates]

/-- The cells of a grid are its rows, one behind the other. -/
theorem toList_cells (g : Grid) : g.cells.toList = g.rowStates.flatten := by
  have hrows : g.rowStates.length = g.height := by simp [rowStates]
  refine List.ext_getElem? fun i => ?_
  by_cases hi : i < g.width * g.height
  · have hpos : 0 < g.width := Nat.pos_of_mul_pos_right (Nat.zero_lt_of_lt hi)
    have hx : i % g.width < g.width := Nat.mod_lt _ hpos
    have hy : i / g.width < g.height := Nat.div_lt_of_lt_mul hi
    have hsize : i < g.cells.size := g.size_cells.symm ▸ hi
    rw [← Nat.div_add_mod' i g.width, getElem?_flatten length_of_mem_rowStates hx]
    simp [rowStates, at?, index, hx, hy, Nat.div_add_mod', hsize]
  · rw [List.getElem?_eq_none (by rw [Array.length_toList, g.size_cells]; omega),
      List.getElem?_eq_none (by rw [length_flatten length_of_mem_rowStates, hrows]; omega)]

/-- The text of a grid is that of its rows, with newlines between them. -/
theorem toText_eq (g : Grid) : g.toText = "\n".intercalate (g.rows.map String.ofList) := by
  rw [toText, rows, toList_cells]
  split
  case isTrue hw =>
    have hcells : g.rowStates.flatten = [] := by
      rw [List.eq_nil_iff_length_eq_zero, length_flatten length_of_mem_rowStates, hw, Nat.zero_mul]
    rw [hcells, chunks, dif_neg (by simp)]
    rfl
  case isFalse hw =>
    have hmax : max g.width 1 = g.width := by omega
    rw [hmax, chunks_flatten (by omega) length_of_mem_rowStates, printRows_eq (by simp [rowStates])]
    simp only [rowStates, List.map_map]
    congr 2
    funext y
    simp [rowSymbols, Function.comp_def]

end Grid

end FairyMoves
