import FairyMoves.Drawing
import FairyMoves.Proofs.Away
import FairyMoves.Proofs.GridRows
import FairyMoves.Proofs.Landing
import Mathlib.Data.List.Dedup
import Mathlib.Data.List.ProdSigma

/-!
# Drawings are faithful

A drawing tells two things of a square by one character: what stands there, and whether the piece
moves there. This works because no move ends on a friend, and loses nothing because no move leaves
the grid. Only the square of the origin shows neither, but no move leads back to it.

## Main definitions

* `Drawing.Fits` — moves that can be shown: to squares of the grid, not to friends or to the origin
* `Drawing.glyph` — the character for a state and a choice of whether the piece moves there
* `Drawing.charAt?` — the character that stands on a square in rows of characters
* `Drawing.Shows` — rows of characters that show a grid and moves on it
* `Drawing.Faithful` — what a drawing shows, how many moves it marks, and what it does not depend on

## Main results

* `Drawing.fits_of_compile` — the moves of a spelled piece can be shown
* `Drawing.glyph_eq_iff` — a character stands for one state and one choice
* `Drawing.countP_toList_draw` — each move is marked once
* `Drawing.ext_draw` — a drawing determines the moves, and the grid up to the origin
* `Drawing.draw_generate` — the drawing of the moves of a spelled piece is faithful
-/

namespace FairyMoves.Drawing

variable {g g' : Grid} {origin s : Square} {moves moves' : List Square} {q q' : SquareState}

/-- Moves that can be shown on a grid: none leaves it, ends on a friend or stays at the origin. -/
structure Fits (g : Grid) (origin : Square) (moves : List Square) : Prop where
  receives : ∀ s ∈ moves, g.board.Receives s
  origin_notMem : origin ∉ moves

theorem fits_of_compile {source : String} {atoms : List MoveAtom}
    (h : Spelling.compile source = .ok atoms) (g : Grid) (origin : Square) :
    Fits g origin (generate atoms g.board origin) where
  receives _ hs := receives_of_mem_generate hs
  origin_notMem := Spelling.origin_notMem_generate h g.board origin

namespace Fits

theorem ne_friendly (h : Fits g origin moves) (hs : s ∈ moves) (hq : g.get? s = some q) :
    q ≠ .friendly := by
  rintro rfl
  rcases (h.receives s hs).2 with hs | hs
  · cases hq.symm.trans hs
  · cases hq.symm.trans hs

theorem ne_friendly_of_decide (h : Fits g origin moves) (hq : g.get? s = some q) :
    decide (s ∈ moves) = true → q ≠ .friendly := by
  intro hmem
  exact h.ne_friendly (of_decide_eq_true hmem) hq

theorem exists_get? (h : Fits g origin moves) (hs : s ∈ moves) : ∃ q, g.get? s = some q := by
  rcases (h.receives s hs).2 with hq | hq
  · exact ⟨.empty, hq⟩
  · exact ⟨.enemy, hq⟩

theorem notMem_of_get?_eq_none (h : Fits g origin moves) (hs : g.get? s = none) : s ∉ moves := by
  intro hmem
  obtain ⟨q, hq⟩ := h.exists_get? hmem
  cases hs.symm.trans hq

end Fits

/-! ## Characters -/

/-- The character drawn for a state and a choice of whether the piece moves there. A friend has one
character only, since no piece moves there. -/
def glyph (q : SquareState) (moved : Bool) : Char :=
  match q, moved with
  | .empty, true => '*'
  | .enemy, true => 'x'
  | q, _ => q.symbol

theorem glyph_eq_iff {b b' : Bool} (h : b = true → q ≠ .friendly)
    (h' : b' = true → q' ≠ .friendly) :
    glyph q b = glyph q' b' ↔ q = q' ∧ b = b' := by
  revert h h'
  cases q <;> cases b <;> cases q' <;> cases b' <;> decide

theorem mark_eq_glyph (h : Fits g origin moves) (hs : s ≠ origin) (hq : g.get? s = some q) :
    mark g origin moves s = glyph q (decide (s ∈ moves)) := by
  by_cases hmem : s ∈ moves
  case neg =>
    rw [mark_of_not_mem hs hmem, hq, decide_eq_false hmem]
    cases q <;> rfl
  case pos =>
    have hfriend := h.ne_friendly hmem hq
    cases q with
    | empty => simp [mark, glyph, hs, hmem, hq]
    | friendly => exact absurd rfl hfriend
    | enemy => simp [mark, glyph, hs, hmem, hq]

/-- The character of a square tells what stands there and whether the piece moves there. -/
theorem mark_eq_glyph_iff {b : Bool} (h : Fits g origin moves) (hs : s ≠ origin)
    (hq : g.get? s = some q) (hb : b = true → q' ≠ .friendly) :
    mark g origin moves s = glyph q' b ↔ q = q' ∧ decide (s ∈ moves) = b := by
  rw [mark_eq_glyph h hs hq]
  exact glyph_eq_iff (h.ne_friendly_of_decide hq) hb

/-- The character marks a move, quiet or not. -/
def marksMove (c : Char) : Bool := c == '*' || c == 'x'

theorem marksMove_glyph {b : Bool} (h : b = true → q ≠ .friendly) : marksMove (glyph q b) = b := by
  revert h
  cases q <;> cases b <;> decide

theorem marksMove_mark (h : Fits g origin moves) (hq : g.get? s = some q) :
    marksMove (mark g origin moves s) = decide (s ∈ moves) := by
  by_cases hs : s = origin
  · subst hs
    rw [mark_origin, decide_eq_false h.origin_notMem]
    rfl
  · rw [mark_eq_glyph h hs hq]
    exact marksMove_glyph (h.ne_friendly_of_decide hq)

theorem count_add_count_eq_countP (l : List Char) :
    l.count '*' + l.count 'x' = l.countP marksMove := by
  induction l with
  | nil => rfl
  | cons c l ih =>
    rw [List.count_cons, List.count_cons, List.countP_cons, ← ih]
    by_cases hstar : c = '*'
    · subst hstar
      simp +arith [marksMove]
    · by_cases hx : c = 'x'
      · subst hx
        simp +arith [marksMove]
      · simp [marksMove, hstar, hx]

/-! ## Lines -/

/-- The lines of a drawing, without their newlines. -/
def lines (g : Grid) (origin : Square) (moves : List Square) : List (List Char) :=
  (List.range (drawnSide g.height)).map (line g origin moves)

/-- The character that stands on a square in rows of characters. -/
def charAt? (rows : List (List Char)) (s : Square) : Option Char :=
  if 0 ≤ s.x ∧ 0 ≤ s.y then Grid.symbolAt? rows s.x.toNat s.y.toNat else none

theorem toList_draw :
    (draw g origin moves).toList = (lines g origin moves).flatMap fun row => row ++ ['\n'] := by
  rw [draw, String.toList_ofList, lines, List.flatMap_map]

theorem drawnSide_eq {side : Nat} (h : (side : Int) ≤ maxCoordinate) : drawnSide side = side := by
  rw [maxCoordinate] at h
  exact Nat.min_eq_left (by omega)

/-- Rows of one length can be told apart after their lines have been joined. -/
theorem eq_of_flatMap_newline {width : Nat} {rows rows' : List (List Char)}
    (hrows : ∀ row ∈ rows, row.length = width) (hrows' : ∀ row ∈ rows', row.length = width)
    (hlength : rows.length = rows'.length)
    (h : (rows.flatMap fun row => row ++ ['\n']) = rows'.flatMap fun row => row ++ ['\n']) :
    rows = rows' := by
  induction rows generalizing rows' with
  | nil => exact (List.eq_nil_of_length_eq_zero hlength.symm).symm
  | cons row rows ih =>
    cases rows' with
    | nil => cases hlength
    | cons row' rows' =>
      obtain ⟨hrow, hrest⟩ := List.forall_mem_cons.mp hrows
      obtain ⟨hrow', hrest'⟩ := List.forall_mem_cons.mp hrows'
      rw [List.flatMap_cons, List.flatMap_cons, List.append_assoc, List.append_assoc] at h
      obtain ⟨rfl, hjoined⟩ := List.append_inj h (hrow.trans hrow'.symm)
      have hjoined' := List.append_cancel_left hjoined
      rw [ih hrest hrest' (Nat.succ.inj hlength) hjoined']

theorem length_lines (hh : (g.height : Int) ≤ maxCoordinate) :
    (lines g origin moves).length = g.height := by
  rw [lines, List.length_map, List.length_range, drawnSide_eq hh]

theorem length_of_mem_lines (hw : (g.width : Int) ≤ maxCoordinate) {row : List Char}
    (h : row ∈ lines g origin moves) : row.length = g.width := by
  obtain ⟨y, _, rfl⟩ := List.mem_map.mp h
  rw [line, List.length_map, List.length_range, drawnSide_eq hw]

section Sides

variable (hw : (g.width : Int) ≤ maxCoordinate) (hh : (g.height : Int) ≤ maxCoordinate)
include hw hh

theorem symbolAt?_lines (x y : Nat) : Grid.symbolAt? (lines g origin moves) x y =
    if x < g.width ∧ y < g.height then some (mark g origin moves ⟨x, y⟩) else none := by
  have hline : line g origin moves = fun (y : Nat) =>
      (List.range g.width).map fun (x : Nat) => mark g origin moves ⟨x, y⟩ := by
    funext y
    rw [line, drawnSide_eq hw]
  rw [lines, drawnSide_eq hh, hline]
  exact Grid.symbolAt?_map_range

/-- Each square of the grid is drawn in its place, and no other character is. -/
theorem charAt?_lines : charAt? (lines g origin moves) s =
    (g.get? s).map fun _ => mark g origin moves s := by
  unfold charAt? Grid.get?
  split
  case isTrue hnonneg =>
    have hsquare : (⟨s.x.toNat, s.y.toNat⟩ : Square) = s := by
      rw [Int.toNat_of_nonneg hnonneg.1, Int.toNat_of_nonneg hnonneg.2]
    rw [symbolAt?_lines hw hh, hsquare]
    split
    case isTrue hcell =>
      obtain ⟨q, hq⟩ := Grid.exists_at? hcell
      rw [hq, Option.map_some]
    case isFalse hcell => rw [Grid.at?_eq_none_iff.mpr hcell, Option.map_none]
  case isFalse => rfl

theorem charAt?_lines_of_get? (hq : g.get? s = some q) :
    charAt? (lines g origin moves) s = some (mark g origin moves s) := by
  rw [charAt?_lines hw hh, hq, Option.map_some]

end Sides

/-! ## Counting -/

/-- The squares of a grid, row after row. -/
def squares (g : Grid) : List Square :=
  (List.range g.height).flatMap fun (y : Nat) =>
    (List.range g.width).map fun (x : Nat) => ⟨x, y⟩

theorem mem_squares : s ∈ squares g ↔ ∃ q, g.get? s = some q := by
  rw [← Option.ne_none_iff_exists', Ne, Grid.get?_eq_none_iff, not_not, squares, List.mem_flatMap]
  constructor
  · rintro ⟨y, hy, hrow⟩
    obtain ⟨x, hx, rfl⟩ := List.mem_map.mp hrow
    rw [List.mem_range] at hx hy
    dsimp only
    omega
  · intro h
    refine ⟨s.y.toNat, List.mem_range.mpr (by omega), List.mem_map.mpr ?_⟩
    refine ⟨s.x.toNat, List.mem_range.mpr (by omega), ?_⟩
    rw [Int.toNat_of_nonneg h.1, Int.toNat_of_nonneg h.2.2.1]

theorem nodup_squares (g : Grid) : (squares g).Nodup := by
  have hproduct : squares g =
      (List.range g.height ×ˢ List.range g.width).map fun c => ⟨c.2, c.1⟩ := by
    simp only [squares, SProd.sprod, List.product, List.map_flatMap, List.map_map,
      Function.comp_def]
  rw [hproduct]
  refine (List.nodup_range.product List.nodup_range).map ?_
  intro c c' hsquare
  obtain ⟨hx, hy⟩ := Square.mk.inj hsquare
  exact Prod.ext (Int.ofNat.inj hy) (Int.ofNat.inj hx)

/-- A drawing has as many marks as there are squares that are drawn as one. -/
theorem countP_toList_draw_eq (hw : (g.width : Int) ≤ maxCoordinate)
    (hh : (g.height : Int) ≤ maxCoordinate) : (draw g origin moves).toList.countP marksMove =
      (squares g).countP fun s => marksMove (mark g origin moves s) := by
  rw [toList_draw, lines, List.flatMap_map, squares, List.countP_flatMap, List.countP_flatMap,
    drawnSide_eq hh]
  apply congrArg List.sum
  apply List.map_congr_left
  intro y _
  have hnewline : ['\n'].countP marksMove = 0 := rfl
  rw [Function.comp_apply, Function.comp_apply, List.countP_append, hnewline, Nat.add_zero, line,
    drawnSide_eq hw, List.countP_map, List.countP_map]
  rfl

/-- The squares that a piece moves to are those of its moves, each taken once. -/
theorem filter_squares_perm (h : Fits g origin moves) :
    ((squares g).filter fun s => decide (s ∈ moves)).Perm moves.dedup := by
  apply (List.perm_ext_iff_of_nodup ((nodup_squares g).filter _) moves.nodup_dedup).mpr
  intro s
  rw [List.mem_filter, List.mem_dedup, decide_eq_true_iff, mem_squares]
  exact and_iff_right_of_imp h.exists_get?

/-- Each move is marked once. -/
theorem countP_toList_draw (h : Fits g origin moves) (hw : (g.width : Int) ≤ maxCoordinate)
    (hh : (g.height : Int) ≤ maxCoordinate) :
    (draw g origin moves).toList.countP marksMove = moves.dedup.length := by
  have hmarks : (squares g).countP (fun s => marksMove (mark g origin moves s)) =
      (squares g).countP fun s => decide (s ∈ moves) := by
    apply List.countP_congr
    intro s hs
    obtain ⟨q, hq⟩ := mem_squares.mp hs
    rw [marksMove_mark h hq]
  rw [countP_toList_draw_eq hw hh, hmarks, List.countP_eq_length_filter,
    (filter_squares_perm h).length_eq]

/-! ## What drawings have in common -/

/-- A drawing depends on the members of the list of moves only. -/
theorem draw_congr (h : ∀ s, s ∈ moves' ↔ s ∈ moves) :
    draw g origin moves' = draw g origin moves := by
  have hmark : mark g origin moves' = mark g origin moves := by
    funext s
    simp only [mark, List.contains_iff_mem, h]
  rw [draw, draw]
  simp only [line, hmark]

/-- Drawings that are equal mark each square alike. -/
theorem mark_eq_of_draw_eq (hw : (g.width : Int) ≤ maxCoordinate)
    (hh : (g.height : Int) ≤ maxCoordinate) (hwidth : g'.width = g.width)
    (hheight : g'.height = g.height) (hdraw : draw g' origin moves' = draw g origin moves)
    (hq : g.get? s = some q) (hq' : g'.get? s = some q') :
    mark g' origin moves' s = mark g origin moves s := by
  have hw' : (g'.width : Int) ≤ maxCoordinate := hwidth ▸ hw
  have hh' : (g'.height : Int) ≤ maxCoordinate := hheight ▸ hh
  have hlines : lines g' origin moves' = lines g origin moves := by
    apply eq_of_flatMap_newline
    · exact fun row hrow => (length_of_mem_lines hw' hrow).trans hwidth
    · exact fun row hrow => length_of_mem_lines hw hrow
    · rw [length_lines hh', length_lines hh, hheight]
    · rw [← toList_draw, ← toList_draw, hdraw]
  have hchar := congrArg (charAt? · s) hlines
  simp only [charAt?_lines_of_get? hw hh hq, charAt?_lines_of_get? hw' hh' hq'] at hchar
  exact Option.some.inj hchar

/-- A drawing determines the moves on it, and the grid but for the square of the origin. -/
theorem ext_draw (h : Fits g origin moves) (h' : Fits g' origin moves')
    (hw : (g.width : Int) ≤ maxCoordinate) (hh : (g.height : Int) ≤ maxCoordinate)
    (hwidth : g'.width = g.width) (hheight : g'.height = g.height)
    (hdraw : draw g' origin moves' = draw g origin moves) :
    (∀ s, s ∈ moves' ↔ s ∈ moves) ∧ ∀ s, s ≠ origin → g'.get? s = g.get? s := by
  have hnone (s : Square) : g'.get? s = none ↔ g.get? s = none := by
    rw [Grid.get?_eq_none_iff, Grid.get?_eq_none_iff, hwidth, hheight]
  have hsquare : ∀ s, s ≠ origin → (s ∈ moves' ↔ s ∈ moves) ∧ g'.get? s = g.get? s := by
    intro s hs
    cases hq : g.get? s with
    | none =>
      have hq' := (hnone s).mpr hq
      exact ⟨iff_of_false (h'.notMem_of_get?_eq_none hq') (h.notMem_of_get?_eq_none hq), hq'⟩
    | some q =>
      have hsome : g'.get? s ≠ none := by
        rw [Ne, hnone, hq]
        exact nofun
      obtain ⟨q', hq'⟩ := Option.ne_none_iff_exists'.mp hsome
      have hglyph : mark g' origin moves' s = glyph q (decide (s ∈ moves)) := by
        rw [mark_eq_of_draw_eq hw hh hwidth hheight hdraw hq hq', mark_eq_glyph h hs hq]
      obtain ⟨rfl, hmoved⟩ :=
        (mark_eq_glyph_iff h' hs hq' (h.ne_friendly_of_decide hq)).mp hglyph
      exact ⟨decide_eq_decide.mp hmoved, hq'⟩
  constructor
  · intro s
    by_cases hs : s = origin
    · subst hs
      exact iff_of_false h'.origin_notMem h.origin_notMem
    · exact (hsquare s hs).1
  · exact fun s hs => (hsquare s hs).2

/-! ## Faithful drawings -/

/-- Rows of characters that show a grid with the moves from an origin. -/
structure Shows (g : Grid) (origin : Square) (moves : List Square) (rows : List (List Char)) :
    Prop where
  length_eq : rows.length = g.height
  length_of_mem : ∀ row ∈ rows, row.length = g.width
  atOrigin : ∀ q, g.get? origin = some q → charAt? rows origin = some 'O'
  quiet : ∀ s q, s ≠ origin → g.get? s = some q →
    (charAt? rows s = some '*' ↔ q = .empty ∧ s ∈ moves)
  capture : ∀ s q, s ≠ origin → g.get? s = some q →
    (charAt? rows s = some 'x' ↔ q = .enemy ∧ s ∈ moves)
  other : ∀ s q, s ≠ origin → g.get? s = some q → ¬ (q = .empty ∧ s ∈ moves) →
    ¬ (q = .enemy ∧ s ∈ moves) → charAt? rows s = some q.symbol

theorem shows_lines (h : Fits g origin moves) (hw : (g.width : Int) ≤ maxCoordinate)
    (hh : (g.height : Int) ≤ maxCoordinate) : Shows g origin moves (lines g origin moves) := by
  have hglyph (s : Square) (q q' : SquareState) (hs : s ≠ origin) (hq : g.get? s = some q)
      (hq' : q' ≠ .friendly) :
      charAt? (lines g origin moves) s = some (glyph q' true) ↔ q = q' ∧ s ∈ moves := by
    rw [charAt?_lines_of_get? hw hh hq, Option.some.injEq, mark_eq_glyph_iff h hs hq fun _ => hq',
      decide_eq_true_iff]
  constructor
  case length_eq => exact length_lines hh
  case length_of_mem => exact fun row hrow => length_of_mem_lines hw hrow
  case atOrigin =>
    intro q hq
    rw [charAt?_lines_of_get? hw hh hq, mark_origin]
  case quiet => exact fun s q hs hq => hglyph s q .empty hs hq nofun
  case capture => exact fun s q hs hq => hglyph s q .enemy hs hq nofun
  case other =>
    intro s q hs hq hquiet hcapture
    have hmem : s ∉ moves := by
      intro hmem
      cases q with
      | empty => exact hquiet ⟨rfl, hmem⟩
      | friendly => exact h.ne_friendly hmem hq rfl
      | enemy => exact hcapture ⟨rfl, hmem⟩
    rw [charAt?_lines_of_get? hw hh hq, mark_of_not_mem hs hmem, hq, Option.getD_some]

/-- The drawing shows the grid and the moves in lines that end with a newline each, marks every move
once, and does not depend on the order of the moves or on how often one is listed. -/
structure Faithful (g : Grid) (origin : Square) (moves : List Square) : Prop where
  rows : ∃ rows, (draw g origin moves).toList = (rows.flatMap fun row => row ++ ['\n']) ∧
    Shows g origin moves rows
  count : (draw g origin moves).toList.count '*' + (draw g origin moves).toList.count 'x' =
    moves.dedup.length
  congr : ∀ moves', (∀ s, s ∈ moves' ↔ s ∈ moves) → draw g origin moves' = draw g origin moves

theorem Fits.faithful (h : Fits g origin moves) (hw : (g.width : Int) ≤ maxCoordinate)
    (hh : (g.height : Int) ≤ maxCoordinate) : Faithful g origin moves where
  rows := ⟨lines g origin moves, toList_draw, shows_lines h hw hh⟩
  count := by rw [count_add_count_eq_countP, countP_toList_draw h hw hh]
  congr _ hmem := draw_congr hmem

/-- The drawing of the moves of a spelled piece is faithful. It tells the moves and the grid, the
square of the origin excepted, from those of every other spelling and grid of the same sides. -/
theorem draw_generate {source : String} {atoms : List MoveAtom}
    (h : Spelling.compile source = .ok atoms) {g : Grid} (hw : (g.width : Int) ≤ maxCoordinate)
    (hh : (g.height : Int) ≤ maxCoordinate) (origin : Square) :
    Faithful g origin (generate atoms g.board origin) ∧
    ∀ (source' : String) (atoms' : List MoveAtom) (g' : Grid),
      Spelling.compile source' = .ok atoms' → g'.width = g.width → g'.height = g.height →
      draw g' origin (generate atoms' g'.board origin) =
        draw g origin (generate atoms g.board origin) →
      (∀ s, s ∈ generate atoms' g'.board origin ↔ s ∈ generate atoms g.board origin) ∧
      ∀ s, s ≠ origin → g'.get? s = g.get? s := by
  have hfits := fits_of_compile h g origin
  refine ⟨hfits.faithful hw hh, ?_⟩
  intro source' atoms' g' h' hwidth hheight hdraw
  exact ext_draw hfits (fits_of_compile h' g' origin) hw hh hwidth hheight hdraw

/-- A piece spelled in two ways, on two grids of which one has a friend at the origin. -/
theorem draw_generate_but_for_the_origin :
    Spelling.compile "W" = .ok [Term.atom ⟨[], .wazir⟩] ∧
    Spelling.compile "cWmW" =
      .ok [Term.atom ⟨[.captureOnly], .wazir⟩, Term.atom ⟨[.moveOnly], .wazir⟩] ∧
    (((Grid.empty 3 2).set 1 0 .enemy).width : Int) ≤ maxCoordinate ∧
    (((Grid.empty 3 2).set 1 0 .enemy).height : Int) ≤ maxCoordinate ∧
    draw ((Grid.empty 3 2).set 1 0 .enemy) ⟨1, 1⟩
      (generate [Term.atom ⟨[], .wazir⟩] ((Grid.empty 3 2).set 1 0 .enemy).board ⟨1, 1⟩) =
      ".x.\n*O*\n" ∧
    draw (((Grid.empty 3 2).set 1 0 .enemy).set 1 1 .friendly) ⟨1, 1⟩
      (generate [Term.atom ⟨[.captureOnly], .wazir⟩, Term.atom ⟨[.moveOnly], .wazir⟩]
        (((Grid.empty 3 2).set 1 0 .enemy).set 1 1 .friendly).board ⟨1, 1⟩) = ".x.\n*O*\n" ∧
    Faithful ((Grid.empty 3 2).set 1 0 .enemy) ⟨1, 1⟩
      (generate [Term.atom ⟨[], .wazir⟩] ((Grid.empty 3 2).set 1 0 .enemy).board ⟨1, 1⟩) ∧
    (∀ s, s ∈ generate [Term.atom ⟨[.captureOnly], .wazir⟩, Term.atom ⟨[.moveOnly], .wazir⟩]
        (((Grid.empty 3 2).set 1 0 .enemy).set 1 1 .friendly).board ⟨1, 1⟩ ↔
      s ∈ generate [Term.atom ⟨[], .wazir⟩] ((Grid.empty 3 2).set 1 0 .enemy).board ⟨1, 1⟩) ∧
    ∀ s, s ≠ ⟨1, 1⟩ → (((Grid.empty 3 2).set 1 0 .enemy).set 1 1 .friendly).get? s =
      ((Grid.empty 3 2).set 1 0 .enemy).get? s := by
  have hcompile : Spelling.compile "W" = .ok [Term.atom ⟨[], .wazir⟩] := rfl
  have hreworded : Spelling.compile "cWmW" =
      .ok [Term.atom ⟨[.captureOnly], .wazir⟩, Term.atom ⟨[.moveOnly], .wazir⟩] := rfl
  have hw : (((Grid.empty 3 2).set 1 0 .enemy).width : Int) ≤ maxCoordinate := by
    decide
  have hh : (((Grid.empty 3 2).set 1 0 .enemy).height : Int) ≤ maxCoordinate := by
    decide
  have hdraw : draw ((Grid.empty 3 2).set 1 0 .enemy) ⟨1, 1⟩
      (generate [Term.atom ⟨[], .wazir⟩] ((Grid.empty 3 2).set 1 0 .enemy).board ⟨1, 1⟩) =
      ".x.\n*O*\n" := by
    decide
  have hredrawn : draw (((Grid.empty 3 2).set 1 0 .enemy).set 1 1 .friendly) ⟨1, 1⟩
      (generate [Term.atom ⟨[.captureOnly], .wazir⟩, Term.atom ⟨[.moveOnly], .wazir⟩]
        (((Grid.empty 3 2).set 1 0 .enemy).set 1 1 .friendly).board ⟨1, 1⟩) = ".x.\n*O*\n" := by
    decide
  obtain ⟨hfaithful, hext⟩ := draw_generate hcompile hw hh ⟨1, 1⟩
  obtain ⟨hmoves, hsquares⟩ := hext "cWmW" _
    (((Grid.empty 3 2).set 1 0 .enemy).set 1 1 .friendly) hreworded rfl rfl
    (hredrawn.trans hdraw.symm)
  exact ⟨hcompile, hreworded, hw, hh, hdraw, hredrawn, hfaithful, hmoves, hsquares⟩

end FairyMoves.Drawing
