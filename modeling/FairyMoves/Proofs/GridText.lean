import FairyMoves.Proofs.GridRows
import Mathlib.Data.List.TakeWhile

/-!
# Grids and their texts

The text of a grid is read as this grid. So is every text that differs from it in blanks around its
lines and in blank lines, for no symbol is a blank and no row is empty. And whatever is read as a
grid is the text of this grid, once these blanks are taken away.

## Main definitions

* `Text.IsPad`, `Text.Padded` — blanks within a line, and lines that are rows but for such blanks

## Main results

* `Text.lines_eq_splitOn` — the lines of a text are what the newlines divide it into
* `Text.trim_pad` — blanks around a text that has none are trimmed
* `Text.Padded.filter_trim` — what remains of padded rows are the rows
* `Grid.ofText_toText` — reading undoes writing, and writing undoes reading up to blanks
-/

namespace FairyMoves

/-! ## Lines -/

namespace Text

/-- The lines of a text are what its newlines divide it into. -/
theorem lines_eq_splitOn (cs : List Char) : lines cs = cs.splitOn '\n' := by
  induction cs with
  | nil => rfl
  | cons c cs ih =>
    rw [List.splitOn, List.splitOnP_cons_eq_if_modifyHead, ← List.splitOn, ← ih, lines]
    simp only [beq_iff_eq]
    split
    · rfl
    · obtain ⟨line, rest, hlines⟩ := List.exists_cons_of_ne_nil (lines_ne_nil cs)
      rw [hlines, List.modifyHead_cons]

/-- Lines that are joined by newlines are the lines of the joined text. -/
theorem lines_intercalate {ls : List (List Char)} (hne : ls ≠ []) (h : ∀ l ∈ ls, '\n' ∉ l) :
    lines ("\n".intercalate (ls.map String.ofList)).toList = ls := by
  have htoList : ("\n".intercalate (ls.map String.ofList)).toList = ['\n'].intercalate ls := by
    rw [String.toList_intercalate, List.map_map]
    simp
  rw [htoList, lines_eq_splitOn, List.splitOn_intercalate '\n' h hne]

/-! ## Blanks around lines -/

/-- Blanks within a line. -/
def IsPad (cs : List Char) : Prop := ∀ c ∈ cs, isBlank c ∧ c ≠ '\n'

instance (cs : List Char) : Decidable (IsPad cs) :=
  List.decidableBAll (fun c => isBlank c ∧ c ≠ '\n') cs

theorem trim_append_left {before : List Char} (h : ∀ c ∈ before, isBlank c) (cs : List Char) :
    trim (before ++ cs) = trim cs := by
  rw [trim, trim, List.dropWhile_append_of_pos h]

theorem trim_append_right {after : List Char} (h : ∀ c ∈ after, isBlank c) (cs : List Char) :
    trim (cs ++ after) = trim cs := by
  have hafter : after.dropWhile isBlank = [] := List.dropWhile_eq_nil_iff.mpr h
  have hreverse : ∀ c ∈ after.reverse, isBlank c := fun c hc => h c (List.mem_reverse.mp hc)
  rw [trim, trim, List.dropWhile_append]
  split
  case isTrue hempty => rw [hafter, List.isEmpty_iff.mp hempty]
  case isFalse => rw [List.reverse_append, List.dropWhile_append_of_pos hreverse]

/-- Blanks around a text that has none are trimmed. -/
theorem trim_pad {before cs after : List Char} (hbefore : IsPad before) (hafter : IsPad after)
    (h : ∀ c ∈ cs, isBlank c = false) : trim (before ++ cs ++ after) = cs := by
  rw [trim_append_right fun c hc => (hafter c hc).1, trim_append_left fun c hc => (hbefore c hc).1,
    trim_eq_self h]

/-- Lines that are rows with blanks around them, and blank lines before, between and behind
these. -/
inductive Padded : List (List Char) → List (List Char) → Prop where
  | nil : Padded [] []
  | blank {line : List Char} {rows lines : List (List Char)} (pad : IsPad line)
      (rest : Padded rows lines) : Padded rows (line :: lines)
  | row {before after : List Char} {row : List Char} {rows lines : List (List Char)}
      (padBefore : IsPad before) (padAfter : IsPad after) (rest : Padded rows lines) :
      Padded (row :: rows) ((before ++ row ++ after) :: lines)

theorem IsPad.nil : IsPad [] := nofun

theorem IsPad.newline_notMem {cs : List Char} (h : IsPad cs) : '\n' ∉ cs :=
  fun hmem => (h '\n' hmem).2 rfl

namespace Padded

variable {rows lines : List (List Char)}

/-- Without a blank the lines are the rows. -/
theorem refl (rows : List (List Char)) : Padded rows rows := by
  induction rows with
  | nil => exact .nil
  | cons row rows ih =>
    have hrow : Padded (row :: rows) (([] ++ row ++ []) :: rows) := .row .nil .nil ih
    rwa [List.nil_append, List.append_nil] at hrow

theorem ne_nil (h : Padded rows lines) (hne : rows ≠ []) : lines ≠ [] := by
  cases h with
  | nil => exact absurd rfl hne
  | blank | row => exact List.cons_ne_nil _ _

theorem newline_notMem (h : Padded rows lines) (hrows : ∀ row ∈ rows, '\n' ∉ row) :
    ∀ line ∈ lines, '\n' ∉ line := by
  induction h with
  | nil => exact hrows
  | blank pad _ ih => exact List.forall_mem_cons.mpr ⟨pad.newline_notMem, ih hrows⟩
  | row padBefore padAfter _ ih =>
    obtain ⟨hrow, hrest⟩ := List.forall_mem_cons.mp hrows
    refine List.forall_mem_cons.mpr ⟨?_, ih hrest⟩
    simp [padBefore.newline_notMem, padAfter.newline_notMem, hrow]

/-- Trimmed and without the empty ones, the lines are the rows. -/
theorem filter_trim (h : Padded rows lines)
    (hrows : ∀ row ∈ rows, row ≠ [] ∧ ∀ c ∈ row, isBlank c = false) :
    (lines.map trim).filter (fun line => !line.isEmpty) = rows := by
  induction h with
  | nil => rfl
  | @blank line rows lines pad _ ih =>
    have htrim : trim (line ++ [] ++ []) = [] := trim_pad pad .nil nofun
    rw [List.append_nil, List.append_nil] at htrim
    rw [List.map_cons, htrim, List.filter_cons_of_neg (by simp), ih hrows]
  | row padBefore padAfter _ ih =>
    obtain ⟨⟨hne, hrow⟩, hrest⟩ := List.forall_mem_cons.mp hrows
    rw [List.map_cons, trim_pad padBefore padAfter hrow, List.filter_cons_of_pos (by simp [hne]),
      ih hrest]

end Padded

end Text

/-! ## Grids -/

theorem SquareState.isBlank_symbol (q : SquareState) : Text.isBlank q.symbol = false := by
  cases q <;> decide

namespace Grid

/-- No row of a grid is empty, and a row holds no blank. -/
theorem forall_mem_rows {g : Grid} (hw : 0 < g.width) :
    ∀ row ∈ g.rows, row ≠ [] ∧ ∀ c ∈ row, Text.isBlank c = false := by
  intro row hrow
  refine ⟨List.ne_nil_of_length_pos (by rwa [length_of_mem_rows hrow]), fun c hc => ?_⟩
  rw [rows, if_neg (Nat.ne_of_gt hw)] at hrow
  obtain ⟨y, _, rfl⟩ := List.mem_map.mp hrow
  obtain ⟨x, _, rfl⟩ := List.mem_map.mp hc
  exact SquareState.isBlank_symbol _

theorem newline_notMem_rows {g : Grid} (hw : 0 < g.width) : ∀ row ∈ g.rows, '\n' ∉ row :=
  fun row hrow hmem => absurd ((forall_mem_rows hw row hrow).2 '\n' hmem) (by decide)

theorem rows_ne_nil {g : Grid} (hw : 0 < g.width) (hh : 0 < g.height) : g.rows ≠ [] :=
  List.ne_nil_of_length_pos (by rwa [length_rows hw])

/-- The newlines in the text of a grid divide it into the rows. -/
theorem splitOn_toText {g : Grid} (hw : 0 < g.width) (hh : 0 < g.height) :
    g.toText.toList.splitOn '\n' = g.rows := by
  rw [← Text.lines_eq_splitOn, toText_eq,
    Text.lines_intercalate (rows_ne_nil hw hh) (newline_notMem_rows hw)]

/-- A text whose lines are the rows of a grid but for blanks is read as this grid. -/
theorem ofText_of_padded {g : Grid} (hw : 0 < g.width) (hh : 0 < g.height)
    {lines : List (List Char)} (h : Text.Padded g.rows lines) :
    ofText ("\n".intercalate (lines.map String.ofList)) = .ok g := by
  rw [ofText, textRows, Text.lines_intercalate (h.ne_nil (rows_ne_nil hw hh))
    (h.newline_notMem (newline_notMem_rows hw)), h.filter_trim (forall_mem_rows hw)]
  exact ofRows_eq_ok_iff_rows.mpr ⟨hw, hh, rfl⟩

/-- The text of a grid that has a square is read as this grid, and so is each text that pads its
lines with blanks and puts blank lines around them. The text of a grid that was read consists of the
lines that are left of what was read when they are trimmed and the empty ones are taken away. -/
theorem ofText_toText :
    (∀ g : Grid, 0 < g.width → 0 < g.height →
      ofText g.toText = .ok g ∧
      ∀ lines, Text.Padded (g.toText.toList.splitOn '\n') lines →
        ofText ("\n".intercalate (lines.map String.ofList)) = .ok g) ∧
    ∀ text g, ofText text = .ok g →
      g.toText = "\n".intercalate ((((text.toList.splitOn '\n').map Text.trim).filter
        fun line => !line.isEmpty).map String.ofList) := by
  constructor
  · intro g hw hh
    rw [splitOn_toText hw hh]
    constructor
    · rw [toText_eq]
      exact ofText_of_padded hw hh (.refl g.rows)
    · intro lines h
      exact ofText_of_padded hw hh h
  · intro text g h
    obtain ⟨_, _, hrows⟩ := ofRows_eq_ok_iff_rows.mp h
    rw [toText_eq, hrows, textRows, Text.lines_eq_splitOn]

/-- Two rows between blanks of several kinds: a wide space, a carriage return, a tab, a line
separator and a last newline. -/
theorem ofText_toText_between_blanks :
    0 < (ofSymbols [".F.".toList, "E..".toList]).width ∧
    0 < (ofSymbols [".F.".toList, "E..".toList]).height ∧
    Text.Padded ((ofSymbols [".F.".toList, "E..".toList]).toText.toList.splitOn '\n')
      [" \t".toList, "\u2003.F.\r".toList, "\u2028".toList, "E..".toList, []] ∧
    ofText (ofSymbols [".F.".toList, "E..".toList]).toText =
      .ok (ofSymbols [".F.".toList, "E..".toList]) ∧
    ofText " \t\n\u2003.F.\r\n\u2028\nE..\n" = .ok (ofSymbols [".F.".toList, "E..".toList]) ∧
    (ofSymbols [".F.".toList, "E..".toList]).toText = ".F.\nE.." := by
  have hw : 0 < (ofSymbols [".F.".toList, "E..".toList]).width := by
    decide
  have hh : 0 < (ofSymbols [".F.".toList, "E..".toList]).height := by
    decide
  have htext : (ofSymbols [".F.".toList, "E..".toList]).toText = ".F.\nE.." := by
    rw [toText_eq]
    decide
  have hrows : ".F.\nE..".toList.splitOn '\n' = [".F.".toList, "E..".toList] := by
    decide
  have hpadded : Text.Padded ((ofSymbols [".F.".toList, "E..".toList]).toText.toList.splitOn '\n')
      [" \t".toList, "\u2003.F.\r".toList, "\u2028".toList, "E..".toList, []] := by
    rw [htext, hrows]
    exact .blank (by decide) (@Text.Padded.row ['\u2003'] ['\r'] _ _ _ (by decide) (by decide)
      (.blank (by decide) (@Text.Padded.row [] [] _ _ _ .nil .nil (.blank .nil .nil))))
  obtain ⟨hread, hlines⟩ := ofText_toText.1 (ofSymbols [".F.".toList, "E..".toList]) hw hh
  exact ⟨hw, hh, hpadded, hread, hlines _ hpadded, htext⟩

end Grid

end FairyMoves
