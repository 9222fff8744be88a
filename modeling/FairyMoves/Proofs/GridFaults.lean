import FairyMoves.Proofs.GridText
import Mathlib.Data.List.Forall2

/-!
# What rows are refused for

Rows describe a grid when they make a rectangle of symbols. All other rows are refused, and blamed
for one fault: the first row that is wrong, and in it the length if that is wrong, or else the first
character that is no symbol. Only where there is no first row to give the width, or an empty one, is
there no row to blame. A text is read as the rows that are left of its lines, so that lines of
blanks do not count.

## Main definitions

* `Text.Trims` — what is left of a text without the blanks at its ends
* `symbolAlphabet` — the characters that stand for states
* `Grid.IsSound` — a row without a fault
* `Grid.RowFaultOf`, `Grid.FaultOf` — what a row is blamed for, and a list of rows

## Main results

* `findSome?_zipIdx_eq_some_iff` — a search finds the first element that holds anything
* `Grid.rowFault?_eq_some_iff`, `Grid.fault?_eq_some_iff` — the fault that is found is the one to
  blame
* `Grid.get?_of_ofRows` — a grid that is read from rows holds what is written there
* `Grid.ofRows_rectangle` — what is accepted, what it describes, and what the rest is blamed for
-/

namespace FairyMoves

/-! ## Trimming -/

namespace Text

/-- A text is what is left of another one when the blanks at its two ends are taken away. -/
structure Trims (cs t : List Char) : Prop where
  pads : ∃ before after, cs = before ++ t ++ after ∧ (∀ c ∈ before, isBlank c) ∧
    ∀ c ∈ after, isBlank c
  first : ∀ c, t.head? = some c → isBlank c = false
  last : ∀ c, t.getLast? = some c → isBlank c = false

theorem isBlank_eq_false_of_head?_dropWhile {cs : List Char} {c : Char}
    (h : (cs.dropWhile isBlank).head? = some c) : isBlank c = false := by
  have hfirst := List.head?_dropWhile_not isBlank cs
  rwa [h] at hfirst

theorem trims_trim (cs : List Char) : Trims cs (trim cs) := by
  obtain ⟨after, hafter, hrest⟩ : ∃ after : List Char, (∀ c ∈ after, isBlank c) ∧
      cs.dropWhile isBlank = trim cs ++ after := by
    refine ⟨((cs.dropWhile isBlank).reverse.takeWhile isBlank).reverse, fun c hc => ?_, ?_⟩
    · exact List.mem_takeWhile_imp (List.mem_reverse.mp hc)
    · rw [trim, ← List.reverse_append, List.takeWhile_append_dropWhile, List.reverse_reverse]
  constructor
  case pads =>
    refine ⟨cs.takeWhile isBlank, after, ?_, fun c hc => List.mem_takeWhile_imp hc, hafter⟩
    rw [List.append_assoc, ← hrest, List.takeWhile_append_dropWhile]
  case first =>
    intro c hc
    have hhead : (cs.dropWhile isBlank).head? = some c := by
      rw [hrest, List.head?_append, hc, Option.some_or]
    exact isBlank_eq_false_of_head?_dropWhile hhead
  case last =>
    intro c hc
    rw [trim, List.getLast?_reverse] at hc
    exact isBlank_eq_false_of_head?_dropWhile hc

end Text

/-! ## Symbols -/

/-- The characters that stand for the state of a square. -/
def symbolAlphabet : List Char := ".FE".toList

theorem mem_symbolAlphabet_iff {c : Char} :
    c ∈ symbolAlphabet ↔ ∃ q : SquareState, c = q.symbol := by
  have halphabet : symbolAlphabet = SquareState.all.map SquareState.symbol := by decide
  rw [halphabet, List.mem_map]
  constructor
  · rintro ⟨q, _, rfl⟩
    exact ⟨q, rfl⟩
  · rintro ⟨q, rfl⟩
    exact ⟨q, by cases q <;> decide, rfl⟩

theorem isSome_ofSymbol?_iff_mem {c : Char} :
    (SquareState.ofSymbol? c).isSome ↔ c ∈ symbolAlphabet :=
  Grid.isSome_ofSymbol?_iff.trans mem_symbolAlphabet_iff.symm

namespace Grid

/-! ## Faults of a row -/

/-- A row has no fault in a grid so wide: it is as long, and its characters are symbols. -/
def IsSound (width : Nat) (row : List Char) : Prop :=
  row.length = width ∧ ∀ c ∈ row, c ∈ symbolAlphabet

/-- What a row with number `y` is blamed for in a grid so wide. -/
inductive RowFaultOf (width y : Nat) (row : List Char) : GridError → Prop
  /-- Its length, even if it has other characters than symbols as well. -/
  | raggedRow (fault : row.length ≠ width) : RowFaultOf width y row (.raggedRow width row.length y)
  /-- The first of its characters that is no symbol, if its length is right. -/
  | badSquare {before after : List Char} {c : Char} (length : row.length = width)
      (text : row = before ++ c :: after) (symbols : ∀ x ∈ before, x ∈ symbolAlphabet)
      (fault : c ∉ symbolAlphabet) : RowFaultOf width y row (.badSquare c y before.length)

/-- A search through a list finds what its first element holds that holds anything. -/
theorem findSome?_zipIdx_eq_some_iff {α β : Type} {l : List α} {f : α × Nat → Option β} {b : β} :
    l.zipIdx.findSome? f = some b ↔ ∃ before a after, l = before ++ a :: after ∧
      before.zipIdx.findSome? f = none ∧ f (a, before.length) = some b := by
  rw [List.findSome?_eq_some_iff]
  constructor
  · rintro ⟨front, ⟨a, i⟩, back, hsplit, hfound, hnone⟩
    obtain ⟨before, rest, rfl, rfl, hrest⟩ := List.zipIdx_eq_append_iff.mp hsplit
    obtain ⟨a', after, rfl, hpair, _⟩ := List.zipIdx_eq_cons_iff.mp hrest.symm
    obtain ⟨rfl, rfl⟩ := Prod.mk.inj hpair
    rw [Nat.zero_add] at hfound
    exact ⟨before, a, after, rfl, List.findSome?_eq_none_iff.mpr hnone, hfound⟩
  · rintro ⟨before, a, after, rfl, hnone, hfound⟩
    refine ⟨before.zipIdx, (a, before.length), after.zipIdx (before.length + 1), ?_, hfound,
      List.findSome?_eq_none_iff.mp hnone⟩
    rw [List.zipIdx_append, Nat.zero_add, List.zipIdx_cons]

theorem symbolFault?_eq_none_iff {y x : Nat} {c : Char} :
    symbolFault? y (c, x) = none ↔ c ∈ symbolAlphabet := by
  simp [symbolFault?, isSome_ofSymbol?_iff_mem]

theorem symbolFault?_eq_some_iff {y x : Nat} {c : Char} {e : GridError} :
    symbolFault? y (c, x) = some e ↔ c ∉ symbolAlphabet ∧ .badSquare c y x = e := by
  simp [symbolFault?, isSome_ofSymbol?_iff_mem]

theorem rowFault?_eq_none_iff_isSound {width y : Nat} {row : List Char} :
    rowFault? width y row = none ↔ IsSound width row := by
  simp only [rowFault?_eq_none_iff, IsSound, mem_symbolAlphabet_iff]

theorem rowFault?_eq_some_iff {width y : Nat} {row : List Char} {e : GridError} :
    rowFault? width y row = some e ↔ RowFaultOf width y row e := by
  unfold rowFault?
  split
  case isFalse hlength =>
    rw [Option.some.injEq]
    constructor
    · rintro rfl
      exact .raggedRow hlength
    · intro h
      cases h with
      | raggedRow => rfl
      | badSquare length => exact absurd length hlength
  case isTrue hlength =>
    rw [findSome?_zipIdx_eq_some_iff]
    constructor
    · rintro ⟨before, c, after, text, hnone, hfound⟩
      rw [findSome?_zipIdx_eq_none_iff fun c x => symbolFault?_eq_none_iff] at hnone
      obtain ⟨hc, rfl⟩ := symbolFault?_eq_some_iff.mp hfound
      exact .badSquare hlength text hnone hc
    · intro h
      cases h with
      | raggedRow fault => exact absurd hlength fault
      | @badSquare before after c _ text symbols fault =>
        refine ⟨before, c, after, text, ?_, symbolFault?_eq_some_iff.mpr ⟨fault, rfl⟩⟩
        rwa [findSome?_zipIdx_eq_none_iff fun c x => symbolFault?_eq_none_iff]

/-! ## Faults of rows -/

/-- What a list of rows is blamed for. -/
inductive FaultOf (rows : List (List Char)) : GridError → Prop
  | noRow (text : rows = []) : FaultOf rows .noRows
  | emptyRow {rest : List (List Char)} (text : rows = [] :: rest) : FaultOf rows .noRows
  /-- The fault of the first row that has one, where rows are as wide as the first of all. -/
  | inRow {first row : List Char} {before after : List (List Char)} {e : GridError}
      (head : rows.head? = some first) (width : first ≠ []) (text : rows = before ++ row :: after)
      (sound : ∀ row ∈ before, IsSound first.length row)
      (fault : RowFaultOf first.length before.length row e) : FaultOf rows e

theorem fault?_eq_some_iff {rows : List (List Char)} {e : GridError} :
    fault? rows = some e ↔ FaultOf rows e := by
  unfold fault?
  split
  case h_1 =>
    rw [Option.some.injEq]
    constructor
    · rintro rfl
      exact .noRow rfl
    · intro h
      cases h with
      | noRow | emptyRow => rfl
      | inRow head => cases head
  case h_2 rest =>
    rw [Option.some.injEq]
    constructor
    · rintro rfl
      exact .emptyRow rfl
    · intro h
      cases h with
      | noRow | emptyRow => rfl
      | inRow head width => exact absurd (Option.some.inj head).symm width
  case h_3 first rest hfirst =>
    rw [findSome?_zipIdx_eq_some_iff]
    have hsound (before : List (List Char)) :
        before.zipIdx.findSome? (fun row => rowFault? first.length row.2 row.1) = none ↔
          ∀ row ∈ before, IsSound first.length row :=
      findSome?_zipIdx_eq_none_iff fun row y => rowFault?_eq_none_iff_isSound
    constructor
    · rintro ⟨before, row, after, text, hnone, hfound⟩
      exact .inRow rfl hfirst text ((hsound before).mp hnone) (rowFault?_eq_some_iff.mp hfound)
    · intro h
      cases h with
      | noRow text => cases text
      | emptyRow text => exact absurd (List.cons.inj text).1 hfirst
      | @inRow first' row before after _ head width text sound fault =>
        obtain rfl := Option.some.inj head
        exact ⟨before, row, after, text, (hsound before).mpr sound, rowFault?_eq_some_iff.mpr fault⟩

/-! ## What is accepted -/

theorem isRectangle_iff {rows : List (List Char)} :
    IsRectangle rows ↔ ∃ first rest, rows = first :: rest ∧ first ≠ [] ∧
      (∀ row ∈ rows, row.length = first.length) ∧
      ∀ row ∈ rows, ∀ c ∈ row, c ∈ symbolAlphabet := by
  simp only [mem_symbolAlphabet_iff]
  constructor
  · rintro ⟨hpos, hlength, hsymbol⟩
    cases rows with
    | nil => cases hpos
    | cons first rest => exact ⟨first, rest, rfl, List.length_pos_iff.mp hpos, hlength, hsymbol⟩
  · rintro ⟨first, rest, rfl, hne, hlength, hsymbol⟩
    exact ⟨List.length_pos_iff.mpr hne, hlength, hsymbol⟩

theorem exists_ofRows_iff {rows : List (List Char)} :
    (∃ g, ofRows rows = .ok g) ↔ IsRectangle rows := by
  simp only [ofRows_eq_ok_iff, fault?_eq_none_iff, exists_and_left, exists_eq', and_true]

/-- A grid that is read from rows holds the states that are written there, and has no other
squares. -/
theorem get?_of_ofRows {rows : List (List Char)} {g : Grid} (h : ofRows rows = .ok g) {s : Square}
    {q : SquareState} :
    g.get? s = some q ↔ ∃ x y : Nat, s = ⟨x, y⟩ ∧ symbolAt? rows x y = some q.symbol := by
  obtain ⟨_, _, rfl⟩ := ofRows_eq_ok_iff_rows.mp h
  have hread (x y : Nat) : symbolAt? g.rows x y = some q.symbol ↔ g.get? ⟨x, y⟩ = some q := by
    rw [symbolAt?_rows, get?_natCast, Option.map_eq_some_iff]
    simp only [SquareState.symbol_injective.eq_iff, exists_eq_right]
  simp only [hread]
  constructor
  · intro hs
    have hbounds := bounds_of_get? hs
    obtain ⟨x, hx⟩ := Int.eq_ofNat_of_zero_le hbounds.1
    obtain ⟨y, hy⟩ := Int.eq_ofNat_of_zero_le hbounds.2.2.1
    have hsquare : s = ⟨x, y⟩ := by
      rw [← hx, ← hy]
    exact ⟨x, y, hsquare, hsquare ▸ hs⟩
  · rintro ⟨x, y, rfl, hq⟩
    exact hq

/-- The rows that describe a grid are the rectangles of symbols. The grid is as wide and high as
they are, and its squares hold what is written in them. All other rows are refused for their first
fault. A text has the rows that are left of its lines when they are trimmed and the empty ones are
taken away. -/
theorem ofRows_rectangle :
    (∀ rows : List (List Char),
      ((∃ g, ofRows rows = .ok g) ↔ ∃ first rest, rows = first :: rest ∧ first ≠ [] ∧
        (∀ row ∈ rows, row.length = first.length) ∧
        ∀ row ∈ rows, ∀ c ∈ row, c ∈ symbolAlphabet) ∧
      (∀ g, ofRows rows = .ok g →
        g.width = (rows.headD []).length ∧ g.height = rows.length ∧
        ∀ s q, g.get? s = some q ↔
          ∃ x y : Nat, s = ⟨x, y⟩ ∧ symbolAt? rows x y = some q.symbol) ∧
      ∀ e, ofRows rows = .error e ↔ FaultOf rows e) ∧
    ∀ text, ∃ lines, List.Forall₂ Text.Trims (text.toList.splitOn '\n') lines ∧
      ofText text = ofRows (lines.filter fun line => !line.isEmpty) := by
  refine ⟨fun rows => ⟨?accepted, ?described, ?blamed⟩, ?text⟩
  case accepted => exact exists_ofRows_iff.trans isRectangle_iff
  case described =>
    intro g h
    obtain ⟨hw, hh, hrows⟩ := ofRows_eq_ok_iff_rows.mp h
    refine ⟨?_, ?_, fun s q => get?_of_ofRows h⟩
    · rw [← hrows, length_headD_rows hw hh]
    · rw [← hrows, length_rows hw]
  case blamed =>
    intro e
    exact ofRows_eq_error_iff.trans fault?_eq_some_iff
  case text =>
    intro text
    refine ⟨(text.toList.splitOn '\n').map Text.trim, ?_, ?_⟩
    · rw [List.forall₂_map_right_iff, List.forall₂_same]
      exact fun line _ => Text.trims_trim line
    · rw [ofText, textRows, Text.lines_eq_splitOn]

/-- Two rows that describe a grid, and three that do not: the second is too short, and that is its
fault although its one character of two bytes is no symbol either. -/
theorem ofRows_rectangle_before_short_row :
    ofRows ["..E".toList, "F..".toList] = .ok (ofSymbols ["..E".toList, "F..".toList]) ∧
    (ofSymbols ["..E".toList, "F..".toList]).width = 3 ∧
    (ofSymbols ["..E".toList, "F..".toList]).height = 2 ∧
    (ofSymbols ["..E".toList, "F..".toList]).get? ⟨2, 0⟩ = some .enemy ∧
    ofRows ["..".toList, "é".toList, ".x".toList] = .error (.raggedRow 2 1 1) ∧
    FaultOf ["..".toList, "é".toList, ".x".toList] (.raggedRow 2 1 1) := by
  have haccepted : ofRows ["..E".toList, "F..".toList] =
      .ok (ofSymbols ["..E".toList, "F..".toList]) := rfl
  have hrefused : ofRows ["..".toList, "é".toList, ".x".toList] = .error (.raggedRow 2 1 1) := rfl
  obtain ⟨-, hdescribed, -⟩ := ofRows_rectangle.1 ["..E".toList, "F..".toList]
  obtain ⟨-, -, hblamed⟩ := ofRows_rectangle.1 ["..".toList, "é".toList, ".x".toList]
  obtain ⟨hwidth, hheight, hsquares⟩ := hdescribed _ haccepted
  have henemy := (hsquares ⟨2, 0⟩ .enemy).mpr ⟨2, 0, rfl, rfl⟩
  exact ⟨haccepted, hwidth, hheight, henemy, hrefused, (hblamed _).mp hrefused⟩

end Grid

end FairyMoves
