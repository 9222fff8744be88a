import FairyMoves.Proofs.Away
import FairyMoves.Proofs.Compiled
import FairyMoves.Proofs.Hurdles
import FairyMoves.Proofs.Segments
import FairyMoves.Proofs.Walks

/-!
# The origin is not looked at

A piece has left the square that it starts from. What the board says of that square, be it that
nothing stands there, that a piece does or that there is no such square, makes no difference to the
moves: every look of a leap, a slide or a hop goes to another square.

## Main definitions

* `Board.AgreesBut` — two boards say the same of all squares but one

## Main results

* `Leap.contributes_iff`, `Slide.EndsAt.of_agreesBut`, `Hop.contributes_iff` — the three kinds of
  moves on two such boards
* `MoveAtom.moves_eq_of_agreesBut` — the moves of an atom
* `Piece.moves_unseen` — the moves of a piece, from either side of the board
-/

namespace FairyMoves

/-- Two boards say the same of every square of the plane, except maybe of `s`. -/
def Board.AgreesBut (board board' : Board) (s : Square) : Prop :=
  ∀ t, t.InPlane → t ≠ s → board' t = board t

theorem Square.along_ne {s : Square} {d : Delta} (hd : d ≠ .zero) {k : Nat} (hk : 0 < k) :
    s.along d k ≠ s :=
  Delta.LeadsTo.ne hd ⟨k, hk, rfl⟩

variable {board board' : Board} {origin t : Square} {d : Delta} {set : ModifierSet} {a : MoveAtom}

namespace Board.AgreesBut

theorem symm (h : board.AgreesBut board' origin) : board'.AgreesBut board origin :=
  fun t ht hne => (h t ht hne).symm

theorem has_iff (h : board.AgreesBut board' origin) (hne : t ≠ origin) {q : SquareState} :
    board'.Has t q ↔ board.Has t q :=
  and_congr_right fun ht => by rw [h t ht hne]

theorem has_along_iff (h : board.AgreesBut board' origin) (hd : d ≠ .zero) {k : Nat} (hk : 0 < k)
    {q : SquareState} : board'.Has (origin.along d k) q ↔ board.Has (origin.along d k) q :=
  h.has_iff (Square.along_ne hd hk)

end Board.AgreesBut

/-! ## Leaps -/

theorem Leap.contributes_iff (h : board.AgreesBut board' origin) (hd : d ≠ .zero) :
    Contributes set board' origin d t ↔ Contributes set board origin d t := by
  have hinside : (∀ u, Square.Inside origin (origin.along d 1) u → board'.Has u .empty) ↔
      ∀ u, Square.Inside origin (origin.along d 1) u → board.Has u .empty :=
    forall₂_congr fun u hu => h.has_iff hu.ne_start
  simp only [Contributes, hinside, h.has_along_iff hd Nat.one_pos, h.has_along_iff hd Nat.two_pos]

/-! ## Slides -/

namespace Slide

variable {course : Course} {k : Nat} {q : SquareState}

theorem finds_iff (h : board.AgreesBut board' origin) (hcourse : course k ≠ .zero) (hk : 0 < k) :
    Finds board' origin course k q ↔ Finds board origin course k q :=
  and_congr_right fun hsquare => by rw [h _ hsquare.2.2 (Square.along_ne hcourse hk)]

/-- Steps are numbered from one, and none of them leads back to the origin. -/
theorem EndsAt.of_agreesBut (h : board.AgreesBut board' origin) (hcourse : ∀ k, course k ≠ .zero)
    (hend : EndsAt a board origin course 1 k) : EndsAt a board' origin course 1 k := by
  have hfinds {j : Nat} {q : SquareState} (hj : 1 ≤ j) (hq : Finds board origin course j q) :
      Finds board' origin course j q :=
    (finds_iff h (hcourse j) hj).mpr hq
  constructor
  case first_le => exact hend.first_le
  case limit => exact hend.limit
  case passes =>
    intro j hj hlt
    obtain ⟨q, hq, hgoes⟩ := hend.passes j hj hlt
    exact ⟨q, hfinds hj hq, hgoes⟩
  case arrives =>
    obtain ⟨q, hq, hmay⟩ := hend.arrives
    exact ⟨q, hfinds hend.first_le hq, hmay⟩

end Slide

/-! ## Hops -/

namespace Hop

variable {n k : Nat}

/-- All squares that a piece crosses lie in the plane, so both boards have as many hurdles there. -/
theorem Crosses.of_agreesBut (h : board.AgreesBut board' origin) (hd : d ≠ .zero)
    (hcrosses : Crosses board d origin n k) : Crosses board' d origin n k := by
  have honBoard : ∀ j, 1 ≤ j → j ≤ k → ∃ q, board'.Has (origin.along d j) q := by
    intro j hpos hle
    obtain ⟨q, hq⟩ := hcrosses.onBoard j hpos hle
    exact ⟨q, (h.has_along_iff hd hpos).mpr hq⟩
  refine ⟨honBoard, ?_⟩
  rw [← hcrosses.occupied_eq, occupied, occupied]
  apply List.countP_congr
  intro j hj
  obtain ⟨q, hplane, _⟩ := honBoard (j + 1) (Nat.le_add_left 1 j) (List.mem_range.mp hj)
  rw [h _ hplane (Square.along_ne hd (Nat.succ_pos j))]

theorem contributes_iff (h : board.AgreesBut board' origin) (hd : d ≠ .zero) :
    Contributes set board' origin d t ↔ Contributes set board origin d t := by
  have hcrosses : {k | Crosses board' d origin set.hopCount k} =
      {k | Crosses board d origin set.hopCount k} :=
    Set.ext fun k => ⟨.of_agreesBut h.symm hd, .of_agreesBut h hd⟩
  simp only [Contributes, hcrosses, h.has_along_iff hd (Nat.succ_pos _)]

end Hop

/-! ## Atoms and pieces -/

/-- What is on the origin makes no difference to the moves of an atom. -/
theorem MoveAtom.moves_eq_of_agreesBut (hz : .zero ∉ a.deltas)
    (hdeltas : ∀ d ∈ a.deltas, d.InPlane ∧ d ∉ Leap.miscounted) (ho : origin.InPlane)
    (h : board.AgreesBut board' origin) : a.moves board' origin = a.moves board origin := by
  have hne {d : Delta} (hd : d ∈ a.deltas) : d ≠ .zero := ne_of_mem_of_not_mem hd hz
  unfold moves
  cases a.kind with
  | leap =>
    apply List.filterMap_congr
    intro d hd
    obtain ⟨hplane, hcounted⟩ := hdeltas d hd
    ext t
    rw [Leap.destination?_eq_some_iff hcounted hplane ho,
      Leap.destination?_eq_some_iff hcounted hplane ho, Leap.contributes_iff h (hne hd)]
  | slide =>
    apply List.flatMap_congr
    intro course hcourse
    have hnonzero (step : Nat) : course step ≠ .zero :=
      hne (Slide.mem_deltas_of_mem_courses hcourse step)
    exact Slide.walk_eq_of_endsAt_iff fun k =>
      ⟨.of_agreesBut h.symm hnonzero, .of_agreesBut h hnonzero⟩
  | hop =>
    apply List.filterMap_congr
    intro d hd
    ext t
    rw [Hop.destination?_eq_some_iff (hne hd), Hop.destination?_eq_some_iff (hne hd),
      Hop.contributes_iff h (hne hd)]

/-- The deltas of the tables are far from those whose steps are miscounted. -/
theorem Delta.Within.inPlane_and_notMem_miscounted {n : Nat} (h : d.Within n)
    (hn : n ≤ 2147483647) : d.InPlane ∧ d ∉ Leap.miscounted := by
  obtain ⟨hx, hy⟩ := h
  refine ⟨⟨?_, ?_⟩, Leap.notMem_miscounted ?_ ?_⟩
  all_goals
    simp only [isCoordinate_iff, minCoordinate]
    omega

/-- Neither side of the board makes a delta of a compiled atom too long. -/
theorem Spelling.inPlane_and_notMem_miscounted {source : String} {atoms : List MoveAtom}
    (h : compile source = .ok atoms) (ha : a ∈ atoms) (geometry : Geometry) :
    ∀ d ∈ (geometry.apply a).deltas, d.InPlane ∧ d ∉ Leap.miscounted := by
  have hlength := length_deltas_of_compile h a ha
  obtain ⟨b, set, rfl⟩ := exists_ofBase_of_compile h ha
  have htabled := MoveAtom.tabled_deltas_ofBase b set
  have hwithin := ((geometry.keeps hlength).within 4).mpr htabled.within
  intro d hd
  exact (hwithin d hd).inPlane_and_notMem_miscounted (by decide)

/-- What is on the origin makes no difference to the moves of a piece, whichever side it plays for,
and none of its moves ends there. -/
theorem Piece.moves_unseen {source : String} {atoms : List MoveAtom}
    (h : Spelling.compile source = .ok atoms) {origin : Square} (ho : origin.InPlane)
    {board board' : Board} (hagree : board.AgreesBut board' origin) (geometry : Geometry)
    (id : String) :
    ∃ p, Piece.compile geometry id source = .ok p ∧
      p.moves board' origin = p.moves board origin ∧ origin ∉ p.moves board origin := by
  refine ⟨⟨id, source, atoms.map geometry.apply⟩, by rw [compile, h]; rfl, ?same, ?away⟩
  case same =>
    rw [moves, moves, generate_eq_flatMap, generate_eq_flatMap, List.flatMap_map, List.flatMap_map]
    apply List.flatMap_congr
    intro a ha
    exact MoveAtom.moves_eq_of_agreesBut (Spelling.zero_notMem_apply h ha geometry)
      (Spelling.inPlane_and_notMem_miscounted h ha geometry) ho hagree
  case away =>
    intro hmem
    obtain ⟨_, hmap, hmoves⟩ := mem_generate.mp hmem
    obtain ⟨a, ha, rfl⟩ := List.mem_map.mp hmap
    have hz := Spelling.zero_notMem_apply h ha geometry
    exact MoveAtom.origin_notMem_moves hz board origin hmoves

/-- The board without one of its squares. -/
def Board.without (board : Board) (s : Square) : Board := fun t => if t = s then none else board t

/-- A grid of three columns and four rows with an enemy in its third row and a friend in the
last. -/
def Grid.twoPieces : Grid := ((Grid.empty 3 4).set 1 2 .enemy).set 0 3 .friendly

/-- A piece that hops, zigzags and asks for a clear path. It makes the same moves whether an enemy
stands on its origin or the origin is off the board. -/
theorem Piece.moves_unseen_off_board :
    Spelling.compile "zBgjNypA" = .ok [Term.atom ⟨[.zigzag], .bishop⟩,
      Term.atom ⟨[.grasshopper, .cannon], .knight⟩,
      Term.atom ⟨[.captureThenLeap, .requiresClearPath], .alfil⟩] ∧
    Square.InPlane ⟨1, 2⟩ ∧ Grid.twoPieces.board ⟨1, 2⟩ = some .enemy ∧
    Grid.twoPieces.board.AgreesBut (Grid.twoPieces.board.without ⟨1, 2⟩) ⟨1, 2⟩ ∧
    ∃ p, Piece.compile .flipped "down" "zBgjNypA" = .ok p ∧
      p.moves (Grid.twoPieces.board.without ⟨1, 2⟩) ⟨1, 2⟩ = p.moves Grid.twoPieces.board ⟨1, 2⟩ ∧
      ⟨1, 2⟩ ∉ p.moves Grid.twoPieces.board ⟨1, 2⟩ := by
  have hcompile : Spelling.compile "zBgjNypA" = .ok [Term.atom ⟨[.zigzag], .bishop⟩,
      Term.atom ⟨[.grasshopper, .cannon], .knight⟩,
      Term.atom ⟨[.captureThenLeap, .requiresClearPath], .alfil⟩] := rfl
  have ho : Square.InPlane ⟨1, 2⟩ := by
    decide
  have hagree : Grid.twoPieces.board.AgreesBut (Grid.twoPieces.board.without ⟨1, 2⟩) ⟨1, 2⟩ :=
    fun t _ hne => if_neg hne
  exact ⟨hcompile, ho, by decide, hagree, moves_unseen hcompile ho hagree .flipped "down"⟩

end FairyMoves
