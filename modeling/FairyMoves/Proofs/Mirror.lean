import FairyMoves.Piece
import FairyMoves.Proofs.Grammar
import FairyMoves.Proofs.Motion
import FairyMoves.Proofs.Path

/-!
# The board from its other side

A piece that plays down the board moves as the same piece would that plays up the board, were the
board turned over. Turning the board over is a motion of the plane, so this follows from what holds
of all motions. Only the edge of the plane takes some care, for there is one more coordinate below
zero than above.

## Main definitions

* `Square.mirrored`, `Motion.mirror` — the square of the opposite row, and the motion that leads
  there

## Main results

* `Motion.mirror_carries` — the motion carries a flipped grid to the grid
* `Motion.mirror_keepsReach` — no square of a grid is reached on one side only
* `Spelling.inPlane_of_compile`, `Spelling.zero_notMem_of_compile` — the deltas of compiled atoms
* `Piece.moves_flipped` — the moves of a flipped piece are the mirrored moves of the piece
-/

namespace FairyMoves

/-- The square of the same column in the opposite row of a board with so many rows. -/
def Square.mirrored (height : Nat) (s : Square) : Square := ⟨s.x, height - 1 - s.y⟩

@[simp] theorem Square.mirrored_mirrored (height : Nat) (s : Square) :
    (s.mirrored height).mirrored height = s := by
  obtain ⟨x, y⟩ := s
  simp only [mirrored, Square.mk.injEq, true_and]
  omega

theorem Square.mirrored_offset (height : Nat) (s : Square) (d : Delta) :
    (s.offset d).mirrored height = (s.mirrored height).offset d.flipped := by
  simp only [mirrored, offset, Delta.flipped, mk.injEq, true_and]
  omega

namespace Motion

/-- The motion that turns a board with so many rows over. -/
def mirror (height : Nat) : Motion where
  square s := s.mirrored height
  delta := Delta.flipped
  square_offset := Square.mirrored_offset height
  delta_scaled := Delta.flipped_scaled
  delta_ne_zero _ hd := Delta.flipped_ne_zero hd

theorem mirror_carries {g : Grid} (hheight : (g.height : Int) ≤ maxCoordinate) :
    (mirror g.height).Carries g.flipped.board g.board := by
  intro s q
  have hread : g.flipped.board s = g.board (s.mirrored g.height) := Grid.get?_flipped
  rw [hread]
  refine and_congr_left fun hq => ?_
  have hbounds := Grid.bounds_of_get? hq
  simp only [mirror, Square.InPlane, Square.mirrored, isCoordinate_iff, maxCoordinate] at *
  omega

/-- From an origin whose opposite square exists too, no delta to a square of the grid is the least
coordinate, the one that has no opposite. -/
theorem mirror_keepsReach {g : Grid} {origin : Square} (ho : origin.InPlane)
    (ho' : (origin.mirrored g.height).InPlane) :
    (mirror g.height).KeepsReach g.flipped.board origin := by
  intro d _ hsome
  obtain ⟨q, hq⟩ := Option.isSome_iff_exists.mp hsome
  have hbounds : 0 ≤ origin.y + d.dy ∧ origin.y + d.dy < g.height :=
    (Grid.bounds_of_get? hq).2.2
  simp only [mirror, Square.InPlane, Square.mirrored, Delta.InPlane, Delta.flipped,
    isCoordinate_iff] at *
  omega

theorem mirror_keepsPath {height : Nat} {d : Delta} (hd : d.InPlane) :
    (mirror height).KeepsPath d :=
  ⟨Leap.pathSteps_flipped d, Leap.unitStep_flipped hd⟩

end Motion

/-! ## The deltas of compiled atoms -/

theorem BaseAtom.inPlane_of_mem_deltas {b : BaseAtom} : ∀ d ∈ b.deltas, d.InPlane := by
  cases b <;> decide

theorem BaseAtom.zero_notMem_deltas (b : BaseAtom) : .zero ∉ b.deltas := by
  cases b <;> decide

namespace MoveAtom

theorem mem_deltas_ofBase {b : BaseAtom} {set : ModifierSet} {d : Delta}
    (h : d ∈ (ofBase b set).deltas) : d ∈ b.deltas :=
  (List.mem_filter.mp h).1

theorem length_deltas_ofBase (b : BaseAtom) (set : ModifierSet) :
    (ofBase b set).deltas.length ≤ maxDeltas :=
  Nat.le_trans (List.length_filter_le _ _) b.length_deltas_le

end MoveAtom

namespace Spelling

variable {source : String} {atoms : List MoveAtom}

/-- Every compiled atom is one of a base atom with its modifiers. -/
theorem exists_ofBase_of_compile (h : compile source = .ok atoms) {a : MoveAtom} (ha : a ∈ atoms) :
    ∃ b set, a = .ofBase b set := by
  obtain ⟨terms, rfl, rfl⟩ := compile_eq_ok_iff_ofTerms.mp h
  obtain ⟨t, _, rfl⟩ := List.mem_map.mp ha
  exact ⟨t.base, .ofRun t.run, rfl⟩

theorem inPlane_of_compile (h : compile source = .ok atoms) :
    ∀ a ∈ atoms, ∀ d ∈ a.deltas, d.InPlane := by
  intro a ha d hd
  obtain ⟨b, set, rfl⟩ := exists_ofBase_of_compile h ha
  exact BaseAtom.inPlane_of_mem_deltas d (MoveAtom.mem_deltas_ofBase hd)

theorem zero_notMem_of_compile (h : compile source = .ok atoms) :
    ∀ a ∈ atoms, .zero ∉ a.deltas := by
  intro a ha hzero
  obtain ⟨b, set, rfl⟩ := exists_ofBase_of_compile h ha
  exact b.zero_notMem_deltas (MoveAtom.mem_deltas_ofBase hzero)

theorem length_deltas_of_compile (h : compile source = .ok atoms) :
    ∀ a ∈ atoms, a.deltas.length ≤ maxDeltas := by
  intro a ha
  obtain ⟨b, set, rfl⟩ := exists_ofBase_of_compile h ha
  exact MoveAtom.length_deltas_ofBase b set

end Spelling

/-! ## Flipped pieces -/

/-- An atom with few enough deltas is flipped by turning each of them. -/
theorem Geometry.apply_flipped {a : MoveAtom} (h : a.deltas.length ≤ maxDeltas) (height : Nat) :
    Geometry.flipped.apply a = (Motion.mirror height).atom a := by
  have htake : (a.deltas.map Delta.flipped).take maxDeltas = a.deltas.map Delta.flipped :=
    List.take_of_length_le (by rwa [List.length_map])
  simp only [apply, MoveAtom.withDeltas, htake, Motion.atom, Motion.mirror]

/-- A flipped piece makes the moves that the piece makes on the flipped board from the opposite
square, in the same order, each to the opposite square. -/
theorem Piece.moves_flipped {source : String} {atoms : List MoveAtom}
    (h : Spelling.compile source = .ok atoms) (id id' : String) {g : Grid}
    (hheight : (g.height : Int) ≤ maxCoordinate) {origin : Square} (ho : origin.InPlane)
    (ho' : (origin.mirrored g.height).InPlane) :
    ∃ p q, Piece.compile .flipped id source = .ok p ∧ Piece.compile .square id' source = .ok q ∧
      p.moves g.board origin =
        (q.moves g.flipped.board (origin.mirrored g.height)).map (Square.mirrored g.height) := by
  have hflipped : atoms.map Geometry.flipped.apply = atoms.map (Motion.mirror g.height).atom :=
    List.map_congr_left fun a ha =>
      Geometry.apply_flipped (Spelling.length_deltas_of_compile h a ha) g.height
  have hmirrored : ((origin.mirrored g.height).mirrored g.height).InPlane := by
    rwa [Square.mirrored_mirrored]
  have hmoves := Motion.generate_atoms (Motion.mirror_carries hheight)
    (Motion.mirror_keepsReach ho' hmirrored)
    (fun a ha d hd => Motion.mirror_keepsPath (Spelling.inPlane_of_compile h a ha d hd))
    (Spelling.zero_notMem_of_compile h)
  rw [← hflipped] at hmoves
  refine ⟨⟨id, source, atoms.map Geometry.flipped.apply⟩,
    ⟨id', source, atoms.map Geometry.square.apply⟩, by rw [compile, h]; rfl,
    by rw [compile, h]; rfl, ?_⟩
  have hsquare : atoms.map Geometry.square.apply = atoms := List.map_id atoms
  simp only [moves, hsquare]
  calc generate (atoms.map Geometry.flipped.apply) g.board origin
      = generate (atoms.map Geometry.flipped.apply) g.board
          ((origin.mirrored g.height).mirrored g.height) := by rw [Square.mirrored_mirrored]
    _ = _ := hmoves

/-- A grid of five columns and six rows with two enemies in its fifth row and a friend in the
third. -/
def Grid.threePieces : Grid :=
  (((Grid.empty 5 6).set 1 4 .enemy).set 2 4 .enemy).set 2 2 .friendly

/-- A piece with a zigzag, two hurdles and a capture on a clear path, from a square above the board.
Each of its atoms makes a move. -/
theorem Piece.moves_flipped_from_above :
    Spelling.compile "zBgjNypA" = .ok [Term.atom ⟨[.zigzag], .bishop⟩,
      Term.atom ⟨[.grasshopper, .cannon], .knight⟩,
      Term.atom ⟨[.captureThenLeap, .requiresClearPath], .alfil⟩] ∧
    (Grid.threePieces.height : Int) ≤ maxCoordinate ∧
    Square.InPlane ⟨0, 6⟩ ∧
    (Square.mirrored Grid.threePieces.height ⟨0, 6⟩).InPlane ∧
    ∃ p q, Piece.compile .flipped "down" "zBgjNypA" = .ok p ∧
      Piece.compile .square "up" "zBgjNypA" = .ok q ∧
      p.moves Grid.threePieces.board ⟨0, 6⟩ = [⟨1, 5⟩, ⟨3, 0⟩, ⟨4, 2⟩] ∧
      q.moves Grid.threePieces.flipped.board ⟨0, -1⟩ = [⟨1, 0⟩, ⟨3, 5⟩, ⟨4, 3⟩] ∧
      p.moves Grid.threePieces.board ⟨0, 6⟩ =
        (q.moves Grid.threePieces.flipped.board
          (Square.mirrored Grid.threePieces.height ⟨0, 6⟩)).map
            (Square.mirrored Grid.threePieces.height) := by
  have hcompile : Spelling.compile "zBgjNypA" = .ok [Term.atom ⟨[.zigzag], .bishop⟩,
      Term.atom ⟨[.grasshopper, .cannon], .knight⟩,
      Term.atom ⟨[.captureThenLeap, .requiresClearPath], .alfil⟩] := rfl
  have hheight : (Grid.threePieces.height : Int) ≤ maxCoordinate := by
    decide
  have ho : Square.InPlane ⟨0, 6⟩ := by
    decide
  have ho' : (Square.mirrored Grid.threePieces.height ⟨0, 6⟩).InPlane := by
    decide
  obtain ⟨p, q, hp, hq, hmoves⟩ := Piece.moves_flipped hcompile "down" "up" hheight ho ho'
  have hdown : p.moves Grid.threePieces.board ⟨0, 6⟩ = [⟨1, 5⟩, ⟨3, 0⟩, ⟨4, 2⟩] := by
    obtain rfl := Except.ok.inj hp
    decide +kernel
  have hup : q.moves Grid.threePieces.flipped.board ⟨0, -1⟩ = [⟨1, 0⟩, ⟨3, 5⟩, ⟨4, 3⟩] := by
    obtain rfl := Except.ok.inj hq
    decide +kernel
  exact ⟨hcompile, hheight, ho, ho', p, q, hp, hq, hdown, hup, hmoves⟩

end FairyMoves
