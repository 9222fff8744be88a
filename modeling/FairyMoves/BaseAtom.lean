import FairyMoves.Plane

/-!
# Base atoms

A base atom is an elementary piece: a set of deltas, and the way it walks along them. It is spelled
by one capital letter.

## Main definitions

* `MoveKind` — leap once, slide on, or hop over pieces
* `BaseAtom` — the sixteen elementary pieces, with `letter`, `ofLetter?`, `name`, `deltas` and
  `defaultKind`
* `leaperDeltas` — the eight deltas of an `(m, n)` leaper

## Main results

* `BaseAtom.ofLetter?_letter`, `BaseAtom.letter_of_ofLetter?` — letters and atoms correspond
-/

namespace FairyMoves

/-- How a piece walks the board. -/
inductive MoveKind where
  | leap
  | slide
  | hop
  deriving DecidableEq, Repr, Inhabited

/-- The word for a way to walk. -/
def MoveKind.name : MoveKind → String
  | .leap => "Leap"
  | .slide => "Slide"
  | .hop => "Hop"

/-! ## Delta tables -/

/-- The four orthogonal steps of length `n`. -/
def orthogonalDeltas (n : Int) : List Delta := [⟨n, 0⟩, ⟨0, n⟩, ⟨-n, 0⟩, ⟨0, -n⟩]

/-- The four diagonal steps of length `n`. -/
def diagonalDeltas (n : Int) : List Delta := [⟨n, n⟩, ⟨-n, n⟩, ⟨-n, -n⟩, ⟨n, -n⟩]

/-- The eight images of `(m, n)` under the symmetries of the square, clockwise from itself. -/
def leaperDeltas (m n : Int) : List Delta :=
  [⟨m, n⟩, ⟨n, m⟩, ⟨n, -m⟩, ⟨m, -n⟩, ⟨-m, -n⟩, ⟨-n, -m⟩, ⟨-n, m⟩, ⟨-m, n⟩]

/-! ## The atoms -/

/-- An elementary piece. -/
inductive BaseAtom where
  | wazir
  | ferz
  | knight
  | dabbaba
  | alfil
  | elephant
  | camel
  | zebra
  | nightrider
  | giraffe
  | squirrel
  | pawn
  | rook
  | bishop
  | queen
  | king
  deriving DecidableEq, Repr, Inhabited

namespace BaseAtom

/-- The atoms in the order in which they are listed. -/
def all : List BaseAtom :=
  [wazir, ferz, knight, dabbaba, alfil, elephant, camel, zebra, nightrider, giraffe, squirrel, pawn,
    rook, bishop, queen, king]

theorem mem_all (b : BaseAtom) : b ∈ all := by
  cases b <;> decide

/-- The letter that spells an atom. -/
def letter : BaseAtom → Char
  | wazir => 'W'
  | ferz => 'F'
  | knight => 'N'
  | dabbaba => 'D'
  | alfil => 'A'
  | elephant => 'E'
  | camel => 'C'
  | zebra => 'Z'
  | nightrider => 'H'
  | giraffe => 'G'
  | squirrel => 'S'
  | pawn => 'P'
  | rook => 'R'
  | bishop => 'B'
  | queen => 'Q'
  | king => 'K'

/-- The atom that a letter spells. -/
def ofLetter? (c : Char) : Option BaseAtom := all.find? fun b => b.letter == c

@[simp] theorem ofLetter?_letter (b : BaseAtom) : ofLetter? b.letter = some b := by
  cases b <;> rfl

theorem letter_of_ofLetter? {c : Char} {b : BaseAtom} (h : ofLetter? c = some b) :
    b.letter = c := by
  have hc := List.find?_some h
  exact beq_iff_eq.mp hc

/-- The English name of an atom. -/
def name : BaseAtom → String
  | wazir => "Wazir"
  | ferz => "Ferz"
  | knight => "Knight"
  | dabbaba => "Dabbaba"
  | alfil => "Alfil"
  | elephant => "Elephant"
  | camel => "Camel"
  | zebra => "Zebra"
  | nightrider => "Nightrider"
  | giraffe => "Giraffe"
  | squirrel => "Squirrel"
  | pawn => "Pawn"
  | rook => "Rook"
  | bishop => "Bishop"
  | queen => "Queen"
  | king => "King"

/-- The steps of an atom, in the order in which its moves are generated. -/
def deltas : BaseAtom → List Delta
  | wazir | rook => orthogonalDeltas 1
  | ferz | bishop => diagonalDeltas 1
  | knight | nightrider => leaperDeltas 1 2
  | dabbaba => orthogonalDeltas 2
  | alfil => diagonalDeltas 2
  | elephant => diagonalDeltas 1 ++ diagonalDeltas 2
  | camel => leaperDeltas 1 3
  | zebra => leaperDeltas 2 3
  | giraffe => leaperDeltas 1 4
  | squirrel => leaperDeltas 1 2 ++ diagonalDeltas 2 ++ orthogonalDeltas 2
  | pawn => [⟨0, 1⟩]
  | queen | king => orthogonalDeltas 1 ++ diagonalDeltas 1

/-- How an atom walks when no modifier says otherwise: the riders slide, all others leap. -/
def defaultKind : BaseAtom → MoveKind
  | nightrider | rook | bishop | queen => .slide
  | _ => .leap

end BaseAtom

/-- The greatest number of deltas that an atom may have. -/
def maxDeltas : Nat := 16

theorem BaseAtom.length_deltas_le (b : BaseAtom) : b.deltas.length ≤ maxDeltas := by
  cases b <;> decide

end FairyMoves
