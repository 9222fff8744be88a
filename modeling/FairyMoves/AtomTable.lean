import FairyMoves.Libraries

/-!
# Tables of atoms

## Main definitions

* `AtomTable.ofBaseAtoms` — all base atoms with their letters and deltas
* `AtomTable.ofMoveAtoms` — the move atoms of a spelling, numbered from zero
-/

namespace FairyMoves.AtomTable

/-- The row of a base atom. -/
def baseRow (b : BaseAtom) : List String :=
  [b.letter.toString, b.name, b.defaultKind.name, Delta.listText b.deltas]

/-- The table of all base atoms. -/
def ofBaseAtoms (lib : Libraries) : String :=
  lib.table ["letter", "name", "kind", "deltas"] (BaseAtom.all.map baseRow)

/-- How an atom hops: the style of its last hop and the number of hops, or a dash. -/
def hopsText (a : MoveAtom) : String :=
  match a.hopStyle with
  | some style => style.name ++ s!" x{a.hopCount}"
  | none => "-"

/-- The row of a move atom with its number. -/
def moveRow (number : Nat) (a : MoveAtom) : List String :=
  [toString number, a.base.name, a.kind.name, a.limit.toText, hopsText a, a.modifiers.flagLetters,
    Delta.listText a.deltas]

/-- The table of a list of move atoms. -/
def ofMoveAtoms (lib : Libraries) (atoms : List MoveAtom) : String :=
  lib.table ["#", "atom", "kind", "steps", "hops", "modifiers", "deltas"]
    (atoms.mapIdx moveRow)

end FairyMoves.AtomTable
