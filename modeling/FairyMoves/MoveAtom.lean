import FairyMoves.BaseAtom
import FairyMoves.ModifierSet

/-!
# Move atoms

A move atom is a base atom with its modifiers worked out: the deltas that remain, the way it walks
along them and how far.

## Main definitions

* `StepLimit` — how many steps a slide may take
* `MoveAtom`, `MoveAtom.ofBase` — an atom, and the one that a base atom and its modifiers make
* `MoveAtom.withDeltas` — the atom with other deltas, at most `maxDeltas` of them

## Main results

* `MoveAtom.ofBase_normalized` — modifiers may be normalized before or while the atom is made
-/

namespace FairyMoves

/-- The greatest number of steps of a slide. -/
inductive StepLimit where
  | bounded (steps : Nat)
  | unbounded
  deriving DecidableEq, Repr, Inhabited

namespace StepLimit

/-- The step with this number may be taken. -/
def allows : StepLimit → Nat → Bool
  | bounded n, step => step ≤ n
  | unbounded, _ => true

/-- A limit is written as its number, or `inf` when there is none. -/
def toText : StepLimit → String
  | bounded n => toString n
  | unbounded => "inf"

/-- The name of a limit, as log lines give it. -/
def name : StepLimit → String
  | bounded n => s!"Bounded({n})"
  | unbounded => "Unbounded"

end StepLimit

/-- An atom ready for move generation. -/
structure MoveAtom where
  base : BaseAtom
  kind : MoveKind
  deltas : List Delta
  limit : StepLimit
  modifiers : ModifierSet
  deriving DecidableEq, Repr, Inhabited

namespace MoveAtom

/-- Hop letters make a hop; otherwise a rider, or a leaper asked to ride, slides; the rest leap. -/
def kindOf (base : BaseAtom) (modifiers : ModifierSet) : MoveKind :=
  if 0 < modifiers.hopCount then .hop
  else if modifiers.againRider || base.defaultKind == .slide then .slide
  else .leap

/-- A leap is one step; slides and hops go as far as the board lets them. -/
def limitOf : MoveKind → StepLimit
  | .leap => .bounded 1
  | .slide => .unbounded
  | .hop => .unbounded

/-- The atom that a base atom and the modifiers in front of it make. -/
def ofBase (base : BaseAtom) (modifiers : ModifierSet) : MoveAtom where
  base := base
  kind := kindOf base modifiers
  deltas := base.deltas.filter modifiers.allows
  limit := limitOf (kindOf base modifiers)
  modifiers := modifiers.normalized

theorem kindOf_normalized (base : BaseAtom) (modifiers : ModifierSet) :
    kindOf base modifiers.normalized = kindOf base modifiers := by
  cases h : modifiers.captureThenLeap <;> simp [kindOf, ModifierSet.normalized, h]

theorem allows_normalized (modifiers : ModifierSet) :
    modifiers.normalized.allows = modifiers.allows := by
  funext d
  cases h : modifiers.captureThenLeap <;> simp [ModifierSet.allows, ModifierSet.normalized, h]

theorem ofBase_normalized (base : BaseAtom) (modifiers : ModifierSet) :
    ofBase base modifiers.normalized = ofBase base modifiers := by
  simp [ofBase, kindOf_normalized, allows_normalized]

/-- The atom with other deltas, the first `maxDeltas` of those given. -/
def withDeltas (a : MoveAtom) (ds : List Delta) : MoveAtom :=
  { a with deltas := ds.take maxDeltas }

/-- The number of pieces that the atom hops over. -/
def hopCount (a : MoveAtom) : Nat := a.modifiers.hopCount

/-- The style of the last hop. -/
def hopStyle (a : MoveAtom) : Option HopStyle := a.modifiers.hopStyle

end MoveAtom

end FairyMoves
