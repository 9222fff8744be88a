import FairyMoves.Direction
import FairyMoves.Modifier

/-!
# Modifier sets

The letters in front of one base atom add up to a modifier set. Most of them are switches; hop
letters are counted and the last one sets the style; direction letters widen the set of allowed
directions, which is unrestricted while there is none.

## Main definitions

* `ModifierSet`, `ModifierSet.insert`, `ModifierSet.ofRun` — the set, one letter more, a whole run
* `ModifierSet.normalized` — capturing then leaping replaces the conditions on the first capture
* `ModifierSet.allows` — the steps that the directions leave
* `ModifierSet.flags`, `ModifierSet.flagLetters` — the switches that are on, and their letters

## Main results

* `ModifierSet.normalized_normalized` — normalizing twice changes nothing more
* `ModifierSet.ofRun_append` — a run can be read in two pieces
-/

namespace FairyMoves

/-- How the last hop letter of a run hops. -/
inductive HopStyle where
  | grasshopper
  | cannon
  deriving DecidableEq, Repr, Inhabited

/-- The word for a style of hopping. -/
def HopStyle.name : HopStyle → String
  | .grasshopper => "Grasshopper"
  | .cannon => "Cannon"

/-- What a run of modifier letters asks for. -/
structure ModifierSet where
  moveOnly : Bool := false
  captureOnly : Bool := false
  mustCaptureFirst : Bool := false
  mustNotCaptureFirst : Bool := false
  captureThenLeap : Bool := false
  zigzag : Bool := false
  takeAndContinue : Bool := false
  unblockable : Bool := false
  requiresClearPath : Bool := false
  againRider : Bool := false
  /-- The number of pieces to hop over. The program counts them in 32 bits without a sign, which
  comes to the same while fewer than 2³² letters of a run hop. -/
  hopCount : Nat := 0
  hopStyle : Option HopStyle := none
  /-- The directions that steps may point in; all if there is no such set. -/
  allowedDirections : Option Directions := none
  deriving DecidableEq, Repr, Inhabited

namespace ModifierSet

/-- The set that asks for nothing. -/
def empty : ModifierSet := {}

/-- One more hop, in the given style. -/
def addHop (set : ModifierSet) (style : HopStyle) : ModifierSet :=
  { set with hopCount := set.hopCount + 1, hopStyle := some style }

/-- More directions. The first ones restrict the set, later ones widen it. -/
def addDirections (set : ModifierSet) (list : List Direction) : ModifierSet :=
  { set with
    allowedDirections := some ((set.allowedDirections.getD .empty).insertAll list) }

/-- The set after one more modifier letter. -/
def insert (set : ModifierSet) : Modifier → ModifierSet
  | .moveOnly => { set with moveOnly := true }
  | .captureOnly => { set with captureOnly := true }
  | .mustCaptureFirst => { set with mustCaptureFirst := true }
  | .mustNotCaptureFirst => { set with mustNotCaptureFirst := true }
  | .captureThenLeap => { set with captureThenLeap := true }
  | .zigzag => { set with zigzag := true }
  | .takeAndContinue => { set with takeAndContinue := true }
  | .unblockable => { set with unblockable := true }
  | .requiresClearPath => { set with requiresClearPath := true }
  | .againRider => { set with againRider := true }
  | .grasshopper => set.addHop .grasshopper
  | .cannon => set.addHop .cannon
  | .forward => set.addDirections [.forward]
  | .backward => set.addDirections [.backward]
  | .left => set.addDirections [.left]
  | .right => set.addDirections [.right]
  | .vertical => set.addDirections [.forward, .backward]
  | .sideways => set.addDirections [.left, .right]

/-- The set after a run of modifier letters. -/
def insertRun (set : ModifierSet) (run : List Modifier) : ModifierSet := run.foldl insert set

/-- What a whole run of modifier letters asks for. -/
def ofRun (run : List Modifier) : ModifierSet := empty.insertRun run

theorem ofRun_append (r s : List Modifier) : ofRun (r ++ s) = (ofRun r).insertRun s := by
  simp [ofRun, insertRun]

/-- Capturing then leaping replaces both conditions on the first capture. -/
def normalized (set : ModifierSet) : ModifierSet :=
  if set.captureThenLeap then
    { set with mustCaptureFirst := false, mustNotCaptureFirst := false }
  else set

@[simp] theorem normalized_normalized (set : ModifierSet) :
    set.normalized.normalized = set.normalized := by
  cases h : set.captureThenLeap <;> simp [normalized, h]

/-- There is a direction letter. -/
def isRestricted (set : ModifierSet) : Bool := set.allowedDirections.isSome

/-- The directions leave this step. -/
def allows (set : ModifierSet) (d : Delta) : Bool :=
  match set.allowedDirections with
  | none => true
  | some ds => ds.allows d

/-- The switch that a modifier turns on; off for the hop and direction letters. -/
def switch (set : ModifierSet) : Modifier → Bool
  | .moveOnly => set.moveOnly
  | .captureOnly => set.captureOnly
  | .mustCaptureFirst => set.mustCaptureFirst
  | .mustNotCaptureFirst => set.mustNotCaptureFirst
  | .captureThenLeap => set.captureThenLeap
  | .zigzag => set.zigzag
  | .takeAndContinue => set.takeAndContinue
  | .unblockable => set.unblockable
  | .requiresClearPath => set.requiresClearPath
  | .againRider => set.againRider
  | _ => false

/-- The modifiers whose switches are on, in their usual order. -/
def flags (set : ModifierSet) : List Modifier := Modifier.all.filter set.switch

/-- The letters of the switches that are on, or a dash when none is. -/
def flagLetters (set : ModifierSet) : String :=
  if set.flags.isEmpty then "-" else String.ofList (set.flags.map Modifier.letter)

end ModifierSet

end FairyMoves
