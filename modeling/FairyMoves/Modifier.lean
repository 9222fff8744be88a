/-!
# Modifier letters

Small letters in front of a base atom change how it moves.

## Main definitions

* `Modifier` — the eighteen modifiers, with `letter`, `ofLetter?` and `name`

## Main results

* `Modifier.ofLetter?_letter`, `Modifier.letter_of_ofLetter?` — letters and modifiers correspond
-/

namespace FairyMoves

/-- What one modifier letter asks for. -/
inductive Modifier where
  /-- The piece captures nothing. -/
  | moveOnly
  /-- The piece only captures. -/
  | captureOnly
  /-- The first target must be a capture. -/
  | mustCaptureFirst
  /-- The first target must not be a capture. -/
  | mustNotCaptureFirst
  /-- The piece captures on its target, then leaps on to an empty square. -/
  | captureThenLeap
  /-- A slide takes two deltas in turn. -/
  | zigzag
  /-- A slide goes on past the pieces it takes. -/
  | takeAndContinue
  /-- Nothing blocks a slide. -/
  | unblockable
  /-- A leap needs empty squares on the way. -/
  | requiresClearPath
  /-- A leaper becomes a rider. -/
  | againRider
  /-- One more hop, in the way of the grasshopper. -/
  | grasshopper
  /-- One more hop, in the way of the cannon. -/
  | cannon
  | forward
  | backward
  | left
  | right
  /-- Forward and backward. -/
  | vertical
  /-- Left and right. -/
  | sideways
  deriving DecidableEq, Repr, Inhabited

namespace Modifier

/-- The modifiers in the order in which they are listed. -/
def all : List Modifier :=
  [moveOnly, captureOnly, mustCaptureFirst, mustNotCaptureFirst, captureThenLeap, zigzag,
    takeAndContinue, unblockable, requiresClearPath, againRider, grasshopper, cannon, forward,
    backward, left, right, vertical, sideways]

theorem mem_all (m : Modifier) : m ∈ all := by
  cases m <;> decide

/-- The letter that spells a modifier. -/
def letter : Modifier → Char
  | moveOnly => 'm'
  | captureOnly => 'c'
  | mustCaptureFirst => 'o'
  | mustNotCaptureFirst => 'x'
  | captureThenLeap => 'y'
  | zigzag => 'z'
  | takeAndContinue => 't'
  | unblockable => 'u'
  | requiresClearPath => 'p'
  | againRider => 'a'
  | grasshopper => 'g'
  | cannon => 'j'
  | forward => 'f'
  | backward => 'b'
  | left => 'l'
  | right => 'r'
  | vertical => 'v'
  | sideways => 's'

/-- The modifier that a letter spells. -/
def ofLetter? (c : Char) : Option Modifier := all.find? fun m => m.letter == c

@[simp] theorem ofLetter?_letter (m : Modifier) : ofLetter? m.letter = some m := by
  cases m <;> rfl

theorem letter_of_ofLetter? {c : Char} {m : Modifier} (h : ofLetter? c = some m) :
    m.letter = c := by
  have hc := List.find?_some h
  exact beq_iff_eq.mp hc

/-- The name of a modifier. -/
def name : Modifier → String
  | moveOnly => "MoveOnly"
  | captureOnly => "CaptureOnly"
  | mustCaptureFirst => "MustCaptureFirst"
  | mustNotCaptureFirst => "MustNotCaptureFirst"
  | captureThenLeap => "CaptureThenLeap"
  | zigzag => "Zigzag"
  | takeAndContinue => "TakeAndContinue"
  | unblockable => "Unblockable"
  | requiresClearPath => "RequiresClearPath"
  | againRider => "AgainRider"
  | grasshopper => "Grasshopper"
  | cannon => "Cannon"
  | forward => "Forward"
  | backward => "Backward"
  | left => "Left"
  | right => "Right"
  | vertical => "Vertical"
  | sideways => "Sideways"

end Modifier

end FairyMoves
