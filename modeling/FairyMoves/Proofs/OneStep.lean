import FairyMoves.Grid
import FairyMoves.Proofs.Sights
import Mathlib.Data.List.Basic

/-!
# One step of every kind

A leap goes one step along its delta and comes down there. So does a hop that has no hurdle to take,
and so does a slide that may take one step only. Where a letter has a say in one of the three and in
none of the others they part: a clear path is asked of leaps alone, to leap on from a capture is for
leaps and hops, and to take and go on is for slides.

## Main definitions

* `MoveAtom.asLeap`, `MoveAtom.asHop`, `MoveAtom.asSlide` — an atom sent another way
* `MoveAtom.clearing` — an atom without the deltas whose path is not clear
* `ModifierSet.step?` — the square where a move ends that comes down after one step

## Main results

* `Leap.destination?_eq_step?`, `Hop.destination?_eq_step?`, `Slide.walk_eq_step?` — one step of
  each kind
* `MoveAtom.moves_one_step` — the three kinds agree, but for the letters above
-/

namespace FairyMoves

namespace MoveAtom

/-- The atom as one that leaps. -/
def asLeap (a : MoveAtom) : MoveAtom := { a with kind := .leap }

/-- The atom as one that hops over a number of hurdles. -/
def asHop (a : MoveAtom) (hurdles : Nat) : MoveAtom :=
  { a with kind := .hop, modifiers := { a.modifiers with hopCount := hurdles } }

/-- The atom as one that slides, so far at most. -/
def asSlide (a : MoveAtom) (limit : StepLimit) : MoveAtom :=
  { a with kind := .slide, limit := limit }

/-- The atom with those of its deltas whose path from a square is clear. -/
def clearing (a : MoveAtom) (board : Board) (origin : Square) : MoveAtom :=
  { a with deltas := a.deltas.filter (Leap.isPathClear board origin) }

end MoveAtom

/-- The square where a move ends that comes down one step along the delta. -/
def ModifierSet.step? (set : ModifierSet) (board : Board) (origin : Square) (d : Delta) :
    Option Square :=
  (board.look (origin.offset? d)).bind fun seen => set.land? board d seen.1 seen.2

variable {a : MoveAtom} {set : ModifierSet} {board : Board} {origin : Square} {d : Delta}

/-! ## Leaps and hops -/

theorem Leap.destination?_eq_step? :
    destination? set board origin d =
      if set.requiresClearPath && !isPathClear board origin d then none
      else set.step? board origin d := by
  rw [destination?_eq_look, ModifierSet.step?]
  split
  · exact Option.bind_fun_none _
  · rfl

theorem Hop.destination?_eq_step? (h : set.hopCount = 0) :
    destination? set board origin d = set.step? board origin d := by
  rw [destination?, landing?_eq_look, h]
  rfl

theorem MoveAtom.moves_asLeap (hp : a.modifiers.requiresClearPath = false) :
    a.asLeap.moves board origin = a.deltas.filterMap (a.modifiers.step? board origin) := by
  apply List.filterMap_congr
  intro d _
  rw [Leap.destination?_eq_step?, asLeap, hp, Bool.false_and, if_neg Bool.false_ne_true]

/-- With `p` the deltas with a clear path are left, and each of them is a step. -/
theorem MoveAtom.moves_asLeap_of_requiresClearPath (hp : a.modifiers.requiresClearPath = true) :
    a.asLeap.moves board origin =
      (a.clearing board origin).deltas.filterMap (a.modifiers.step? board origin) := by
  rw [clearing, List.filterMap_filter]
  apply List.filterMap_congr
  intro d _
  rw [Leap.destination?_eq_step?, asLeap, hp, Bool.true_and]
  cases Leap.isPathClear board origin d <;> rfl

theorem MoveAtom.moves_asHop_zero :
    (a.asHop 0).moves board origin = a.deltas.filterMap (a.modifiers.step? board origin) := by
  apply List.filterMap_congr
  intro d _
  exact Hop.destination?_eq_step? rfl

/-! ## Slides -/

namespace Slide

theorem reach?_one (hd : d.InPlane) : reach? origin d 1 = origin.offset? d := by
  have hsame : d.scaled 1 = d := by
    simp [Delta.scaled]
  have hscaled : d.scaled? 1 = some d := Delta.scaled?_eq_some_iff.mpr ⟨hsame.symm ▸ hd, hsame⟩
  have hone : ((1 : Nat) : Int) ≤ maxCoordinate := by
    decide
  rw [reach?, if_pos hone, Int.natCast_one, hscaled, Option.bind_some]

/-- A slide of one step ends where a leap does, if no letter lets either of them go on. -/
theorem walk_eq_step? (hlimit : a.limit = .bounded 1) (hy : a.modifiers.captureThenLeap = false)
    (ht : a.modifiers.takeAndContinue = false) (hd : d.InPlane) :
    walk a board origin (straight d) = (a.modifiers.step? board origin d).toList := by
  have hfirst : a.limit.allows 1 = true := by
    rw [hlimit]
    rfl
  have hsecond : walkFrom a board origin (straight d) 2 = [] := by
    rw [walkFrom_eq_look, hlimit]
    rfl
  rw [walk_eq_walkFrom, walkFrom_eq_look, if_pos hfirst, hsecond, straight, reach?_one hd,
    ModifierSet.step?]
  cases board.look (origin.offset? d) with
  | none => rfl
  | some seen =>
    rw [Option.elim_some, Option.bind_some, ite_self, List.append_nil, ModifierSet.land?, hy,
      mayStop, ht]
    cases a.modifiers.mayLand seen.2 <;> rfl

end Slide

theorem MoveAtom.moves_asSlide_one (hy : a.modifiers.captureThenLeap = false)
    (ht : a.modifiers.takeAndContinue = false)
    (hstraight : a.modifiers.zigzag = false ∨ a.deltas.length < 2)
    (hd : ∀ d ∈ a.deltas, d.InPlane) :
    (a.asSlide (.bounded 1)).moves board origin =
      a.deltas.filterMap (a.modifiers.step? board origin) := by
  have hmoves : (a.asSlide (.bounded 1)).moves board origin =
      a.deltas.flatMap fun d =>
        Slide.walk (a.asSlide (.bounded 1)) board origin (Slide.straight d) :=
    Slide.moves_of_not_zigzag hstraight
  rw [hmoves, List.filterMap_eq_flatMap_toList]
  apply List.flatMap_congr
  intro d hmem
  exact Slide.walk_eq_step? rfl hy ht (hd d hmem)

/-! ## The three kinds -/

/-- Without `p` a leap is a hop over no hurdles, and without `y` and `t` it is also a slide of one
step, unless that zigzags. With `p` it is such a hop along the deltas whose path is clear. -/
theorem MoveAtom.moves_one_step (a : MoveAtom) (board : Board) (origin : Square) :
    (a.modifiers.requiresClearPath = false →
      a.asLeap.moves board origin = (a.asHop 0).moves board origin) ∧
    (a.modifiers.requiresClearPath = false → a.modifiers.captureThenLeap = false →
      a.modifiers.takeAndContinue = false →
      a.modifiers.zigzag = false ∨ a.deltas.length < 2 → (∀ d ∈ a.deltas, d.InPlane) →
      a.asLeap.moves board origin = (a.asSlide (.bounded 1)).moves board origin) ∧
    (a.modifiers.requiresClearPath = true →
      a.asLeap.moves board origin = ((a.clearing board origin).asHop 0).moves board origin ∧
      (a.asLeap.moves board origin).Sublist ((a.asHop 0).moves board origin)) := by
  refine ⟨fun hp => ?hop, fun hp hy ht hstraight hd => ?slide, fun hp => ⟨?clear, ?sublist⟩⟩
  case hop => rw [moves_asLeap hp, moves_asHop_zero]
  case slide => rw [moves_asLeap hp, moves_asSlide_one hy ht hstraight hd]
  case clear => rw [moves_asLeap_of_requiresClearPath hp, moves_asHop_zero, clearing]
  case sublist =>
    rw [moves_asLeap_of_requiresClearPath hp, moves_asHop_zero]
    exact List.filter_sublist.filterMap _

/-- An atom of the given deltas that takes the letters of a run as they are, without normalizing
them.
-/
def MoveAtom.unsettled (run : List Modifier) (deltas : List Delta) : MoveAtom :=
  { ofBase .wazir (.ofRun run) with deltas := deltas, modifiers := .ofRun run }

/-- A row of five squares. An enemy stands on the third. -/
def Grid.enemyAhead : Grid := (Grid.empty 5 1).set 2 0 .enemy

/-- Three atoms next to an enemy: one leaps on over it in spite of a gate on its first capture, one
lacks the second delta of a zigzag, and one asks for a clear path. -/
theorem MoveAtom.moves_one_step_to_enemy :
    (unsettled [.captureThenLeap, .mustNotCaptureFirst] [⟨2, 0⟩]).modifiers.requiresClearPath =
      false ∧
    ((unsettled [.captureThenLeap, .mustNotCaptureFirst] [⟨2, 0⟩]).asHop 0).moves
      Grid.enemyAhead.board ⟨0, 0⟩ = [⟨4, 0⟩] ∧
    (unsettled [.zigzag, .cannon] [⟨2, 0⟩]).deltas.length < 2 ∧
    ((unsettled [.zigzag, .cannon] [⟨2, 0⟩]).asSlide (.bounded 1)).moves
      Grid.enemyAhead.board ⟨0, 0⟩ = [⟨2, 0⟩] ∧
    (unsettled [.requiresClearPath] [⟨2, 0⟩, ⟨4, 0⟩]).modifiers.requiresClearPath = true ∧
    [⟨2, 0⟩].Sublist (((unsettled [.requiresClearPath] [⟨2, 0⟩, ⟨4, 0⟩]).asHop 0).moves
      Grid.enemyAhead.board ⟨0, 0⟩) := by
  obtain ⟨hhop, -, -⟩ := moves_one_step
    (unsettled [.captureThenLeap, .mustNotCaptureFirst] [⟨2, 0⟩]) Grid.enemyAhead.board ⟨0, 0⟩
  obtain ⟨-, hslide, -⟩ := moves_one_step (unsettled [.zigzag, .cannon] [⟨2, 0⟩])
    Grid.enemyAhead.board ⟨0, 0⟩
  obtain ⟨-, -, hclear⟩ := moves_one_step (unsettled [.requiresClearPath] [⟨2, 0⟩, ⟨4, 0⟩])
    Grid.enemyAhead.board ⟨0, 0⟩
  have hone : (unsettled [.zigzag, .cannon] [⟨2, 0⟩]).deltas.length < 2 := Nat.one_lt_two
  refine ⟨rfl, ?_, hone, ?_, rfl, ?_⟩
  · rw [← hhop rfl]
    decide
  · rw [← hslide rfl rfl rfl (.inr hone) (by decide)]
    decide
  · refine List.Sublist.trans ?_ (hclear rfl).2
    decide +kernel

end FairyMoves
