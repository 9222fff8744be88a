import FairyMoves.Proofs.Look
import FairyMoves.Proofs.Rays
import FairyMoves.Proofs.Sights
import Mathlib.Data.List.Forall2
import Mathlib.Data.List.Sort

/-!
# Where slides end

A slide is a loop with four ways out of it: its limit, the edge of the plane, the edge of the board
and a square that stops it. Here its destinations are told without the loop. They are the squares of
certain steps, nearest step first, and a step is one of them if the slide passes all the steps
before it and may end on its square. Such a description leaves no room: it fits one list only.

## Main definitions

* `Slide.HasSquare`, `Slide.Finds` — the square of a step exists; what a slide finds on it
* `Slide.Stops`, `Slide.MayEnd` — the states of squares that stop a slide, and where it may end
* `Slide.EndsAt` — a slide may end at a step
* `Slide.IsWalk` — a list of squares is the list of those where a slide may end
* `ModifierSet.SlidesAlike` — modifiers that ask the same of slides

## Main results

* `Slide.endsAt_iff_of_finds` — where a slide may end, one step at a time
* `Slide.isWalk_walkFrom`, `Slide.IsWalk.eq` — the list of destinations is such a list, and the only
  one
* `Slide.mem_moves_iff` — the destinations of slides that do not zigzag, square by square
* `MoveAtom.moves_slide` — the destinations of every atom that slides
-/

namespace FairyMoves

namespace Slide

variable {a : MoveAtom} {board : Board} {origin s : Square} {course : Course} {set : ModifierSet}
  {first k : Nat} {q : SquareState}

/-! ## Steps -/

/-- The square of a step exists: the number of the step, the multiple of the delta and the sum are
all made of coordinates. -/
def HasSquare (origin : Square) (course : Course) (k : Nat) : Prop :=
  k ≤ 2147483647 ∧ ((course k).scaled k).InPlane ∧ (origin.along (course k) k).InPlane

/-- A slide finds this state on the square of a step. -/
def Finds (board : Board) (origin : Square) (course : Course) (k : Nat) (q : SquareState) : Prop :=
  HasSquare origin course k ∧ board (origin.along (course k) k) = some q

/-- A square in this state stops a slide: without `u` a friend does, and so does an enemy unless
there is `t`. -/
def Stops (set : ModifierSet) (q : SquareState) : Prop :=
  set.unblockable = false ∧ (q = .friendly ∨ q = .enemy ∧ set.takeAndContinue = false)

/-- A slide may end on a square in this state: with `t` wherever no friend stands, without it where
every move may end. -/
def MayEnd (set : ModifierSet) (q : SquareState) : Prop :=
  set.takeAndContinue = true ∧ q ≠ .friendly ∨ set.takeAndContinue = false ∧ set.Eligible q

/-- A slide that starts with some step may end at another one. -/
structure EndsAt (a : MoveAtom) (board : Board) (origin : Square) (course : Course)
    (first k : Nat) : Prop where
  first_le : first ≤ k
  limit : ∀ n, a.limit = .bounded n → k ≤ n
  passes : ∀ j, first ≤ j → j < k → ∃ q, Finds board origin course j q ∧ ¬ Stops a.modifiers q
  arrives : ∃ q, Finds board origin course k q ∧ MayEnd a.modifiers q

/-- These are the squares where a slide that starts with some step may end, nearest step first. -/
def IsWalk (a : MoveAtom) (board : Board) (origin : Square) (course : Course) (first : Nat)
    (squares : List Square) : Prop :=
  ∃ ks : List Nat, ks.Pairwise (· < ·) ∧ (∀ k, k ∈ ks ↔ EndsAt a board origin course first k) ∧
    squares = ks.map fun k => origin.along (course k) k

theorem blocks_iff_stops : blocks set q ↔ Stops set q := by
  cases q <;> simp [blocks, Stops]

theorem mayStop_iff_mayEnd : mayStop set q ↔ MayEnd set q := by
  rw [mayStop, MayEnd, ← ModifierSet.mayLand_iff_eligible]
  cases set.takeAndContinue <;> simp

theorem allows_iff {limit : StepLimit} : limit.allows k ↔ ∀ n, limit = .bounded n → k ≤ n := by
  cases limit <;> simp [StepLimit.allows]

theorem look_reach?_eq_some_iff :
    board.look (reach? origin (course k) k) = some (s, q) ↔
      origin.along (course k) k = s ∧ Finds board origin course k q := by
  have hmax : (k : Int) ≤ maxCoordinate ↔ k ≤ 2147483647 := by
    rw [maxCoordinate]
    omega
  rw [Board.look_eq_some_iff, reach?_eq_some_iff, hmax, Finds, HasSquare, Square.along]
  constructor
  · rintro ⟨⟨hk, hscaled, hplane, rfl⟩, hq⟩
    exact ⟨rfl, ⟨hk, hscaled, hplane⟩, hq⟩
  · rintro ⟨rfl, ⟨hk, hscaled, hplane⟩, hq⟩
    exact ⟨⟨hk, hscaled, hplane, rfl⟩, hq⟩

theorem Finds.eq {q' : SquareState} (h : Finds board origin course k q)
    (h' : Finds board origin course k q') : q = q' :=
  Option.some.inj (h.2.symm.trans h'.2)

/-! ## The loop -/

namespace EndsAt

/-- A slide that ends anywhere finds something at its first step, within its limit. -/
theorem exists_finds (h : EndsAt a board origin course first k) :
    a.limit.allows first ∧ ∃ q, Finds board origin course first q := by
  constructor
  · exact StepLimit.allows_of_le (allows_iff.mpr h.limit) h.first_le
  · rcases Nat.eq_or_lt_of_le h.first_le with rfl | hlt
    · obtain ⟨q, hq, _⟩ := h.arrives
      exact ⟨q, hq⟩
    · obtain ⟨q, hq, _⟩ := h.passes first (Nat.le_refl first) hlt
      exact ⟨q, hq⟩

end EndsAt

/-- A slide ends at the step that it has come to, or it goes on and ends at a later one. -/
theorem endsAt_iff_of_finds (hallows : a.limit.allows first)
    (hfinds : Finds board origin course first q) :
    EndsAt a board origin course first k ↔
      k = first ∧ MayEnd a.modifiers q ∨
        ¬ Stops a.modifiers q ∧ EndsAt a board origin course (first + 1) k := by
  constructor
  · rintro ⟨hle, hlimit, hpasses, harrives⟩
    rcases Nat.eq_or_lt_of_le hle with rfl | hlt
    · obtain ⟨q', hq', hend⟩ := harrives
      obtain rfl := hfinds.eq hq'
      exact .inl ⟨rfl, hend⟩
    · obtain ⟨q', hq', hgoes⟩ := hpasses first (Nat.le_refl first) hlt
      obtain rfl := hfinds.eq hq'
      exact .inr ⟨hgoes, hlt, hlimit, fun j hj => hpasses j (Nat.le_of_succ_le hj), harrives⟩
  · rintro (⟨rfl, hend⟩ | ⟨hgoes, hle, hlimit, hpasses, harrives⟩)
    · exact ⟨Nat.le_refl k, allows_iff.mp hallows, fun j hle hlt => absurd hle (Nat.not_le.mpr hlt),
        q, hfinds, hend⟩
    · refine ⟨Nat.le_of_succ_le hle, hlimit, fun j hj hlt => ?_, harrives⟩
      rcases Nat.eq_or_lt_of_le hj with rfl | hlater
      · exact ⟨q, hfinds, hgoes⟩
      · exact hpasses j hlater hlt

/-- A slide that cannot take its first step ends nowhere. -/
theorem isWalk_nil (h : ∀ k, ¬ EndsAt a board origin course first k) :
    IsWalk a board origin course first [] :=
  ⟨[], .nil, fun k => iff_of_false List.not_mem_nil (h k), rfl⟩

/-- The squares of a slide are that of its first step, if it may end there, and those of the slide
that starts with the next step, if it goes on. -/
theorem isWalk_cons {squares : List Square} (hallows : a.limit.allows first)
    (hfinds : Finds board origin course first q)
    (hrest : IsWalk a board origin course (first + 1) squares) :
    IsWalk a board origin course first
      ((if mayStop a.modifiers q then [origin.along (course first) first] else []) ++
        if blocks a.modifiers q then [] else squares) := by
  obtain ⟨ks, hlt, hmem, rfl⟩ := hrest
  refine ⟨(if mayStop a.modifiers q then [first] else []) ++
    (if blocks a.modifiers q then [] else ks), ?_, fun k => ?_, ?_⟩
  · rw [List.pairwise_append]
    refine ⟨by split <;> simp, by split <;> simp [hlt], ?_⟩
    intro i hi k hk
    obtain rfl : i = first := by
      split at hi
      case isTrue => exact List.mem_singleton.mp hi
      case isFalse => cases hi
    split at hk
    case isTrue => cases hk
    case isFalse => exact ((hmem k).mp hk).first_le
  · rw [endsAt_iff_of_finds hallows hfinds, ← mayStop_iff_mayEnd, ← blocks_iff_stops, ← hmem,
      List.mem_append]
    split <;> split <;> simp [*]
  · rw [List.map_append]
    split <;> split <;> rfl

theorem isWalk_walkFrom (step : Nat) :
    IsWalk a board origin course step (walkFrom a board origin course step) := by
  induction step using step_induction origin course with
  | h step ih =>
    rw [walkFrom_eq_look]
    split
    case isFalse hover => exact isWalk_nil fun k h => hover h.exists_finds.1
    case isTrue hallows =>
      cases hlook : board.look (reach? origin (course step) step) with
      | none =>
        refine isWalk_nil fun k h => ?_
        obtain ⟨q, hq⟩ := h.exists_finds.2
        have hsome := look_reach?_eq_some_iff.mpr ⟨rfl, hq⟩
        cases hlook.symm.trans hsome
      | some seen =>
        obtain ⟨s, q⟩ := seen
        obtain ⟨rfl, hfinds⟩ := look_reach?_eq_some_iff.mp hlook
        exact isWalk_cons hallows hfinds (ih _ (Board.look_eq_some_iff.mp hlook).1)

/-- The description fits one list only. -/
theorem IsWalk.eq {squares squares' : List Square} (h : IsWalk a board origin course first squares)
    (h' : IsWalk a board origin course first squares') : squares = squares' := by
  obtain ⟨ks, hlt, hmem, rfl⟩ := h
  obtain ⟨ks', hlt', hmem', rfl⟩ := h'
  have hks : ks = ks' := hlt.eq_of_mem_iff hlt' fun k => (hmem k).trans (hmem' k).symm
  rw [hks]

/-- Slides that may end at the same steps list the same squares. -/
theorem walk_eq_of_endsAt_iff {a' : MoveAtom} {board' : Board}
    (h : ∀ k, EndsAt a' board' origin course 1 k ↔ EndsAt a board origin course 1 k) :
    walk a' board' origin course = walk a board origin course := by
  -- The walk of the one fits the description of the other's.
  have hwalk' : IsWalk a' board' origin course 1 (walk a' board' origin course) := isWalk_walkFrom 1
  obtain ⟨ks, hlt, hmem, hsquares⟩ := hwalk'
  have hwalk : IsWalk a board origin course 1 (walk a' board' origin course) :=
    ⟨ks, hlt, fun k => (hmem k).trans (h k), hsquares⟩
  exact hwalk.eq (isWalk_walkFrom 1)

theorem mem_walk_iff_endsAt {s : Square} :
    s ∈ walk a board origin course ↔
      ∃ k, EndsAt a board origin course 1 k ∧ s = origin.along (course k) k := by
  have hwalk : IsWalk a board origin course 1 (walk a board origin course) := isWalk_walkFrom 1
  obtain ⟨ks, _, hmem, hsquares⟩ := hwalk
  simp only [hsquares, List.mem_map, hmem, eq_comm]

/-- The destinations of an atom that does not zigzag, told square by square. -/
theorem mem_moves_iff (hstraight : a.modifiers.zigzag = false ∨ a.deltas.length < 2) {s : Square} :
    s ∈ moves a board origin ↔
      ∃ d ∈ a.deltas, ∃ k, EndsAt a board origin (straight d) 1 k ∧ s = origin.along d k := by
  rw [moves_of_not_zigzag hstraight, List.mem_flatMap]
  exact exists_congr fun d => and_congr_right fun _ => mem_walk_iff_endsAt

end Slide

/-! ## Modifiers that bear on slides -/

/-- Modifiers ask the same of slides. They may ask for different leaps and hops. -/
structure ModifierSet.SlidesAlike (set set' : ModifierSet) : Prop where
  moveOnly : set'.moveOnly = set.moveOnly
  captureOnly : set'.captureOnly = set.captureOnly
  mustCaptureFirst : set'.mustCaptureFirst = set.mustCaptureFirst
  mustNotCaptureFirst : set'.mustNotCaptureFirst = set.mustNotCaptureFirst
  zigzag : set'.zigzag = set.zigzag
  takeAndContinue : set'.takeAndContinue = set.takeAndContinue
  unblockable : set'.unblockable = set.unblockable

namespace ModifierSet.SlidesAlike

variable {set set' : ModifierSet}

theorem stops_eq (h : set.SlidesAlike set') : Slide.Stops set' = Slide.Stops set := by
  funext q
  rw [Slide.Stops, Slide.Stops, h.unblockable, h.takeAndContinue]

theorem mayEnd_eq (h : set.SlidesAlike set') : Slide.MayEnd set' = Slide.MayEnd set := by
  funext q
  simp only [Slide.MayEnd, Eligible, h.takeAndContinue, h.moveOnly, h.captureOnly,
    h.mustCaptureFirst, h.mustNotCaptureFirst]

end ModifierSet.SlidesAlike

namespace Slide

variable {a a' : MoveAtom} {board : Board} {origin : Square} {course : Course} {first k : Nat}

theorem endsAt_congr (hlimit : a'.limit = a.limit) (h : a.modifiers.SlidesAlike a'.modifiers) :
    EndsAt a' board origin course first k ↔ EndsAt a board origin course first k := by
  constructor
  · rintro ⟨hle, hmax, hpasses, harrives⟩
    rw [h.stops_eq] at hpasses
    rw [h.mayEnd_eq] at harrives
    exact ⟨hle, hlimit ▸ hmax, hpasses, harrives⟩
  · rintro ⟨hle, hmax, hpasses, harrives⟩
    rw [← h.stops_eq] at hpasses
    rw [← h.mayEnd_eq] at harrives
    exact ⟨hle, hlimit ▸ hmax, hpasses, harrives⟩

theorem walk_congr (hlimit : a'.limit = a.limit) (h : a.modifiers.SlidesAlike a'.modifiers) :
    walk a' board origin course = walk a board origin course :=
  walk_eq_of_endsAt_iff fun _ => endsAt_congr hlimit h

theorem moves_congr (hdeltas : a'.deltas = a.deltas) (hlimit : a'.limit = a.limit)
    (h : a.modifiers.SlidesAlike a'.modifiers) : moves a' board origin = moves a board origin := by
  have hcourses : courses a' = courses a := by
    rw [courses, courses, h.zigzag, hdeltas]
  have hwalks : walk a' board origin = walk a board origin := by
    funext course
    exact walk_congr hlimit h
  rw [moves, moves, hcourses, hwalks]

end Slide

/-! ## Atoms -/

/-- An atom that slides has one walk if it has a zigzag and two deltas for it, and else one walk
after another for its deltas. Each is the list of the squares where the slide may end. All modifiers
but seven have no say in it. -/
theorem MoveAtom.moves_slide {a : MoveAtom} (h : a.kind = .slide) (board : Board)
    (origin : Square) :
    (∀ odd even rest, a.modifiers.zigzag = true → a.deltas = odd :: even :: rest →
      Slide.IsWalk a board origin (fun k => if k % 2 = 1 then odd else even) 1
        (a.moves board origin)) ∧
    (a.modifiers.zigzag = false ∨ a.deltas.length < 2 → ∃ walks : List (List Square),
      List.Forall₂ (fun d squares => Slide.IsWalk a board origin (fun _ => d) 1 squares) a.deltas
        walks ∧
      a.moves board origin = walks.flatten) ∧
    ∀ a' : MoveAtom, a'.kind = .slide → a'.deltas = a.deltas → a'.limit = a.limit →
      a.modifiers.SlidesAlike a'.modifiers → a'.moves board origin = a.moves board origin := by
  have hmoves : a.moves board origin = Slide.moves a board origin := by
    rw [moves, h]
  rw [hmoves]
  refine ⟨?zigzag, ?straight, ?alike⟩
  case zigzag =>
    intro odd even rest hz hdeltas
    rw [Slide.moves, Slide.courses_of_zigzag hz hdeltas, List.flatMap_singleton]
    exact Slide.isWalk_walkFrom 1
  case straight =>
    intro hstraight
    refine ⟨a.deltas.map fun d => Slide.walk a board origin (Slide.straight d), ?_, ?_⟩
    · rw [List.forall₂_map_right_iff, List.forall₂_same]
      exact fun d _ => Slide.isWalk_walkFrom 1
    · rw [Slide.moves, Slide.courses_of_not_zigzag hstraight, List.flatMap_map, List.flatMap_def]
  case alike =>
    intro a' h' hdeltas hlimit halike
    have hmoves' : a'.moves board origin = Slide.moves a' board origin := by
      rw [moves, h']
    rw [hmoves', Slide.moves_congr hdeltas hlimit halike]

/-- The atom of a base letter and its modifiers, with three steps at most. -/
def MoveAtom.threeSteps (base : BaseAtom) (run : List Modifier) : MoveAtom :=
  { ofBase base (.ofRun run) with limit := .bounded 3 }

/-- A zigzag of three steps whose last square is out of the plane, a slide with other letters that
makes the same one, and a zigzag that lacks a second delta. -/
theorem MoveAtom.moves_slide_to_edge :
    (threeSteps .bishop [.zigzag, .unblockable]).kind = .slide ∧
    (threeSteps .bishop [.zigzag, .unblockable]).deltas = [⟨1, 1⟩, ⟨-1, 1⟩, ⟨-1, -1⟩, ⟨1, -1⟩] ∧
    Slide.IsWalk (threeSteps .bishop [.zigzag, .unblockable]) (fun _ => some .empty) ⟨2147483645, 0⟩
      (fun k => if k % 2 = 1 then ⟨1, 1⟩ else ⟨-1, 1⟩) 1
      ((threeSteps .bishop [.zigzag, .unblockable]).moves (fun _ => some .empty) ⟨2147483645, 0⟩) ∧
    (threeSteps .ferz [.zigzag, .captureThenLeap, .againRider, .unblockable]).moves
        (fun _ => some .empty) ⟨2147483645, 0⟩ =
      (threeSteps .bishop [.zigzag, .unblockable]).moves (fun _ => some .empty) ⟨2147483645, 0⟩ ∧
    (threeSteps .pawn [.zigzag, .againRider]).kind = .slide ∧
    (threeSteps .pawn [.zigzag, .againRider]).deltas.length < 2 ∧
    ∃ walks : List (List Square),
      List.Forall₂ (fun d squares => Slide.IsWalk (threeSteps .pawn [.zigzag, .againRider])
        (fun _ => some .empty) ⟨2147483645, 0⟩ (fun _ => d) 1 squares)
        (threeSteps .pawn [.zigzag, .againRider]).deltas walks ∧
      (threeSteps .pawn [.zigzag, .againRider]).moves (fun _ => some .empty) ⟨2147483645, 0⟩ =
        walks.flatten := by
  have hkind : (threeSteps .bishop [.zigzag, .unblockable]).kind = .slide := rfl
  have hdeltas : (threeSteps .bishop [.zigzag, .unblockable]).deltas =
      [⟨1, 1⟩, ⟨-1, 1⟩, ⟨-1, -1⟩, ⟨1, -1⟩] := rfl
  have hpawn : (threeSteps .pawn [.zigzag, .againRider]).kind = .slide := rfl
  have hone : (threeSteps .pawn [.zigzag, .againRider]).deltas.length < 2 := Nat.one_lt_two
  obtain ⟨hzigzag, -, halike⟩ := moves_slide hkind (fun _ => some .empty) ⟨2147483645, 0⟩
  refine ⟨hkind, hdeltas, hzigzag _ _ _ rfl hdeltas, ?_, hpawn, hone, ?_⟩
  · exact halike _ rfl rfl rfl ⟨rfl, rfl, rfl, rfl, rfl, rfl, rfl⟩
  · exact (moves_slide hpawn _ _).2.1 (.inr hone)

end FairyMoves
