import FairyMoves.Proofs.Ends
import FairyMoves.Proofs.Path
import FairyMoves.Proofs.Walks

/-!
# A slide that adds

A slide finds the square of a step by multiplication, from the origin on. It could as well keep the
square that it stands on and add its delta to it each time. The two differ in what has to fit: the
multiple of a delta may leave the plane although the square that it leads to does not. On a grid
that never happens. A grid and an origin with no negative coordinate lie in one quarter of the
plane, and squares of one quarter differ by a delta of the plane.

## Main definitions

* `Square.advance?` — the square after a number of additions
* `Square.InQuarter` — a square lies in the quarter of the plane where grids lie
* `Slide.stepping` — the slide along a delta that adds

## Main results

* `Square.advance?_eq_some_iff` — additions come to a square just when it is in the plane
* `Slide.finds_iff_has` — what multiplication finds on a grid is what is there
* `Slide.walkFrom_eq_stepping` — the two slides, from a step on
* `MoveAtom.moves_slide_stepwise` — all slides of an atom on a grid
-/

namespace FairyMoves

/-! ## Additions -/

namespace Square

variable {s t : Square} {d : Delta} {i k n : Nat}

/-- The square after `k` steps along a delta, each added to the square before. There is none if one
of them leaves the plane. -/
def advance? (s : Square) (d : Delta) : Nat → Option Square
  | 0 => some s
  | k + 1 => (s.advance? d k).bind fun t => t.offset? d

/-- Between two squares of the plane all steps are in it. -/
theorem InPlane.along_of_le (hs : s.InPlane) (hn : (s.along d n).InPlane) (hi : i ≤ n) :
    (s.along d i).InPlane :=
  ⟨hs.1.between hn.1 hi, hs.2.between hn.2 hi⟩

/-- Additions come to the exact multiple, if its square exists. -/
theorem advance?_eq_some_iff (hs : s.InPlane) :
    s.advance? d k = some t ↔ (s.along d k).InPlane ∧ s.along d k = t := by
  induction k generalizing t with
  | zero => simp [advance?, hs]
  | succ k ih =>
    rw [advance?, Option.bind_eq_some_iff]
    constructor
    · rintro ⟨u, hu, ht⟩
      obtain ⟨_, rfl⟩ := ih.mp hu
      rwa [offset?_eq_some_iff, offset_along] at ht
    · rintro ⟨hp, rfl⟩
      refine ⟨s.along d k, ih.mpr ⟨hs.along_of_le hp (Nat.le_succ k), rfl⟩, ?_⟩
      rw [offset?_eq_some_iff, offset_along]
      exact ⟨hp, rfl⟩

end Square

/-- The square lies in the quarter of the plane where grids lie. -/
def Square.InQuarter (s : Square) : Prop := s.InPlane ∧ 0 ≤ s.x ∧ 0 ≤ s.y

instance (s : Square) : Decidable s.InQuarter :=
  inferInstanceAs (Decidable (s.InPlane ∧ 0 ≤ s.x ∧ 0 ≤ s.y))

theorem Grid.inQuarter_of_isSome {g : Grid} {s : Square} (hs : s.InPlane)
    (h : (g.board s).isSome) : s.InQuarter := by
  obtain ⟨q, hq⟩ := Option.isSome_iff_exists.mp h
  obtain ⟨hx, _, hy, _⟩ := bounds_of_get? hq
  exact ⟨hs, hx, hy⟩

namespace Slide

variable {a : MoveAtom} {board : Board} {g : Grid} {origin s t : Square} {course : Course}
  {d : Delta} {k : Nat} {q : SquareState}

/-- The slide along a delta that keeps the square `s` it stands on and adds the delta to it at each
step. It ends where every slide may end, and goes on as far as every slide does. A delta of zero
would never bring it anywhere else, so it takes one step along that. -/
def stepping (a : MoveAtom) (board : Board) (d : Delta) (step : Nat) (s : Square) : List Square :=
  if a.limit.allows step then
    match _h : s.offset? d with
    | none => []
    | some next =>
      match board next with
      | none => []
      | some q =>
        (if mayStop a.modifiers q then [next] else []) ++
          if _hd : blocks a.modifiers q ∨ d = .zero then [] else stepping a board d (step + 1) next
  else []
termination_by Hop.room d s
decreasing_by exact Hop.room_lt (not_or.mp _hd).2 _h

/-- Such a slide, one look at a time. -/
theorem stepping_eq_look (hd : d ≠ .zero) (step : Nat) :
    stepping a board d step s =
      if a.limit.allows step then
        (board.look (s.offset? d)).elim [] fun seen =>
          (if mayStop a.modifiers seen.2 then [seen.1] else []) ++
            if blocks a.modifiers seen.2 then [] else stepping a board d (step + 1) seen.1
      else [] := by
  rw [stepping]
  split
  case isFalse => rfl
  case isTrue =>
    split
    case h_1 hnone => rw [hnone]; rfl
    case h_2 next hnext =>
      rw [hnext, Board.look, Option.bind_some]
      cases board next with
      | none => rfl
      | some q => simp [hd]

/-! ## Multiplication on a grid -/

/-- On the way from a quarter of the plane to a grid no multiple of a delta leaves the plane, nor
does the number of the step. -/
theorem hasSquare_of_get? (hd : course k ≠ .zero) (ho : origin.InQuarter)
    (hp : (origin.along (course k) k).InPlane)
    (hq : g.board (origin.along (course k) k) = some q) : HasSquare origin course k := by
  obtain ⟨ho, hx, hy⟩ := ho
  have hbounds := Grid.bounds_of_get? hq
  have hscaled : ((course k).scaled k).InPlane := by
    simp only [Square.InPlane, Delta.InPlane, isCoordinate_iff, Square.along, Square.offset] at *
    omega
  -- Each step is one square long at least, so their number is no greater than that difference.
  have hlong := Delta.natAbs_le_scaled hd k
  refine ⟨?_, hscaled, hp⟩
  simp only [Square.InPlane, isCoordinate_iff, Square.along, Square.offset] at *
  omega

/-- What a slide finds at a step on a grid is what is there. -/
theorem finds_iff_has (hd : course k ≠ .zero) (ho : origin.InQuarter) :
    Finds g.board origin course k q ↔ g.board.Has (origin.along (course k) k) q := by
  constructor
  · rintro ⟨⟨_, _, hp⟩, hq⟩
    exact ⟨hp, hq⟩
  · rintro ⟨hp, hq⟩
    exact ⟨hasSquare_of_get? hd ho hp hq, hq⟩

theorem look_reach?_eq_some_iff_has (hd : d ≠ .zero) (ho : origin.InQuarter) :
    g.board.look (reach? origin d k) = some (t, q) ↔ t = origin.along d k ∧ g.board.Has t q := by
  have hlook : g.board.look (reach? origin (straight d k) k) = some (t, q) ↔
      origin.along (straight d k) k = t ∧ Finds g.board origin (straight d) k q :=
    look_reach?_eq_some_iff
  rw [finds_iff_has hd ho] at hlook
  refine hlook.trans ⟨?_, ?_⟩
  · rintro ⟨rfl, hq⟩
    exact ⟨rfl, hq⟩
  · rintro ⟨rfl, hq⟩
    exact ⟨rfl, hq⟩

/-- To multiply and look is to add and look. -/
theorem look_reach?_eq_look_offset? (hd : d ≠ .zero) (ho : origin.InQuarter) (k : Nat) :
    g.board.look (reach? origin d (k + 1)) = g.board.look ((origin.along d k).offset? d) := by
  ext ⟨t, q⟩
  rw [look_reach?_eq_some_iff_has hd ho, Board.look_offset?_eq_some_iff_has, Square.along_one,
    Square.offset_along]

/-- From every step on the two slides have the same destinations. -/
theorem walkFrom_eq_stepping (hd : d ≠ .zero) (ho : origin.InQuarter) (k : Nat) :
    walkFrom a g.board origin (straight d) (k + 1) =
      stepping a g.board d (k + 1) (origin.along d k) := by
  -- The induction is on the steps that multiplication still has squares for.
  induction hstep : k + 1 using step_induction origin (straight d) generalizing k with
  | h step ih =>
    subst hstep
    rw [walkFrom_eq_look, stepping_eq_look hd, straight, look_reach?_eq_look_offset? hd ho]
    cases hlook : g.board.look ((origin.along d k).offset? d) with
    | none => rfl
    | some seen =>
      obtain ⟨t, q⟩ := seen
      have hmultiplied := (look_reach?_eq_look_offset? hd ho k).trans hlook
      obtain ⟨rfl, _⟩ := (look_reach?_eq_some_iff_has hd ho).mp hmultiplied
      have hreach := (Board.look_eq_some_iff.mp hmultiplied).1
      rw [Option.elim_some, Option.elim_some, ih _ hreach (k + 1) rfl]

/-- Additions come to a square of a grid just when multiplication does. -/
theorem reach?_eq_some_iff_advance? (hd : d ≠ .zero) (ho : origin.InQuarter)
    (ht : (g.board t).isSome) :
    reach? origin d k = some t ↔ origin.advance? d k = some t := by
  obtain ⟨q, hq⟩ := Option.isSome_iff_exists.mp ht
  rw [Square.advance?_eq_some_iff ho.1]
  constructor
  · intro h
    obtain ⟨_, _, hp, rfl⟩ := reach?_eq_some_iff.mp h
    exact ⟨hp, rfl⟩
  · rintro ⟨hp, rfl⟩
    have hlook := (look_reach?_eq_some_iff_has hd ho).mpr ⟨rfl, hp, hq⟩
    exact (Board.look_eq_some_iff.mp hlook).1

end Slide

/-! ## Atoms -/

/-- On a grid an atom that slides and does not zigzag has the destinations of the slides that add,
delta by delta, from every origin without a negative coordinate. To multiply never costs it a square
of the grid that additions come to. -/
theorem MoveAtom.moves_slide_stepwise {a : MoveAtom} (h : a.kind = .slide)
    (hstraight : a.modifiers.zigzag = false ∨ a.deltas.length < 2) (hz : .zero ∉ a.deltas)
    (g : Grid) {origin : Square} (ho : origin.InQuarter) :
    a.moves g.board origin = (a.deltas.flatMap fun d => Slide.stepping a g.board d 1 origin) ∧
    ∀ d ∈ a.deltas, ∀ k t, (g.board t).isSome →
      (Slide.reach? origin d k = some t ↔ origin.advance? d k = some t) := by
  have hne : ∀ d ∈ a.deltas, d ≠ .zero := fun d hd => ne_of_mem_of_not_mem hd hz
  constructor
  · rw [moves_of_slide h, Slide.moves_of_not_zigzag hstraight]
    apply List.flatMap_congr
    intro d hd
    rw [Slide.walk_eq_walkFrom, Slide.walkFrom_eq_stepping (hne d hd) ho 0, Square.along_zero]
  · intro d hd k t ht
    exact Slide.reach?_eq_some_iff_advance? (hne d hd) ho ht

/-- A rook whose three deltas lead from the end of a row to its start, to the square next to that,
and one square beyond the end. -/
def farRook : MoveAtom :=
  (MoveAtom.ofBase .rook (.ofRun [.unblockable])).withDeltas
    [⟨-2147483647, 0⟩, ⟨-2147483646, 0⟩, ⟨1, 0⟩]

/-- From the end of its row the rook comes to the first two squares. A step further the multiple of
its second delta leaves the plane, while its square does not. -/
theorem MoveAtom.moves_slide_stepwise_far :
    farRook.kind = .slide ∧ farRook.modifiers.zigzag = false ∧ .zero ∉ farRook.deltas ∧
    Square.InQuarter ⟨2147483647, 0⟩ ∧
    Slide.reach? ⟨2147483647, 0⟩ ⟨-2147483646, 0⟩ 2 = none ∧
    Square.advance? ⟨2147483647, 0⟩ ⟨-2147483646, 0⟩ 2 = some ⟨-2147483645, 0⟩ ∧
    farRook.moves (Grid.empty 2 1).board ⟨2147483647, 0⟩ = [⟨0, 0⟩, ⟨1, 0⟩] ∧
    (farRook.deltas.flatMap fun d =>
      Slide.stepping farRook (Grid.empty 2 1).board d 1 ⟨2147483647, 0⟩) = [⟨0, 0⟩, ⟨1, 0⟩] := by
  have hz : .zero ∉ farRook.deltas := by
    decide
  have ho : Square.InQuarter ⟨2147483647, 0⟩ := by
    decide
  have hmoves : farRook.moves (Grid.empty 2 1).board ⟨2147483647, 0⟩ = [⟨0, 0⟩, ⟨1, 0⟩] := by
    decide +kernel
  refine ⟨rfl, rfl, hz, ho, by decide, by decide, hmoves, ?_⟩
  rw [← hmoves]
  exact (moves_slide_stepwise rfl (.inl rfl) hz (Grid.empty 2 1) ho).1.symm

end FairyMoves
