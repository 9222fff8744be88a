import FairyMoves.Grid
import FairyMoves.Proofs.Look
import FairyMoves.Spelling
import Mathlib.Data.List.Basic

/-!
# Motions of the plane

A motion moves all squares of the plane and turns the deltas so that it moves steps to steps. When
it also carries one board to another, it carries the moves on the one to the moves on the other: the
same destinations in the same order. The edge of the plane does not move along, which makes no
difference, since a square beyond the edge looks like one that is off the board.

## Main definitions

* `Motion` — where squares and deltas go
* `Motion.Carries` — a board is another one moved
* `Motion.KeepsReach`, `Motion.KeepsPath` — the multiples of deltas that matter exist on both sides,
  and a leap divides into the same steps
* `Motion.translation` — the motion along a vector

## Main results

* `Motion.look_offset?`, `Motion.look_scaled?` — a piece sees the same on both sides
* `Motion.moves_atom`, `Motion.generate_atoms` — the moves go along with the board
* `generate_translated` — moves do not depend on where in the plane the board lies
-/

namespace FairyMoves

/-- A motion of the plane: where squares go, and the steps between them. -/
structure Motion where
  square : Square → Square
  delta : Delta → Delta
  square_offset : ∀ s d, square (s.offset d) = (square s).offset (delta d)
  delta_scaled : ∀ d k, delta (d.scaled k) = (delta d).scaled k
  delta_ne_zero : ∀ d, d ≠ .zero → delta d ≠ .zero

namespace Motion

/-- One board is another one moved: they have the same squares with the same states, where only
squares of the plane count on either side. -/
def Carries (m : Motion) (board board' : Board) : Prop :=
  ∀ s q, s.InPlane ∧ board s = some q ↔ (m.square s).InPlane ∧ board' (m.square s) = some q

/-- A delta that leads from the origin to a square of the board lies in the plane before the motion
just when it does so after it. -/
def KeepsReach (m : Motion) (board : Board) (origin : Square) : Prop :=
  ∀ d, (origin.offset d).InPlane → (board (origin.offset d)).isSome →
    (d.InPlane ↔ (m.delta d).InPlane)

/-- A leap divides into as many steps after the motion as before, and these are the moved ones. -/
def KeepsPath (m : Motion) (d : Delta) : Prop :=
  Leap.pathSteps (m.delta d) = Leap.pathSteps d ∧
    Leap.unitStep (m.delta d) = m.delta (Leap.unitStep d)

/-- What a piece sees, after the motion. -/
def seen (m : Motion) (sight : Square × SquareState) : Square × SquareState :=
  (m.square sight.1, sight.2)

/-- The atom with its deltas turned. -/
def atom (m : Motion) (a : MoveAtom) : MoveAtom := { a with deltas := a.deltas.map m.delta }

@[simp] theorem atom_kind (m : Motion) (a : MoveAtom) : (m.atom a).kind = a.kind := rfl

@[simp] theorem atom_limit (m : Motion) (a : MoveAtom) : (m.atom a).limit = a.limit := rfl

@[simp] theorem atom_modifiers (m : Motion) (a : MoveAtom) :
    (m.atom a).modifiers = a.modifiers := rfl

variable {m : Motion} {board board' : Board} {origin : Square}

/-! ## What is seen on both sides -/

theorem look_offset? (hc : m.Carries board board') (s : Square) (d : Delta) :
    board'.look ((m.square s).offset? (m.delta d)) = (board.look (s.offset? d)).map m.seen := by
  ext ⟨t, q⟩
  rw [Board.look_offset?_eq_some_iff, Option.map_eq_some_iff, ← m.square_offset]
  constructor
  · rintro ⟨hp, rfl, hq⟩
    obtain ⟨hp', hq'⟩ := (hc _ _).mpr ⟨hp, hq⟩
    exact ⟨(s.offset d, q), Board.look_offset?_eq_some_iff.mpr ⟨hp', rfl, hq'⟩, rfl⟩
  · rintro ⟨⟨t', q'⟩, hlook, hseen⟩
    obtain ⟨hp', rfl, hq'⟩ := Board.look_offset?_eq_some_iff.mp hlook
    obtain ⟨rfl, rfl⟩ := Prod.mk.inj hseen
    obtain ⟨hp, hq⟩ := (hc _ _).mp ⟨hp', hq'⟩
    exact ⟨hp, rfl, hq⟩

/-- A multiple of a delta that is no delta of the plane leads to no square of the board on the other
side either. -/
theorem look_scaled? (hc : m.Carries board board') (hr : m.KeepsReach board origin) (d : Delta)
    (k : Int) :
    board'.look (((m.delta d).scaled? k).bind (m.square origin).offset?) =
      (board.look ((d.scaled? k).bind origin.offset?)).map m.seen := by
  have hboth := look_offset? hc origin (d.scaled k)
  rw [m.delta_scaled] at hboth
  by_cases hsome : board.look (origin.offset? (d.scaled k)) = none
  · -- Nothing is there, whether the multiples exist or not.
    have hnone (b : Board) (o : Square) (e : Delta) (h : b.look (o.offset? (e.scaled k)) = none) :
        b.look ((e.scaled? k).bind o.offset?) = none := by
      unfold Delta.scaled? Delta.checked?
      split
      · exact h
      · rfl
    rw [hnone _ _ _ hsome, hnone _ _ _ (by rw [hboth, hsome]; rfl), Option.map_none]
  · -- A square of the board is there, so the multiples exist on both sides or on neither.
    obtain ⟨⟨s, q⟩, hlook⟩ := Option.ne_none_iff_exists'.mp hsome
    obtain ⟨hp, rfl, hq⟩ := Board.look_offset?_eq_some_iff.mp hlook
    have hkeeps := hr (d.scaled k) hp (by rw [hq]; rfl)
    rw [m.delta_scaled] at hkeeps
    unfold Delta.scaled? Delta.checked?
    by_cases hd : (d.scaled k).InPlane
    · rw [if_pos hd, if_pos (hkeeps.mp hd)]
      exact hboth
    · rw [if_neg hd, if_neg fun h => hd (hkeeps.mpr h)]
      rfl

theorem look_reach? (hc : m.Carries board board') (hr : m.KeepsReach board origin) (d : Delta)
    (step : Nat) :
    board'.look (Slide.reach? (m.square origin) (m.delta d) step) =
      (board.look (Slide.reach? origin d step)).map m.seen := by
  unfold Slide.reach?
  split
  · exact look_scaled? hc hr d step
  · rfl

/-! ## Moves on both sides -/

theorem leapOn?_moved (hc : m.Carries board board') (d : Delta) (s : Square) (q : SquareState) :
    leapOn? board' (m.delta d) (m.square s) q = (leapOn? board d s q).map m.square := by
  rw [leapOn?_eq_look, leapOn?_eq_look, look_offset? hc]
  split
  · rw [Option.filter_map, Option.map_map, Option.map_map]
    rfl
  · rfl

theorem land?_moved (hc : m.Carries board board') (set : ModifierSet) (d : Delta) (s : Square)
    (q : SquareState) :
    set.land? board' (m.delta d) (m.square s) q = (set.land? board d s q).map m.square := by
  unfold ModifierSet.land?
  split
  · exact leapOn?_moved hc d s q
  · split <;> rfl

theorem isPathClear_moved (hc : m.Carries board board') (hr : m.KeepsReach board origin) {d : Delta}
    (hp : m.KeepsPath d) :
    Leap.isPathClear board' (m.square origin) (m.delta d) = Leap.isPathClear board origin d := by
  obtain ⟨hsteps, hunit⟩ := hp
  have hstep (i : Nat) :
      Leap.isStepClear board' (m.square origin) (m.delta (Leap.unitStep d)) i =
        Leap.isStepClear board origin (Leap.unitStep d) i := by
    rw [Leap.isStepClear_eq_look, Leap.isStepClear_eq_look, look_scaled? hc hr, Option.any_map]
    rfl
  simp only [Leap.isPathClear, hunit, hstep]
  rw [hsteps]

theorem leap_destination?_moved (hc : m.Carries board board') (hr : m.KeepsReach board origin)
    (set : ModifierSet) {d : Delta} (hp : m.KeepsPath d) :
    Leap.destination? set board' (m.square origin) (m.delta d) =
      (Leap.destination? set board origin d).map m.square := by
  rw [Leap.destination?_eq_look, Leap.destination?_eq_look, look_offset? hc, Option.bind_map,
    Option.map_bind, isPathClear_moved hc hr hp]
  congr 1
  funext sight
  simp only [Function.comp, seen]
  split
  · rfl
  · exact land?_moved hc set d sight.1 sight.2

theorem walkFrom_moved (hc : m.Carries board board') (hr : m.KeepsReach board origin)
    (a : MoveAtom) (course : Slide.Course) (step : Nat) :
    Slide.walkFrom (m.atom a) board' (m.square origin) (fun k => m.delta (course k)) step =
      (Slide.walkFrom a board origin course step).map m.square := by
  induction step using Slide.step_induction origin course with
  | h step ih =>
    rw [Slide.walkFrom_eq_look (a := a), Slide.walkFrom_eq_look (a := m.atom a),
      look_reach? hc hr]
    by_cases hallows : a.limit.allows step
    · rw [atom_limit, if_pos hallows, if_pos hallows]
      cases hlook : board.look (Slide.reach? origin (course step) step) with
      | none => rfl
      | some sight =>
        have hnext := ih sight.1 (Board.look_eq_some_iff.mp hlook).1
        cases hstop : Slide.mayStop a.modifiers sight.2 <;>
          cases hblocks : Slide.blocks a.modifiers sight.2 <;>
            simp [seen, hnext, hstop, hblocks]
    · rw [atom_limit, if_neg hallows, if_neg hallows]
      rfl

theorem courses_atom (a : MoveAtom) :
    Slide.courses (m.atom a) =
      (Slide.courses a).map fun course step => m.delta (course step) := by
  obtain ⟨base, kind, deltas, limit, set⟩ := a
  have hstraight (ds : List Delta) :
      (ds.map m.delta).map Slide.straight =
        (ds.map Slide.straight).map fun course step => m.delta (course step) := by
    rw [List.map_map, List.map_map]
    rfl
  unfold Slide.courses atom
  rcases hz : set.zigzag with _ | _
  · exact hstraight deltas
  · rcases deltas with _ | ⟨odd, _ | ⟨even, ds⟩⟩
    · rfl
    · rfl
    · simp only [List.map_cons, List.map_nil, List.cons.injEq, and_true]
      funext step
      unfold Slide.zigzag
      split <;> rfl

theorem nextHurdle?_moved (hc : m.Carries board board') {d : Delta} (hd : d ≠ .zero) (s : Square) :
    Hop.nextHurdle? board' (m.delta d) (m.square s) =
      (Hop.nextHurdle? board d s).map m.square := by
  induction s using Hop.offset_induction hd with
  | h s ih =>
    rw [Hop.nextHurdle?_eq_look hd, Hop.nextHurdle?_eq_look (m.delta_ne_zero d hd),
      look_offset? hc]
    cases hlook : board.look (s.offset? d) with
    | none => rfl
    | some sight =>
      have hnext := ih sight.1 (Board.look_eq_some_iff.mp hlook).1
      simp only [Option.map_some, Option.bind_some, seen, hnext]
      split <;> rfl

theorem hurdle?_moved (hc : m.Carries board board') {d : Delta} (hd : d ≠ .zero) (n : Nat)
    (s : Square) :
    Hop.hurdle? board' (m.delta d) n (m.square s) = (Hop.hurdle? board d n s).map m.square := by
  induction n generalizing s with
  | zero => rfl
  | succ n ih =>
    rw [Hop.hurdle?, Hop.hurdle?, nextHurdle?_moved hc hd]
    cases Hop.nextHurdle? board d s with
    | none => rfl
    | some t => exact ih t

theorem hop_destination?_moved (hc : m.Carries board board') (set : ModifierSet) {d : Delta}
    (hd : d ≠ .zero) :
    Hop.destination? set board' (m.square origin) (m.delta d) =
      (Hop.destination? set board origin d).map m.square := by
  unfold Hop.destination?
  rw [Hop.landing?_eq_look, Hop.landing?_eq_look, hurdle?_moved hc hd]
  cases Hop.hurdle? board d set.hopCount origin with
  | none => rfl
  | some hurdle =>
    simp only [Option.map_some, Option.bind_some]
    rw [look_offset? hc, Option.bind_map, Option.map_bind]
    congr 1
    funext sight
    exact land?_moved hc set d sight.1 sight.2

/-- What one delta of a list adds on both sides. -/
theorem filterMap_moved {ds : List Delta} {f f' : Delta → Option Square}
    (h : ∀ d ∈ ds, f' (m.delta d) = (f d).map m.square) :
    (ds.map m.delta).filterMap f' = (ds.filterMap f).map m.square := by
  rw [List.filterMap_map, List.map_filterMap]
  exact List.filterMap_congr h

/-- The moves of an atom go along with a motion that carries its board. -/
theorem moves_atom (hc : m.Carries board board') (hr : m.KeepsReach board origin) {a : MoveAtom}
    (hp : ∀ d ∈ a.deltas, m.KeepsPath d) (hz : .zero ∉ a.deltas) :
    (m.atom a).moves board' (m.square origin) = (a.moves board origin).map m.square := by
  unfold MoveAtom.moves
  rw [atom_kind]
  cases a.kind with
  | leap => exact filterMap_moved fun d hd => leap_destination?_moved hc hr a.modifiers (hp d hd)
  | hop =>
    exact filterMap_moved fun d hd =>
      hop_destination?_moved hc a.modifiers fun h => hz (h ▸ hd)
  | slide =>
    simp only [Slide.moves, courses_atom, List.flatMap_map, List.map_flatMap]
    congr 1
    funext course
    rw [Slide.walk_eq_walkFrom, Slide.walk_eq_walkFrom]
    exact walkFrom_moved hc hr a course 1

theorem generate_atoms (hc : m.Carries board board') (hr : m.KeepsReach board origin)
    {atoms : List MoveAtom} (hp : ∀ a ∈ atoms, ∀ d ∈ a.deltas, m.KeepsPath d)
    (hz : ∀ a ∈ atoms, .zero ∉ a.deltas) :
    generate (atoms.map m.atom) board' (m.square origin) =
      (generate atoms board origin).map m.square := by
  induction atoms with
  | nil => rfl
  | cons a atoms ih =>
    obtain ⟨hpa, hpatoms⟩ := List.forall_mem_cons.mp hp
    obtain ⟨hza, hzatoms⟩ := List.forall_mem_cons.mp hz
    rw [List.map_cons, generate_cons, generate_cons, List.map_append, moves_atom hc hr hpa hza,
      ih hpatoms hzatoms]

/-! ## Translations -/

/-- The motion along a vector. -/
def translation (v : Delta) : Motion where
  square s := s.offset v
  delta d := d
  square_offset s d := s.offset_comm d v
  delta_scaled _ _ := rfl
  delta_ne_zero _ hd := hd

end Motion

/-- Moves do not depend on where in the plane the board lies, not even where the edge of the plane
is near: carried along with its board by any vector, a piece reaches the same squares in the same
order. -/
theorem generate_translated {board board' : Board} {v : Delta}
    (hboard : ∀ s q, s.InPlane ∧ board s = some q ↔
      (s.offset v).InPlane ∧ board' (s.offset v) = some q)
    {atoms : List MoveAtom} (hz : ∀ a ∈ atoms, .zero ∉ a.deltas) (origin : Square) :
    generate atoms board' (origin.offset v) =
      (generate atoms board origin).map fun s => s.offset v := by
  have hmoved : generate (atoms.map (Motion.translation v).atom) board' (origin.offset v) =
      (generate atoms board origin).map fun s => s.offset v :=
    Motion.generate_atoms (m := .translation v) hboard (fun _ _ _ => Iff.rfl)
      (fun _ _ _ _ => ⟨rfl, rfl⟩) hz
  have hatom : (Motion.translation v).atom = id := by
    funext a
    simp [Motion.atom, Motion.translation]
  rwa [hatom, List.map_id] at hmoved

/-- The corner of the plane where `x` is greatest and `y` is least, seen from three squares before
it in either direction. -/
def cornerVector : Delta := ⟨2147483645, -2147483648⟩

/-- A board of three by three squares in that corner has the moves of the same board at the origin,
though every delta that leaves it leaves the plane as well. -/
theorem generate_translated_to_corner :
    (∀ s q, s.InPlane ∧ (Grid.empty 3 3).board s = some q ↔ (s.offset cornerVector).InPlane ∧
      (Grid.empty 3 3).placedAt ⟨2147483645, -2147483648⟩ none (s.offset cornerVector) = some q) ∧
    (∀ a ∈ [Term.atom ⟨[], .rook⟩, Term.atom ⟨[.zigzag], .bishop⟩], Delta.zero ∉ a.deltas) ∧
    generate [Term.atom ⟨[], .rook⟩, Term.atom ⟨[.zigzag], .bishop⟩]
        ((Grid.empty 3 3).placedAt ⟨2147483645, -2147483648⟩ none)
        (Square.offset ⟨2, 0⟩ cornerVector) =
      (generate [Term.atom ⟨[], .rook⟩, Term.atom ⟨[.zigzag], .bishop⟩] (Grid.empty 3 3).board
        ⟨2, 0⟩).map fun s => s.offset cornerVector := by
  have hboard : ∀ s q, s.InPlane ∧ (Grid.empty 3 3).board s = some q ↔
      (s.offset cornerVector).InPlane ∧
        (Grid.empty 3 3).placedAt ⟨2147483645, -2147483648⟩ none (s.offset cornerVector) =
          some q := by
    intro s q
    have hplaced : (Grid.empty 3 3).placedAt (Square.offset ⟨0, 0⟩ cornerVector) none
        (s.offset cornerVector) = (Grid.empty 3 3).board s := by
      rw [Grid.placedAt_offset, Grid.board_eq_placedAt]
    rw [show (Square.offset ⟨0, 0⟩ cornerVector) = ⟨2147483645, -2147483648⟩ from rfl] at hplaced
    rw [hplaced]
    refine and_congr_left fun hq => ?_
    have hbounds : 0 ≤ s.x ∧ s.x < 3 ∧ 0 ≤ s.y ∧ s.y < 3 := Grid.bounds_of_get? hq
    simp only [Square.InPlane, Square.offset, cornerVector, isCoordinate_iff]
    omega
  have hz : ∀ a ∈ [Term.atom ⟨[], .rook⟩, Term.atom ⟨[.zigzag], .bishop⟩],
      Delta.zero ∉ a.deltas := by
    decide
  exact ⟨hboard, hz, generate_translated hboard hz ⟨2, 0⟩⟩

end FairyMoves
