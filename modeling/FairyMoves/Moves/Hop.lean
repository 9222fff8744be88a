import FairyMoves.MoveAtom
import FairyMoves.Moves.Landing

/-!
# Hops

A hop goes along its delta over a number of hurdles, which may be pieces of either side, and comes
down on the square right behind the last one.

## Main definitions

* `Hop.sights` — the squares that a hop looks at for its next hurdle, with what stands on each
* `Hop.nextHurdle?` — the first occupied square further along
* `Hop.hurdle?` — the square of the last of a number of hurdles
* `Hop.advance?` — the search for it, step by step, with a count of the hurdles
* `Hop.hurdleSights`, `Hop.landingSights` — the squares that a hop looks at on its way there, and
  those with the square behind it
* `Hop.landing?` — the square behind it, with what stands there
* `Hop.destination?`, `Hop.moves` — where a hop along one delta ends, and all hops of an atom
* `Hop.push` — the hops, put behind what is in a list

## Main results

* `Hop.room_lt` — each step brings the edge of the plane nearer, which is why the search ends
* `Hop.nextHurdle?_eq_of_offset?` — the search for the next hurdle, one square at a time
* `Hop.advance?_eq_hurdle?` — the search that counts hurdles takes one of them after the other
-/

namespace FairyMoves.Hop

/-- The distance to the edge of the plane that a delta heads for. -/
def room (d : Delta) (s : Square) : Nat :=
  if 0 < d.dx then (maxCoordinate - s.x).toNat
  else if d.dx < 0 then (s.x - minCoordinate).toNat
  else if 0 < d.dy then (maxCoordinate - s.y).toNat
  else (s.y - minCoordinate).toNat

theorem room_lt {d : Delta} {s t : Square} (hd : d ≠ .zero) (h : s.offset? d = some t) :
    room d t < room d s := by
  obtain ⟨hp, rfl⟩ := Square.offset?_eq_some_iff.mp h
  obtain ⟨dx, dy⟩ := d
  simp only [Square.InPlane, Square.offset, isCoordinate_iff] at hp
  simp only [Delta.zero, ne_eq, Delta.mk.injEq] at hd
  simp only [room, Square.offset, maxCoordinate, minCoordinate]
  split
  · omega
  · split
    · omega
    · split <;> omega

theorem room_le {d : Delta} {s t : Square} (h : s.offset? d = some t) : room d t ≤ room d s := by
  by_cases hd : d = .zero
  · obtain ⟨_, rfl⟩ := Square.offset?_eq_some_iff.mp h
    simp [room, hd, Square.offset, Delta.zero]
  · exact Nat.le_of_lt (room_lt hd h)

/-- What a hop sees further along the delta: the squares that it looks at, up to the first that is
not empty, with what stands on each. A delta that leads nowhere meets its own square again, and no
other. If that is empty, the program looks at it over and over and never ends, which no list of
sights can tell: here the search for a hurdle fails then. -/
def sights (board : Board) (d : Delta) (s : Square) : List (Square × Option SquareState) :=
  match _h : s.offset? d with
  | none => []
  | some next =>
    (next, board next) ::
      if _hd : board next = some .empty ∧ d ≠ .zero then sights board d next else []
termination_by room d s
decreasing_by exact room_lt _hd.2 _h

/-- The first occupied square further along the delta, if every square before it is on the board. -/
def nextHurdle? (board : Board) (d : Delta) (s : Square) : Option Square :=
  -- Only the last square of the sights can be occupied.
  ((sights board d s).getLast?.filter fun sight => sight.2.any (· ≠ .empty)).map Prod.fst

/-- The search goes on past empty squares, and ends on the first other one. One that leads nowhere
fails on an empty square. -/
theorem nextHurdle?_eq_of_offset? {board : Board} {d : Delta} {s next : Square}
    (h : s.offset? d = some next) :
    nextHurdle? board d s =
      match board next with
      | none => none
      | some .empty => if d = .zero then none else nextHurdle? board d next
      | some _ => some next := by
  unfold nextHurdle?
  rw [sights]
  split
  case h_1 hn => simp [h] at hn
  case h_2 next' hn =>
    obtain rfl : next = next' := Option.some.inj (h.symm.trans hn)
    rcases hb : board next with _ | (_ | _ | _)
    case some.empty =>
      by_cases hd : d = .zero
      · simp [hd]
      · rcases sights board d next with _ | ⟨sight, rest⟩ <;> simp [hd]
    all_goals simp

theorem nextHurdle?_eq_none_of_offset? {board : Board} {d : Delta} {s : Square}
    (h : s.offset? d = none) : nextHurdle? board d s = none := by
  unfold nextHurdle?
  rw [sights]
  split
  case h_1 => rfl
  case h_2 hn => simp [h] at hn

/-- The square of the last of `n` hurdles along the delta; the origin when there is none to take. -/
def hurdle? (board : Board) (d : Delta) : Nat → Square → Option Square
  | 0, s => some s
  | n + 1, s => (nextHurdle? board d s).bind (hurdle? board d n)

/-- Steps along the delta from `s`, with `hops` of `n` hurdles behind it, until all of them are;
none if the board ends before. On an empty square a delta that leads nowhere would be stepped along
for ever, and fails here. -/
def advance? (board : Board) (d : Delta) (n hops : Nat) (s : Square) : Option Square :=
  if _hmore : hops < n then
    match _h : s.offset? d with
    | none => none
    | some next =>
      match board next with
      | none => none
      | some .empty => if _hd : d = .zero then none else advance? board d n hops next
      | some _ => advance? board d n (hops + 1) next
  else some s
termination_by n - hops + room d s
decreasing_by
  · exact Nat.add_lt_add_left (room_lt _hd _h) _
  · exact Nat.add_lt_add_of_lt_of_le (by omega) (room_le _h)

theorem advance?_eq_offset? {board : Board} {d : Delta} {n hops : Nat} {s : Square} :
    advance? board d n hops s =
      if hops < n then
        (s.offset? d).bind fun next =>
          match board next with
          | none => none
          | some .empty => if d = .zero then none else advance? board d n hops next
          | some _ => advance? board d n (hops + 1) next
      else some s := by
  rw [advance?]
  split
  · split
    case h_1 hnext => rw [hnext, Option.bind_none]
    case h_2 next hnext => rw [hnext, Option.bind_some]; rfl
  · rfl

/-- Stepping on leads to the last of the hurdles that are left. -/
theorem advance?_eq_hurdle? (board : Board) (d : Delta) (n hops : Nat) (s : Square) :
    advance? board d n hops s = hurdle? board d (n - hops) s := by
  have hleft {hops : Nat} (hmore : hops < n) : n - hops = n - (hops + 1) + 1 := by
    omega
  induction hops, s using advance?.induct board d n with
  | case1 hops s hmore hnext =>
    rw [advance?_eq_offset?, if_pos hmore, hnext, hleft hmore, hurdle?,
      nextHurdle?_eq_none_of_offset? hnext, Option.bind_none, Option.bind_none]
  | case2 hops s hmore next hnext hb =>
    rw [advance?_eq_offset?, if_pos hmore, hnext, hleft hmore, hurdle?,
      nextHurdle?_eq_of_offset? hnext, Option.bind_some, hb, Option.bind_none]
  | case3 hops s hmore next hnext hb hd =>
    rw [advance?_eq_offset?, if_pos hmore, hnext, hleft hmore, hurdle?,
      nextHurdle?_eq_of_offset? hnext, Option.bind_some, hb, if_pos hd, if_pos hd, Option.bind_none]
  | case4 hops s hmore next hnext hb hd ih =>
    rw [advance?_eq_offset?, if_pos hmore, hnext, Option.bind_some, hb, if_neg hd, ih, hleft hmore,
      hurdle?, hurdle?, nextHurdle?_eq_of_offset? hnext, hb, if_neg hd]
  | case5 hops s hmore next hnext q hq hb ih =>
    have hhurdle : nextHurdle? board d s = some next := by
      rw [nextHurdle?_eq_of_offset? hnext, hb]
      cases q with
      | empty => exact absurd rfl hq
      | friendly | enemy => rfl
    rw [advance?_eq_offset?, if_pos hmore, hnext, Option.bind_some, hb, hleft hmore, hurdle?,
      hhurdle, Option.bind_some, ← ih]
    cases q with
    | empty => exact absurd rfl hq
    | friendly | enemy => rfl
  | case6 hops s hdone =>
    rw [advance?_eq_offset?, if_neg hdone, Nat.sub_eq_zero_of_le (Nat.le_of_not_lt hdone), hurdle?]

/-- The squares that a hop looks at for `n` hurdles, with what stands on each. If the search fails
at one of them, these are the squares up to where it fails: the last one is off the board, or the
plane ends behind it. -/
def hurdleSights (board : Board) (d : Delta) : Nat → Square → List (Square × Option SquareState)
  | 0, _ => []
  | n + 1, s => sights board d s ++ (nextHurdle? board d s).elim [] (hurdleSights board d n)

/-- The squares that a hop looks at until it lands behind the last hurdle. If there is no such
hurdle, these are the squares of the search that fails. -/
def landingSights (board : Board) (d : Delta) (n : Nat) (origin : Square) :
    List (Square × Option SquareState) :=
  hurdleSights board d n origin ++
    (((hurdle? board d n origin).bind fun hurdle => hurdle.offset? d).map
      fun target => (target, board target)).toList

/-- The square right behind the last of `n` hurdles, with what stands there. -/
def landing? (board : Board) (d : Delta) (n : Nat) (origin : Square) :
    Option (Square × SquareState) :=
  ((advance? board d n 0 origin).bind fun hurdle => hurdle.offset? d).bind fun target =>
    (board target).map fun state => (target, state)

theorem landing?_eq_hurdle? (board : Board) (d : Delta) (n : Nat) (origin : Square) :
    landing? board d n origin =
      ((hurdle? board d n origin).bind fun hurdle => hurdle.offset? d).bind fun target =>
        (board target).map fun state => (target, state) := by
  rw [landing?, advance?_eq_hurdle?, Nat.sub_zero]

/-- The square where a hop along `d` ends, if there is one. -/
def destination? (set : ModifierSet) (board : Board) (origin : Square) (d : Delta) :
    Option Square :=
  (landing? board d set.hopCount origin).bind fun landing =>
    set.land? board d landing.1 landing.2

/-- The hops of an atom, in the order of its deltas. -/
def moves (a : MoveAtom) (board : Board) (origin : Square) : List Square :=
  a.deltas.filterMap (destination? a.modifiers board origin)

/-- Puts the hops of an atom behind the moves that are in the list. -/
def push (a : MoveAtom) (board : Board) (origin : Square) (out : Array Square) : Array Square :=
  pushEnds (destination? a.modifiers board origin) a.deltas out

theorem toList_push (a : MoveAtom) (board : Board) (origin : Square) (out : Array Square) :
    (push a board origin out).toList = out.toList ++ moves a board origin :=
  toList_pushEnds _ _ _

end FairyMoves.Hop
