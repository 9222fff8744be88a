import FairyMoves.Proofs.Mirror
import FairyMoves.Proofs.Sights

/-!
# Every search ends

A slide looks at one square after another, and so does a hop that searches for its hurdles. Here the
looks are counted. On any board, even on one without an edge, a search ends with the plane: a slide
since the numbers of its steps run out, a hop since its delta leads on toward an edge. On a grid it
ends much sooner, for two squares of a grid are no more steps apart than the grid has columns or
rows.

## Main definitions

* `Hop.Follows` — looks that follow a delta, one square after the other
* `Hop.AtEdge` — looks that end at an edge of the board or of the plane
* `MoveAtom.SlidesEnd`, `MoveAtom.Ends` — how many squares the slides and hops of an atom look at

## Main results

* `Grid.steps_lt` — how many steps apart two squares of a grid can be
* `Slide.length_sights_le`, `Slide.length_sights_le_of_grid` — the looks of a slide
* `Hop.countP_hurdleSights_le`, `Hop.countP_hurdleSights_of_hurdle?` — a hop never counts more
  hurdles than it has to take, and counts them all if it comes to the last
* `Hop.getLast?_landingSights`, `Hop.atEdge_of_landing?_eq_none` — a hop lands on the last square
  that it looks at, or it fails at an edge behind it
* `Hop.Follows.length_le`, `Hop.Follows.length_le_of_grid` — the looks of a hop
* `MoveAtom.moves_end` — all searches end, for all atoms, boards and origins
-/

namespace FairyMoves

/-! ## Multiples of a delta -/

/-- A multiple of a delta other than zero is at least as long as its factor in one component. -/
theorem Delta.natAbs_le_scaled {d : Delta} (hd : d ≠ .zero) (k : Int) :
    k.natAbs ≤ (d.scaled k).dx.natAbs ∨ k.natAbs ≤ (d.scaled k).dy.natAbs := by
  obtain ⟨dx, dy⟩ := d
  simp only [scaled, Int.natAbs_mul]
  by_cases hx : dx = 0
  · have hy : dy ≠ 0 := by
      rintro rfl
      exact hd (by rw [hx]; rfl)
    exact .inr (Nat.le_mul_of_pos_left _ (Int.natAbs_pos.mpr hy))
  · exact .inl (Nat.le_mul_of_pos_left _ (Int.natAbs_pos.mpr hx))

/-- Squares of a grid that lie on one line are fewer steps apart than its longer side has
squares. -/
theorem Grid.steps_lt {g : Grid} {s : Square} {d : Delta} (hd : d ≠ .zero) {i j : Nat}
    (hi : (g.board (s.offset (d.scaled i))).isSome)
    (hj : (g.board (s.offset (d.scaled j))).isSome) :
    j < i + max g.width g.height := by
  obtain ⟨q, hq⟩ := Option.isSome_iff_exists.mp hi
  obtain ⟨r, hr⟩ := Option.isSome_iff_exists.mp hj
  have hqbounds := bounds_of_get? hq
  have hrbounds := bounds_of_get? hr
  have hlong := Delta.natAbs_le_scaled hd (j - i)
  simp only [Square.offset, Delta.scaled, Int.mul_sub] at *
  omega

/-! ## Slides -/

namespace Slide

variable {a : MoveAtom} {board : Board} {origin : Square} {course : Course}

/-- A slide looks at no more squares than there are coordinates from its step on. -/
theorem length_sights_le (step : Nat) :
    (sights a board origin course step).length ≤ 2147483648 - step := by
  induction step using step_induction origin course with
  | h step ih =>
    rw [sights_eq_reach?]
    split
    case isFalse => exact Nat.zero_le _
    case isTrue =>
      cases hreach : reach? origin (course step) step with
      | none => exact Nat.zero_le _
      | some s =>
        -- One look more, but the next step has one coordinate less ahead of it.
        have hstep := step_le_of_reach? hreach
        have hnext := ih s hreach
        rw [Option.elim_some, List.length_cons]
        split
        case isTrue => omega
        case isFalse => rw [List.length_nil]; omega

/-- A slide that looks on has passed the step before. -/
theorem passes_of_lt_length {step i : Nat}
    (h : i + 1 < (sights a board origin course step).length) :
    Passes a board origin course (step + i) := by
  obtain ⟨⟨s, q?⟩, hsight⟩ : ∃ sight, (sights a board origin course step)[i + 1]? = some sight :=
    ⟨_, List.getElem?_eq_getElem h⟩
  exact (getElem?_sights_eq_some_iff.mp hsight).1 i (Nat.lt_succ_self i)

theorem Passes.isSome {step : Nat} (h : Passes a board origin course step) :
    (board (origin.offset ((course step).scaled step))).isSome := by
  obtain ⟨_, s, hreach, hgoes⟩ := h
  obtain ⟨_, _, _, rfl⟩ := reach?_eq_some_iff.mp hreach
  cases hb : board (origin.offset ((course step).scaled step)) with
  | none => rw [hb] at hgoes; cases hgoes
  | some q => rfl

theorem mem_deltas_of_mem_courses (h : course ∈ courses a) (step : Nat) :
    course step ∈ a.deltas := by
  rw [courses] at h
  split at h
  case h_1 odd even ds _ hdeltas =>
    obtain rfl := List.mem_singleton.mp h
    rw [hdeltas, zigzag]
    split <;> simp
  case h_2 =>
    obtain ⟨d, hd, rfl⟩ := List.mem_map.mp h
    exact hd

/-- A course takes the same delta at all odd steps, and the same at all even ones. -/
theorem course_congr (h : course ∈ courses a) {step step' : Nat} (hparity : step % 2 = step' % 2) :
    course step = course step' := by
  rw [courses] at h
  split at h
  case h_1 =>
    obtain rfl := List.mem_singleton.mp h
    rw [zigzag, zigzag, hparity]
  case h_2 =>
    obtain ⟨d, _, rfl⟩ := List.mem_map.mp h
    rfl

theorem length_sights_le_of_grid {g : Grid} (h : course ∈ courses a) (hz : .zero ∉ a.deltas) :
    (sights a g.board origin course 1).length ≤ max g.width g.height + 2 := by
  refine Nat.le_of_not_lt fun hlong => ?_
  obtain ⟨n, hn⟩ : ∃ n, (sights a g.board origin course 1).length = n + 2 :=
    ⟨_, (Nat.sub_add_cancel (by omega)).symm⟩
  -- The last step that it passed and the first one of the same parity lie on one line.
  have hlast : Passes a g.board origin course (1 + n) := passes_of_lt_length (by omega)
  have hfirst : Passes a g.board origin course (1 + n % 2) := passes_of_lt_length (by omega)
  have hcourse : course (1 + n) = course (1 + n % 2) := course_congr h (by omega)
  have hne : course (1 + n) ≠ .zero := fun hzero => hz (hzero ▸ mem_deltas_of_mem_courses h _)
  have hsteps := Grid.steps_lt hne (hcourse ▸ hfirst.isSome) hlast.isSome
  omega

end Slide

/-! ## Hops -/

namespace Hop

/-- What is seen on a square counts as a hurdle. -/
def isHurdle (sight : Square × Option SquareState) : Bool := sight.2.any (· ≠ .empty)

theorem isSome_of_isHurdle {sight : Square × Option SquareState} (h : isHurdle sight) :
    sight.2.isSome := by
  obtain ⟨q, hq, _⟩ := (Option.any_eq_true _ _).mp h
  exact Option.isSome_of_eq_some hq

/-- These looks follow a delta from a square on, one square after the other. All but the last of
them find a square of the board. -/
inductive Follows (board : Board) (d : Delta) :
    Square → List (Square × Option SquareState) → Prop where
  | nil (s : Square) : Follows board d s []
  | cons {s t : Square} {rest : List (Square × Option SquareState)} (next : s.offset? d = some t)
      (onBoard : rest ≠ [] → (board t).isSome) (later : Follows board d t rest) :
      Follows board d s ((t, board t) :: rest)

variable {board : Board} {d : Delta} {s t : Square} {n : Nat}

/-- A hop that lands does so on the last of the squares that it looks at. -/
theorem getLast?_landingSights {q : SquareState} (h : landing? board d n s = some (t, q)) :
    (landingSights board d n s).getLast? = some (t, some q) := by
  rw [landing?_eq_look, Board.look_eq_some_iff] at h
  rw [landingSights, h.1, Option.map_some, h.2, Option.toList_some, List.getLast?_concat]

theorem exists_hurdle?_of_landing? {q : SquareState} (h : landing? board d n s = some (t, q)) :
    ∃ hurdle, hurdle? board d n s = some hurdle ∧ hurdle.offset? d = some t := by
  rw [landing?_eq_look, Board.look_eq_some_iff] at h
  exact Option.bind_eq_some_iff.mp h.1

theorem sights_eq_offset? (hd : d ≠ .zero) :
    sights board d s =
      (s.offset? d).elim [] fun t =>
        (t, board t) :: if board t = some .empty then sights board d t else [] := by
  rw [sights]
  split
  case h_1 hnone => rw [hnone, Option.elim_none]
  case h_2 t hsome =>
    rw [hsome, Option.elim_some]
    split
    case isTrue h => rw [if_pos h.1]
    case isFalse h => rw [if_neg fun hempty => h ⟨hempty, hd⟩]

theorem follows_sights (hd : d ≠ .zero) (s : Square) : Follows board d s (sights board d s) := by
  induction s using offset_induction hd with
  | h s ih =>
    rw [sights_eq_offset? hd]
    cases hnext : s.offset? d with
    | none => exact .nil s
    | some t =>
      rw [Option.elim_some]
      split
      case isTrue hempty => exact .cons hnext (fun _ => by rw [hempty]; rfl) (ih t hnext)
      case isFalse => exact .cons hnext (absurd rfl) (.nil t)

/-- Only the last of the sights can be a hurdle. -/
theorem countP_sights_le (hd : d ≠ .zero) (s : Square) :
    (sights board d s).countP isHurdle ≤ 1 := by
  induction s using offset_induction hd with
  | h s ih =>
    rw [sights_eq_offset? hd]
    cases hnext : s.offset? d with
    | none => exact Nat.zero_le 1
    | some t =>
      rw [Option.elim_some]
      split
      case isTrue hempty =>
        have hclear : ¬ isHurdle (t, board t) := by
          rw [hempty]
          nofun
        rw [List.countP_cons_of_neg hclear]
        exact ih t hnext
      case isFalse => exact List.countP_le_length

/-- A hop never counts more hurdles than it has to take. -/
theorem countP_hurdleSights_le (hd : d ≠ .zero) (n : Nat) (s : Square) :
    (hurdleSights board d n s).countP isHurdle ≤ n := by
  induction n generalizing s with
  | zero => exact Nat.le_refl 0
  | succ n ih =>
    have hfirst : (sights board d s).countP isHurdle ≤ 1 := countP_sights_le hd s
    rw [hurdleSights, List.countP_append]
    cases nextHurdle? board d s with
    | none =>
      rw [Option.elim_none, List.countP_nil]
      omega
    | some t =>
      have hrest := ih t
      rw [Option.elim_some]
      omega

/-- The next hurdle is what the sights end with. -/
theorem exists_getLast?_of_nextHurdle? (h : nextHurdle? board d s = some t) :
    ∃ sight, (sights board d s).getLast? = some sight ∧ isHurdle sight ∧ sight.1 = t := by
  rw [nextHurdle?, Option.map_eq_some_iff] at h
  obtain ⟨sight, hsight, rfl⟩ := h
  obtain ⟨hlast, hhurdle⟩ := Option.filter_eq_some_iff.mp hsight
  exact ⟨sight, hlast, hhurdle, rfl⟩

/-- A hop that comes to its last hurdle has counted them all. -/
theorem countP_hurdleSights_of_hurdle? (hd : d ≠ .zero) (h : hurdle? board d n s = some t) :
    (hurdleSights board d n s).countP isHurdle = n := by
  refine Nat.le_antisymm (countP_hurdleSights_le hd n s) ?_
  induction n generalizing s with
  | zero => exact Nat.zero_le _
  | succ n ih =>
    obtain ⟨next, hnext, hrest⟩ := Option.bind_eq_some_iff.mp h
    obtain ⟨sight, hlast, hhurdle, _⟩ := exists_getLast?_of_nextHurdle? hnext
    have hone : 0 < (sights board d s).countP isHurdle :=
      List.countP_pos_iff.mpr ⟨sight, List.mem_of_getLast? hlast, hhurdle⟩
    have hmore := ih hrest
    rw [hurdleSights, hnext, Option.elim_some, List.countP_append]
    omega

theorem landingSights_zero :
    landingSights board d 0 s =
      ((s.offset? d).map fun target => (target, board target)).toList := rfl

theorem landingSights_succ :
    landingSights board d (n + 1) s =
      sights board d s ++ (nextHurdle? board d s).elim [] (landingSights board d n) := by
  rw [landingSights, hurdleSights, hurdle?]
  cases nextHurdle? board d s with
  | none => rw [Option.bind_none, Option.bind_none]; simp
  | some t => rw [Option.bind_some, Option.elim_some, Option.elim_some, List.append_assoc]; rfl

/-! ### Where a search fails -/

/-- The last of these looks is off the board, or the plane ends behind it. A search from `s` that
has not looked anywhere is at `s`. -/
def AtEdge (d : Delta) (s : Square) (looks : List (Square × Option SquareState)) : Prop :=
  (∃ t, looks.getLast? = some (t, none)) ∨ ((looks.getLast?.map Prod.fst).getD s).offset? d = none

theorem AtEdge.append {xs ys : List (Square × Option SquareState)}
    {sight : Square × Option SquareState} (hlast : xs.getLast? = some sight)
    (h : AtEdge d sight.1 ys) : AtEdge d s (xs ++ ys) := by
  rw [AtEdge, List.getLast?_append, hlast]
  rcases h with ⟨t, ht⟩ | hedge
  · rw [ht]
    exact .inl ⟨t, rfl⟩
  · refine .inr ?_
    cases hys : ys.getLast? with
    | none => rwa [hys] at hedge
    | some last => rwa [hys] at hedge

theorem atEdge_sights (hd : d ≠ .zero) (h : nextHurdle? board d s = none) :
    AtEdge d s (sights board d s) := by
  induction s using offset_induction hd with
  | h s ih =>
    rw [sights_eq_offset? hd]
    cases hnext : s.offset? d with
    | none => exact .inr hnext
    | some t =>
      rw [Option.elim_some]
      rw [nextHurdle?_eq_of_offset? hnext] at h
      cases ht : board t with
      | none => exact .inl ⟨t, rfl⟩
      | some q =>
        rw [ht] at h
        cases q with
        | empty =>
          have hlater : nextHurdle? board d t = none := (if_neg hd).symm.trans h
          rw [if_pos rfl, ← List.singleton_append]
          exact .append rfl (ih t hnext hlater)
        | friendly | enemy => cases h

theorem atEdge_of_landing?_eq_none (hd : d ≠ .zero) (h : landing? board d n s = none) :
    AtEdge d s (landingSights board d n s) := by
  induction n generalizing s with
  | zero =>
    rw [landingSights_zero]
    cases hnext : s.offset? d with
    | none => exact .inr hnext
    | some t =>
      rw [landing?_eq_hurdle?, hurdle?, Option.bind_some, hnext, Option.bind_some,
        Option.map_eq_none_iff] at h
      rw [Option.map_some, h]
      exact .inl ⟨t, rfl⟩
  | succ n ih =>
    rw [landingSights_succ]
    cases hhurdle : nextHurdle? board d s with
    | none =>
      rw [Option.elim_none, List.append_nil]
      exact atEdge_sights hd hhurdle
    | some t =>
      obtain ⟨sight, hlast, _, rfl⟩ := exists_getLast?_of_nextHurdle? hhurdle
      refine .append hlast (ih ?_)
      rwa [landing?_eq_hurdle?, hurdle?, hhurdle, Option.bind_some, ← landing?_eq_hurdle?] at h

/-! ### Looks along a delta -/

namespace Follows

variable {xs ys : List (Square × Option SquareState)} {sight : Square × Option SquareState}

theorem append (h : Follows board d s xs) (hlast : xs.getLast? = some sight) (hon : sight.2.isSome)
    (hys : Follows board d sight.1 ys) : Follows board d s (xs ++ ys) := by
  induction h with
  | nil => cases hlast
  | @cons s t rest hnext honBoard hlater ih =>
    cases rest with
    | nil =>
      obtain rfl := Option.some.inj hlast
      exact .cons hnext (fun _ => hon) hys
    | cons next rest =>
      rw [List.getLast?_cons_cons] at hlast
      exact .cons hnext (fun _ => honBoard (List.cons_ne_nil next rest)) (ih hlast)

/-- Each look is one step further along the delta. -/
theorem eq_offset (h : Follows board d s xs) {i : Nat} (hi : xs[i]? = some sight) :
    sight.1 = s.offset (d.scaled (i + 1 : Nat)) := by
  induction h generalizing i with
  | nil => cases hi
  | @cons s t rest hnext _ _ ih =>
    obtain ⟨_, rfl⟩ := Square.offset?_eq_some_iff.mp hnext
    cases i with
    | zero =>
      obtain rfl := Option.some.inj hi
      simp [Square.offset, Delta.scaled]
    | succ i =>
      rw [ih hi]
      simp only [Square.offset, Delta.scaled, Square.mk.injEq, Int.natCast_add, Int.mul_add]
      omega

/-- A look that is not the last finds a square of the board. -/
theorem isSome_getElem (h : Follows board d s xs) {i : Nat} (hi : i + 1 < xs.length) :
    (board xs[i].1).isSome := by
  induction h generalizing i with
  | nil => cases hi
  | @cons s t rest _ honBoard _ ih =>
    cases i with
    | zero => exact honBoard (List.ne_nil_of_length_pos (Nat.lt_of_succ_lt_succ hi))
    | succ i => exact ih (Nat.lt_of_succ_lt_succ hi)

theorem isSome_offset (h : Follows board d s xs) {i : Nat} (hi : i + 1 < xs.length) :
    (board (s.offset (d.scaled (i + 1 : Nat)))).isSome := by
  rw [← h.eq_offset (List.getElem?_eq_getElem (Nat.lt_of_succ_lt hi))]
  exact h.isSome_getElem hi

/-- Each look brings the edge of the plane nearer. -/
theorem length_le_room (hd : d ≠ .zero) (h : Follows board d s xs) : xs.length ≤ room d s := by
  induction h with
  | nil => exact Nat.zero_le _
  | cons hnext _ _ ih =>
    have hnearer := room_lt hd hnext
    rw [List.length_cons]
    omega

theorem length_le (hd : d ≠ .zero) (hs : s.InPlane) (h : Follows board d s xs) :
    xs.length ≤ 4294967295 := by
  refine Nat.le_trans (h.length_le_room hd) ?_
  obtain ⟨hx, hy⟩ := hs
  rw [isCoordinate_iff] at hx hy
  simp only [room, maxCoordinate, minCoordinate]
  split
  · omega
  · split
    · omega
    · split <;> omega

theorem length_le_of_grid {g : Grid} (hd : d ≠ .zero) (h : Follows g.board d s xs) :
    xs.length ≤ max g.width g.height + 1 := by
  refine Nat.le_of_not_lt fun hlong => ?_
  obtain ⟨n, hn⟩ : ∃ n, xs.length = n + 2 := ⟨_, (Nat.sub_add_cancel (by omega)).symm⟩
  -- All looks but the last find squares of the grid: take the first of them and the last of them.
  have hfirst := h.isSome_offset (i := 0) (by omega)
  have hlast := h.isSome_offset (i := n) (by omega)
  have hsteps := Grid.steps_lt hd hfirst hlast
  omega

end Follows

theorem follows_landingSights (hd : d ≠ .zero) (n : Nat) (s : Square) :
    Follows board d s (landingSights board d n s) := by
  induction n generalizing s with
  | zero =>
    rw [landingSights_zero]
    cases hnext : s.offset? d with
    | none => exact .nil s
    | some t => exact .cons hnext (absurd rfl) (.nil t)
  | succ n ih =>
    rw [landingSights_succ]
    cases hhurdle : nextHurdle? board d s with
    | none =>
      rw [Option.elim_none, List.append_nil]
      exact follows_sights hd s
    | some t =>
      obtain ⟨sight, hlast, hseen, rfl⟩ := exists_getLast?_of_nextHurdle? hhurdle
      exact (follows_sights hd s).append hlast (isSome_of_isHurdle hseen) (ih sight.1)

end Hop

/-! ## Atoms -/

/-- On every board each slide of an atom looks at no more squares than there are coordinates above
zero, and so the number of a step is one of 32 bits. -/
structure MoveAtom.SlidesEnd (a : MoveAtom) (origin : Square) : Prop where
  looks : ∀ board, ∀ course ∈ Slide.courses a,
    (Slide.sights a board origin course 1).length ≤ 2147483647
  steps : ∀ board, ∀ course ∈ Slide.courses a, ∀ i,
    (∀ j < i, Slide.Passes a board origin course (1 + j)) → 1 + i < 4294967296

/-- The slides of an atom end, and so do its hops: on every board they look at fewer squares than a
row of the plane has, and count no more hurdles than they have to take. On a grid neither looks at
more squares than its longer side has, plus two. -/
structure MoveAtom.Ends (a : MoveAtom) (origin : Square) : Prop where
  slides : a.SlidesEnd origin
  looks : ∀ board, ∀ d ∈ a.deltas,
    (Hop.landingSights board d a.hopCount origin).length ≤ 4294967295
  hurdles : ∀ board, ∀ d ∈ a.deltas, ∀ i,
    ((Hop.hurdleSights board d a.hopCount origin).take i).countP Hop.isHurdle ≤ a.hopCount
  /-- A hop looks at one square after the other along its delta. -/
  follows : ∀ board, ∀ d ∈ a.deltas,
    Hop.Follows board d origin (Hop.landingSights board d a.hopCount origin)
  /-- A hop that lands has counted all its hurdles, and lands on the last square that it looks
  at. -/
  landing : ∀ board, ∀ d ∈ a.deltas, ∀ t q, Hop.landing? board d a.hopCount origin = some (t, q) →
    (Hop.hurdleSights board d a.hopCount origin).countP Hop.isHurdle = a.hopCount ∧
      (Hop.landingSights board d a.hopCount origin).getLast? = some (t, some q)
  /-- A hop that does not land has come to an edge of the board or of the plane. -/
  failing : ∀ board, ∀ d ∈ a.deltas, Hop.landing? board d a.hopCount origin = none →
    Hop.AtEdge d origin (Hop.landingSights board d a.hopCount origin)
  slidesOnGrid : ∀ g : Grid, ∀ course ∈ Slide.courses a,
    (Slide.sights a g.board origin course 1).length ≤ max g.width g.height + 2
  hopsOnGrid : ∀ g : Grid, ∀ d ∈ a.deltas,
    (Hop.landingSights g.board d a.hopCount origin).length ≤ max g.width g.height + 2

theorem MoveAtom.slidesEnd (a : MoveAtom) (origin : Square) : a.SlidesEnd origin where
  looks board course _ := Slide.length_sights_le 1
  steps board course _ i hpasses := by
    cases i with
    | zero => decide
    | succ i =>
      obtain ⟨_, s, hreach, _⟩ := hpasses i (Nat.lt_succ_self i)
      have hstep := Slide.step_le_of_reach? hreach
      omega

theorem MoveAtom.ends_of_zero_notMem {a : MoveAtom} (hz : .zero ∉ a.deltas) {origin : Square}
    (ho : origin.InPlane) : a.Ends origin := by
  have hne (d : Delta) (hd : d ∈ a.deltas) : d ≠ .zero := fun hzero => hz (hzero ▸ hd)
  have hfollows (board : Board) (d : Delta) (hd : d ∈ a.deltas) :
      Hop.Follows board d origin (Hop.landingSights board d a.hopCount origin) :=
    Hop.follows_landingSights (hne d hd) a.hopCount origin
  constructor
  case slides => exact a.slidesEnd origin
  case looks =>
    intro board d hd
    exact (hfollows board d hd).length_le (hne d hd) ho
  case hurdles =>
    intro board d hd i
    have hprefix := (List.take_sublist i (Hop.hurdleSights board d a.hopCount origin))
    exact Nat.le_trans hprefix.countP_le (Hop.countP_hurdleSights_le (hne d hd) a.hopCount origin)
  case follows => exact hfollows
  case landing =>
    intro board d hd t q hlanding
    obtain ⟨_, hhurdle, _⟩ := Hop.exists_hurdle?_of_landing? hlanding
    exact ⟨Hop.countP_hurdleSights_of_hurdle? (hne d hd) hhurdle,
      Hop.getLast?_landingSights hlanding⟩
  case failing =>
    intro board d hd hnone
    exact Hop.atEdge_of_landing?_eq_none (hne d hd) hnone
  case slidesOnGrid =>
    intro g course hcourse
    exact Slide.length_sights_le_of_grid hcourse hz
  case hopsOnGrid =>
    intro g d hd
    exact Nat.le_succ_of_le ((hfollows g.board d hd).length_le_of_grid (hne d hd))

/-- Either side of the board sees compiled atoms without the delta that leads nowhere. -/
theorem Spelling.zero_notMem_apply {source : String} {atoms : List MoveAtom}
    (h : compile source = .ok atoms) {a : MoveAtom} (ha : a ∈ atoms) (geometry : Geometry) :
    .zero ∉ (geometry.apply a).deltas := by
  have hz := zero_notMem_of_compile h a ha
  cases geometry with
  | square => exact hz
  | flipped =>
    intro hmem
    obtain ⟨d, hd, hzero⟩ := List.mem_map.mp (List.mem_of_mem_take hmem)
    exact Delta.flipped_ne_zero (fun h => hz (h ▸ hd)) hzero

/-- All slides end, even those that lead nowhere. Hops end if no delta leads nowhere, and so do the
searches of all compiled atoms, whichever side of the board sees them. -/
theorem MoveAtom.moves_end (a : MoveAtom) {origin : Square} (ho : origin.InPlane) :
    a.SlidesEnd origin ∧ (.zero ∉ a.deltas → a.Ends origin) ∧
      ∀ source atoms, Spelling.compile source = .ok atoms → a ∈ atoms →
        ∀ geometry : Geometry, (geometry.apply a).Ends origin := by
  refine ⟨a.slidesEnd origin, fun hz => ends_of_zero_notMem hz ho, ?_⟩
  intro source atoms h ha geometry
  exact ends_of_zero_notMem (Spelling.zero_notMem_apply h ha geometry) ho

/-- A bishop that hops and zigzags, in a corner of the plane where only one of its deltas stays
within the plane. -/
theorem MoveAtom.moves_end_in_corner :
    Square.InPlane ⟨-2147483648, 2147483647⟩ ∧
    .zero ∉ (Term.atom ⟨[.zigzag, .grasshopper], .bishop⟩).deltas ∧
    Spelling.compile "zgB" = .ok [Term.atom ⟨[.zigzag, .grasshopper], .bishop⟩] ∧
    (Term.atom ⟨[.zigzag, .grasshopper], .bishop⟩).SlidesEnd ⟨-2147483648, 2147483647⟩ ∧
    (Term.atom ⟨[.zigzag, .grasshopper], .bishop⟩).Ends ⟨-2147483648, 2147483647⟩ ∧
    ∀ geometry : Geometry, (geometry.apply (Term.atom ⟨[.zigzag, .grasshopper], .bishop⟩)).Ends
      ⟨-2147483648, 2147483647⟩ := by
  have ho : Square.InPlane ⟨-2147483648, 2147483647⟩ := by
    decide
  have hz : .zero ∉ (Term.atom ⟨[.zigzag, .grasshopper], .bishop⟩).deltas := by
    decide
  have hcompile : Spelling.compile "zgB" = .ok [Term.atom ⟨[.zigzag, .grasshopper], .bishop⟩] := rfl
  obtain ⟨hslides, hends, hcompiled⟩ :=
    MoveAtom.moves_end (Term.atom ⟨[.zigzag, .grasshopper], .bishop⟩) ho
  exact ⟨ho, hz, hcompile, hslides, hends hz,
    hcompiled "zgB" _ hcompile (List.mem_singleton.mpr rfl)⟩

end FairyMoves
