import FairyMoves.Grid
import FairyMoves.Proofs.Grammar
import FairyMoves.Proofs.Look
import FairyMoves.Proofs.Run

/-!
# Where moves end

A move ends on an empty square or on an enemy. Four letters gate its end further. A gate strikes
moves from the list and does nothing else: the piece goes the same way and as far. Slides that take
and go on and pieces that leap on after a capture pass by the gates.

## Main definitions

* `Board.holds` — what stands on a square
* `Board.Receives` — the squares where a move may end at all
* `MoveAtom.isUngated`, `Term.IsUngated` — the gates have no say in where the moves end
* `Term.LandingLaws` — what each of the gate letters does to the moves of a term

## Main results

* `receives_of_mem_generate` — no move leaves the board or ends on a friend
* `Slide.sights_insert_gate` — a gated slide sees the same squares
* `MoveAtom.moves_insert_gate` — a gate leaves the moves that end on squares of its state
* `Spelling.landing_of_compile` — the end of every move of a spelling, and of its gated terms
-/

namespace FairyMoves

/-- The square is on the board and in this state. -/
def Board.holds (board : Board) (state : SquareState) (s : Square) : Bool := board s == some state

theorem Board.holds_of_eq {board : Board} {s : Square} {q : SquareState} (h : board s = some q)
    (state : SquareState) : board.holds state s = (q == state) := by
  rw [holds, h, Option.some_beq_some]

/-! ## The ends of all moves -/

theorem ModifierSet.ne_friendly_of_mayLand {set : ModifierSet} {q : SquareState}
    (h : set.mayLand q) : q ≠ .friendly := by
  rintro rfl
  cases h

theorem Slide.ne_friendly_of_mayStop {set : ModifierSet} {q : SquareState} (h : mayStop set q) :
    q ≠ .friendly := by
  unfold mayStop at h
  split at h
  · exact of_decide_eq_true h
  · exact ModifierSet.ne_friendly_of_mayLand h

/-- The square is on the board and no friend stands on it. -/
def Board.Receives (board : Board) (s : Square) : Prop :=
  s.InPlane ∧ (board s = some .empty ∨ board s = some .enemy)

namespace Board

variable {board : Board} {s : Square} {q : SquareState}

theorem receives_of_ne_friendly (hp : s.InPlane) (hq : board s = some q) (hne : q ≠ .friendly) :
    board.Receives s := by
  cases q with
  | empty => exact ⟨hp, .inl hq⟩
  | enemy => exact ⟨hp, .inr hq⟩
  | friendly => exact absurd rfl hne

end Board

theorem ModifierSet.receives_of_land? {set : ModifierSet} {board : Board} {d : Delta}
    {target s : Square} {q : SquareState} (hp : target.InPlane) (hq : board target = some q)
    (h : set.land? board d target q = some s) : board.Receives s := by
  unfold land? at h
  split at h
  · obtain ⟨_, hoffset, hempty⟩ := leapOn?_eq_some_iff.mp h
    obtain ⟨hbeyond, rfl⟩ := Square.offset?_eq_some_iff.mp hoffset
    exact ⟨hbeyond, .inl hempty⟩
  · split at h
    case isTrue hmay =>
      obtain rfl := Option.some.inj h
      exact Board.receives_of_ne_friendly hp hq (ne_friendly_of_mayLand hmay)
    case isFalse => cases h

/-- A piece that leaps on ends on an empty square. -/
theorem ModifierSet.empty_of_land? {set : ModifierSet} (hleap : set.captureThenLeap) {board : Board}
    {d : Delta} {target s : Square} {q : SquareState} (h : set.land? board d target q = some s) :
    board s = some .empty := by
  unfold land? at h
  rw [if_pos hleap] at h
  exact (leapOn?_eq_some_iff.mp h).2.2

theorem Leap.exists_land?_of_destination? {set : ModifierSet} {board : Board} {origin s : Square}
    {d : Delta} (h : destination? set board origin d = some s) :
    ∃ target q, target.InPlane ∧ board target = some q ∧ set.land? board d target q = some s := by
  obtain ⟨target, q, hlook, _, hland⟩ := destination?_eq_some_iff_look.mp h
  obtain ⟨hp, rfl, hq⟩ := Board.look_offset?_eq_some_iff.mp hlook
  exact ⟨_, q, hp, hq, hland⟩

theorem Hop.exists_land?_of_destination? {set : ModifierSet} {board : Board} {origin s : Square}
    {d : Delta} (h : destination? set board origin d = some s) :
    ∃ target q, target.InPlane ∧ board target = some q ∧ set.land? board d target q = some s := by
  obtain ⟨⟨target, q⟩, hlanding, hland⟩ := Option.bind_eq_some_iff.mp h
  rw [landing?_eq_look] at hlanding
  obtain ⟨hreach, hq⟩ := Board.look_eq_some_iff.mp hlanding
  obtain ⟨hurdle, _, hoffset⟩ := Option.bind_eq_some_iff.mp hreach
  obtain ⟨hp, rfl⟩ := Square.offset?_eq_some_iff.mp hoffset
  exact ⟨_, q, hp, hq, hland⟩

/-- Leaps and hops come down on a target, and all but the choice of the target is up to `land?`. -/
theorem MoveAtom.exists_land?_of_mem_moves {a : MoveAtom} (hkind : a.kind ≠ .slide) {board : Board}
    {origin s : Square} (h : s ∈ a.moves board origin) :
    ∃ d target q, target.InPlane ∧ board target = some q ∧
      a.modifiers.land? board d target q = some s := by
  unfold moves at h
  split at h
  case h_2 hslide => exact absurd hslide hkind
  case h_1 =>
    obtain ⟨d, _, hd⟩ := List.mem_filterMap.mp h
    exact ⟨d, Leap.exists_land?_of_destination? hd⟩
  case h_3 =>
    obtain ⟨d, _, hd⟩ := List.mem_filterMap.mp h
    exact ⟨d, Hop.exists_land?_of_destination? hd⟩

/-- What a slide sees on a square is what stands there. -/
theorem Slide.of_mem_sights {a : MoveAtom} {board : Board} {origin : Square} {course : Course}
    {step : Nat} {sight : Square × Option SquareState}
    (h : sight ∈ sights a board origin course step) :
    sight.1.InPlane ∧ sight.2 = board sight.1 := by
  induction step using Slide.step_induction origin course with
  | h step ih =>
    rw [sights] at h
    split at h
    case isFalse => cases h
    case isTrue =>
      split at h
      case h_1 => cases h
      case h_2 s hreach =>
        rcases List.mem_cons.mp h with rfl | hlater
        · obtain ⟨_, _, hp, rfl⟩ := reach?_eq_some_iff.mp hreach
          exact ⟨hp, rfl⟩
        · split at hlater
          · exact ih s hreach hlater
          · cases hlater

theorem Slide.receives_of_mem_walk {a : MoveAtom} {board : Board} {origin s : Square}
    {course : Course} (h : s ∈ walk a board origin course) : board.Receives s := by
  obtain ⟨⟨s, q?⟩, hmem, rfl⟩ := List.mem_map.mp h
  obtain ⟨hsight, hstop⟩ := List.mem_filter.mp hmem
  obtain ⟨hp, hstate⟩ := of_mem_sights hsight
  obtain ⟨q, hq, hmay⟩ := (Option.any_eq_true _ _).mp hstop
  exact Board.receives_of_ne_friendly hp (hstate.symm.trans hq) (ne_friendly_of_mayStop hmay)

theorem MoveAtom.receives_of_mem_moves {a : MoveAtom} {board : Board} {origin s : Square}
    (h : s ∈ a.moves board origin) : board.Receives s := by
  by_cases hkind : a.kind = .slide
  · simp only [moves, hkind] at h
    obtain ⟨course, _, hcourse⟩ := List.mem_flatMap.mp h
    exact Slide.receives_of_mem_walk hcourse
  · obtain ⟨d, target, q, hp, hq, hland⟩ := exists_land?_of_mem_moves hkind h
    exact ModifierSet.receives_of_land? hp hq hland

/-- No move leaves the board or ends on a friend. -/
theorem receives_of_mem_generate {atoms : List MoveAtom} {board : Board} {origin s : Square}
    (h : s ∈ generate atoms board origin) : board.Receives s := by
  obtain ⟨a, _, ha⟩ := mem_generate.mp h
  exact MoveAtom.receives_of_mem_moves ha

/-! ## The way of a gated piece -/

namespace ModifierSet

variable {m : Modifier} {state : SquareState}

/-- A gate leaves the squares of its state. -/
theorem mayLand_insert_gate (hm : m.gate? = some state) (set : ModifierSet) (q : SquareState) :
    (set.insert m).mayLand q = (set.mayLand q && q == state) := by
  obtain ⟨moveOnly, captureOnly, mustCaptureFirst, mustNotCaptureFirst, _⟩ := set
  cases m with
  | moveOnly | captureOnly | mustCaptureFirst | mustNotCaptureFirst =>
    obtain rfl := Option.some.inj hm
    cases q <;> simp [mayLand, insert]
  | _ => cases hm

/-- A leap or a hop that comes down on a target is gated there, unless it leaps on. -/
theorem land?_insert_gate (hm : m.gate? = some state) (set : ModifierSet) {board : Board}
    (d : Delta) {target : Square} {q : SquareState} (hq : board target = some q) :
    (set.insert m).land? board d target q =
      (set.land? board d target q).filter fun s => set.captureThenLeap || board.holds state s := by
  unfold land?
  rw [(sameWay_insert_gate hm set).captureThenLeap, mayLand_insert_gate hm]
  cases set.captureThenLeap with
  | true =>
    cases leapOn? board d target q <;> rfl
  | false =>
    have hholds := Board.holds_of_eq hq state
    cases hmay : set.mayLand q <;> simp [Option.filter, hholds]

end ModifierSet

/-- A condition on the end of a move that starts with a look is one on what becomes of the look. -/
theorem Board.filter_bind_look {board : Board} {square? : Option Square}
    {f f' : Square × SquareState → Option Square} {p : Square → Bool}
    (h : ∀ s q, board s = some q → f' (s, q) = (f (s, q)).filter p) :
    (board.look square?).bind f' = ((board.look square?).bind f).filter p := by
  cases hlook : board.look square? with
  | none => rfl
  | some sight => exact h sight.1 sight.2 (look_eq_some_iff.mp hlook).2

/-- The gates have no say in where the moves of an atom end: it slides, taking and going on, or it
leaps on from where it lands. -/
def MoveAtom.isUngated (a : MoveAtom) : Bool :=
  match a.kind with
  | .slide => a.modifiers.takeAndContinue
  | .leap | .hop => a.modifiers.captureThenLeap

theorem Slide.goesOn_eq_of_sameWay {set set' : ModifierSet} (h : set.SameWay set')
    (q? : Option SquareState) : goesOn set' q? = goesOn set q? := by
  rcases q? with _ | (_ | _ | _) <;> simp only [goesOn, blocks, h.unblockable, h.takeAndContinue]

section Engines

variable {m : Modifier} {state : SquareState} (hm : m.gate? = some state) (board : Board)
  (origin : Square)

include hm

theorem Leap.destination?_insert_gate (set : ModifierSet) (d : Delta) :
    destination? (set.insert m) board origin d =
      (destination? set board origin d).filter
        fun s => set.captureThenLeap || board.holds state s := by
  rw [destination?_eq_look, destination?_eq_look]
  refine Board.filter_bind_look fun s q hq => ?_
  simp only [(ModifierSet.sameWay_insert_gate hm set).requiresClearPath]
  split
  · rfl
  · exact ModifierSet.land?_insert_gate hm set d hq

theorem Hop.destination?_insert_gate (set : ModifierSet) (d : Delta) :
    destination? (set.insert m) board origin d =
      (destination? set board origin d).filter
        fun s => set.captureThenLeap || board.holds state s := by
  unfold destination?
  rw [(ModifierSet.sameWay_insert_gate hm set).hopCount, landing?_eq_look]
  exact Board.filter_bind_look fun s q hq => ModifierSet.land?_insert_gate hm set d hq

/-- A gated slide looks at the same squares, and so goes as far. -/
theorem Slide.sights_insert_gate (a : MoveAtom) (course : Course) (step : Nat) :
    sights (a.insert m) board origin course step = sights a board origin course step := by
  have hgoesOn := goesOn_eq_of_sameWay (ModifierSet.sameWay_insert_gate hm a.modifiers)
  -- The sights at a step are equal once those at the next one are.
  induction step using Slide.step_induction origin course with
  | h step ih =>
    rw [sights_eq_reach? (a := a), sights_eq_reach? (a := a.insert m)]
    cases hreach : reach? origin (course step) step with
    | none => rfl
    | some s =>
      have hlater := ih s hreach
      simp only [Option.elim_some, hlater]
      simp only [MoveAtom.insert, hgoesOn]

/-- Of the squares that a slide sees, a gate leaves those of its state, unless the slide takes and
goes on. -/
theorem Slide.walk_insert_gate (a : MoveAtom) (course : Course) :
    walk (a.insert m) board origin course =
      (walk a board origin course).filter
        fun s => a.modifiers.takeAndContinue || board.holds state s := by
  unfold walk
  rw [sights_insert_gate hm, List.filter_map, List.filter_filter]
  congr 1
  refine List.filter_congr fun sight hsight => ?_
  obtain ⟨_, hstate⟩ := of_mem_sights hsight
  obtain ⟨s, q?⟩ := sight
  cases q? with
  | none =>
    simp
  | some q =>
    have hholds := Board.holds_of_eq hstate.symm state
    have hway := ModifierSet.sameWay_insert_gate hm a.modifiers
    simp only [Option.any_some, mayStop, MoveAtom.insert, hway.takeAndContinue, Function.comp,
      ModifierSet.mayLand_insert_gate hm, hholds]
    cases a.modifiers.takeAndContinue <;> simp [Bool.and_comm]

theorem Slide.courses_insert_gate (a : MoveAtom) : courses (a.insert m) = courses a := by
  have hway := ModifierSet.sameWay_insert_gate hm a.modifiers
  simp only [courses, MoveAtom.insert, hway.zigzag]

theorem Slide.moves_insert_gate (a : MoveAtom) :
    moves (a.insert m) board origin =
      (moves a board origin).filter
        fun s => a.modifiers.takeAndContinue || board.holds state s := by
  unfold moves
  rw [courses_insert_gate hm, List.filter_flatMap]
  congr 1
  funext course
  exact walk_insert_gate hm board origin a course

/-- A gate leaves the moves that end on squares of its state, and all moves of an atom without
gates. -/
theorem MoveAtom.moves_insert_gate (a : MoveAtom) :
    (a.insert m).moves board origin =
      (a.moves board origin).filter fun s => a.isUngated || board.holds state s := by
  unfold moves isUngated
  rw [MoveAtom.kind_insert]
  cases a.kind with
  | leap =>
    simp only [Leap.moves, List.filter_filterMap]
    congr 1
    funext d
    exact Leap.destination?_insert_gate hm board origin a.modifiers d
  | hop =>
    simp only [Hop.moves, List.filter_filterMap]
    congr 1
    funext d
    exact Hop.destination?_insert_gate hm board origin a.modifiers d
  | slide => exact Slide.moves_insert_gate hm board origin a

end Engines

/-! ## Gated terms -/

namespace Term

/-- The gate letters have no say in where the moves of a term end: it is a slide with `t`, or a leap
or a hop with `y`. -/
def IsUngated (t : Term) : Prop :=
  (t.atom.kind = .slide ∧ .takeAndContinue ∈ t.run) ∨
    (t.atom.kind ≠ .slide ∧ .captureThenLeap ∈ t.run)

variable {t t' t'' : Term} {m : Modifier} {state : SquareState} {board : Board} {origin : Square}

theorem isUngated_atom : t.atom.isUngated ↔ t.IsUngated := by
  unfold MoveAtom.isUngated IsUngated
  cases hkind : t.atom.kind <;> simp [captureThenLeap_atom, takeAndContinue_atom]

theorem moves_of_adds (hm : m.gate? = some state) (h : t.Adds m t')
    (hleap : .captureThenLeap ∈ t.run → m = .moveOnly ∨ m = .captureOnly) :
    t'.atom.moves board origin =
      (t.atom.moves board origin).filter fun s => t.atom.isUngated || board.holds state s := by
  rw [atom_of_adds hm h hleap, MoveAtom.moves_insert_gate hm]

theorem moves_of_adds_of_isUngated (ht : t.IsUngated) (hm : m = .moveOnly ∨ m = .captureOnly)
    (h : t.Adds m t') : t'.atom.moves board origin = t.atom.moves board origin := by
  obtain ⟨state, hstate⟩ : ∃ state, m.gate? = some state := by
    rcases hm with rfl | rfl
    · exact ⟨.empty, rfl⟩
    · exact ⟨.enemy, rfl⟩
  rw [moves_of_adds hstate h fun _ => hm, isUngated_atom.mpr ht]
  simp

theorem moves_of_adds_of_not_isUngated (ht : ¬ t.IsUngated) (hm : m.gate? = some state)
    (h : t.Adds m t') (hleap : .captureThenLeap ∈ t.run → m = .moveOnly ∨ m = .captureOnly) :
    t'.atom.moves board origin = (t.atom.moves board origin).filter (board.holds state) := by
  have hgated : t.atom.isUngated = false := Bool.eq_false_iff.mpr fun h => ht (isUngated_atom.mp h)
  rw [moves_of_adds hm h hleap, hgated]
  simp only [Bool.false_or]

/-- Every move captures or does not. -/
theorem filter_holds_append_perm (a : MoveAtom) (board : Board) (origin : Square) :
    ((a.moves board origin).filter (board.holds .empty) ++
      (a.moves board origin).filter (board.holds .enemy)).Perm (a.moves board origin) := by
  have henemy : (a.moves board origin).filter (board.holds .enemy) =
      (a.moves board origin).filter fun s => !board.holds .empty s := by
    refine List.filter_congr fun s hs => ?_
    rcases (MoveAtom.receives_of_mem_moves hs).2 with hq | hq <;> simp [Board.holds, hq]
  rw [henemy]
  exact List.filter_append_perm _ _

/-- What the gate letters do to the moves of a term from one square of a board. -/
structure LandingLaws (t : Term) (board : Board) (origin : Square) : Prop where
  /-- With `m` there remain the moves to empty squares. -/
  moveOnly : ¬ t.IsUngated → ∀ t', t.Adds .moveOnly t' →
    t'.atom.moves board origin = (t.atom.moves board origin).filter (board.holds .empty)
  /-- With `c` there remain the moves to enemies. -/
  captureOnly : ¬ t.IsUngated → ∀ t', t.Adds .captureOnly t' →
    t'.atom.moves board origin = (t.atom.moves board origin).filter (board.holds .enemy)
  /-- These are all moves. -/
  partition : ¬ t.IsUngated → ∀ t' t'', t.Adds .moveOnly t' → t.Adds .captureOnly t'' →
    (t'.atom.moves board origin ++ t''.atom.moves board origin).Perm (t.atom.moves board origin)
  /-- Without `y` the letter `x` does the same as `m`. -/
  mustNotCaptureFirst : ¬ t.IsUngated → .captureThenLeap ∉ t.run → ∀ t' t'',
    t.Adds .mustNotCaptureFirst t' → t.Adds .moveOnly t'' →
      t'.atom.moves board origin = t''.atom.moves board origin
  /-- Without `y` the letter `o` does the same as `c`. -/
  mustCaptureFirst : ¬ t.IsUngated → .captureThenLeap ∉ t.run → ∀ t' t'',
    t.Adds .mustCaptureFirst t' → t.Adds .captureOnly t'' →
      t'.atom.moves board origin = t''.atom.moves board origin
  /-- Neither `m` nor `c` changes the moves of a slide with `t`, or of a leap or a hop with `y`. -/
  ungated : t.IsUngated → ∀ m, m = .moveOnly ∨ m = .captureOnly → ∀ t', t.Adds m t' →
    t'.atom.moves board origin = t.atom.moves board origin
  /-- A leap or a hop with `y` ends on an empty square. -/
  leapsOn : t.atom.kind ≠ .slide → .captureThenLeap ∈ t.run →
    ∀ s ∈ t.atom.moves board origin, board s = some .empty

theorem landingLaws (t : Term) (board : Board) (origin : Square) : t.LandingLaws board origin where
  moveOnly ht t' h := moves_of_adds_of_not_isUngated ht rfl h fun _ => .inl rfl
  captureOnly ht t' h := moves_of_adds_of_not_isUngated ht rfl h fun _ => .inr rfl
  partition ht t' t'' h h' := by
    rw [moves_of_adds_of_not_isUngated ht (m := .moveOnly) rfl h fun _ => .inl rfl,
      moves_of_adds_of_not_isUngated ht (m := .captureOnly) rfl h' fun _ => .inr rfl]
    exact filter_holds_append_perm t.atom board origin
  mustNotCaptureFirst ht hy t' t'' h h' := by
    rw [moves_of_adds_of_not_isUngated ht (m := .mustNotCaptureFirst) rfl h (absurd · hy),
      moves_of_adds_of_not_isUngated ht (m := .moveOnly) rfl h' (absurd · hy)]
  mustCaptureFirst ht hy t' t'' h h' := by
    rw [moves_of_adds_of_not_isUngated ht (m := .mustCaptureFirst) rfl h (absurd · hy),
      moves_of_adds_of_not_isUngated ht (m := .captureOnly) rfl h' (absurd · hy)]
  ungated ht m hm t' h := moves_of_adds_of_isUngated ht hm h
  leapsOn hkind hy s hs := by
    obtain ⟨d, target, q, _, _, hland⟩ := MoveAtom.exists_land?_of_mem_moves hkind hs
    exact ModifierSet.empty_of_land? (captureThenLeap_atom.mpr hy) hland

end Term

/-- Every move of a spelling ends on an empty square or an enemy of the board, and every term of it
obeys the laws of the gate letters. -/
theorem Spelling.landing_of_compile {source : String} {atoms : List MoveAtom}
    (h : compile source = .ok atoms) (board : Board) (origin : Square) :
    (∀ s ∈ generate atoms board origin,
      s.InPlane ∧ (board s = some .empty ∨ board s = some .enemy)) ∧
    ∃ terms : List Term, source = ofTerms terms ∧ atoms = terms.map Term.atom ∧
      ∀ t ∈ terms, t.LandingLaws board origin := by
  obtain ⟨terms, hsource, hatoms⟩ := compile_eq_ok_iff_ofTerms.mp h
  exact ⟨fun s hs => receives_of_mem_generate hs, terms, hsource, hatoms,
    fun t _ => t.landingLaws board origin⟩

/-- A slide that takes and goes on, a hop that leaps on and a gated leap, next to an enemy. -/
theorem Spelling.landing_of_compile_beside_enemy :
    compile "tBygNmK" = .ok [Term.atom ⟨[.takeAndContinue], .bishop⟩,
      Term.atom ⟨[.captureThenLeap, .grasshopper], .knight⟩, Term.atom ⟨[.moveOnly], .king⟩] ∧
    (∀ s ∈ generate [Term.atom ⟨[.takeAndContinue], .bishop⟩,
        Term.atom ⟨[.captureThenLeap, .grasshopper], .knight⟩, Term.atom ⟨[.moveOnly], .king⟩]
        ((Grid.empty 4 4).set 1 1 .enemy).board ⟨0, 0⟩,
      s.InPlane ∧ (((Grid.empty 4 4).set 1 1 .enemy).board s = some .empty ∨
        ((Grid.empty 4 4).set 1 1 .enemy).board s = some .enemy)) ∧
    ∃ terms : List Term, "tBygNmK" = ofTerms terms ∧
      [Term.atom ⟨[.takeAndContinue], .bishop⟩,
        Term.atom ⟨[.captureThenLeap, .grasshopper], .knight⟩, Term.atom ⟨[.moveOnly], .king⟩] =
        terms.map Term.atom ∧
      ∀ t ∈ terms, t.LandingLaws ((Grid.empty 4 4).set 1 1 .enemy).board ⟨0, 0⟩ := by
  have hcompile : compile "tBygNmK" = .ok [Term.atom ⟨[.takeAndContinue], .bishop⟩,
      Term.atom ⟨[.captureThenLeap, .grasshopper], .knight⟩, Term.atom ⟨[.moveOnly], .king⟩] := rfl
  exact ⟨hcompile, landing_of_compile hcompile _ _⟩

end FairyMoves
