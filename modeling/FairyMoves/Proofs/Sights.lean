import FairyMoves.Proofs.Look

/-!
# Slides step by step

A slide looks at one square a step. It comes to the square of a step when it passes all earlier
ones: each of them is within the limit and on the board, and nothing there blocks the slide. That
says which square it sees at which step, and so where it may end.

## Main definitions

* `Slide.Passes` — a slide goes on past a step

## Main results

* `Slide.courses_of_zigzag`, `Slide.courses_of_not_zigzag` — the courses of an atom, with two deltas
  in turn and without
* `Slide.moves_of_not_zigzag` — slides along one delta after the other
* `Slide.getElem?_sights_eq_some_iff` — what a slide sees at a step
* `Slide.mem_walk_iff` — where a slide may end
-/

namespace FairyMoves

theorem StepLimit.allows_of_le {limit : StepLimit} {i k : Nat} (h : limit.allows k) (hle : i ≤ k) :
    limit.allows i := by
  cases limit with
  | bounded n => exact decide_eq_true (Nat.le_trans hle (of_decide_eq_true h))
  | unbounded => rfl

namespace Slide

variable {a : MoveAtom} {board : Board} {origin : Square} {course : Course}

/-! ## Courses -/

theorem courses_of_zigzag {odd even : Delta} {rest : List Delta} (hz : a.modifiers.zigzag = true)
    (hdeltas : a.deltas = odd :: even :: rest) : courses a = [zigzag odd even] := by
  simp only [courses, hz, hdeltas]

theorem courses_of_not_zigzag (h : a.modifiers.zigzag = false ∨ a.deltas.length < 2) :
    courses a = a.deltas.map straight := by
  unfold courses
  split
  case h_1 hz hdeltas =>
    rw [hz, hdeltas, List.length_cons, List.length_cons] at h
    rcases h with h | h
    · cases h
    · omega
  case h_2 => rfl

theorem moves_of_not_zigzag (h : a.modifiers.zigzag = false ∨ a.deltas.length < 2) :
    moves a board origin = a.deltas.flatMap fun d => walk a board origin (straight d) := by
  rw [moves, courses_of_not_zigzag h, List.flatMap_map]

/-! ## Sights -/

/-- A slide goes on past a step: it may take it, and its square is on the board and does not block.
-/
def Passes (a : MoveAtom) (board : Board) (origin : Square) (course : Course) (step : Nat) :
    Prop :=
  a.limit.allows step ∧
    ∃ s, reach? origin (course step) step = some s ∧ goesOn a.modifiers (board s)

/-- The first sight is that of the step itself. -/
theorem head?_sights_eq_some_iff {step : Nat} {s : Square} {q? : Option SquareState} :
    (sights a board origin course step)[0]? = some (s, q?) ↔
      a.limit.allows step ∧ reach? origin (course step) step = some s ∧ board s = q? := by
  rw [sights_eq_reach?]
  by_cases hallows : a.limit.allows step
  · cases hreach : reach? origin (course step) step with
    | none => simp [hallows]
    | some t =>
      simp only [hallows, if_true, Option.elim_some, List.getElem?_cons_zero, Option.some.injEq,
        Prod.mk.injEq, true_and]
      refine and_congr_right fun heq => ?_
      rw [heq]
  · simp [hallows]

/-- The later sights are those of the next step, if the slide passes this one. -/
theorem getElem?_sights_succ {step i : Nat} {sight : Square × Option SquareState} :
    (sights a board origin course step)[i + 1]? = some sight ↔
      Passes a board origin course step ∧
        (sights a board origin course (step + 1))[i]? = some sight := by
  rw [sights_eq_reach?, Passes]
  by_cases hallows : a.limit.allows step
  · cases hreach : reach? origin (course step) step with
    | none => simp [hallows]
    | some s => by_cases hgoes : goesOn a.modifiers (board s) <;> simp [hallows, hgoes]
  · simp [hallows]

/-- A slide sees the square of a step just when it passes all earlier ones. -/
theorem getElem?_sights_eq_some_iff {step i : Nat} {s : Square} {q? : Option SquareState} :
    (sights a board origin course step)[i]? = some (s, q?) ↔
      (∀ j < i, Passes a board origin course (step + j)) ∧ a.limit.allows (step + i) ∧
        reach? origin (course (step + i)) (step + i) = some s ∧ board s = q? := by
  -- Past the first step the slide is one that starts with the next step.
  induction i generalizing step with
  | zero => simp [head?_sights_eq_some_iff]
  | succ i ih =>
    rw [getElem?_sights_succ, ih, Nat.forall_lt_succ_left, and_assoc]
    simp only [Nat.add_zero, Nat.add_assoc, Nat.add_comm 1]

/-- A slide may end on the squares that it comes to and may stop on. -/
theorem mem_walk_iff {s : Square} :
    s ∈ walk a board origin course ↔
      ∃ k, (∀ j < k, Passes a board origin course (1 + j)) ∧ a.limit.allows (1 + k) ∧
        reach? origin (course (1 + k)) (1 + k) = some s ∧
        ∃ q, board s = some q ∧ mayStop a.modifiers q := by
  rw [walk, List.mem_map]
  constructor
  · rintro ⟨⟨s, q?⟩, hsight, rfl⟩
    obtain ⟨hmem, hstop⟩ := List.mem_filter.mp hsight
    obtain ⟨k, hk⟩ := List.mem_iff_getElem?.mp hmem
    obtain ⟨hpasses, hallows, hreach, rfl⟩ := getElem?_sights_eq_some_iff.mp hk
    exact ⟨k, hpasses, hallows, hreach, (Option.any_eq_true _ _).mp hstop⟩
  · rintro ⟨k, hpasses, hallows, hreach, q, hq, hstop⟩
    have hk := getElem?_sights_eq_some_iff.mpr ⟨hpasses, hallows, hreach, hq⟩
    refine ⟨(s, some q), List.mem_filter.mpr ⟨List.mem_iff_getElem?.mpr ⟨k, hk⟩, hstop⟩, rfl⟩

end Slide

end FairyMoves
