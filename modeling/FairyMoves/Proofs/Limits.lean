import FairyMoves.Proofs.OneStep
import FairyMoves.Proofs.Walks
import Mathlib.Algebra.Order.BigOperators.Group.List
import Mathlib.Algebra.Order.Group.Nat
import Mathlib.Data.List.Flatten
import Mathlib.Data.List.Perm.Subperm

/-!
# Limits on slides

A limit cuts a slide short and has no other say in it. The steps where a slide may end are the same
for all limits, save that each limit leaves out those beyond it, so a smaller limit leaves the first
squares of a walk. It leaves no more squares than it allows steps, and fewer where the slide passes
a square without a right to end there. No step beyond the greatest coordinate has a square, and a
limit that allows all steps up to there might as well be none.

## Main definitions

* `Slide.CutShort` — a limit leaves the first squares of the slide along one course

## Main results

* `isPrefix_filter_le` — of ascending numbers those up to a bound come first
* `Slide.exists_steps` — the steps where a slide may end serve for all limits
* `Slide.cutShort` — the smaller of two limits cuts a slide short
* `Slide.walk_bounded_of_le` — a limit as great as the greatest coordinate is none
* `MoveAtom.moves_limited` — the slides of an atom under all its limits
-/

namespace FairyMoves

/-! ## Ascending numbers -/

section Ascending

variable {ks : List Nat}

theorem isPrefix_filter_le (h : ks.Pairwise (· < ·)) (n : Nat) :
    (ks.filter fun k => k ≤ n) <+: ks := by
  induction ks with
  | nil => exact List.prefix_rfl
  | cons k ks ih =>
    obtain ⟨hk, hks⟩ := List.pairwise_cons.mp h
    by_cases hn : k ≤ n
    · rw [List.filter_cons_of_pos (by simpa using hn), List.prefix_cons_inj]
      exact ih hks
    · have hnone : (k :: ks).filter (fun k => k ≤ n) = [] := by
        refine List.filter_eq_nil_iff.mpr fun i hi hin => ?_
        rcases List.mem_cons.mp hi with rfl | hlater
        · exact hn (of_decide_eq_true hin)
        · exact hn (Nat.le_trans (Nat.le_of_lt (hk i hlater)) (of_decide_eq_true hin))
      rw [hnone]
      exact List.nil_prefix

theorem length_filter_le_of_pos (h : ks.Pairwise (· < ·)) (hpos : ∀ k ∈ ks, 0 < k) (n : Nat) :
    (ks.filter fun k => k ≤ n).length ≤ n := by
  have hnodup : (ks.filter fun k => k ≤ n).Nodup := (h.imp Nat.ne_of_lt).filter _
  have hsubset : (ks.filter fun k => k ≤ n) ⊆ List.range' 1 n := by
    intro k hk
    obtain ⟨hmem, hn⟩ := List.mem_filter.mp hk
    rw [List.mem_range'_1]
    have hk : 0 < k := hpos k hmem
    have hle : k ≤ n := of_decide_eq_true hn
    omega
  calc (ks.filter fun k => k ≤ n).length
      ≤ (List.range' 1 n).length := (hnodup.subperm hsubset).length_le
    _ = n := List.length_range'

end Ascending

/-! ## One course -/

namespace Slide

variable {a : MoveAtom} {board : Board} {origin : Square} {course : Course} {first k n m : Nat}

/-- A limit has one thing to say about where a slide may end: not beyond the limit. -/
theorem endsAt_asSlide_iff (limit : StepLimit) :
    EndsAt (a.asSlide limit) board origin course first k ↔
      limit.allows k ∧ EndsAt (a.asSlide .unbounded) board origin course first k := by
  rw [allows_iff]
  constructor
  · rintro ⟨hle, hlimit, hpasses, harrives⟩
    exact ⟨hlimit, hle, nofun, hpasses, harrives⟩
  · rintro ⟨hlimit, hle, _, hpasses, harrives⟩
    exact ⟨hle, hlimit, hpasses, harrives⟩

theorem EndsAt.le_maxCoordinate (h : EndsAt a board origin course first k) : k ≤ 2147483647 := by
  obtain ⟨q, hfinds, _⟩ := h.arrives
  exact hfinds.1.1

/-- The steps where a slide may end are listed once for all limits. -/
theorem exists_steps (a : MoveAtom) (board : Board) (origin : Square) (course : Course) :
    ∃ ks : List Nat, ks.Pairwise (· < ·) ∧
      (∀ k, k ∈ ks ↔ EndsAt (a.asSlide .unbounded) board origin course 1 k) ∧
      ∀ limit : StepLimit, walk (a.asSlide limit) board origin course =
        (ks.filter limit.allows).map fun k => origin.along (course k) k := by
  have hunbounded : IsWalk (a.asSlide .unbounded) board origin course 1
      (walk (a.asSlide .unbounded) board origin course) := isWalk_walkFrom 1
  obtain ⟨ks, hlt, hmem, _⟩ := hunbounded
  refine ⟨ks, hlt, hmem, fun limit => ?_⟩
  have hlimited : IsWalk (a.asSlide limit) board origin course 1
      ((ks.filter limit.allows).map fun k => origin.along (course k) k) := by
    refine ⟨ks.filter limit.allows, hlt.filter _, fun k => ?_, rfl⟩
    rw [List.mem_filter, hmem, endsAt_asSlide_iff limit, and_comm]
  have hwalk : IsWalk (a.asSlide limit) board origin course 1
      (walk (a.asSlide limit) board origin course) := isWalk_walkFrom 1
  exact hwalk.eq hlimited

/-- The smaller of two limits leaves the first squares of the slide along one course. -/
structure CutShort (a : MoveAtom) (board : Board) (origin : Square) (course : Course) (n m : Nat) :
    Prop where
  /-- Of the steps where the slide may end under the greater limit it leaves those that it
  allows. -/
  steps : ∃ ks : List Nat, ks.Pairwise (· < ·) ∧
    (∀ k, k ∈ ks ↔ EndsAt (a.asSlide (.bounded m)) board origin course 1 k) ∧
    walk (a.asSlide (.bounded m)) board origin course =
      ks.map (fun k => origin.along (course k) k) ∧
    walk (a.asSlide (.bounded n)) board origin course =
      (ks.filter fun k => k ≤ n).map fun k => origin.along (course k) k
  isPrefix : walk (a.asSlide (.bounded n)) board origin course <+:
    walk (a.asSlide (.bounded m)) board origin course
  length_le : (walk (a.asSlide (.bounded n)) board origin course).length ≤ n

theorem cutShort (h : n ≤ m) : CutShort a board origin course n m := by
  obtain ⟨all, hlt, hmem, hwalk⟩ := exists_steps a board origin course
  have hlt' : (all.filter fun k => k ≤ m).Pairwise (· < ·) := hlt.filter _
  have hmem' (k : Nat) : k ∈ all.filter (fun k => k ≤ m) ↔
      EndsAt (a.asSlide (.bounded m)) board origin course 1 k := by
    rw [List.mem_filter, hmem, endsAt_asSlide_iff (.bounded m), and_comm]
    rfl
  have hcut : walk (a.asSlide (.bounded n)) board origin course =
      ((all.filter fun k => k ≤ m).filter fun k => k ≤ n).map
        fun k => origin.along (course k) k := by
    rw [hwalk, List.filter_filter]
    congr 1
    refine List.filter_congr fun k _ => ?_
    rw [StepLimit.allows, ← Bool.decide_and, decide_eq_decide]
    omega
  constructor
  case steps => exact ⟨_, hlt', hmem', hwalk (.bounded m), hcut⟩
  case isPrefix =>
    rw [hcut, hwalk (.bounded m)]
    exact (isPrefix_filter_le hlt' n).map _
  case length_le =>
    rw [hcut, List.length_map]
    exact length_filter_le_of_pos hlt' (fun k hk => ((hmem' k).mp hk).first_le) n

/-- A step beyond the greatest coordinate has no square, so a limit as great as that is none. -/
theorem walk_bounded_of_le (h : 2147483647 ≤ n) :
    walk (a.asSlide (.bounded n)) board origin course =
      walk (a.asSlide .unbounded) board origin course := by
  refine walk_eq_of_endsAt_iff fun k => ?_
  rw [endsAt_asSlide_iff (.bounded n)]
  refine and_iff_right_of_imp fun hends => ?_
  exact decide_eq_true (Nat.le_trans hends.le_maxCoordinate h)

end Slide

/-! ## All courses -/

namespace MoveAtom

variable {a : MoveAtom} {board : Board} {origin : Square}

theorem moves_asSlide (limit : StepLimit) :
    (a.asSlide limit).moves board origin =
      (Slide.courses a).flatMap (Slide.walk (a.asSlide limit) board origin) := rfl

theorem length_moves_bounded_le (n : Nat) :
    ((a.asSlide (.bounded n)).moves board origin).length ≤ n * (Slide.courses a).length := by
  have heach : ∀ length ∈ (Slide.courses a).map
      (fun course => (Slide.walk (a.asSlide (.bounded n)) board origin course).length),
      length ≤ n := by
    intro length hlength
    obtain ⟨course, _, rfl⟩ := List.mem_map.mp hlength
    exact (Slide.cutShort (Nat.le_refl n)).length_le
  have hall := List.sum_le_card_nsmul _ n heach
  rwa [List.length_map, Nat.nsmul_eq_mul, Nat.mul_comm, ← List.length_flatMap] at hall

/-- The slides of an atom are its walks, one course after the other, under every limit. The smaller
of two limits leaves the first squares of each walk, and so some of all squares in the same order,
at most as many for each walk as it allows steps. A limit as great as the greatest coordinate leaves
all. -/
theorem moves_limited (a : MoveAtom) (board : Board) (origin : Square) :
    (∀ limit, (a.asSlide limit).moves board origin =
      (Slide.courses a).flatMap (Slide.walk (a.asSlide limit) board origin)) ∧
    (∀ n m, n ≤ m →
      (∀ course, Slide.CutShort a board origin course n m) ∧
      ((a.asSlide (.bounded n)).moves board origin).Sublist
        ((a.asSlide (.bounded m)).moves board origin) ∧
      ((a.asSlide (.bounded n)).moves board origin).length ≤ n * (Slide.courses a).length) ∧
    ∀ n, 2147483647 ≤ n →
      (a.asSlide (.bounded n)).moves board origin = (a.asSlide .unbounded).moves board origin := by
  refine ⟨moves_asSlide, ?cut, ?saturated⟩
  case cut =>
    intro n m h
    refine ⟨fun course => Slide.cutShort h, ?_, length_moves_bounded_le n⟩
    exact List.Sublist.flatMap_right _ fun course _ => (Slide.cutShort h).isPrefix.sublist
  case saturated =>
    intro n h
    rw [moves_asSlide, moves_asSlide]
    congr 1
    funext course
    exact Slide.walk_bounded_of_le h

end MoveAtom

/-- A row of six squares. A friend stands on the second and an enemy on the fourth. -/
def Grid.friendThenEnemy : Grid := ((Grid.empty 6 1).set 1 0 .friendly).set 3 0 .enemy

/-- A rook that nothing blocks, from the start of the row. It may not end on its first step, so a
limit of two steps leaves one square. -/
theorem MoveAtom.moves_limited_past_friend :
    (((ofBase .rook (.ofRun [.unblockable])).asSlide (.bounded 2)).moves
      Grid.friendThenEnemy.board ⟨0, 0⟩ = [⟨2, 0⟩]) ∧
    2 ≤ 4 ∧
    Slide.CutShort (ofBase .rook (.ofRun [.unblockable])) Grid.friendThenEnemy.board ⟨0, 0⟩
      (Slide.straight ⟨1, 0⟩) 2 4 ∧
    [⟨2, 0⟩].Sublist (((ofBase .rook (.ofRun [.unblockable])).asSlide (.bounded 4)).moves
      Grid.friendThenEnemy.board ⟨0, 0⟩) ∧
    2147483647 ≤ 4294967295 ∧
    ((ofBase .rook (.ofRun [.unblockable])).asSlide (.bounded 4294967295)).moves
      Grid.friendThenEnemy.board ⟨0, 0⟩ = [⟨2, 0⟩, ⟨3, 0⟩, ⟨4, 0⟩, ⟨5, 0⟩] := by
  obtain ⟨-, hcut, hsaturated⟩ := moves_limited (ofBase .rook (.ofRun [.unblockable]))
    Grid.friendThenEnemy.board ⟨0, 0⟩
  have htwo : ((ofBase .rook (.ofRun [.unblockable])).asSlide (.bounded 2)).moves
      Grid.friendThenEnemy.board ⟨0, 0⟩ = [⟨2, 0⟩] := by
    decide +kernel
  have hle : 2 ≤ 4 := by
    decide
  have hgreat : 2147483647 ≤ 4294967295 := by
    decide
  obtain ⟨hcourse, hsublist, -⟩ := hcut 2 4 hle
  rw [htwo] at hsublist
  refine ⟨htwo, hle, hcourse _, hsublist, hgreat, ?_⟩
  rw [hsaturated _ hgreat]
  decide +kernel

end FairyMoves
