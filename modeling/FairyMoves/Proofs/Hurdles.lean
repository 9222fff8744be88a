import FairyMoves.Grid
import FairyMoves.Proofs.Rays
import Mathlib.Data.List.Basic
import Mathlib.Order.Bounds.Basic
import Mathlib.Tactic.IntervalCases

/-!
# Where hops end

A hop searches for one hurdle after the other, and its loop counts them as it goes. Told without the
loop, there is one number of steps that matters: the least one that takes the piece over as many
occupied squares as it has hurdles, with the board under it all the way. The hop comes down on the
square behind, and what becomes of it there is the rule for all moves that come down on a square.

## Main definitions

* `Hop.occupied` — the number of occupied squares among the first ones along a delta
* `Hop.Crosses` — a piece can go so many steps along a delta, over so many hurdles
* `Hop.Contributes` — the square where the hop along a delta ends
* `ModifierSet.HopsAlike` — modifiers that ask the same of hops

## Main results

* `Hop.isLeast_crosses_succ` — the least number of steps, one step at a time
* `Hop.hurdle?_eq_some_iff` — the search comes to the square after the least number of steps
* `Hop.occupied_of_isLeast` — a hurdle stands there
* `Hop.destination?_eq_some_iff`, `Hop.mem_moves_iff` — the hop along one delta, and all hops
* `MoveAtom.moves_hop` — the destinations of every atom that hops
-/

namespace FairyMoves

namespace Hop

variable {board : Board} {d : Delta} {s t : Square} {set : ModifierSet} {n k : Nat}
  {q : SquareState}

/-! ## Counting steps -/

/-- The number of occupied squares among the first `k` along a delta. -/
def occupied (board : Board) (d : Delta) (s : Square) (k : Nat) : Nat :=
  (List.range k).countP fun j => board (s.along d (j + 1)) ≠ some .empty

/-- A piece can go `k` steps along a delta without leaving the board, over `n` occupied squares of
either side. -/
structure Crosses (board : Board) (d : Delta) (s : Square) (n k : Nat) : Prop where
  onBoard : ∀ j, 1 ≤ j → j ≤ k → ∃ q, board.Has (s.along d j) q
  occupied_eq : occupied board d s k = n

/-- The hop along a delta ends on the square `t`. It comes down behind the least number of steps
over its hurdles, and stays there if it may, or with `y` leaps on from an enemy to an empty square.
-/
def Contributes (set : ModifierSet) (board : Board) (origin : Square) (d : Delta) (t : Square) :
    Prop :=
  ∃ k, IsLeast {k | Crosses board d origin set.hopCount k} k ∧
    ∃ q, board.Has (origin.along d (k + 1)) q ∧
      (set.captureThenLeap = false ∧ set.Eligible q ∧ t = origin.along d (k + 1) ∨
        set.captureThenLeap = true ∧ q = .enemy ∧ board.Has (origin.along d (k + 2)) .empty ∧
          t = origin.along d (k + 2))

theorem occupied_succ (k : Nat) :
    occupied board d s (k + 1) =
      occupied board d (s.along d 1) k + if board (s.along d 1) = some .empty then 0 else 1 := by
  have hlater : (fun j => decide (board (s.along d (j + 1)) ≠ some .empty)) ∘ Nat.succ =
      fun j => decide (board ((s.along d 1).along d (j + 1)) ≠ some .empty) := by
    funext j
    rw [Function.comp_apply, Nat.succ_eq_add_one, Square.along_succ]
  rw [occupied, List.range_succ_eq_map, List.countP_cons, List.countP_map, hlater, occupied]
  by_cases hempty : board (s.along d 1) = some .empty <;> simp [hempty]

theorem occupied_succ_last (k : Nat) :
    occupied board d s (k + 1) =
      occupied board d s k + if board (s.along d (k + 1)) = some .empty then 0 else 1 := by
  rw [occupied, List.range_succ, List.countP_append, List.countP_singleton, occupied]
  by_cases hempty : board (s.along d (k + 1)) = some .empty <;> simp [hempty]

theorem crosses_zero_iff : Crosses board d s n 0 ↔ n = 0 := by
  constructor
  · intro h
    exact h.occupied_eq.symm
  · rintro rfl
    exact ⟨fun j hpos hzero => absurd (Nat.le_trans hpos hzero) (Nat.not_succ_le_zero 0), rfl⟩

/-- No step crosses no hurdles. -/
theorem isLeast_crosses_zero_iff : IsLeast {k | Crosses board d s 0 k} k ↔ k = 0 := by
  have hzero : Crosses board d s 0 0 := crosses_zero_iff.mpr rfl
  constructor
  · intro h
    exact Nat.le_zero.mp (h.2 hzero)
  · rintro rfl
    exact ⟨hzero, fun k _ => Nat.zero_le k⟩

/-- The hurdles that are left behind a square. -/
def left (n : Nat) (q : SquareState) : Nat := if q = .empty then n + 1 else n

theorem crosses_succ_iff :
    Crosses board d s (n + 1) (k + 1) ↔
      ∃ q, board.Has (s.along d 1) q ∧ Crosses board d (s.along d 1) (left n q) k := by
  constructor
  · intro h
    obtain ⟨q, hq⟩ := h.onBoard 1 (Nat.le_refl 1) (Nat.le_add_left 1 k)
    refine ⟨q, hq, fun j hpos hle => ?_, ?_⟩
    · rw [← Square.along_succ]
      exact h.onBoard (j + 1) (Nat.le_add_left 1 j) (Nat.succ_le_succ hle)
    · have hcount := h.occupied_eq
      rw [occupied_succ, hq.2] at hcount
      cases q <;> simp [left] at hcount ⊢ <;> omega
  · rintro ⟨q, hq, h⟩
    refine ⟨fun j hpos hle => ?_, ?_⟩
    · obtain ⟨i, rfl⟩ := Nat.exists_eq_add_of_le' hpos
      rcases Nat.eq_zero_or_pos i with rfl | hi
      · exact ⟨q, hq⟩
      · rw [Square.along_succ]
        exact h.onBoard i hi (Nat.le_of_succ_le_succ hle)
    · rw [occupied_succ, h.occupied_eq, hq.2]
      cases q <;> simp [left]

/-- The least number of steps over a hurdle more is one step more than from the next square on,
where there is a hurdle less to cross if that square is occupied. -/
theorem isLeast_crosses_succ :
    IsLeast {k | Crosses board d s (n + 1) k} k ↔
      ∃ i q, k = i + 1 ∧ board.Has (s.along d 1) q ∧
        IsLeast {k | Crosses board d (s.along d 1) (left n q) k} i := by
  constructor
  · rintro ⟨hk, hleast⟩
    cases k with
    | zero => exact absurd (crosses_zero_iff.mp hk) (Nat.succ_ne_zero n)
    | succ i =>
      obtain ⟨q, hq, hi⟩ := crosses_succ_iff.mp hk
      refine ⟨i, q, rfl, hq, hi, fun j hj => ?_⟩
      exact Nat.le_of_succ_le_succ (hleast (crosses_succ_iff.mpr ⟨q, hq, hj⟩))
  · rintro ⟨i, q, rfl, hq, hi, hleast⟩
    refine ⟨crosses_succ_iff.mpr ⟨q, hq, hi⟩, fun j hj => ?_⟩
    cases j with
    | zero => exact absurd (crosses_zero_iff.mp hj) (Nat.succ_ne_zero n)
    | succ j =>
      obtain ⟨q', hq', hj'⟩ := crosses_succ_iff.mp hj
      obtain rfl := hq.eq hq'
      exact Nat.succ_le_succ (hleast hj')

/-- The last of the least number of steps comes to a hurdle. -/
theorem occupied_of_isLeast (hn : 0 < n) (h : IsLeast {k | Crosses board d s n k} k) :
    1 ≤ k ∧ ∃ q, board.Has (s.along d k) q ∧ q ≠ .empty := by
  obtain ⟨hk, hleast⟩ := h
  cases k with
  | zero => exact absurd (crosses_zero_iff.mp hk) (Nat.pos_iff_ne_zero.mp hn)
  | succ i =>
    obtain ⟨q, hq⟩ := hk.onBoard (i + 1) (Nat.le_add_left 1 i) (Nat.le_refl (i + 1))
    refine ⟨Nat.le_add_left 1 i, q, hq, ?_⟩
    rintro rfl
    have hcount := hk.occupied_eq
    rw [occupied_succ_last, if_pos hq.2, Nat.add_zero] at hcount
    have hless : Crosses board d s n i :=
      ⟨fun j hpos hle => hk.onBoard j hpos (Nat.le_succ_of_le hle), hcount⟩
    exact Nat.not_succ_le_self i (hleast hless)

/-! ## The search -/

/-- The search for one hurdle more, one square at a time. -/
theorem hurdle?_succ_eq_look (hd : d ≠ .zero) :
    hurdle? board d (n + 1) s =
      (board.look (s.offset? d)).bind fun seen => hurdle? board d (left n seen.2) seen.1 := by
  rw [hurdle?, nextHurdle?_eq_look hd, Option.bind_assoc]
  congr 1
  funext seen
  by_cases hempty : seen.2 = .empty
  · rw [if_pos hempty, left, if_pos hempty, hurdle?]
  · rw [if_neg hempty, left, if_neg hempty, Option.bind_some]

/-- The search comes to the square after the least number of steps over all hurdles. -/
theorem hurdle?_eq_some_iff (hd : d ≠ .zero) :
    hurdle? board d n s = some t ↔
      ∃ k, IsLeast {k | Crosses board d s n k} k ∧ t = s.along d k := by
  induction s using offset_induction hd generalizing n t with
  | h s ih =>
    cases n with
    | zero => simp [hurdle?, isLeast_crosses_zero_iff, eq_comm]
    | succ n =>
      rw [hurdle?_succ_eq_look hd, Option.bind_eq_some_iff]
      constructor
      · rintro ⟨⟨next, q⟩, hlook, hrest⟩
        have hnext := (Board.look_eq_some_iff.mp hlook).1
        obtain ⟨rfl, hq⟩ := Board.look_offset?_eq_some_iff_has.mp hlook
        obtain ⟨i, hi, rfl⟩ := (ih _ hnext).mp hrest
        exact ⟨i + 1, isLeast_crosses_succ.mpr ⟨i, q, rfl, hq, hi⟩, (Square.along_succ s d i).symm⟩
      · rintro ⟨k, hk, rfl⟩
        obtain ⟨i, q, rfl, hq, hi⟩ := isLeast_crosses_succ.mp hk
        have hlook := Board.look_offset?_eq_some_iff_has.mpr ⟨rfl, hq⟩
        have hnext := (Board.look_eq_some_iff.mp hlook).1
        exact ⟨(s.along d 1, q), hlook, (ih _ hnext).mpr ⟨i, hi, Square.along_succ s d i⟩⟩

theorem landing?_eq_some_iff (hd : d ≠ .zero) :
    landing? board d n s = some (t, q) ↔
      ∃ k, IsLeast {k | Crosses board d s n k} k ∧ t = s.along d (k + 1) ∧ board.Has t q := by
  rw [landing?_eq_look, Board.look_eq_some_iff, Option.bind_eq_some_iff]
  constructor
  · rintro ⟨⟨hurdle, hhurdle, hoffset⟩, hq⟩
    obtain ⟨k, hk, rfl⟩ := (hurdle?_eq_some_iff hd).mp hhurdle
    obtain ⟨hp, rfl⟩ := Square.offset?_eq_some_iff.mp hoffset
    exact ⟨k, hk, Square.offset_along s d k, hp, hq⟩
  · rintro ⟨k, hk, rfl, hp, hq⟩
    refine ⟨⟨s.along d k, (hurdle?_eq_some_iff hd).mpr ⟨k, hk, rfl⟩, ?_⟩, hq⟩
    rw [Square.offset?_eq_some_iff, Square.offset_along]
    exact ⟨hp, rfl⟩

theorem destination?_eq_some_iff (hd : d ≠ .zero) :
    destination? set board s d = some t ↔ Contributes set board s d t := by
  rw [destination?, Option.bind_eq_some_iff, Contributes]
  constructor
  · rintro ⟨⟨target, q⟩, hlanding, hland⟩
    obtain ⟨k, hk, rfl, hq⟩ := (landing?_eq_some_iff hd).mp hlanding
    rw [ModifierSet.land?_eq_some_iff, Square.offset_along] at hland
    exact ⟨k, hk, q, hq, hland⟩
  · rintro ⟨k, hk, q, hq, hland⟩
    refine ⟨(s.along d (k + 1), q), (landing?_eq_some_iff hd).mpr ⟨k, hk, rfl, hq⟩, ?_⟩
    rw [ModifierSet.land?_eq_some_iff, Square.offset_along]
    exact hland

theorem mem_moves_iff {a : MoveAtom} (hz : .zero ∉ a.deltas) :
    t ∈ moves a board s ↔ ∃ d ∈ a.deltas, Contributes a.modifiers board s d t := by
  rw [moves, List.mem_filterMap]
  refine exists_congr fun d => and_congr_right fun hd => ?_
  exact destination?_eq_some_iff (ne_of_mem_of_not_mem hd hz)

end Hop

/-! ## Modifiers that bear on hops -/

/-- Modifiers ask the same of hops. They may ask for different leaps and slides, and in another
style. -/
structure ModifierSet.HopsAlike (set set' : ModifierSet) : Prop where
  moveOnly : set'.moveOnly = set.moveOnly
  captureOnly : set'.captureOnly = set.captureOnly
  mustCaptureFirst : set'.mustCaptureFirst = set.mustCaptureFirst
  mustNotCaptureFirst : set'.mustNotCaptureFirst = set.mustNotCaptureFirst
  captureThenLeap : set'.captureThenLeap = set.captureThenLeap
  hopCount : set'.hopCount = set.hopCount

theorem Hop.contributes_congr {set set' : ModifierSet} (h : set.HopsAlike set') :
    Contributes set' = Contributes set := by
  have heligible : set'.Eligible = set.Eligible := by
    funext q
    simp only [ModifierSet.Eligible, h.moveOnly, h.captureOnly, h.mustCaptureFirst,
      h.mustNotCaptureFirst]
  funext board origin d t
  rw [Contributes, Contributes, h.hopCount, h.captureThenLeap, heligible]

theorem Hop.moves_congr {a a' : MoveAtom} (hz : .zero ∉ a.deltas) (hdeltas : a'.deltas = a.deltas)
    (h : a.modifiers.HopsAlike a'.modifiers) (board : Board) (origin : Square) :
    moves a' board origin = moves a board origin := by
  rw [moves, moves, hdeltas]
  apply List.filterMap_congr
  intro d hd
  have hne : d ≠ .zero := fun hzero => hz (hzero ▸ hd)
  ext t
  rw [destination?_eq_some_iff hne, destination?_eq_some_iff hne, contributes_congr h]

/-! ## Atoms -/

/-- An atom that hops has the squares that its deltas contribute, in their order. The number of
steps over its hurdles is zero if there are none, and else ends with a hurdle. All modifiers but six
have no say in it, nor has the limit. -/
theorem MoveAtom.moves_hop {a : MoveAtom} (h : a.kind = .hop) (hz : .zero ∉ a.deltas)
    (board : Board) (origin : Square) :
    (∃ destination? : Delta → Option Square,
      (∀ d ∈ a.deltas, ∀ t,
        destination? d = some t ↔ Hop.Contributes a.modifiers board origin d t) ∧
      a.moves board origin = a.deltas.filterMap destination?) ∧
    (∀ d k, IsLeast {k | Hop.Crosses board d origin a.hopCount k} k →
      (a.hopCount = 0 → k = 0) ∧
      (0 < a.hopCount → 1 ≤ k ∧ ∃ q, board.Has (origin.along d k) q ∧ q ≠ .empty)) ∧
    ∀ a' : MoveAtom, a'.kind = .hop → a'.deltas = a.deltas →
      a.modifiers.HopsAlike a'.modifiers → a'.moves board origin = a.moves board origin := by
  have hmoves : a.moves board origin = Hop.moves a board origin := by
    rw [moves, h]
  rw [hmoves]
  refine ⟨?contributions, ?steps, ?alike⟩
  case contributions =>
    refine ⟨Hop.destination? a.modifiers board origin, fun d hd t => ?_, rfl⟩
    exact Hop.destination?_eq_some_iff fun hzero => hz (hzero ▸ hd)
  case steps =>
    intro d k hk
    refine ⟨fun hzero => ?_, fun hpos => Hop.occupied_of_isLeast hpos hk⟩
    rw [hzero] at hk
    exact Hop.isLeast_crosses_zero_iff.mp hk
  case alike =>
    intro a' h' hdeltas halike
    have hmoves' : a'.moves board origin = Hop.moves a' board origin := by
      rw [moves, h']
    rw [hmoves', Hop.moves_congr hz hdeltas halike]

/-- A grid of one row. A friend and two enemies stand in it side by side. -/
def Grid.threeInARow : Grid :=
  (((Grid.empty 7 1).set 2 0 .friendly).set 3 0 .enemy).set 4 0 .enemy

/-- A wazir that hops over two of the pieces and leaps on from the third, and a rook of other
letters that makes the same hops. -/
theorem MoveAtom.moves_hop_over_two :
    (ofBase .wazir (.ofRun [.captureThenLeap, .grasshopper, .cannon])).kind = .hop ∧
    .zero ∉ (ofBase .wazir (.ofRun [.captureThenLeap, .grasshopper, .cannon])).deltas ∧
    IsLeast {k | Hop.Crosses Grid.threeInARow.board ⟨1, 0⟩ ⟨0, 0⟩ 2 k} 3 ∧
    ⟨5, 0⟩ ∈ (ofBase .wazir (.ofRun [.captureThenLeap, .grasshopper, .cannon])).moves
      Grid.threeInARow.board ⟨0, 0⟩ ∧
    (ofBase .rook (.ofRun [.cannon, .zigzag, .captureThenLeap, .unblockable, .grasshopper])).moves
        Grid.threeInARow.board ⟨0, 0⟩ =
      (ofBase .wazir (.ofRun [.captureThenLeap, .grasshopper, .cannon])).moves
        Grid.threeInARow.board ⟨0, 0⟩ := by
  have hkind : (ofBase .wazir (.ofRun [.captureThenLeap, .grasshopper, .cannon])).kind = .hop := rfl
  have hz : .zero ∉ (ofBase .wazir (.ofRun [.captureThenLeap, .grasshopper, .cannon])).deltas := by
    decide
  have hleast : IsLeast {k | Hop.Crosses Grid.threeInARow.board ⟨1, 0⟩ ⟨0, 0⟩ 2 k} 3 := by
    constructor
    · refine ⟨fun j hpos hle => ?_, rfl⟩
      interval_cases j
      · exact ⟨.empty, by decide, rfl⟩
      · exact ⟨.friendly, by decide, rfl⟩
      · exact ⟨.enemy, by decide, rfl⟩
    · intro k hk
      by_contra hlt
      have hcount := hk.occupied_eq
      interval_cases k <;> cases hcount
  obtain ⟨⟨destination?, hcontributes, hmoves⟩, -, halike⟩ :=
    moves_hop hkind hz Grid.threeInARow.board ⟨0, 0⟩
  refine ⟨hkind, hz, hleast, ?_, halike _ rfl rfl ⟨rfl, rfl, rfl, rfl, rfl, rfl⟩⟩
  rw [hmoves, List.mem_filterMap]
  refine ⟨⟨1, 0⟩, by decide, (hcontributes _ (by decide) _).mpr ⟨3, hleast, .enemy, ?_, .inr ?_⟩⟩
  · exact ⟨by decide, rfl⟩
  · exact ⟨rfl, rfl, ⟨by decide, rfl⟩, rfl⟩

end FairyMoves
