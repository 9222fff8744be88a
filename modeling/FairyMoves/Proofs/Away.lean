import FairyMoves.Proofs.Ends

/-!
# Moves lead away

A piece ends on a square some whole number of steps along one of its deltas, be it by a leap, by a
slide or by a hop, and also when it leaps on from where it captured. No delta of a compiled atom
leads nowhere, so no piece ends where it started from.

## Main definitions

* `Delta.LeadsTo` — a square lies some steps along a delta, one at least

## Main results

* `Delta.LeadsTo.ne` — such steps lead to another square
* `MoveAtom.exists_leadsTo_of_mem_moves` — every destination lies along a delta of the atom
* `Spelling.origin_notMem_generate` — the origin is no destination of a piece
-/

namespace FairyMoves

/-- The square `t` lies some steps along the delta from `s`, one at least. -/
def Delta.LeadsTo (d : Delta) (s t : Square) : Prop := ∃ k : Nat, 0 < k ∧ t = s.offset (d.scaled k)

namespace Delta.LeadsTo

variable {d : Delta} {s t u : Square}

theorem step (h : d.LeadsTo s t) (hnext : t.offset? d = some u) : d.LeadsTo s u := by
  obtain ⟨k, _, rfl⟩ := h
  obtain ⟨_, rfl⟩ := Square.offset?_eq_some_iff.mp hnext
  refine ⟨k + 1, Nat.succ_pos k, ?_⟩
  simp only [Square.offset, scaled, Square.mk.injEq, Int.natCast_add, Int.mul_add]
  omega

/-- Steps along a delta that leads somewhere do not lead back. -/
theorem ne (hd : d ≠ .zero) (h : d.LeadsTo s t) : t ≠ s := by
  obtain ⟨k, hk, rfl⟩ := h
  intro hback
  have hlong := natAbs_le_scaled hd k
  have hstays := Square.mk.inj hback
  omega

end Delta.LeadsTo

/-! ## The three kinds of moves -/

variable {board : Board} {origin s target : Square} {d : Delta} {set : ModifierSet}

/-- A piece that comes down on a target stays there, or leaps on along the same delta. -/
theorem ModifierSet.leadsTo_of_land? {q : SquareState} (htarget : d.LeadsTo origin target)
    (h : set.land? board d target q = some s) : d.LeadsTo origin s := by
  rcases land?_eq_some_iff.mp h with ⟨_, _, rfl⟩ | ⟨_, _, hbeyond, rfl⟩
  · exact htarget
  · exact htarget.step (Square.offset?_eq_some_iff.mpr ⟨hbeyond.1, rfl⟩)

/-- A leap takes its delta once, or twice with `y`. -/
theorem Leap.eq_along_of_destination? (h : destination? set board origin d = some s) :
    s = origin.along d (if set.captureThenLeap then 2 else 1) := by
  obtain ⟨target, q, hlook, _, hland⟩ := destination?_eq_some_iff_look.mp h
  obtain ⟨rfl, _⟩ := Board.look_offset?_eq_some_iff_has.mp hlook
  rw [ModifierSet.land?_eq_some_iff, Square.offset_along] at hland
  rcases hland with ⟨hy, _, rfl⟩ | ⟨hy, _, _, rfl⟩ <;> rw [hy] <;> rfl

theorem Leap.leadsTo_of_destination? (h : destination? set board origin d = some s) :
    d.LeadsTo origin s :=
  ⟨_, by split <;> decide, eq_along_of_destination? h⟩

/-- A slide takes the delta of some step of its course, as often as the number of the step says. -/
theorem Slide.exists_leadsTo_of_mem_walk {a : MoveAtom} {course : Course}
    (h : s ∈ walk a board origin course) : ∃ k, (course k).LeadsTo origin s := by
  obtain ⟨k, _, _, hreach, _⟩ := mem_walk_iff.mp h
  obtain ⟨_, _, _, rfl⟩ := reach?_eq_some_iff.mp hreach
  exact ⟨1 + k, 1 + k, by omega, rfl⟩

/-- A hop looks at squares along its delta only, and lands on the last of them. -/
theorem Hop.leadsTo_of_landing? {n : Nat} {q : SquareState} (hd : d ≠ .zero)
    (h : landing? board d n origin = some (target, q)) : d.LeadsTo origin target := by
  have hlast := getLast?_landingSights h
  rw [List.getLast?_eq_getElem?] at hlast
  exact ⟨_, Nat.succ_pos _, (follows_landingSights hd n origin).eq_offset hlast⟩

theorem Hop.leadsTo_of_destination? (hd : d ≠ .zero)
    (h : destination? set board origin d = some s) : d.LeadsTo origin s := by
  obtain ⟨⟨target, q⟩, hlanding, hland⟩ := Option.bind_eq_some_iff.mp h
  exact ModifierSet.leadsTo_of_land? (leadsTo_of_landing? hd hlanding) hland

/-! ## Atoms and pieces -/

/-- Every destination of an atom lies along one of its deltas. -/
theorem MoveAtom.exists_leadsTo_of_mem_moves {a : MoveAtom} (hz : .zero ∉ a.deltas)
    (h : s ∈ a.moves board origin) : ∃ d ∈ a.deltas, d.LeadsTo origin s := by
  unfold moves at h
  split at h
  case h_1 =>
    obtain ⟨d, hd, hdest⟩ := List.mem_filterMap.mp h
    exact ⟨d, hd, Leap.leadsTo_of_destination? hdest⟩
  case h_2 =>
    obtain ⟨course, hcourse, hwalk⟩ := List.mem_flatMap.mp h
    obtain ⟨k, hleads⟩ := Slide.exists_leadsTo_of_mem_walk hwalk
    exact ⟨course k, Slide.mem_deltas_of_mem_courses hcourse k, hleads⟩
  case h_3 =>
    obtain ⟨d, hd, hdest⟩ := List.mem_filterMap.mp h
    exact ⟨d, hd, Hop.leadsTo_of_destination? (fun hzero => hz (hzero ▸ hd)) hdest⟩

theorem MoveAtom.origin_notMem_moves {a : MoveAtom} (hz : .zero ∉ a.deltas) (board : Board)
    (origin : Square) : origin ∉ a.moves board origin := by
  intro h
  obtain ⟨d, hd, hleads⟩ := exists_leadsTo_of_mem_moves hz h
  exact hleads.ne (fun hzero => hz (hzero ▸ hd)) rfl

/-- No piece ends where it started from. -/
theorem Spelling.origin_notMem_generate {source : String} {atoms : List MoveAtom}
    (h : compile source = .ok atoms) (board : Board) (origin : Square) :
    origin ∉ generate atoms board origin := by
  intro hmem
  obtain ⟨a, ha, hmoves⟩ := mem_generate.mp hmem
  exact a.origin_notMem_moves (zero_notMem_of_compile h a ha) board origin hmoves

end FairyMoves
