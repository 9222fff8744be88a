import FairyMoves.Proofs.Distinct
import FairyMoves.Proofs.Hurdles
import FairyMoves.Proofs.Riders
import FairyMoves.Proofs.Stepping

/-!
# Hops and slides on the same rays

A piece that hops and one that slides look along the same rays if they have the same deltas. A hop
comes down right behind a hurdle. So a slide that nothing blocks comes by there, while one that
pieces block has stopped at that hurdle, if not before. That leaves out pieces with two deltas on
one ray, as the elephant has them: such a slide may come by along the other delta.

## Main definitions

* `MoveAtom.SharesRays` — an atom that hops, and one that slides along the same deltas and may end
  where the other may
* `riderAlphabet`, `rayAlphabet` — the letters of such a slide alone, and those that both may have

## Main results

* `MoveAtom.SharesRays.moves_subset` — what nothing blocks ends wherever the hops end, on a grid
* `MoveAtom.SharesRays.disjoint_moves` — what is blocked ends nowhere where the hops end
* `Term.sharesRays` — hop letters, or letters of riders, in front of the same letters
* `Spelling.generate_hopper` — the texts of such pieces
-/

namespace FairyMoves

/-! ## Atoms -/

namespace MoveAtom

/-- An atom hops and another one slides, along the same deltas and as far as the board lets it.
Neither has a letter that would send it off these rays or on beyond a capture, and the same gates
hold for both.
-/
structure SharesRays (hopper rider : MoveAtom) : Prop where
  hop : hopper.kind = .hop
  slide : rider.kind = .slide
  unbounded : rider.limit = .unbounded
  deltas : rider.deltas = hopper.deltas
  zero_notMem : .zero ∉ hopper.deltas
  straight : rider.modifiers.zigzag = false
  takesOnce : rider.modifiers.takeAndContinue = false
  comesDown : hopper.modifiers.captureThenLeap = false
  eligible : rider.modifiers.Eligible = hopper.modifiers.Eligible

namespace SharesRays

variable {hopper rider : MoveAtom} {board : Board} {g : Grid} {origin s : Square}

/-- The hops end behind the least number of steps over their hurdles. -/
theorem mem_moves_hopper_iff (h : hopper.SharesRays rider) :
    s ∈ hopper.moves board origin ↔
      ∃ d ∈ hopper.deltas, ∃ k,
        IsLeast {k | Hop.Crosses board d origin hopper.modifiers.hopCount k} k ∧
        (∃ q, board.Has (origin.along d (k + 1)) q ∧ hopper.modifiers.Eligible q) ∧
        s = origin.along d (k + 1) := by
  rw [moves_of_hop h.hop, Hop.mem_moves_iff h.zero_notMem]
  refine exists_congr fun d => and_congr_right fun _ => exists_congr fun k =>
    and_congr_right fun _ => ?_
  simp only [h.comesDown, Bool.false_eq_true, true_and, false_and, or_false, ← and_assoc,
    exists_and_right]

/-- The slides end at certain steps along the same deltas. -/
theorem mem_moves_rider_iff (h : hopper.SharesRays rider) :
    s ∈ rider.moves board origin ↔
      ∃ d ∈ hopper.deltas, ∃ k,
        Slide.EndsAt rider board origin (Slide.straight d) 1 k ∧ s = origin.along d k := by
  rw [moves_of_slide h.slide, Slide.mem_moves_iff (.inl h.straight), h.deltas]

/-- If nothing blocks the slides they end wherever the hops end, on a grid that they start from. -/
theorem moves_subset (h : hopper.SharesRays rider) (hu : rider.modifiers.unblockable = true)
    (ho : origin.InPlane) (hon : (g.board origin).isSome) :
    hopper.moves g.board origin ⊆ rider.moves g.board origin := by
  intro s hs
  obtain ⟨d, hd, k, ⟨hcrosses, _⟩, ⟨q, hq, heligible⟩, rfl⟩ := h.mem_moves_hopper_iff.mp hs
  have hfinds {j : Nat} {r : SquareState} (hr : g.board.Has (origin.along d j) r) :
      Slide.Finds g.board origin (Slide.straight d) j r :=
    (Slide.finds_iff_has (ne_of_mem_of_not_mem hd h.zero_notMem)
      (Grid.inQuarter_of_isSome ho hon)).mpr hr
  refine h.mem_moves_rider_iff.mpr ⟨d, hd, k + 1, ?_, rfl⟩
  constructor
  case first_le => exact Nat.le_add_left 1 k
  case limit =>
    intro n hn
    rw [h.unbounded] at hn
    cases hn
  case passes =>
    intro j hj hlt
    obtain ⟨r, hr⟩ := hcrosses.onBoard j hj (Nat.le_of_lt_succ hlt)
    refine ⟨r, hfinds hr, fun hstops => ?_⟩
    rw [Slide.Stops, hu] at hstops
    cases hstops.1
  case arrives => exact ⟨q, hfinds hq, .inr ⟨h.takesOnce, by rwa [h.eligible]⟩⟩

/-- Slides that pieces block do not end where the hops end, if no two deltas point the same way. -/
theorem disjoint_moves (h : hopper.SharesRays rider) (hu : rider.modifiers.unblockable = false)
    (hhops : 0 < hopper.modifiers.hopCount) (hspread : Delta.Spread hopper.deltas) (board : Board)
    (origin : Square) : (hopper.moves board origin).Disjoint (rider.moves board origin) := by
  intro s hs hs'
  obtain ⟨d, hd, k, hleast, _, rfl⟩ := h.mem_moves_hopper_iff.mp hs
  obtain ⟨e, he, n, hends, hsame⟩ := h.mem_moves_rider_iff.mp hs'
  have hd0 : d ≠ .zero := ne_of_mem_of_not_mem hd h.zero_notMem
  have hleads : d.LeadsTo origin (origin.along d (k + 1)) := ⟨k + 1, Nat.succ_pos k, rfl⟩
  obtain rfl : d = e :=
    hspread.eq_of_leadsTo h.zero_notMem hd he hleads ⟨n, hends.first_le, hsame⟩
  obtain rfl : k + 1 = n := Int.ofNat_inj.mp (Square.eq_of_offset_scaled_eq hd0 hsame)
  obtain ⟨hk, q, hq, hoccupied⟩ := Hop.occupied_of_isLeast hhops hleast
  obtain ⟨r, hr, hgoes⟩ := hends.passes k hk (Nat.lt_succ_self k)
  -- One step before stands the hurdle, which the slide would have to pass.
  obtain rfl : q = r := hq.eq ⟨hq.1, hr.2⟩
  refine hgoes ⟨hu, ?_⟩
  cases q with
  | empty => exact absurd rfl hoccupied
  | friendly => exact .inl rfl
  | enemy => exact .inr ⟨rfl, h.takesOnce⟩

end SharesRays

end MoveAtom

/-! ## Letters -/

/-- The letter that makes a rider, and the one by which nothing blocks it. -/
def riderAlphabet : List Char := "au".toList

/-- The letters that choose the rays of a piece, and the states of the squares where it may end. -/
def rayAlphabet : List Char := "mcoxfblrvs".toList

namespace Modifier

variable {m : Modifier}

/-- The letters that hop and those of riders do not choose rays. -/
theorem directions_of_letter_mem (h : m.letter ∈ hopAlphabet ∨ m.letter ∈ riderAlphabet) :
    m.directions = [] := by
  revert h
  cases m <;> decide

/-- They do not choose where to end either. -/
theorem gate?_of_letter_mem (h : m.letter ∈ hopAlphabet ∨ m.letter ∈ riderAlphabet) :
    m.gate? = none := by
  revert h
  cases m <;> decide

end Modifier

namespace ModifierSet

variable {set set' : ModifierSet} {pre run : List Modifier}

/-- Where a move may end depends on the gates alone. -/
theorem eligible_congr (h : ∀ m : Modifier, m.gate?.isSome → set'.switch m = set.switch m) :
    set'.Eligible = set.Eligible := by
  have hmove : set'.moveOnly = set.moveOnly := h .moveOnly rfl
  have hcapture : set'.captureOnly = set.captureOnly := h .captureOnly rfl
  have hmust : set'.mustCaptureFirst = set.mustCaptureFirst := h .mustCaptureFirst rfl
  have hmustNot : set'.mustNotCaptureFirst = set.mustNotCaptureFirst := h .mustNotCaptureFirst rfl
  funext q
  simp only [Eligible, hmove, hcapture, hmust, hmustNot]

theorem eligible_ofRun_append (h : ∀ m ∈ pre, m.gate? = none) (run : List Modifier) :
    (ofRun (pre ++ run)).Eligible = (ofRun run).Eligible := by
  refine eligible_congr fun m hgate => ?_
  have hm : m ∉ pre := fun hmem => by
    rw [h m hmem] at hgate
    cases hgate
  have hoff : pre.contains m = false := by
    simpa using hm
  rw [switch_ofRun, switch_ofRun, List.contains_append, hoff, Bool.false_or]

theorem allows_ofRun_append (h : ∀ m ∈ pre, m.directions = []) (run : List Modifier) :
    (ofRun (pre ++ run)).allows = (ofRun run).allows := by
  have hnone : pre.flatMap Modifier.directions = [] := List.flatMap_eq_nil_iff.mpr h
  funext d
  rw [allows, allows, allowedDirections_ofRun, List.flatMap_append, hnone, List.nil_append,
    ← allowedDirections_ofRun]

end ModifierSet

/-! ## Terms -/

namespace Term

variable {hops pre run : List Modifier} {b : BaseAtom}

/-- A letter of neither alphabet does not occur in such a run. -/
theorem notMem_append {cs : List Char} (hpre : ∀ m ∈ pre, m.letter ∈ cs)
    (hrun : ∀ m ∈ run, m.letter ∈ rayAlphabet) {m : Modifier}
    (hm : m.letter ∉ cs ∧ m.letter ∉ rayAlphabet) : m ∉ pre ++ run := by
  rw [List.mem_append]
  rintro (hmem | hmem)
  · exact hm.1 (hpre m hmem)
  · exact hm.2 (hrun m hmem)

theorem deltas_append (h : ∀ m ∈ pre, m.directions = []) :
    (atom ⟨pre ++ run, b⟩).deltas = (atom ⟨run, b⟩).deltas := by
  simp only [atom, MoveAtom.ofBase, ModifierSet.allows_ofRun_append h]

/-- Unless they leap on, letters without a gate leave the squares where a move may end. -/
theorem eligible_append (h : ∀ m ∈ pre, m.gate? = none) (hy : .captureThenLeap ∉ pre ++ run) :
    (atom ⟨pre ++ run, b⟩).modifiers.Eligible = (ModifierSet.ofRun run).Eligible := by
  rw [← ModifierSet.captureThenLeap_ofRun] at hy
  rw [atom, MoveAtom.ofBase, ModifierSet.normalized, if_neg hy, ModifierSet.eligible_ofRun_append h]

theorem hopCount_pos (hne : hops ≠ []) (hhops : ∀ m ∈ hops, m.letter ∈ hopAlphabet) :
    0 < (atom ⟨hops ++ run, b⟩).hopCount := by
  obtain ⟨m, hm⟩ := List.exists_mem_of_ne_nil hops hne
  rw [MoveAtom.hopCount, atom, MoveAtom.ofBase, ModifierSet.hopCount_normalized]
  exact ModifierSet.hopCount_ofRun_pos (List.mem_append_left run hm) (hhops m hm)

/-- Letters that hop and letters of riders, in front of the same others. -/
theorem sharesRays (hne : hops ≠ []) (hhops : ∀ m ∈ hops, m.letter ∈ hopAlphabet)
    (hagain : .againRider ∈ pre) (hpre : ∀ m ∈ pre, m.letter ∈ riderAlphabet)
    (hrun : ∀ m ∈ run, m.letter ∈ rayAlphabet) (b : BaseAtom) :
    (atom ⟨hops ++ run, b⟩).SharesRays (atom ⟨pre ++ run, b⟩) := by
  have hhopper := makesUp_atom ⟨hops ++ run, b⟩
  have hrider := makesUp_atom ⟨pre ++ run, b⟩
  have hnone : (atom ⟨pre ++ run, b⟩).hopCount = 0 := by
    have hg : .grasshopper ∉ pre ++ run := notMem_append hpre hrun (by decide)
    have hj : .cannon ∉ pre ++ run := notMem_append hpre hrun (by decide)
    rw [hrider.hopCount, List.count_eq_zero.mpr hg, List.count_eq_zero.mpr hj]
  have hslide : (atom ⟨pre ++ run, b⟩).kind = .slide :=
    hrider.slide.mpr ⟨hnone, .inl (List.mem_append_left run hagain)⟩
  have hy : .captureThenLeap ∉ hops ++ run := notMem_append hhops hrun (by decide)
  have hy' : .captureThenLeap ∉ pre ++ run := notMem_append hpre hrun (by decide)
  constructor
  case hop => exact hhopper.hop.mpr (hopCount_pos hne hhops)
  case slide => exact hslide
  case unbounded => rw [hrider.limit, hslide]; rfl
  case deltas =>
    rw [deltas_append fun m hm => Modifier.directions_of_letter_mem (.inl (hhops m hm)),
      deltas_append fun m hm => Modifier.directions_of_letter_mem (.inr (hpre m hm))]
  case zero_notMem => exact hhopper.tabled.zero_notMem
  case straight =>
    rw [Bool.eq_false_iff, Ne, zigzag_atom]
    exact notMem_append hpre hrun (by decide)
  case takesOnce =>
    rw [Bool.eq_false_iff, Ne, takeAndContinue_atom]
    exact notMem_append hpre hrun (by decide)
  case comesDown =>
    rw [Bool.eq_false_iff, Ne, captureThenLeap_atom]
    exact hy
  case eligible =>
    rw [eligible_append (fun m hm => Modifier.gate?_of_letter_mem (.inl (hhops m hm))) hy,
      eligible_append (fun m hm => Modifier.gate?_of_letter_mem (.inr (hpre m hm))) hy']

end Term

namespace Spelling

/-- Behind its hop letters a piece ends only where the rider of the same letters ends if nothing
blocks it. Where pieces block the rider it ends nowhere where the other ends, unless it is an
elephant. -/
theorem generate_hopper {hops r : String} (hne : hops ≠ "")
    (hhops : ∀ c ∈ hops.toList, c ∈ hopAlphabet) (hr : ∀ c ∈ r.toList, c ∈ rayAlphabet)
    (b : BaseAtom) :
    ∃ hopper passing stopping : List MoveAtom,
      compile (hops ++ r ++ String.singleton b.letter) = .ok hopper ∧
      compile ("au" ++ r ++ String.singleton b.letter) = .ok passing ∧
      compile ("a" ++ r ++ String.singleton b.letter) = .ok stopping ∧
      (∀ (g : Grid) (origin : Square), origin.InPlane → (g.board origin).isSome →
        generate hopper g.board origin ⊆ generate passing g.board origin) ∧
      (b ≠ .elephant → ∀ board origin,
        (generate hopper board origin).Disjoint (generate stopping board origin)) := by
  have hmodifier : ∀ c ∈ hopAlphabet ++ rayAlphabet, c ∈ modifierAlphabet :=
    List.forall_iff_forall_mem.mp (by decide)
  obtain ⟨before, hbefore⟩ := exists_map_letter fun c hc =>
    hmodifier c (List.mem_append_left _ (hhops c hc))
  obtain ⟨run, hrun⟩ := exists_map_letter fun c hc =>
    hmodifier c (List.mem_append_right _ (hr c hc))
  have hhopper : (hops ++ r).toList = (before ++ run).map Modifier.letter := by
    rw [String.toList_append, hbefore, hrun, List.map_append]
  have hpassing : ("au" ++ r).toList =
      ([Modifier.againRider, .unblockable] ++ run).map Modifier.letter := by
    rw [String.toList_append, hrun]
    rfl
  have hstopping : ("a" ++ r).toList = ([Modifier.againRider] ++ run).map Modifier.letter := by
    rw [String.toList_append, hrun]
    rfl
  rw [hbefore, List.forall_mem_map] at hhops
  rw [hrun, List.forall_mem_map] at hr
  have hne' : before ≠ [] := by
    rintro rfl
    exact hne (String.toList_eq_nil_iff.mp hbefore)
  have hshares {pre : List Modifier} (hagain : .againRider ∈ pre)
      (hpre : ∀ m ∈ pre, m.letter ∈ riderAlphabet) :=
    Term.sharesRays hne' hhops hagain hpre hr b
  refine ⟨_, _, _, compile_run hhopper b, compile_run hpassing b, compile_run hstopping b, ?subset,
    ?disjoint⟩
  case subset =>
    intro g origin ho hon
    have hu : (Term.atom ⟨[.againRider, .unblockable] ++ run, b⟩).modifiers.unblockable = true :=
      Term.unblockable_atom.mpr (by simp)
    simpa using (hshares (by decide) (by decide)).moves_subset hu ho hon
  case disjoint =>
    intro hb board origin
    have hu : (Term.atom ⟨[.againRider] ++ run, b⟩).modifiers.unblockable = false := by
      have hagain : ∀ m ∈ [Modifier.againRider], m.letter ∈ "a".toList := by
        decide
      rw [Bool.eq_false_iff, Ne, Term.unblockable_atom]
      exact Term.notMem_append hagain hr (by decide)
    have hspread : Delta.Spread (Term.atom ⟨before ++ run, b⟩).deltas :=
      (BaseAtom.spread_deltas hb).sublist List.filter_sublist
    simpa using (hshares (by decide) (by decide)).disjoint_moves hu (Term.hopCount_pos hne' hhops)
      hspread board origin

/-- A rook hops over two enemies to its right. The rider of its letters comes by behind them if
nothing blocks it, and takes the first of them otherwise. -/
theorem generate_hopper_of_rook :
    "gj" ≠ "" ∧ (∀ c ∈ "gj".toList, c ∈ hopAlphabet) ∧ (∀ c ∈ "r".toList, c ∈ rayAlphabet) ∧
    Square.InPlane ⟨2, 0⟩ ∧ (Grid.threeInARow.board ⟨2, 0⟩).isSome ∧
    ∃ hopper passing stopping : List MoveAtom,
      compile "gjrR" = .ok hopper ∧ compile "aurR" = .ok passing ∧ compile "arR" = .ok stopping ∧
      ⟨5, 0⟩ ∈ generate hopper Grid.threeInARow.board ⟨2, 0⟩ ∧
      ⟨5, 0⟩ ∈ generate passing Grid.threeInARow.board ⟨2, 0⟩ ∧
      ⟨5, 0⟩ ∉ generate stopping Grid.threeInARow.board ⟨2, 0⟩ := by
  have hne : "gj" ≠ "" := by
    decide
  have hhops : ∀ c ∈ "gj".toList, c ∈ hopAlphabet := List.forall_iff_forall_mem.mp (by decide)
  have hr : ∀ c ∈ "r".toList, c ∈ rayAlphabet := List.forall_iff_forall_mem.mp (by decide)
  have ho : Square.InPlane ⟨2, 0⟩ := by
    decide
  have hon : (Grid.threeInARow.board ⟨2, 0⟩).isSome := rfl
  obtain ⟨hopper, passing, stopping, hhopper, hpassing, hstopping, hsubset, hdisjoint⟩ :=
    generate_hopper hne hhops hr .rook
  have hcompile : compile "gjrR" = .ok [Term.atom ⟨[.grasshopper, .cannon, .right], .rook⟩] := rfl
  obtain rfl := Except.ok.inj (hcompile.symm.trans hhopper)
  have hmem : ⟨5, 0⟩ ∈ generate [Term.atom ⟨[.grasshopper, .cannon, .right], .rook⟩]
      Grid.threeInARow.board ⟨2, 0⟩ := by
    decide +kernel
  exact ⟨hne, hhops, hr, ho, hon, _, passing, stopping, hhopper, hpassing, hstopping, hmem,
    hsubset Grid.threeInARow ⟨2, 0⟩ ho hon hmem, hdisjoint nofun Grid.threeInARow.board ⟨2, 0⟩ hmem⟩

/-- The long deltas of the elephant lead by the hurdles of its short ones. -/
example : ⟨2, 2⟩ ∈ (Term.atom ⟨[.grasshopper], .elephant⟩).moves
      ((Grid.empty 3 3).set 1 1 .friendly).board ⟨0, 0⟩ ∧
    ⟨2, 2⟩ ∈ (Term.atom ⟨[.againRider], .elephant⟩).moves
      ((Grid.empty 3 3).set 1 1 .friendly).board ⟨0, 0⟩ := by
  decide +kernel

end Spelling

end FairyMoves
