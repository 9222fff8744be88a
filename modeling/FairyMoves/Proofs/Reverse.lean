import FairyMoves.Proofs.Mirror
import FairyMoves.Proofs.Run
import FairyMoves.Proofs.Sights

/-!
# The way back

Where a piece may go from one empty square to another, it may also go back. Its deltas come in
opposite pairs, and on its way back it meets the same squares in the opposite order. Hops are an
exception, for they come down behind their last hurdle, and so are zigzags.

## Main definitions

* `Delta.reversed`, `Square.deltaTo` — the delta that leads back, and the one from a square to
  another
* `MoveAtom.Reversible`, `Term.Reversible` — nothing in an atom or a term tells the way back from
  the way there

## Main results

* `Slide.reach?_reversed` — the way back comes to the squares of the way there
* `Leap.destination?_reversed`, `Slide.mem_walk_reversed` — a leap and a slide can be taken back
* `Spelling.generate_reversible` — moves between empty squares go both ways
-/

namespace FairyMoves

/-! ## Opposite deltas -/

/-- The delta that leads back. -/
def Delta.reversed (d : Delta) : Delta := ⟨-d.dx, -d.dy⟩

/-- The delta that leads from one square to another. -/
def Square.deltaTo (s t : Square) : Delta := ⟨t.x - s.x, t.y - s.y⟩

theorem BaseAtom.reversed_mem_deltas {b : BaseAtom} (hb : b ≠ .pawn) :
    ∀ d ∈ b.deltas, d.reversed ∈ b.deltas := by
  cases b with
  | pawn => exact absurd rfl hb
  | _ => decide

theorem Square.offset?_reversed {s t : Square} {d : Delta} (hs : s.InPlane)
    (h : s.offset? d = some t) : t.offset? d.reversed = some s := by
  obtain ⟨_, rfl⟩ := offset?_eq_some_iff.mp h
  have hback : (s.offset d).offset d.reversed = s := by
    obtain ⟨x, y⟩ := s
    simp only [offset, Delta.reversed, mk.injEq]
    omega
  rw [offset?_eq_some_iff, hback]
  exact ⟨hs, rfl⟩

namespace Slide

variable {s t : Square} {d : Delta} {n : Nat}

/-- The way back comes to the squares of the way there, in the opposite order. -/
theorem reach?_reversed (hs : s.InPlane) (h : reach? s d n = some t)
    (hback : (d.reversed.scaled n).InPlane) {i : Nat} (hi : i ≤ n) :
    reach? t d.reversed i = reach? s d (n - i) := by
  obtain ⟨hmax, _, ht, rfl⟩ := reach?_eq_some_iff.mp h
  -- After `i` of the `n` steps back the remaining ones lead to the same square.
  have hsame (i : Nat) (hi : i ≤ n) :
      (s.offset (d.scaled n)).offset (d.reversed.scaled i) = s.offset (d.scaled (n - i : Nat)) := by
    simp only [Square.offset, Delta.scaled, Delta.reversed, Square.mk.injEq, Int.ofNat_sub hi,
      Int.mul_sub, Int.neg_mul]
    omega
  have horigin : (s.offset (d.scaled n)).offset (d.reversed.scaled n) = s := by
    rw [hsame n (Nat.le_refl n), Nat.sub_self]
    simp [Square.offset, Delta.scaled]
  have hfull : reach? (s.offset (d.scaled n)) d.reversed n = some s := by
    refine reach?_eq_some_iff.mpr ⟨hmax, hback, ?_, horigin⟩
    rwa [horigin]
  rw [reach?_of_le ht hfull hi, reach?_of_le hs h (Nat.sub_le n i), hsame i hi]

/-- A slide between two empty squares can be taken back, if a delta of the plane leads back. -/
theorem mem_walk_reversed {a : MoveAtom} {board : Board} (hs : s.InPlane)
    (hse : board s = some .empty) (hte : board t = some .empty)
    (hback : (t.deltaTo s).InPlane) (h : t ∈ walk a board s (straight d)) :
    s ∈ walk a board t (straight d.reversed) := by
  obtain ⟨k, hpasses, hallows, hreach, q, hq, hstop⟩ := mem_walk_iff.mp h
  simp only [straight] at hreach
  have hscaled : (d.reversed.scaled (1 + k : Nat)).InPlane := by
    obtain ⟨_, _, _, rfl⟩ := reach?_eq_some_iff.mp hreach
    have heq : d.reversed.scaled (1 + k : Nat) = (s.offset (d.scaled (1 + k : Nat))).deltaTo s := by
      simp only [Square.deltaTo, Square.offset, Delta.scaled, Delta.reversed, Delta.mk.injEq,
        Int.neg_mul]
      omega
    rwa [heq]
  have hsteps {i : Nat} (hi : i ≤ 1 + k) : reach? t d.reversed i = reach? s d (1 + k - i) :=
    reach?_reversed hs hreach hscaled hi
  have harrives : reach? t d.reversed (1 + k) = some s := by
    rw [hsteps (Nat.le_refl _), Nat.sub_self, reach?_of_le hs hreach (Nat.zero_le _)]
    simp [Square.offset, Delta.scaled]
  have hempty : q = .empty := Option.some.inj (hq.symm.trans hte)
  refine mem_walk_iff.mpr ⟨k, fun j hj => ?_, hallows, harrives, q, hempty ▸ hse, hstop⟩
  obtain ⟨_, u, hu, hgoes⟩ := hpasses (k - 1 - j) (by omega)
  refine ⟨StepLimit.allows_of_le hallows (by omega), u, ?_, hgoes⟩
  rw [straight, hsteps (by omega), ← hu, straight]
  congr 1
  omega

end Slide

/-! ## Leaps -/

namespace Leap

variable {s t : Square} {d : Delta} {board : Board}

@[simp] theorem pathSteps_reversed (d : Delta) : pathSteps d.reversed = pathSteps d := by
  have hgcd : Int.gcd d.reversed.dx d.reversed.dy = Int.gcd d.dx d.dy :=
    Int.gcd_neg.trans Int.neg_gcd
  rw [pathSteps_eq_gcd, pathSteps_eq_gcd, hgcd]

theorem unitStep_reversed {d : Delta} (hd : d.InPlane) :
    unitStep d.reversed = (unitStep d).reversed := by
  obtain ⟨hx, hy⟩ := pathSteps_dvd hd
  rw [unitStep, pathSteps_reversed, unitStep]
  simp only [Delta.reversed, Int.neg_ediv_of_dvd hx, Int.neg_ediv_of_dvd hy]

/-- A clear path is clear from its other end too. -/
theorem isPathClear_reversed (hs : s.InPlane) (hd : d.InPlane) (hd' : d.reversed.InPlane)
    (hoffset : s.offset? d = some t) (h : isPathClear board s d) :
    isPathClear board t d.reversed := by
  rw [isPathClear_iff] at h ⊢
  rw [pathSteps_reversed, unitStep_reversed hd]
  intro i hpos hlt
  obtain ⟨n, hn⟩ := Int.eq_ofNat_of_zero_le (show 0 ≤ pathSteps d by omega)
  have hwhole : (unitStep d).scaled n = d := by rw [← hn, scaled_unitStep hd]
  have hwhole' : (unitStep d).reversed.scaled n = d.reversed := by
    rw [← unitStep_reversed hd, ← hn, ← pathSteps_reversed, scaled_unitStep hd']
  have hmax : (n : Int) ≤ maxCoordinate := hn ▸ pathSteps_le d
  obtain ⟨ht, rfl⟩ := Square.offset?_eq_some_iff.mp hoffset
  have hreach : Slide.reach? s (unitStep d) n = some (s.offset d) := by
    rw [Slide.reach?_eq_some_iff, hwhole]
    exact ⟨hmax, hd, ht, rfl⟩
  -- Step `i` on the way back is step `n - i` on the way there.
  rw [Slide.reach?_reversed hs hreach (hwhole'.symm ▸ hd') (by omega)]
  exact h (n - i) (by omega) (by omega)

/-- The enemy that a piece leaps on over stands halfway, so the way back leads over it too. -/
theorem leapOn?_reversed {u : Square} {q : SquareState} (hs : s.InPlane)
    (hse : board s = some .empty) (hoffset : s.offset? d = some u)
    (h : leapOn? board d u q = some t) :
    t.offset? d.reversed = some u ∧ leapOn? board d.reversed u q = some s := by
  obtain ⟨rfl, hbeyond, _⟩ := leapOn?_eq_some_iff.mp h
  have hu : u.InPlane := by
    obtain ⟨hp, rfl⟩ := Square.offset?_eq_some_iff.mp hoffset
    exact hp
  exact ⟨Square.offset?_reversed hu hbeyond,
    leapOn?_eq_some_iff.mpr ⟨rfl, Square.offset?_reversed hs hoffset, hse⟩⟩

/-- A leap between two empty squares can be taken back. One that asks for a clear path must not leap
on, since only the first half of its way is looked at. -/
theorem destination?_reversed {set : ModifierSet} (hs : s.InPlane) (hd : d.InPlane)
    (hd' : d.reversed.InPlane) (hse : board s = some .empty) (hte : board t = some .empty)
    (hpath : set.requiresClearPath → ¬ set.captureThenLeap)
    (h : destination? set board s d = some t) : destination? set board t d.reversed = some s := by
  obtain ⟨u, q, hlook, hclear, hland⟩ := destination?_eq_some_iff_look.mp h
  obtain ⟨hoffset, hq⟩ := Board.look_eq_some_iff.mp hlook
  rw [ModifierSet.land?] at hland
  split at hland
  case isTrue hleap =>
    obtain ⟨hback, hleapOn⟩ := leapOn?_reversed hs hse hoffset hland
    have hclear' (hp : set.requiresClearPath) : isPathClear board t d.reversed :=
      absurd hleap (hpath hp)
    refine destination?_eq_some_iff_look.mpr
      ⟨u, q, Board.look_eq_some_iff.mpr ⟨hback, hq⟩, hclear', ?_⟩
    rw [ModifierSet.land?, if_pos hleap]
    exact hleapOn
  case isFalse hstays =>
    split at hland
    case isFalse => cases hland
    case isTrue hmay =>
      obtain rfl := Option.some.inj hland
      obtain rfl : q = .empty := Option.some.inj (hq.symm.trans hte)
      have hclear' (hp : set.requiresClearPath) : isPathClear board u d.reversed :=
        isPathClear_reversed hs hd hd' hoffset (hclear hp)
      refine destination?_eq_some_iff_look.mpr
        ⟨s, .empty, Board.look_eq_some_iff.mpr ⟨?_, hse⟩, hclear', ?_⟩
      · exact Square.offset?_reversed hs hoffset
      · rw [ModifierSet.land?, if_neg hstays, if_pos hmay]

end Leap

/-! ## Atoms -/

/-- Nothing in an atom tells the way back from the way there: it leaps or slides straight on, its
deltas come in opposite pairs, and if it asks for a clear path then it does not leap on. -/
structure MoveAtom.Reversible (a : MoveAtom) : Prop where
  kind : a.kind ≠ .hop
  straight : a.modifiers.zigzag = false
  inPlane : ∀ d ∈ a.deltas, d.InPlane
  reversed_mem : ∀ d ∈ a.deltas, d.reversed ∈ a.deltas
  path : a.modifiers.requiresClearPath → ¬ a.modifiers.captureThenLeap

theorem Slide.courses_of_straight {a : MoveAtom} (h : a.modifiers.zigzag = false) :
    courses a = a.deltas.map straight :=
  courses_of_not_zigzag (.inl h)

namespace MoveAtom.Reversible

variable {a : MoveAtom} {board : Board} {s t : Square}

theorem mem_moves (h : a.Reversible) (hs : s.InPlane) (hse : board s = some .empty)
    (hte : board t = some .empty) (hback : (t.deltaTo s).InPlane)
    (hmem : t ∈ a.moves board s) : s ∈ a.moves board t := by
  rw [moves] at hmem ⊢
  cases hkind : a.kind with
  | hop => exact absurd hkind h.kind
  | leap =>
    rw [hkind] at hmem
    obtain ⟨d, hd, hdest⟩ := List.mem_filterMap.mp hmem
    have hd' := h.reversed_mem d hd
    exact List.mem_filterMap.mpr ⟨d.reversed, hd',
      Leap.destination?_reversed hs (h.inPlane d hd) (h.inPlane _ hd') hse hte h.path hdest⟩
  | slide =>
    simp only [hkind, Slide.moves, Slide.courses_of_straight h.straight] at hmem ⊢
    obtain ⟨course, hcourse, hwalk⟩ := List.mem_flatMap.mp hmem
    obtain ⟨d, hd, rfl⟩ := List.mem_map.mp hcourse
    exact List.mem_flatMap.mpr ⟨Slide.straight d.reversed,
      List.mem_map.mpr ⟨d.reversed, h.reversed_mem d hd, rfl⟩,
      Slide.mem_walk_reversed hs hse hte hback hwalk⟩

end MoveAtom.Reversible

/-! ## Terms -/

/-- Nothing in a term tells the way back from the way there: it is no pawn, it has no letter for a
direction, a hop or a zigzag, and none that leaps on along with one that asks for a clear path. -/
structure Term.Reversible (t : Term) : Prop where
  base : t.base ≠ .pawn
  directions : t.directions = []
  hops : t.hops = []
  straight : .zigzag ∉ t.run
  path : .requiresClearPath ∈ t.run → .captureThenLeap ∉ t.run

namespace Term

theorem deltas_atom_of_directions {t : Term} (h : t.directions = []) :
    t.atom.deltas = t.base.deltas := by
  have hnone : (ModifierSet.ofRun t.run).allowedDirections = none := by
    rw [ModifierSet.allowedDirections_ofRun]
    exact if_pos h
  refine List.filter_eq_self.mpr fun d _ => ?_
  rw [ModifierSet.allows, hnone]

theorem kind_atom_of_hops {t : Term} (h : t.hops = []) : t.atom.kind ≠ .hop := by
  have hcount : (ModifierSet.ofRun t.run).hopCount = 0 := by
    rw [ModifierSet.hopCount_ofRun]
    exact congrArg List.length h
  have hkind : t.atom.kind = MoveAtom.kindOf t.base (.ofRun t.run) := rfl
  rw [hkind, MoveAtom.kindOf, hcount, if_neg (Nat.lt_irrefl 0)]
  split <;> decide

theorem Reversible.atom {t : Term} (h : t.Reversible) : t.atom.Reversible where
  kind := kind_atom_of_hops h.hops
  straight := Bool.eq_false_iff.mpr fun hz => h.straight (zigzag_atom.mp hz)
  inPlane d hd := BaseAtom.inPlane_of_mem_deltas d (MoveAtom.mem_deltas_ofBase hd)
  reversed_mem := by
    rw [deltas_atom_of_directions h.directions]
    exact BaseAtom.reversed_mem_deltas h.base
  path hp hy := h.path (requiresClearPath_atom.mp hp) (captureThenLeap_atom.mp hy)

end Term

theorem Grid.inPlane_deltaTo {g : Grid} {s t : Square} {q q' : SquareState} (hs : s.InPlane)
    (ht : t.InPlane) (hsq : g.board s = some q) (htq : g.board t = some q') :
    (t.deltaTo s).InPlane := by
  have hsbounds := bounds_of_get? hsq
  have htbounds := bounds_of_get? htq
  simp only [Square.InPlane, Delta.InPlane, Square.deltaTo, isCoordinate_iff] at *
  omega

/-- From one empty square of a grid to another the pieces of a text move both ways, if nothing in
its terms tells the way back from the way there. -/
theorem Spelling.generate_reversible {source : String} {atoms : List MoveAtom}
    (h : compile source = .ok atoms) (hterms : ∀ t ∈ terms source, t.Reversible) (g : Grid)
    {s t : Square} (hs : s.InPlane) (ht : t.InPlane) (hse : g.board s = some .empty)
    (hte : g.board t = some .empty) :
    t ∈ generate atoms g.board s ↔ s ∈ generate atoms g.board t := by
  have hatoms : ∀ a ∈ atoms, a.Reversible := by
    rw [atoms_of_compile h, List.forall_mem_map]
    exact fun t ht => (hterms t ht).atom
  constructor
  · intro hmem
    obtain ⟨a, ha, hmoves⟩ := mem_generate.mp hmem
    exact mem_generate.mpr ⟨a, ha, (hatoms a ha).mem_moves hs hse hte
      (Grid.inPlane_deltaTo hs ht hse hte) hmoves⟩
  · intro hmem
    obtain ⟨a, ha, hmoves⟩ := mem_generate.mp hmem
    exact mem_generate.mpr ⟨a, ha, (hatoms a ha).mem_moves ht hte hse
      (Grid.inPlane_deltaTo ht hs hte hse) hmoves⟩

/-- A grid with an enemy in its middle and a friend on its edge. -/
def Grid.enemyInTheMiddle : Grid := ((Grid.empty 5 5).set 2 2 .enemy).set 3 0 .friendly

/-- A dabbaba that rides, a rook that takes and goes on, and two leapers of which the one leaps on
over an enemy and the other asks for a clear path. -/
theorem Spelling.generate_reversible_over_enemy :
    compile "aDtRyApmA" = .ok [Term.atom ⟨[.againRider], .dabbaba⟩,
      Term.atom ⟨[.takeAndContinue], .rook⟩, Term.atom ⟨[.captureThenLeap], .alfil⟩,
      Term.atom ⟨[.requiresClearPath, .moveOnly], .alfil⟩] ∧
    (∀ t ∈ terms "aDtRyApmA", t.Reversible) ∧
    Square.InPlane ⟨0, 0⟩ ∧ Square.InPlane ⟨4, 4⟩ ∧
    Grid.enemyInTheMiddle.board ⟨0, 0⟩ = some .empty ∧
    Grid.enemyInTheMiddle.board ⟨4, 4⟩ = some .empty ∧
    (⟨4, 4⟩ ∈ generate [Term.atom ⟨[.againRider], .dabbaba⟩,
        Term.atom ⟨[.takeAndContinue], .rook⟩, Term.atom ⟨[.captureThenLeap], .alfil⟩,
        Term.atom ⟨[.requiresClearPath, .moveOnly], .alfil⟩] Grid.enemyInTheMiddle.board ⟨0, 0⟩ ↔
      ⟨0, 0⟩ ∈ generate [Term.atom ⟨[.againRider], .dabbaba⟩,
        Term.atom ⟨[.takeAndContinue], .rook⟩, Term.atom ⟨[.captureThenLeap], .alfil⟩,
        Term.atom ⟨[.requiresClearPath, .moveOnly], .alfil⟩]
          Grid.enemyInTheMiddle.board ⟨4, 4⟩) := by
  have hcompile : compile "aDtRyApmA" = .ok [Term.atom ⟨[.againRider], .dabbaba⟩,
      Term.atom ⟨[.takeAndContinue], .rook⟩, Term.atom ⟨[.captureThenLeap], .alfil⟩,
      Term.atom ⟨[.requiresClearPath, .moveOnly], .alfil⟩] := rfl
  have hterms : ∀ t ∈ terms "aDtRyApmA", t.Reversible := by
    have hsplit : terms "aDtRyApmA" = [⟨[.againRider], .dabbaba⟩, ⟨[.takeAndContinue], .rook⟩,
      ⟨[.captureThenLeap], .alfil⟩, ⟨[.requiresClearPath, .moveOnly], .alfil⟩] := rfl
    rw [hsplit]
    simp only [List.forall_mem_cons, List.not_mem_nil, false_imp_iff, implies_true, and_true]
    exact ⟨⟨by decide, rfl, rfl, by decide, by decide⟩, ⟨by decide, rfl, rfl, by decide, by decide⟩,
      ⟨by decide, rfl, rfl, by decide, by decide⟩, by decide, rfl, rfl, by decide, by decide⟩
  have hs : Square.InPlane ⟨0, 0⟩ := by
    decide
  have ht : Square.InPlane ⟨4, 4⟩ := by
    decide
  have hse : Grid.enemyInTheMiddle.board ⟨0, 0⟩ = some .empty := by
    decide
  have hte : Grid.enemyInTheMiddle.board ⟨4, 4⟩ = some .empty := by
    decide
  exact ⟨hcompile, hterms, hs, ht, hse, hte,
    generate_reversible hcompile hterms Grid.enemyInTheMiddle hs ht hse hte⟩

end FairyMoves
