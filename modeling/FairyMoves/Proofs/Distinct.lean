import FairyMoves.Proofs.Away
import FairyMoves.Proofs.Compiled
import FairyMoves.Proofs.Walks
import Mathlib.Algebra.Order.Ring.Int
import Mathlib.Data.List.Pairwise
import Mathlib.Tactic.Ring

/-!
# No square twice

An atom lists a square at most once, because no two of its deltas point the same way. The elephant
is the exception among the base atoms: its long deltas are twice its short ones. It still leaps to
distinct squares, and as a zigzag it uses two of its short deltas only, but its other slides and its
hops can meet on a square.

## Main definitions

* `Delta.Aligned`, `Delta.Spread` — two deltas point the same way; no two of a list do
* `Slide.used` — the deltas that the slides of an atom use
* `MoveAtom.Overlaps` — an elephant that hops, or that slides and does not zigzag

## Main results

* `Delta.Spread.eq_of_leadsTo` — at most one of a list of spread deltas leads to a square
* `Leap.nodup_moves`, `Slide.nodup_moves`, `Hop.nodup_moves` — the three kinds of moves
* `Spelling.nodup_moves_of_compile` — the atoms of a text list no square twice
-/

namespace FairyMoves

/-! ## Deltas that point the same way -/

namespace Delta

variable {d e : Delta} {ds es : List Delta}

/-- Two deltas point the same way: they lie on one line, and on the same side of it. -/
def Aligned (d e : Delta) : Prop := d.dx * e.dy = d.dy * e.dx ∧ 0 < d.dx * e.dx + d.dy * e.dy

instance (d e : Delta) : Decidable (d.Aligned e) :=
  inferInstanceAs (Decidable (_ ∧ _))

theorem Aligned.symm (h : d.Aligned e) : e.Aligned d := by
  obtain ⟨hcross, hdot⟩ := h
  refine ⟨?_, ?_⟩
  · rw [mul_comm e.dx, mul_comm e.dy, hcross]
  · rwa [mul_comm e.dx, mul_comm e.dy]

theorem sq_add_sq_pos (hd : d ≠ .zero) : 0 < d.dx * d.dx + d.dy * d.dy := by
  rcases dx_ne_zero_or_dy_ne_zero hd with hne | hne
  · exact add_pos_of_pos_of_nonneg (mul_self_pos.mpr hne) (mul_self_nonneg d.dy)
  · exact add_pos_of_nonneg_of_pos (mul_self_nonneg d.dx) (mul_self_pos.mpr hne)

/-- Deltas with a common multiple point the same way. -/
theorem aligned_of_scaled_eq (hd : d ≠ .zero) {k k' : Int} (hk : 0 < k) (hk' : 0 < k')
    (h : d.scaled k = e.scaled k') : d.Aligned e := by
  simp only [scaled, mk.injEq] at h
  obtain ⟨hx, hy⟩ := h
  have hpos : 0 < k * k' := Int.mul_pos hk hk'
  constructor
  · refine Int.eq_of_mul_eq_mul_left (Int.ne_of_gt hpos) ?_
    calc k * k' * (d.dx * e.dy) = (d.dx * k) * (e.dy * k') := by ring
      _ = (d.dy * k) * (e.dx * k') := by rw [hx, ← hy]; ring
      _ = k * k' * (d.dy * e.dx) := by ring
  · refine (mul_pos_iff_of_pos_left hpos).mp ?_
    calc 0 < k * k * (d.dx * d.dx + d.dy * d.dy) :=
          Int.mul_pos (Int.mul_pos hk hk) (sq_add_sq_pos hd)
      _ = (d.dx * k) * (d.dx * k) + (d.dy * k) * (d.dy * k) := by ring
      _ = (d.dx * k) * (e.dx * k') + (d.dy * k) * (e.dy * k') := by rw [← hx, ← hy]
      _ = k * k' * (d.dx * e.dx + d.dy * e.dy) := by ring

theorem LeadsTo.aligned {s t : Square} (hd : d ≠ .zero) (h : d.LeadsTo s t) (h' : e.LeadsTo s t) :
    d.Aligned e := by
  obtain ⟨k, hk, rfl⟩ := h
  obtain ⟨k', hk', hsame⟩ := h'
  have hscaled : d.scaled k = e.scaled k' := by
    simpa [Square.offset, scaled] using hsame
  exact aligned_of_scaled_eq hd (Int.natCast_pos.mpr hk) (Int.natCast_pos.mpr hk') hscaled

/-- No two of the deltas point the same way. -/
def Spread (ds : List Delta) : Prop := ds.Pairwise fun d e => ¬ d.Aligned e

instance (ds : List Delta) : Decidable (Spread ds) :=
  inferInstanceAs (Decidable (ds.Pairwise fun d e => ¬ d.Aligned e))

namespace Spread

theorem sublist (h : Spread es) (hds : ds.Sublist es) : Spread ds := List.Pairwise.sublist hds h

/-- At most one of them leads to a square. -/
theorem eq_of_leadsTo (h : Spread ds) (hz : .zero ∉ ds) (hd : d ∈ ds) (he : e ∈ ds) {s t : Square}
    (hdt : d.LeadsTo s t) (het : e.LeadsTo s t) : d = e := by
  have hsymm : Std.Symm fun d e : Delta => ¬ d.Aligned e := ⟨fun _ _ hnot h => hnot h.symm⟩
  by_contra hne
  exact List.Pairwise.forall h hd he hne (hdt.aligned (ne_of_mem_of_not_mem hd hz) het)

end Spread

end Delta

/-! ## The tables -/

theorem BaseAtom.spread_deltas {b : BaseAtom} (hb : b ≠ .elephant) : Delta.Spread b.deltas := by
  cases b with
  | elephant => exact absurd rfl hb
  | _ => decide

/-- Every direction leaves two of the short deltas of the elephant, and these come first. -/
theorem BaseAtom.spread_take_elephant (set : ModifierSet) :
    Delta.Spread ((elephant.deltas.filter set.allows).take 2) := by
  unfold ModifierSet.allows
  rcases set.allowedDirections with _ | ⟨forward, backward, left, right⟩
  · decide
  · cases forward <;> cases backward <;> cases left <;> cases right <;> decide

/-! ## Leaps -/

variable {a : MoveAtom} {board : Board} {origin s : Square} {d : Delta} {set : ModifierSet}

theorem Square.eq_of_along_eq {e : Delta} {k : Nat} (hk : 0 < k)
    (h : origin.along d k = origin.along e k) : d = e := by
  have hne : (k : Int) ≠ 0 := by
    omega
  simp only [along, offset, Delta.scaled, mk.injEq, Int.add_right_inj,
    Int.mul_eq_mul_right_iff hne] at h
  obtain ⟨dx, dy⟩ := d
  obtain ⟨ex, ey⟩ := e
  rw [Delta.mk.injEq]
  exact h

theorem Leap.nodup_moves (h : a.deltas.Nodup) : (moves a board origin).Nodup := by
  refine List.pairwise_filterMap.mpr (h.imp fun hne s hs t ht => ?_)
  rintro rfl
  rw [eq_along_of_destination? hs] at ht
  refine hne (Square.eq_of_along_eq ?_ (eq_along_of_destination? ht))
  split <;> decide

/-! ## Hops -/

theorem Hop.nodup_moves (h : Delta.Spread a.deltas) (hnodup : a.deltas.Nodup)
    (hz : .zero ∉ a.deltas) : (moves a board origin).Nodup := by
  refine List.pairwise_filterMap.mpr (hnodup.imp_of_mem fun {d e} hd he hne s hs t ht => ?_)
  rintro rfl
  exact hne (h.eq_of_leadsTo hz hd he
    (leadsTo_of_destination? (ne_of_mem_of_not_mem hd hz) hs)
    (leadsTo_of_destination? (ne_of_mem_of_not_mem he hz) ht))

/-! ## Slides -/

namespace Slide

variable {course : Course}

/-- The deltas that the slides of an atom use. A zigzag uses the first two only. -/
def used (a : MoveAtom) : List Delta := if a.modifiers.zigzag then a.deltas.take 2 else a.deltas

theorem used_sublist (a : MoveAtom) : (used a).Sublist a.deltas := by
  unfold used
  split
  · exact List.take_sublist 2 a.deltas
  · exact List.Sublist.refl a.deltas

theorem mem_used_of_mem_courses (h : course ∈ courses a) (step : Nat) : course step ∈ used a := by
  have hmem := mem_deltas_of_mem_courses h step
  cases hz : a.modifiers.zigzag with
  | false => simpa [used, hz] using hmem
  | true =>
    match hdeltas : a.deltas with
    | odd :: even :: rest =>
      rw [courses_of_zigzag hz hdeltas] at h
      obtain rfl := List.mem_singleton.mp h
      rw [used, if_pos hz, hdeltas, zigzag]
      split <;> simp
    | [_] => simpa [used, hz, hdeltas] using hmem
    | [] => simp [hdeltas] at hmem

/-- Of two courses neither ever takes a delta of the other. -/
theorem pairwise_courses (h : a.deltas.Nodup) :
    (courses a).Pairwise fun course course' => ∀ k k', course k ≠ course' k' := by
  unfold courses
  split
  case h_1 => exact List.pairwise_singleton _ _
  case h_2 => exact List.pairwise_map.mpr (h.imp fun hne _ _ => hne)

/-- A slide comes to no square twice, not even a zigzag. -/
theorem nodup_walk (h : Delta.Spread (used a)) (hz : .zero ∉ used a)
    (hcourse : course ∈ courses a) : (walk a board origin course).Nodup := by
  have hwalk : IsWalk a board origin course 1 (walk a board origin course) := isWalk_walkFrom 1
  obtain ⟨ks, hlt, hmem, hsquares⟩ := hwalk
  rw [hsquares]
  refine List.Nodup.map_on (fun k hk k' hk' hsame => ?_) (hlt.imp Nat.ne_of_lt)
  have hpos : 0 < k := ((hmem k).mp hk).first_le
  have hpos' : 0 < k' := ((hmem k').mp hk').first_le
  have hused := mem_used_of_mem_courses hcourse k
  have hused' := mem_used_of_mem_courses hcourse k'
  -- One square comes from one delta, and then from one multiple of it.
  have hdelta : course k = course k' :=
    h.eq_of_leadsTo hz hused hused' ⟨k, hpos, rfl⟩ ⟨k', hpos', hsame⟩
  rw [hdelta] at hsame
  exact Int.ofNat_inj.mp (Square.eq_of_offset_scaled_eq (ne_of_mem_of_not_mem hused' hz) hsame)

theorem nodup_moves (h : Delta.Spread (used a)) (hnodup : a.deltas.Nodup) (hz : .zero ∉ a.deltas) :
    (moves a board origin).Nodup := by
  have hzused : .zero ∉ used a := fun hzero => hz ((used_sublist a).subset hzero)
  rw [moves, List.nodup_flatMap]
  refine ⟨fun course hcourse => nodup_walk h hzused hcourse, ?_⟩
  refine (pairwise_courses hnodup).imp_of_mem fun hc hc' hne => ?_
  refine List.disjoint_left.mpr fun s hs hs' => ?_
  obtain ⟨k, hk⟩ := exists_leadsTo_of_mem_walk hs
  obtain ⟨k', hk'⟩ := exists_leadsTo_of_mem_walk hs'
  exact hne k k' (h.eq_of_leadsTo hzused (mem_used_of_mem_courses hc k)
    (mem_used_of_mem_courses hc' k') hk hk')

end Slide

/-! ## Atoms -/

/-- The elephant's deltas come in pairs that point the same way, so that its hops overlap, and its
slides as well unless they zigzag. -/
def MoveAtom.Overlaps (a : MoveAtom) : Prop :=
  a.base = .elephant ∧ (a.kind = .hop ∨ a.kind = .slide ∧ a.modifiers.zigzag = false)

theorem MoveAtom.spread_used_ofBase {b : BaseAtom} (hslide : (ofBase b set).kind = .slide)
    (h : ¬ (ofBase b set).Overlaps) : Delta.Spread (Slide.used (ofBase b set)) := by
  by_cases hb : b = .elephant
  · subst hb
    have hz : (ofBase .elephant set).modifiers.zigzag = true := by
      by_contra hoff
      exact h ⟨rfl, .inr ⟨hslide, Bool.eq_false_iff.mpr hoff⟩⟩
    rw [Slide.used, if_pos hz]
    exact BaseAtom.spread_take_elephant set
  · exact (BaseAtom.spread_deltas hb).sublist
      ((Slide.used_sublist _).trans List.filter_sublist)

/-- An atom of a base letter lists no square twice, unless its moves overlap. -/
theorem MoveAtom.nodup_moves_ofBase {b : BaseAtom} (h : ¬ (ofBase b set).Overlaps) (board : Board)
    (origin : Square) : ((ofBase b set).moves board origin).Nodup := by
  have htabled := tabled_deltas_ofBase b set
  cases hkind : (ofBase b set).kind with
  | leap =>
    rw [moves, hkind]
    exact Leap.nodup_moves htabled.nodup
  | slide =>
    rw [moves, hkind]
    exact Slide.nodup_moves (spread_used_ofBase hkind h) htabled.nodup htabled.zero_notMem
  | hop =>
    rw [moves, hkind]
    have hb : b ≠ .elephant := fun hb => h ⟨hb, .inl hkind⟩
    exact Hop.nodup_moves ((BaseAtom.spread_deltas hb).sublist List.filter_sublist) htabled.nodup
      htabled.zero_notMem

/-- Atoms that list no square twice list it, all together, as often as there are atoms among them
that list it. -/
theorem count_generate {atoms : List MoveAtom}
    (h : ∀ a ∈ atoms, (a.moves board origin).Nodup) (s : Square) :
    (generate atoms board origin).count s =
      atoms.countP fun a => decide (s ∈ a.moves board origin) := by
  induction atoms with
  | nil => rfl
  | cons a atoms ih =>
    rw [generate_cons, List.count_append, List.countP_cons,
      ih fun b hb => h b (List.mem_cons_of_mem a hb), Nat.add_comm,
      (h a List.mem_cons_self).count]
    simp only [decide_eq_true_eq]

/-- A compiled atom lists no square twice, unless it is an elephant whose moves overlap. So a square
that is listed more than once is one of more than one atom. -/
theorem Spelling.nodup_moves_of_compile {source : String} {atoms : List MoveAtom}
    (h : compile source = .ok atoms) :
    (∀ a ∈ atoms, ¬ a.Overlaps → ∀ board origin, (a.moves board origin).Nodup) ∧
    ∀ as : List MoveAtom, (∀ a ∈ as, a ∈ atoms ∧ ¬ a.Overlaps) → ∀ board origin s,
      (generate as board origin).count s =
        as.countP fun a => decide (s ∈ a.moves board origin) := by
  have hnodup : ∀ a ∈ atoms, ¬ a.Overlaps → ∀ board origin, (a.moves board origin).Nodup := by
    intro a ha hoverlaps board origin
    obtain ⟨b, set, rfl⟩ := exists_ofBase_of_compile h ha
    exact MoveAtom.nodup_moves_ofBase hoverlaps board origin
  refine ⟨hnodup, fun as has board origin s => count_generate (fun a ha => ?_) s⟩
  obtain ⟨hmem, hoverlaps⟩ := has a ha
  exact hnodup a hmem hoverlaps board origin

/-- An elephant that zigzags, one that leaps on over what it takes, and a queen. -/
theorem Spelling.nodup_moves_of_compile_elephants :
    compile "azEyEQ" = .ok [Term.atom ⟨[.againRider, .zigzag], .elephant⟩,
      Term.atom ⟨[.captureThenLeap], .elephant⟩, Term.atom ⟨[], .queen⟩] ∧
    ¬ (Term.atom ⟨[.againRider, .zigzag], .elephant⟩).Overlaps ∧
    (∀ board origin,
      ((Term.atom ⟨[.againRider, .zigzag], .elephant⟩).moves board origin).Nodup) := by
  have hcompile : compile "azEyEQ" = .ok [Term.atom ⟨[.againRider, .zigzag], .elephant⟩,
      Term.atom ⟨[.captureThenLeap], .elephant⟩, Term.atom ⟨[], .queen⟩] := rfl
  have hoverlaps : ¬ (Term.atom ⟨[.againRider, .zigzag], .elephant⟩).Overlaps := by
    rintro ⟨-, hkind | ⟨-, hstraight⟩⟩
    · cases hkind
    · cases hstraight
  exact ⟨hcompile, hoverlaps,
    (nodup_moves_of_compile hcompile).1 _ List.mem_cons_self hoverlaps⟩

end FairyMoves
