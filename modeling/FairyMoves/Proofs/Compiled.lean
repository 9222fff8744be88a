import FairyMoves.Proofs.Alike
import FairyMoves.Proofs.Mirror
import Mathlib.Data.List.Nodup

/-!
# What compiled atoms are made of

The parts of a compiled atom are not independent of each other. They all come from one run of
letters and one base letter, and stay in step however the letters are mixed: the kind goes with the
number of hops, the limit with the kind, and the deltas with the allowed directions. A list of
deltas is short enough for an atom to hold it, and no two entries of it are equal. A side of the
board turns the deltas around and leaves the rest alone.

## Main definitions

* `Modifier.directionLetters`, `BaseAtom.riders` — the letters for directions, and the atoms that
  slide
* `Delta.Within` — how far a delta reaches at most
* `Delta.Tabled` — what the lists of deltas of compiled atoms have in common
* `Term.MakesUp` — an atom is made of the letters of a term
* `Geometry.Keeps` — a side of the board sees the deltas of an atom turned, and the rest as it is

## Main results

* `Modifier.length_hops` — hops are counted letter by letter
* `BaseAtom.tabled_deltas` — the tables of the base atoms
* `Term.makesUp_atom` — every term makes up its atom
* `Geometry.keeps` — either side of the board keeps an atom whose deltas it can hold
* `Spelling.makesUp_of_compile` — the atoms of a text, term by term, and as each side sees them
-/

namespace FairyMoves

/-! ## Letters -/

/-- The letters that restrict a piece to directions. -/
def Modifier.directionLetters : List Modifier :=
  [.forward, .backward, .left, .right, .vertical, .sideways]

/-- The base atoms that slide without being asked to. -/
def BaseAtom.riders : List BaseAtom := [.nightrider, .rook, .bishop, .queen]

theorem Modifier.directions_ne_nil_iff {m : Modifier} :
    m.directions ≠ [] ↔ m ∈ directionLetters := by
  cases m <;> decide

theorem BaseAtom.defaultKind_eq_slide_iff {b : BaseAtom} : b.defaultKind = .slide ↔ b ∈ riders := by
  cases b <;> decide

theorem Modifier.length_hops (run : List Modifier) :
    (run.filterMap hopStyle?).length = run.count .grasshopper + run.count .cannon := by
  induction run with
  | nil => rfl
  | cons m run ih =>
    rw [List.filterMap_cons, List.count_cons, List.count_cons]
    cases m with
    | grasshopper | cannon => simp [hopStyle?, ih, Nat.add_right_comm, Nat.add_assoc]
    | _ => simp [hopStyle?, ih]

/-! ## Lists of deltas -/

/-- The delta reaches at most `n` squares far in each of its components. -/
def Delta.Within (n : Nat) (d : Delta) : Prop := d.dx.natAbs ≤ n ∧ d.dy.natAbs ≤ n

instance (n : Nat) (d : Delta) : Decidable (d.Within n) :=
  inferInstanceAs (Decidable (d.dx.natAbs ≤ n ∧ d.dy.natAbs ≤ n))

/-- A list of deltas out of one table: an atom can hold them, they are distinct, none of them leads
nowhere, and none reaches further than four squares. -/
structure Delta.Tabled (ds : List Delta) : Prop where
  length_le : ds.length ≤ maxDeltas
  nodup : ds.Nodup
  zero_notMem : .zero ∉ ds
  within : ∀ d ∈ ds, d.Within 4

theorem Delta.Tabled.sublist {ds es : List Delta} (h : Tabled es) (hds : ds.Sublist es) :
    Tabled ds where
  length_le := Nat.le_trans hds.length_le h.length_le
  nodup := h.nodup.sublist hds
  zero_notMem hz := h.zero_notMem (hds.subset hz)
  within d hd := h.within d (hds.subset hd)

theorem BaseAtom.tabled_deltas (b : BaseAtom) : Delta.Tabled b.deltas where
  length_le := b.length_deltas_le
  nodup := by cases b <;> decide
  zero_notMem := b.zero_notMem_deltas
  within := by cases b <;> decide

/-! ## Atoms and their modifiers -/

namespace MoveAtom

variable {b : BaseAtom} {set : ModifierSet}

theorem tabled_deltas_ofBase (b : BaseAtom) (set : ModifierSet) :
    Delta.Tabled (ofBase b set).deltas :=
  b.tabled_deltas.sublist List.filter_sublist

theorem kindOf_eq_hop_iff : kindOf b set = .hop ↔ 0 < set.hopCount := by
  unfold kindOf
  split
  case isTrue h => exact iff_of_true rfl h
  case isFalse h => split <;> simp [h]

theorem kindOf_eq_slide_iff :
    kindOf b set = .slide ↔ set.hopCount = 0 ∧ (set.againRider ∨ b ∈ BaseAtom.riders) := by
  rw [← BaseAtom.defaultKind_eq_slide_iff]
  unfold kindOf
  split
  case isTrue h => simp [Nat.pos_iff_ne_zero.mp h]
  case isFalse h =>
    rw [Nat.eq_zero_of_not_pos h]
    split
    case isTrue hslides => simpa using hslides
    case isFalse hleaps => simpa using hleaps

theorem kindOf_eq_leap_iff :
    kindOf b set = .leap ↔ set.hopCount = 0 ∧ ¬ (set.againRider ∨ b ∈ BaseAtom.riders) := by
  have hleap : kindOf b set = .leap ↔ kindOf b set ≠ .hop ∧ kindOf b set ≠ .slide := by
    cases kindOf b set <;> decide
  rw [hleap, Ne, Ne, kindOf_eq_hop_iff, kindOf_eq_slide_iff, Nat.not_lt, Nat.le_zero]
  exact and_congr_right fun hzero => by rw [hzero, eq_self, true_and]

theorem limitOf_eq (kind : MoveKind) :
    limitOf kind = if kind = .leap then .bounded 1 else .unbounded := by
  cases kind <;> rfl

end MoveAtom

theorem ModifierSet.not_gated_normalized (set : ModifierSet)
    (hleap : set.normalized.captureThenLeap) :
    set.normalized.mustCaptureFirst = false ∧ set.normalized.mustNotCaptureFirst = false := by
  rw [captureThenLeap_normalized] at hleap
  rw [normalized, if_pos hleap]
  exact ⟨rfl, rfl⟩

/-- The modifiers allow a delta just when one of the directions that they allow agrees with it. -/
theorem ModifierSet.allows_iff {set : ModifierSet} {d : Delta} :
    set.allows d ↔
      ∀ dirs, set.allowedDirections = some dirs → ∃ dir, dirs.contains dir ∧ dir.agrees d := by
  unfold allows
  cases set.allowedDirections with
  | none => simp
  | some dirs => simp [Directions.allows_iff]

/-! ## Terms -/

namespace Term

/-- An atom is made of the letters of a term. -/
structure MakesUp (t : Term) (a : MoveAtom) : Prop where
  base : a.base = t.base
  hopCount : a.hopCount = t.run.count .grasshopper + t.run.count .cannon
  hopStyle : a.hopStyle.isSome ↔ 0 < a.hopCount
  hop : a.kind = .hop ↔ 0 < a.hopCount
  slide : a.kind = .slide ↔ a.hopCount = 0 ∧ (.againRider ∈ t.run ∨ t.base ∈ BaseAtom.riders)
  leap : a.kind = .leap ↔ a.hopCount = 0 ∧ ¬ (.againRider ∈ t.run ∨ t.base ∈ BaseAtom.riders)
  limit : a.limit = if a.kind = .leap then .bounded 1 else .unbounded
  /-- A piece that leaps on has no gate on its first capture. -/
  gates : a.modifiers.captureThenLeap →
    a.modifiers.mustCaptureFirst = false ∧ a.modifiers.mustNotCaptureFirst = false
  restricted : a.modifiers.allowedDirections.isSome ↔ ∃ m ∈ t.run, m ∈ Modifier.directionLetters
  /-- The allowed directions are those of the letters, one at least. -/
  directions : ∀ dirs, a.modifiers.allowedDirections = some dirs →
    (∃ dir, dirs.contains dir) ∧ ∀ dir, dirs.contains dir ↔ dir ∈ t.directions
  /-- The deltas are entries of the table, in its order. -/
  sublist : a.deltas.Sublist t.base.deltas
  /-- They are all entries that agree with an allowed direction, if there are such. -/
  mem_deltas : ∀ d, d ∈ a.deltas ↔ d ∈ t.base.deltas ∧
    ∀ dirs, a.modifiers.allowedDirections = some dirs → ∃ dir, dirs.contains dir ∧ dir.agrees d
  tabled : Delta.Tabled a.deltas

variable {t : Term}

theorem hopCount_atom (t : Term) : t.atom.hopCount = t.hops.length := by
  rw [atom, MoveAtom.ofBase, MoveAtom.hopCount, ModifierSet.hopCount_normalized,
    ModifierSet.hopCount_ofRun, hops]

theorem allowedDirections_atom (t : Term) :
    t.atom.modifiers.allowedDirections =
      if t.directions = [] then none else some (.ofList t.directions) := by
  rw [atom, MoveAtom.ofBase, ModifierSet.allowedDirections_normalized,
    ModifierSet.allowedDirections_ofRun, directions]

theorem againRider_ofRun : (ModifierSet.ofRun t.run).againRider ↔ .againRider ∈ t.run :=
  ModifierSet.switch_ofRun_iff (m := .againRider) rfl

theorem directions_ne_nil_iff : t.directions ≠ [] ↔ ∃ m ∈ t.run, m ∈ Modifier.directionLetters := by
  simp only [← Modifier.directions_ne_nil_iff, directions, Ne, List.flatMap_eq_nil_iff, not_forall,
    exists_prop]

theorem makesUp_atom (t : Term) : t.MakesUp t.atom where
  base := rfl
  hopCount := by rw [hopCount_atom, hops, Modifier.length_hops]
  hopStyle := by rw [hopCount_atom, hopStyle_atom, List.getLast?_isSome, List.length_pos_iff]
  hop := MoveAtom.kindOf_eq_hop_iff.trans (by rw [hopCount_atom, ModifierSet.hopCount_ofRun, hops])
  slide := by
    rw [hopCount_atom, hops, ← ModifierSet.hopCount_ofRun, ← againRider_ofRun]
    exact MoveAtom.kindOf_eq_slide_iff
  leap := by
    rw [hopCount_atom, hops, ← ModifierSet.hopCount_ofRun, ← againRider_ofRun]
    exact MoveAtom.kindOf_eq_leap_iff
  limit := MoveAtom.limitOf_eq t.atom.kind
  gates := ModifierSet.not_gated_normalized (.ofRun t.run)
  restricted := by
    rw [allowedDirections_atom, ← directions_ne_nil_iff]
    split <;> simp [*]
  directions dirs hdirs := by
    rw [allowedDirections_atom] at hdirs
    split at hdirs
    case isTrue => cases hdirs
    case isFalse hne =>
      obtain rfl := Option.some.inj hdirs
      obtain ⟨dir, hdir⟩ := List.exists_mem_of_ne_nil _ hne
      exact ⟨⟨dir, Directions.contains_ofList.mpr hdir⟩, fun _ => Directions.contains_ofList⟩
  sublist := List.filter_sublist
  mem_deltas d := by
    have hallows : t.atom.modifiers.allows = (ModifierSet.ofRun t.run).allows :=
      MoveAtom.allows_normalized (.ofRun t.run)
    rw [← ModifierSet.allows_iff, hallows]
    exact List.mem_filter
  tabled := MoveAtom.tabled_deltas_ofBase t.base (.ofRun t.run)

end Term

/-! ## Sides of the board -/

/-- A side of the board sees as many deltas, as distinct and as long as they are, and the rest of
the atom as it is. -/
structure Geometry.Keeps (geometry : Geometry) (a : MoveAtom) : Prop where
  length : (geometry.apply a).deltas.length = a.deltas.length
  nodup : (geometry.apply a).deltas.Nodup ↔ a.deltas.Nodup
  zero_mem : .zero ∈ (geometry.apply a).deltas ↔ .zero ∈ a.deltas
  within : ∀ n, (∀ d ∈ (geometry.apply a).deltas, d.Within n) ↔ ∀ d ∈ a.deltas, d.Within n
  rest : { geometry.apply a with deltas := a.deltas } = a

namespace Geometry

theorem flipped_eq_zero_iff {d : Delta} : d.flipped = .zero ↔ d = .zero := by
  constructor
  · intro h
    rw [← d.flipped_flipped, h]
    rfl
  · rintro rfl
    rfl

theorem within_flipped_iff {n : Nat} {d : Delta} : d.flipped.Within n ↔ d.Within n := by
  rw [Delta.Within, Delta.Within, Delta.flipped, Int.natAbs_neg]

theorem deltas_apply_flipped {a : MoveAtom} (h : a.deltas.length ≤ maxDeltas) :
    (flipped.apply a).deltas = a.deltas.map Delta.flipped :=
  List.take_of_length_le (by rwa [List.length_map])

/-- Either side of the board keeps an atom that has few enough deltas to be held. -/
theorem keeps (geometry : Geometry) {a : MoveAtom} (h : a.deltas.length ≤ maxDeltas) :
    geometry.Keeps a := by
  cases geometry with
  | square => exact ⟨rfl, .rfl, .rfl, fun _ => .rfl, rfl⟩
  | flipped =>
    have hinjective : Function.Injective Delta.flipped :=
      Function.LeftInverse.injective Delta.flipped_flipped
    constructor
    case length => rw [deltas_apply_flipped h, List.length_map]
    case nodup => rw [deltas_apply_flipped h, List.nodup_map_iff hinjective]
    case zero_mem =>
      rw [deltas_apply_flipped h, List.mem_map]
      simp only [flipped_eq_zero_iff, exists_eq_right]
    case within =>
      intro n
      rw [deltas_apply_flipped h, List.forall_mem_map]
      simp only [within_flipped_iff]
    case rest => rfl

end Geometry

/-! ## Texts -/

/-- The atoms of a text are made of its terms, one of each. Either side of the board keeps them. -/
theorem Spelling.makesUp_of_compile {source : String} {atoms : List MoveAtom}
    (h : compile source = .ok atoms) :
    source = ofTerms (terms source) ∧ List.Forall₂ Term.MakesUp (terms source) atoms ∧
      ∀ a ∈ atoms, ∀ geometry : Geometry, geometry.Keeps a := by
  refine ⟨source_of_compile h, ?_, ?_⟩
  · rw [atoms_of_compile h, List.forall₂_map_right_iff, List.forall₂_same]
    exact fun t _ => t.makesUp_atom
  · intro a ha geometry
    exact geometry.keeps (length_deltas_of_compile h a ha)

/-- A knight with two hops in different styles and with gates that give way, a ferz that rides, and
a bishop. -/
theorem Spelling.makesUp_of_compile_mixed :
    compile "yogvxjNaslFB" = .ok [
      Term.atom ⟨[.captureThenLeap, .mustCaptureFirst, .grasshopper, .vertical,
        .mustNotCaptureFirst, .cannon], .knight⟩,
      Term.atom ⟨[.againRider, .sideways, .left], .ferz⟩, Term.atom ⟨[], .bishop⟩] ∧
    "yogvxjNaslFB" = ofTerms (terms "yogvxjNaslFB") ∧
    List.Forall₂ Term.MakesUp (terms "yogvxjNaslFB") [
      Term.atom ⟨[.captureThenLeap, .mustCaptureFirst, .grasshopper, .vertical,
        .mustNotCaptureFirst, .cannon], .knight⟩,
      Term.atom ⟨[.againRider, .sideways, .left], .ferz⟩, Term.atom ⟨[], .bishop⟩] ∧
    ∀ geometry : Geometry, geometry.Keeps (Term.atom ⟨[.againRider, .sideways, .left], .ferz⟩) := by
  have hcompile : compile "yogvxjNaslFB" = .ok [
      Term.atom ⟨[.captureThenLeap, .mustCaptureFirst, .grasshopper, .vertical,
        .mustNotCaptureFirst, .cannon], .knight⟩,
      Term.atom ⟨[.againRider, .sideways, .left], .ferz⟩, Term.atom ⟨[], .bishop⟩] := rfl
  obtain ⟨hsource, hterms, hkeeps⟩ := makesUp_of_compile hcompile
  refine ⟨hcompile, hsource, hterms, ?_⟩
  exact hkeeps _ (List.mem_cons_of_mem _ List.mem_cons_self)

end FairyMoves
