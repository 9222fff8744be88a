import FairyMoves.Proofs.Compiled
import FairyMoves.Proofs.Walks
import FairyMoves.Proofs.Within

/-!
# Forward for backward

A piece can be made to play down the board in two ways: by turning its deltas over, or by writing
forward for backward and backward for forward in its spelling. Directions choose among the deltas of
the base atom before these are turned over, so the two agree just as far as the base atom looks the
same from either side, which is so for all but the pawn. Its deltas then come in another order, and
only a zigzag has an eye on their order.

## Main definitions

* `Direction.turned`, `Directions.turned`, `Modifier.turned`, `ModifierSet.turned`, `Term.turned` —
  forward for backward and backward for forward
* `Spelling.turned` — a text with `f` for `b` and `b` for `f`

## Main results

* `MoveAtom.moves_perm` — with the deltas in another order the same moves come in another order
* `BaseAtom.perm_flipped` — the deltas of a base atom are closed under turning over
* `Spelling.turned_ofTerms`, `ModifierSet.ofRun_turned` — the text of turned terms, and what they
  ask for
* `Piece.moves_flipped_perm` — the moves of a flipped piece are those of the turned text
-/

namespace FairyMoves

/-! ## The order of deltas -/

namespace MoveAtom

variable {a : MoveAtom} {board : Board} {origin : Square}

/-- The atom with other deltas, or with its own in another order. -/
def reordered (a : MoveAtom) (ds : List Delta) : MoveAtom := { a with deltas := ds }

/-- Every delta leads to its destinations whatever the others are, unless two of them make a
zigzag. -/
theorem moves_perm (hz : a.modifiers.zigzag = false) {ds : List Delta} (h : a.deltas.Perm ds) :
    (a.moves board origin).Perm ((a.reordered ds).moves board origin) := by
  have hkind : (a.reordered ds).kind = a.kind := rfl
  rw [moves, moves, hkind]
  cases a.kind with
  | leap => exact h.filterMap _
  | hop => exact h.filterMap _
  | slide =>
    have hwalk (d : Delta) : Slide.walk (a.reordered ds) board origin (Slide.straight d) =
        Slide.walk a board origin (Slide.straight d) :=
      Slide.walk_congr rfl ⟨rfl, rfl, rfl, rfl, rfl, rfl, rfl⟩
    have hz' : (a.reordered ds).modifiers.zigzag = false := hz
    simp only [Slide.moves_of_not_zigzag (.inl hz), Slide.moves_of_not_zigzag (.inl hz'), hwalk]
    exact h.flatMap_right _

end MoveAtom

/-- Atoms whose moves agree up to their order, one by one, agree so in all. -/
theorem generate_perm {as bs : List MoveAtom} {board : Board} {origin : Square}
    (h : List.Forall₂ (fun a b => (a.moves board origin).Perm (b.moves board origin)) as bs) :
    (generate as board origin).Perm (generate bs board origin) := by
  induction h with
  | nil => rfl
  | cons hab _ ih =>
    rw [generate_cons, generate_cons]
    exact hab.append ih

/-! ## Turned directions -/

/-- The direction as the other side of the board sees it. -/
def Direction.turned : Direction → Direction
  | forward => backward
  | backward => forward
  | left => left
  | right => right

theorem Direction.agrees_turned (dir : Direction) (d : Delta) :
    dir.turned.agrees d = dir.agrees d.flipped := by
  cases dir with
  | forward | backward => simp [turned, agrees, Delta.flipped]
  | left | right => rfl

namespace Directions

/-- The directions as the other side of the board sees them. -/
def turned (ds : Directions) : Directions :=
  { ds with forward := ds.backward, backward := ds.forward }

theorem contains_turned (ds : Directions) (dir : Direction) :
    ds.turned.contains dir.turned = ds.contains dir := by
  cases dir <;> rfl

theorem turned_insert (ds : Directions) (dir : Direction) :
    (ds.insert dir).turned = ds.turned.insert dir.turned := by
  cases dir <;> rfl

theorem turned_insertAll (ds : Directions) (list : List Direction) :
    (ds.insertAll list).turned = ds.turned.insertAll (list.map Direction.turned) := by
  induction list generalizing ds with
  | nil => rfl
  | cons dir list ih =>
    calc ((ds.insert dir).insertAll list).turned
        = (ds.insert dir).turned.insertAll (list.map Direction.turned) := ih (ds.insert dir)
      _ = (ds.turned.insert dir.turned).insertAll (list.map Direction.turned) := by
        rw [turned_insert]

/-- Turned directions allow a step just when the directions allow the step turned over. -/
theorem allows_turned (ds : Directions) (d : Delta) : ds.turned.allows d = ds.allows d.flipped := by
  have hturned (dir : Direction) : dir.turned.turned = dir := by
    cases dir <;> rfl
  rw [Bool.eq_iff_iff, allows_iff, allows_iff]
  constructor
  · rintro ⟨dir, hdir, hagrees⟩
    rw [← hturned dir] at hdir hagrees
    rw [contains_turned] at hdir
    rw [Direction.agrees_turned] at hagrees
    exact ⟨dir.turned, hdir, hagrees⟩
  · rintro ⟨dir, hdir, hagrees⟩
    rw [← contains_turned] at hdir
    rw [← Direction.agrees_turned] at hagrees
    exact ⟨dir.turned, hdir, hagrees⟩

end Directions

/-! ## Turned modifiers -/

/-- The letter that says for the other side of the board what this one says. -/
def Modifier.turned : Modifier → Modifier
  | forward => backward
  | backward => forward
  | m => m

namespace ModifierSet

/-- The modifiers with their directions turned. -/
def turned (set : ModifierSet) : ModifierSet :=
  { set with allowedDirections := set.allowedDirections.map Directions.turned }

theorem turned_addDirections (set : ModifierSet) (list : List Direction) :
    (set.addDirections list).turned = set.turned.addDirections (list.map Direction.turned) := by
  simp only [turned, addDirections, Option.map_some, Directions.turned_insertAll]
  cases set.allowedDirections <;> rfl

theorem turned_insert (set : ModifierSet) (m : Modifier) :
    (set.insert m).turned = set.turned.insert m.turned := by
  cases m with
  | forward | backward | left | right => exact turned_addDirections set _
  | vertical | sideways => exact turned_addDirections set _
  | _ => rfl

theorem insertRun_turned (set : ModifierSet) (run : List Modifier) :
    set.turned.insertRun (run.map Modifier.turned) = (set.insertRun run).turned := by
  induction run generalizing set with
  | nil => rfl
  | cons m run ih => rw [List.map_cons, insertRun_cons, insertRun_cons, ← turned_insert, ih]

theorem ofRun_turned (run : List Modifier) : ofRun (run.map Modifier.turned) = (ofRun run).turned :=
  insertRun_turned empty run

theorem normalized_turned (set : ModifierSet) : set.turned.normalized = set.normalized.turned := by
  cases h : set.captureThenLeap <;> simp [normalized, turned, h]

theorem allows_turned (set : ModifierSet) (d : Delta) :
    set.turned.allows d = set.allows d.flipped := by
  cases h : set.allowedDirections with
  | none => simp [allows, turned, h]
  | some ds => simp [allows, turned, h, Directions.allows_turned]

end ModifierSet

/-! ## Turned atoms -/

/-- Each delta of a base atom is also there turned over, and as often. The pawn has but one
delta. -/
theorem BaseAtom.perm_flipped {b : BaseAtom} (hb : b ≠ .pawn) :
    (b.deltas.map Delta.flipped).Perm b.deltas := by
  cases b with
  | pawn => exact absurd rfl hb
  | _ => decide

/-- Choosing among the deltas and turning them over leaves the same deltas as choosing by the turned
directions. -/
theorem MoveAtom.deltas_flipped_perm {b : BaseAtom} (hb : b ≠ .pawn) (set : ModifierSet) :
    ((ofBase b set).deltas.map Delta.flipped).Perm (ofBase b set.turned).deltas := by
  have hallows : set.allows = set.turned.allows ∘ Delta.flipped := by
    funext d
    rw [Function.comp_apply, ModifierSet.allows_turned, Delta.flipped_flipped]
  calc (b.deltas.filter set.allows).map Delta.flipped
      = (b.deltas.map Delta.flipped).filter set.turned.allows := by rw [hallows, List.filter_map]
    List.Perm _ (b.deltas.filter set.turned.allows) := (BaseAtom.perm_flipped hb).filter _

/-- The atom with its directions turned, after they have chosen its deltas. -/
def MoveAtom.turned (a : MoveAtom) : MoveAtom := { a with modifiers := a.modifiers.turned }

theorem MoveAtom.moves_turned (a : MoveAtom) (board : Board) (origin : Square) :
    a.turned.moves board origin = a.moves board origin :=
  a.moves_withModifiers a.base (a.modifiers.within_withDirections _) board origin

namespace Term

/-- The term with forward for backward and backward for forward. -/
def turned (t : Term) : Term := { t with run := t.run.map Modifier.turned }

variable {t : Term}

/-- The atom of a turned term differs from the flipped atom in the order of its deltas, and in the
directions that have chosen them. -/
theorem atom_turned (t : Term) : t.turned.atom = t.atom.turned.reordered t.turned.atom.deltas := by
  have hset : ModifierSet.ofRun t.turned.run = (ModifierSet.ofRun t.run).turned :=
    ModifierSet.ofRun_turned t.run
  have hnormal : (ModifierSet.ofRun t.run).turned.normalized =
      (ModifierSet.ofRun t.run).normalized.turned := ModifierSet.normalized_turned _
  simp only [atom, MoveAtom.ofBase, hset, hnormal]
  rfl

/-- The atom of a term, flipped, has the moves of the turned term. -/
theorem moves_turned_perm (hz : .zigzag ∉ t.run) (hb : t.base ≠ .pawn) (board : Board)
    (origin : Square) :
    ((Geometry.flipped.apply t.atom).moves board origin).Perm
      (t.turned.atom.moves board origin) := by
  have hlength : t.atom.deltas.length ≤ maxDeltas := MoveAtom.length_deltas_ofBase _ _
  have hstraight : (Geometry.flipped.apply t.atom).modifiers.zigzag = false :=
    Bool.eq_false_iff.mpr fun hon => hz (zigzag_atom.mp hon)
  have hdeltas : (Geometry.flipped.apply t.atom).deltas.Perm t.turned.atom.deltas := by
    rw [Geometry.deltas_apply_flipped hlength, atom, atom, turned, ModifierSet.ofRun_turned]
    exact MoveAtom.deltas_flipped_perm hb _
  calc (Geometry.flipped.apply t.atom).moves board origin
    List.Perm _ ((t.atom.reordered t.turned.atom.deltas).moves board origin) :=
        MoveAtom.moves_perm hstraight hdeltas
    _ = (t.atom.turned.reordered t.turned.atom.deltas).moves board origin :=
        (MoveAtom.moves_turned (t.atom.reordered t.turned.atom.deltas) board origin).symm
    _ = t.turned.atom.moves board origin := by rw [← atom_turned]

end Term

/-! ## Turned texts -/

namespace Spelling

/-- A character with `f` for `b` and `b` for `f`. -/
def turnedChar (c : Char) : Char :=
  if c = 'f' then 'b' else if c = 'b' then 'f' else c

/-- A text with `f` for `b` and `b` for `f`. -/
def turned (source : String) : String := String.ofList (source.toList.map turnedChar)

theorem turnedChar_modifier (m : Modifier) : turnedChar m.letter = m.turned.letter := by
  cases m <;> rfl

theorem turnedChar_base (b : BaseAtom) : turnedChar b.letter = b.letter := by
  cases b <;> rfl

/-- Turning a text turns each of its terms. -/
theorem turned_ofTerms (ts : List Term) : turned (ofTerms ts) = ofTerms (ts.map Term.turned) := by
  rw [← String.toList_inj, turned, String.toList_ofList, toList_ofTerms, toList_ofTerms,
    List.map_flatMap, List.flatMap_map]
  refine List.flatMap_congr fun t _ => ?_
  simp only [Term.turned, List.map_append, List.map_map, List.map_singleton, turnedChar_base]
  rw [Function.comp_def, Function.comp_def]
  simp only [turnedChar_modifier]

theorem compile_turned {source : String} {atoms : List MoveAtom} (h : compile source = .ok atoms) :
    compile (turned source) = .ok ((terms source).map fun t => t.turned.atom) := by
  rw [source_of_compile h, turned_ofTerms, compile_ofTerms, terms_ofTerms, List.map_map]
  rfl

/-- The letters of the terms of a text are letters of the text. -/
theorem letter_mem_of_compile {source : String} {atoms : List MoveAtom}
    (h : compile source = .ok atoms) {t : Term} (ht : t ∈ terms source) :
    (∀ m ∈ t.run, m.letter ∈ source.toList) ∧ t.base.letter ∈ source.toList := by
  rw [source_of_compile h, toList_ofTerms]
  refine ⟨fun m hm => List.mem_flatMap.mpr ⟨t, ht, ?_⟩, List.mem_flatMap.mpr ⟨t, ht, ?_⟩⟩
  · exact List.mem_append_left _ (List.mem_map_of_mem hm)
  · exact List.mem_append_right _ List.mem_cons_self

end Spelling

/-! ## Turned pieces -/

/-- A flipped piece moves as the piece does that is spelled with forward for backward and backward
for forward: each of its atoms makes the same moves as often, though not in the same order. A zigzag
takes its deltas in order, and a pawn has none that leads backward, so neither may occur. -/
theorem Piece.moves_flipped_perm {source : String} {atoms : List MoveAtom}
    (h : Spelling.compile source = .ok atoms) (hz : 'z' ∉ source.toList) (hp : 'P' ∉ source.toList)
    (id id' : String) :
    ∃ p q, Piece.compile .flipped id source = .ok p ∧
      Piece.compile .square id' (Spelling.turned source) = .ok q ∧
      List.Forall₂ (fun a b => ∀ board origin, (a.moves board origin).Perm (b.moves board origin))
        p.atoms q.atoms ∧
      ∀ board origin, (p.moves board origin).Perm (q.moves board origin) := by
  have hterms : ∀ t ∈ Spelling.terms source, ∀ board origin,
      ((Geometry.flipped.apply t.atom).moves board origin).Perm
        (t.turned.atom.moves board origin) := by
    intro t ht
    obtain ⟨hrun, hbase⟩ := Spelling.letter_mem_of_compile h ht
    have hzigzag : .zigzag ∉ t.run := fun hm => hz (hrun _ hm)
    have hpawn : t.base ≠ .pawn := by
      intro heq
      rw [heq] at hbase
      exact hp hbase
    exact Term.moves_turned_perm hzigzag hpawn
  have hatoms : List.Forall₂
      (fun a b => ∀ board origin, (a.moves board origin).Perm (b.moves board origin))
      ((Spelling.terms source).map fun t => Geometry.flipped.apply t.atom)
      ((Spelling.terms source).map fun t => t.turned.atom) := by
    rw [List.forall₂_map_left_iff, List.forall₂_map_right_iff, List.forall₂_same]
    exact hterms
  refine ⟨⟨id, source, _⟩, ⟨id', Spelling.turned source, _⟩, ?_, ?_, hatoms, ?_⟩
  · rw [compile, h, Spelling.atoms_of_compile h, Except.map, List.map_map]
    rfl
  · rw [compile, Spelling.compile_turned h, Except.map]
    exact congrArg _ (congrArg _ (List.map_id _))
  · intro board origin
    exact generate_perm (hatoms.imp fun _ _ hab => hab board origin)

/-- A knight that hops backward over two pieces, a rook that captures forward and leaps on, and a
squirrel that needs a clear path. -/
theorem Piece.moves_flipped_perm_of_hopper :
    Spelling.compile "bgjNyfRmsbpS" = .ok [
      Term.atom ⟨[.backward, .grasshopper, .cannon], .knight⟩,
      Term.atom ⟨[.captureThenLeap, .forward], .rook⟩,
      Term.atom ⟨[.moveOnly, .sideways, .backward, .requiresClearPath], .squirrel⟩] ∧
    'z' ∉ "bgjNyfRmsbpS".toList ∧ 'P' ∉ "bgjNyfRmsbpS".toList ∧
    Spelling.turned "bgjNyfRmsbpS" = "fgjNybRmsfpS" ∧
    ∃ p q, Piece.compile .flipped "down" "bgjNyfRmsbpS" = .ok p ∧
      Piece.compile .square "up" (Spelling.turned "bgjNyfRmsbpS") = .ok q ∧
      List.Forall₂ (fun a b => ∀ board origin, (a.moves board origin).Perm (b.moves board origin))
        p.atoms q.atoms ∧
      ∀ board origin, (p.moves board origin).Perm (q.moves board origin) := by
  have hcompile : Spelling.compile "bgjNyfRmsbpS" = .ok [
      Term.atom ⟨[.backward, .grasshopper, .cannon], .knight⟩,
      Term.atom ⟨[.captureThenLeap, .forward], .rook⟩,
      Term.atom ⟨[.moveOnly, .sideways, .backward, .requiresClearPath], .squirrel⟩] := rfl
  have hz : 'z' ∉ "bgjNyfRmsbpS".toList := by
    decide
  have hp : 'P' ∉ "bgjNyfRmsbpS".toList := by
    decide
  exact ⟨hcompile, hz, hp, rfl, Piece.moves_flipped_perm hcompile hz hp "down" "up"⟩

end FairyMoves
