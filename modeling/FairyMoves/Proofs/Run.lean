import FairyMoves.Board
import FairyMoves.Spelling

/-!
# Runs of modifiers

What a run of modifiers asks for is gathered letter by letter. Here it is read off the run as a
whole, and one letter more is followed through the gathering, wherever in the run it stands. The
letters that gate the landing can be followed to the end: whatever comes after them, they change
nothing but where a move may end.

## Main definitions

* `Modifier.isSwitch`, `Modifier.hopStyle?`, `Modifier.directions` — what a letter does: it turns a
  switch on, hops in a style, or allows directions
* `Modifier.isPlain` — the letter turns on a switch that bears on nothing else
* `Modifier.gate?` — the squares that are left to land on by a letter that gates the landing
* `ModifierSet.SameWay` — two sets send a piece the same way
* `MoveAtom.insert` — an atom with a letter more in its modifiers
* `Term.hops`, `Term.directions` — the styles of the hops of a term, and the directions that it
  allows
* `Term.Adds` — a term is another one with a letter more in its run

## Main results

* `ModifierSet.switch_ofRun_iff`, `ModifierSet.hopCount_ofRun`, `ModifierSet.hopStyle_ofRun`,
  `ModifierSet.allowedDirections_ofRun` — the set of a whole run: a switch is on just when its
  letter occurs, hops are counted, the last style stays, and the allowed directions are those of the
  letters
* `ModifierSet.ofRun_insert` — every letter but those that hop may be read last, wherever it stands
* `ModifierSet.sameWay_insert_gate` — a gate does not bear on the way
* `Term.Adds.atom_eq` — the atom of a term with a plain letter more
-/

namespace FairyMoves

namespace Modifier

/-- The letter turns a switch on, and does nothing else. -/
def isSwitch : Modifier → Bool
  | grasshopper | cannon | forward | backward | left | right | vertical | sideways => false
  | _ => true

/-- The letter turns on a switch that bears neither on the kind of an atom nor on other switches. -/
def isPlain (m : Modifier) : Bool := m.isSwitch && m != againRider && m != captureThenLeap

/-- The style in which a letter hops, for the letters that hop. -/
def hopStyle? : Modifier → Option HopStyle
  | grasshopper => some .grasshopper
  | cannon => some .cannon
  | _ => none

/-- The directions that a letter allows: one, or two for the letters that stand for two others. -/
def directions : Modifier → List Direction
  | forward => [.forward]
  | backward => [.backward]
  | left => [.left]
  | right => [.right]
  | vertical => [.forward, .backward]
  | sideways => [.left, .right]
  | _ => []

/-- The state of the squares that are left to land on, for the letters that gate the landing. -/
def gate? : Modifier → Option SquareState
  | moveOnly | mustNotCaptureFirst => some .empty
  | captureOnly | mustCaptureFirst => some .enemy
  | _ => none

variable {m : Modifier}

theorem isPlain_of_gate {state : SquareState} (hm : m.gate? = some state) : m.isPlain := by
  cases m with
  | moveOnly | captureOnly | mustCaptureFirst | mustNotCaptureFirst => rfl
  | _ => cases hm

theorem hopStyle?_of_isSwitch (hm : m.isSwitch) : m.hopStyle? = none := by
  cases m with
  | grasshopper | cannon => cases hm
  | _ => rfl

theorem directions_of_isSwitch (hm : m.isSwitch) : m.directions = [] := by
  cases m with
  | forward | backward | left | right | vertical | sideways => cases hm
  | _ => rfl

theorem isSwitch_of_isPlain (hm : m.isPlain) : m.isSwitch := by
  rw [isPlain, Bool.and_eq_true_iff, Bool.and_eq_true_iff] at hm
  exact hm.1.1

theorem hopStyle?_of_isPlain (hm : m.isPlain) : m.hopStyle? = none :=
  hopStyle?_of_isSwitch (isSwitch_of_isPlain hm)

theorem directions_of_isPlain (hm : m.isPlain) : m.directions = [] :=
  directions_of_isSwitch (isSwitch_of_isPlain hm)

theorem ne_againRider_of_isPlain (hm : m.isPlain) : m ≠ againRider := by
  rintro rfl
  cases hm

theorem ne_captureThenLeap_of_isPlain (hm : m.isPlain) : m ≠ captureThenLeap := by
  rintro rfl
  cases hm

end Modifier

namespace Directions

/-- Two sets with the same directions in them are equal. -/
theorem ext_contains {ds es : Directions} (h : ∀ dir, ds.contains dir = es.contains dir) :
    ds = es := by
  obtain ⟨forward, backward, left, right⟩ := ds
  have hforward := h .forward
  have hbackward := h .backward
  have hleft := h .left
  have hright := h .right
  simp only [contains] at hforward hbackward hleft hright
  rw [hforward, hbackward, hleft, hright]

theorem contains_insertAll (ds : Directions) (list : List Direction) (dir : Direction) :
    (ds.insertAll list).contains dir = (ds.contains dir || list.contains dir) := by
  induction list generalizing ds with
  | nil => simp [insertAll]
  | cons a list ih =>
    have hfirst : ds.insertAll (a :: list) = (ds.insert a).insertAll list := rfl
    have hsymm : (dir == a) = (a == dir) := BEq.comm
    rw [hfirst, ih, contains_insert, List.contains_cons, hsymm, Bool.or_assoc, Bool.or_left_comm]

/-- A set contains the directions that are listed. -/
theorem contains_ofList {list : List Direction} {dir : Direction} :
    (ofList list).contains dir ↔ dir ∈ list := by
  have hempty : empty.contains dir = false := by
    cases dir <;> rfl
  rw [ofList, contains_insertAll, hempty, Bool.false_or, List.contains_iff_mem]

/-- A set does not depend on the order in which its directions are listed, nor on how often. -/
theorem ofList_congr {list list' : List Direction} (h : ∀ dir, dir ∈ list ↔ dir ∈ list') :
    ofList list = ofList list' := by
  apply ext_contains
  intro dir
  rw [Bool.eq_iff_iff, contains_ofList, contains_ofList]
  exact h dir

end Directions

namespace ModifierSet

theorem insertRun_cons (set : ModifierSet) (k : Modifier) (run : List Modifier) :
    set.insertRun (k :: run) = (set.insert k).insertRun run := rfl

/-! ## Switches -/

theorem switch_insert (set : ModifierSet) (k m : Modifier) :
    (set.insert k).switch m = (set.switch m || (m.isSwitch && m == k)) := by
  cases m <;> cases k <;> simp [switch, insert, addHop, addDirections, Modifier.isSwitch]

theorem switch_insertRun (set : ModifierSet) (run : List Modifier) (m : Modifier) :
    (set.insertRun run).switch m = (set.switch m || (m.isSwitch && run.contains m)) := by
  -- Switches are never turned off, so each letter only adds its own.
  induction run generalizing set with
  | nil => simp [insertRun]
  | cons k run ih =>
    rw [insertRun_cons, ih, switch_insert, List.contains_cons]
    cases set.switch m <;> cases m.isSwitch <;> rfl

theorem switch_ofRun (run : List Modifier) (m : Modifier) :
    (ofRun run).switch m = (m.isSwitch && run.contains m) := by
  have hempty : empty.switch m = false := by
    cases m <;> rfl
  rw [ofRun, switch_insertRun, hempty, Bool.false_or]

/-- A switch is on just when its letter occurs in the run. -/
theorem switch_ofRun_iff {run : List Modifier} {m : Modifier} (hm : m.isSwitch) :
    (ofRun run).switch m ↔ m ∈ run := by
  rw [switch_ofRun, hm, Bool.true_and]
  exact List.contains_iff_mem

theorem captureThenLeap_ofRun {run : List Modifier} :
    (ofRun run).captureThenLeap ↔ .captureThenLeap ∈ run :=
  switch_ofRun_iff (m := .captureThenLeap) rfl

/-- Normalizing turns off the gates on the first capture, and only if the piece leaps on. -/
theorem switch_normalized (set : ModifierSet) (m : Modifier) :
    set.normalized.switch m =
      (set.switch m &&
        !(set.captureThenLeap && (m == .mustCaptureFirst || m == .mustNotCaptureFirst))) := by
  cases hon : set.captureThenLeap <;> cases m <;> simp [normalized, switch, hon]

theorem switch_normalized_of_ne {m : Modifier}
    (hm : m ≠ .mustCaptureFirst ∧ m ≠ .mustNotCaptureFirst) (set : ModifierSet) :
    set.normalized.switch m = set.switch m := by
  rw [switch_normalized, beq_false_of_ne hm.1, beq_false_of_ne hm.2, Bool.or_false, Bool.and_false,
    Bool.not_false, Bool.and_true]

@[simp] theorem captureThenLeap_normalized (set : ModifierSet) :
    set.normalized.captureThenLeap = set.captureThenLeap :=
  switch_normalized_of_ne (m := .captureThenLeap) ⟨nofun, nofun⟩ set

/-! ## Hops and directions -/

theorem hopCount_insert (set : ModifierSet) (k : Modifier) :
    (set.insert k).hopCount = set.hopCount + k.hopStyle?.toList.length := by
  cases k <;> rfl

theorem hopStyle_insert (set : ModifierSet) (k : Modifier) :
    (set.insert k).hopStyle = k.hopStyle?.or set.hopStyle := by
  cases k <;> rfl

theorem allowedDirections_insert (set : ModifierSet) (k : Modifier) :
    (set.insert k).allowedDirections =
      if k.directions = [] then set.allowedDirections
      else some ((set.allowedDirections.getD .empty).insertAll k.directions) := by
  cases k <;> rfl

theorem hopCount_insertRun (set : ModifierSet) (run : List Modifier) :
    (set.insertRun run).hopCount =
      set.hopCount + (run.filterMap Modifier.hopStyle?).length := by
  induction run generalizing set with
  | nil => rfl
  | cons k run ih =>
    rw [insertRun_cons, ih, hopCount_insert]
    cases hk : k.hopStyle? with
    | none => simp [hk]
    | some style => simp [hk, Nat.add_assoc, Nat.add_comm 1]

theorem hopStyle_insertRun (set : ModifierSet) (run : List Modifier) :
    (set.insertRun run).hopStyle =
      (run.filterMap Modifier.hopStyle?).getLast?.or set.hopStyle := by
  induction run generalizing set with
  | nil => rfl
  | cons k run ih =>
    rw [insertRun_cons, ih, hopStyle_insert]
    cases hk : k.hopStyle? with
    | none => simp [hk]
    | some style =>
      -- This style stays just when no later letter hops.
      rw [List.filterMap_cons_some hk, List.getLast?_cons]
      cases (run.filterMap Modifier.hopStyle?).getLast? <;> rfl

theorem allowedDirections_insertRun (set : ModifierSet) (run : List Modifier) :
    (set.insertRun run).allowedDirections =
      if run.flatMap Modifier.directions = [] then set.allowedDirections
      else some ((set.allowedDirections.getD .empty).insertAll
        (run.flatMap Modifier.directions)) := by
  induction run generalizing set with
  | nil => rfl
  | cons k run ih =>
    rw [insertRun_cons, ih, allowedDirections_insert, List.flatMap_cons]
    by_cases hk : k.directions = []
    · rw [if_pos hk, hk, List.nil_append]
    · have happend : k.directions ++ run.flatMap Modifier.directions ≠ [] := by
        simp [hk]
      rw [if_neg hk, if_neg happend, Option.getD_some, Directions.insertAll, Directions.insertAll,
        Directions.insertAll, List.foldl_append]
      split
      case isTrue hrun => rw [hrun, List.foldl_nil]
      case isFalse => rfl

/-- The hops of a run are counted. -/
theorem hopCount_ofRun (run : List Modifier) :
    (ofRun run).hopCount = (run.filterMap Modifier.hopStyle?).length := by
  rw [ofRun, hopCount_insertRun]
  exact Nat.zero_add _

/-- The style is that of the last letter that hops. -/
theorem hopStyle_ofRun (run : List Modifier) :
    (ofRun run).hopStyle = (run.filterMap Modifier.hopStyle?).getLast? := by
  rw [ofRun, hopStyle_insertRun]
  exact Option.or_none

/-- The allowed directions are those of the letters, and all when no letter allows any. -/
theorem allowedDirections_ofRun (run : List Modifier) :
    (ofRun run).allowedDirections =
      if run.flatMap Modifier.directions = [] then none
      else some (.ofList (run.flatMap Modifier.directions)) :=
  allowedDirections_insertRun empty run

/-! ## The order of letters -/

/-- Only letters that hop do not change places with each other: the last of them sets the style. -/
theorem insert_comm {m : Modifier} (hm : m.hopStyle? = none) (set : ModifierSet) (k : Modifier) :
    (set.insert m).insert k = (set.insert k).insert m := by
  cases m with
  | grasshopper | cannon => cases hm
  | _ => cases k <;> rfl

theorem insertRun_insert {m : Modifier} (hm : m.hopStyle? = none) (set : ModifierSet)
    (run : List Modifier) : (set.insert m).insertRun run = (set.insertRun run).insert m := by
  induction run generalizing set with
  | nil => rfl
  | cons k run ih =>
    -- The letter changes places with the first one of the run and then passes by the rest.
    calc (set.insert m).insertRun (k :: run)
        = ((set.insert m).insert k).insertRun run := rfl
      _ = ((set.insert k).insert m).insertRun run := by rw [insert_comm hm]
      _ = ((set.insert k).insertRun run).insert m := ih (set.insert k)

/-- A letter that does not hop may be read last, wherever in the run it stands. -/
theorem ofRun_insert {m : Modifier} (hm : m.hopStyle? = none) (r s : List Modifier) :
    ofRun (r ++ m :: s) = (ofRun (r ++ s)).insert m := by
  rw [ofRun_append, ofRun_append]
  exact insertRun_insert hm (ofRun r) s

/-! ## Gates -/

/-- Two modifier sets send a piece the same way, though its moves may end differently. -/
structure SameWay (set set' : ModifierSet) : Prop where
  captureThenLeap : set'.captureThenLeap = set.captureThenLeap
  zigzag : set'.zigzag = set.zigzag
  takeAndContinue : set'.takeAndContinue = set.takeAndContinue
  unblockable : set'.unblockable = set.unblockable
  requiresClearPath : set'.requiresClearPath = set.requiresClearPath
  againRider : set'.againRider = set.againRider
  hopCount : set'.hopCount = set.hopCount
  allowedDirections : set'.allowedDirections = set.allowedDirections

variable {m : Modifier} {state : SquareState}

theorem sameWay_insert_gate (hm : m.gate? = some state) (set : ModifierSet) :
    set.SameWay (set.insert m) := by
  cases m with
  | moveOnly | captureOnly | mustCaptureFirst | mustNotCaptureFirst =>
    exact ⟨rfl, rfl, rfl, rfl, rfl, rfl, rfl, rfl⟩
  | _ => cases hm

/-! ## Normalizing -/

/-- A letter may be normalized along with the others or added to them later, except for the letter
that leaps on and for the gates on the first capture that give way to it. -/
theorem normalized_insert (hm : m ≠ .captureThenLeap) {set : ModifierSet}
    (hleap : set.captureThenLeap → m ≠ .mustCaptureFirst ∧ m ≠ .mustNotCaptureFirst) :
    (set.insert m).normalized = set.normalized.insert m := by
  cases hon : set.captureThenLeap with
  | false =>
    have hother : (Modifier.captureThenLeap == m) = false := beq_false_of_ne (Ne.symm hm)
    have hoff : (set.insert m).captureThenLeap = false := by
      simpa [switch, hon, hother] using switch_insert set m .captureThenLeap
    simp [normalized, hon, hoff]
  | true =>
    cases m with
    | captureThenLeap => exact absurd rfl hm
    | mustCaptureFirst => exact absurd rfl (hleap hon).1
    | mustNotCaptureFirst => exact absurd rfl (hleap hon).2
    | _ => simp [normalized, insert, addHop, addDirections, hon]

/-- A gate on the first capture gives way to the letter that leaps on. -/
theorem normalized_insert_of_captureThenLeap (hm : m = .mustCaptureFirst ∨ m = .mustNotCaptureFirst)
    {set : ModifierSet} (hleap : set.captureThenLeap) :
    (set.insert m).normalized = set.normalized := by
  rcases hm with rfl | rfl <;> simp [normalized, insert, hleap]

end ModifierSet

/-! ## Atoms -/

namespace MoveAtom

/-- The atom with one modifier letter more. -/
def insert (a : MoveAtom) (m : Modifier) : MoveAtom :=
  { a with modifiers := a.modifiers.insert m }

@[simp] theorem kind_insert (a : MoveAtom) (m : Modifier) : (a.insert m).kind = a.kind := rfl

theorem kindOf_insert {m : Modifier} (hhop : m.hopStyle? = none) (hagain : m ≠ .againRider)
    (b : BaseAtom) (set : ModifierSet) : kindOf b (set.insert m) = kindOf b set := by
  cases m with
  | grasshopper | cannon => cases hhop
  | againRider => exact absurd rfl hagain
  | _ => rfl

theorem allows_insert {m : Modifier} (hm : m.directions = []) (set : ModifierSet) :
    (set.insert m).allows = set.allows := by
  funext d
  rw [ModifierSet.allows, ModifierSet.allowedDirections_insert, if_pos hm, ModifierSet.allows]

/-- A plain letter changes neither the kind nor the deltas nor the limit of an atom. -/
theorem ofBase_insert {m : Modifier} (hm : m.isPlain) (b : BaseAtom) {set : ModifierSet}
    (hleap : set.captureThenLeap → m ≠ .mustCaptureFirst ∧ m ≠ .mustNotCaptureFirst) :
    ofBase b (set.insert m) = (ofBase b set).insert m := by
  have hkind := kindOf_insert (Modifier.hopStyle?_of_isPlain hm)
    (Modifier.ne_againRider_of_isPlain hm) b set
  have hallows := allows_insert (Modifier.directions_of_isPlain hm) set
  have hnormal := ModifierSet.normalized_insert (Modifier.ne_captureThenLeap_of_isPlain hm) hleap
  simp only [ofBase, insert, hkind, hallows, hnormal]

end MoveAtom

/-! ## Terms -/

namespace Term

/-- The styles of the hops of a term, one for each letter that hops. -/
def hops (t : Term) : List HopStyle := t.run.filterMap Modifier.hopStyle?

/-- The directions that the letters of a term allow. -/
def directions (t : Term) : List Direction := t.run.flatMap Modifier.directions

/-- A term has one modifier letter more than another, anywhere in its run. -/
def Adds (t : Term) (m : Modifier) (t' : Term) : Prop :=
  t'.base = t.base ∧ ∃ r s, t.run = r ++ s ∧ t'.run = r ++ m :: s

variable {t t' : Term}

/-- Only the gates on the first capture may be off in an atom although their letter occurs. -/
theorem switch_atom {m : Modifier} (hm : m.isSwitch)
    (hgate : m ≠ .mustCaptureFirst ∧ m ≠ .mustNotCaptureFirst) :
    t.atom.modifiers.switch m ↔ m ∈ t.run := by
  rw [atom, MoveAtom.ofBase, ModifierSet.switch_normalized_of_ne hgate]
  exact ModifierSet.switch_ofRun_iff hm

theorem captureThenLeap_atom : t.atom.modifiers.captureThenLeap ↔ .captureThenLeap ∈ t.run :=
  switch_atom (m := .captureThenLeap) rfl ⟨nofun, nofun⟩

theorem takeAndContinue_atom : t.atom.modifiers.takeAndContinue ↔ .takeAndContinue ∈ t.run :=
  switch_atom (m := .takeAndContinue) rfl ⟨nofun, nofun⟩

theorem zigzag_atom : t.atom.modifiers.zigzag ↔ .zigzag ∈ t.run :=
  switch_atom (m := .zigzag) rfl ⟨nofun, nofun⟩

theorem unblockable_atom : t.atom.modifiers.unblockable ↔ .unblockable ∈ t.run :=
  switch_atom (m := .unblockable) rfl ⟨nofun, nofun⟩

theorem requiresClearPath_atom :
    t.atom.modifiers.requiresClearPath ↔ .requiresClearPath ∈ t.run :=
  switch_atom (m := .requiresClearPath) rfl ⟨nofun, nofun⟩

theorem Adds.ofRun_eq {m : Modifier} (hm : m.hopStyle? = none) (h : t.Adds m t') :
    ModifierSet.ofRun t'.run = (ModifierSet.ofRun t.run).insert m := by
  obtain ⟨_, r, s, hrun, hrun'⟩ := h
  rw [hrun', hrun, ModifierSet.ofRun_insert hm]

theorem Adds.atom_eq {m : Modifier} (hm : m.isPlain) (h : t.Adds m t')
    (hleap : .captureThenLeap ∈ t.run → m ≠ .mustCaptureFirst ∧ m ≠ .mustNotCaptureFirst) :
    t'.atom = t.atom.insert m := by
  rw [atom, atom, h.1, h.ofRun_eq (Modifier.hopStyle?_of_isPlain hm)]
  refine MoveAtom.ofBase_insert hm t.base fun hon => ?_
  exact hleap (ModifierSet.captureThenLeap_ofRun.mp hon)

theorem atom_of_adds {m : Modifier} {state : SquareState} (hm : m.gate? = some state)
    (h : t.Adds m t') (hleap : .captureThenLeap ∈ t.run → m = .moveOnly ∨ m = .captureOnly) :
    t'.atom = t.atom.insert m := by
  refine h.atom_eq (Modifier.isPlain_of_gate hm) fun hon => ?_
  rcases hleap hon with rfl | rfl
  · exact ⟨nofun, nofun⟩
  · exact ⟨nofun, nofun⟩

end Term

end FairyMoves
