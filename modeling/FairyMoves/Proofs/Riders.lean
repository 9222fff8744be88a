import FairyMoves.Proofs.Compiled

/-!
# Leapers that ride

Four of the base atoms take the steps of another one on and on: the rook those of the wazir, the
bishop those of the ferz, the nightrider those of the knight, and the queen those of the king. Each
is the same piece as its leaper with the letter that makes it ride. A letter that hops makes even
that one needless, for pieces that hop do not differ by whether they ride.

## Main definitions

* `BaseAtom.rider?` — the rider of a leaper
* `MoveAtom.withBase` — an atom under the name of another base atom
* `hopAlphabet` — the letters that hop

## Main results

* `BaseAtom.rider?_eq_some_iff` — a leaper and its rider are told by their steps and kinds
* `MoveAtom.moves_withBase`, `MoveAtom.moves_insert_againRider` — no move depends on the base atom,
  nor on the letter for riders
* `MoveAtom.ofBase_insert_againRider`, `MoveAtom.ofBase_of_hops` — the two ways to a rider
* `Spelling.generate_rider` — the texts of a rider and of its leaper
-/

namespace FairyMoves

namespace BaseAtom

/-- The atom that takes the steps of a leaper on and on. -/
def rider? : BaseAtom → Option BaseAtom
  | wazir => some rook
  | ferz => some bishop
  | knight => some nightrider
  | king => some queen
  | _ => none

/-- A rider has the steps of its leaper, and slides where the other leaps. -/
theorem rider?_eq_some_iff {l x : BaseAtom} :
    l.rider? = some x ↔ x.deltas = l.deltas ∧ l.defaultKind = .leap ∧ x.defaultKind = .slide := by
  cases l <;> cases x <;> decide

end BaseAtom

/-! ## What no move depends on -/

namespace MoveAtom

/-- The same atom under the name of another base atom. -/
def withBase (a : MoveAtom) (b : BaseAtom) : MoveAtom := { a with base := b }

theorem moves_withBase (a : MoveAtom) (b : BaseAtom) (board : Board) (origin : Square) :
    (a.withBase b).moves board origin = a.moves board origin :=
  moves_relabelled a b a.modifiers.hopStyle a.modifiers.againRider board origin

/-- The letter for riders chooses the kind of an atom, and has no say in its moves after that. -/
theorem moves_insert_againRider (a : MoveAtom) (board : Board) (origin : Square) :
    (a.insert .againRider).moves board origin = a.moves board origin :=
  moves_relabelled a a.base a.modifiers.hopStyle true board origin

/-! ## Two ways to a rider -/

variable {l x : BaseAtom} {set : ModifierSet}

theorem kindOf_insert_againRider (h : l.rider? = some x) :
    kindOf l (set.insert .againRider) = kindOf x set := by
  obtain ⟨_, _, hslide⟩ := BaseAtom.rider?_eq_some_iff.mp h
  simp [kindOf, ModifierSet.insert, hslide]

/-- A leaper with the letter for riders is its rider. -/
theorem ofBase_insert_againRider (h : l.rider? = some x) :
    ofBase l (set.insert .againRider) = ((ofBase x set).insert .againRider).withBase l := by
  obtain ⟨hdeltas, _, _⟩ := BaseAtom.rider?_eq_some_iff.mp h
  have hallows : (set.insert .againRider).allows = set.allows := allows_insert rfl set
  have hnormal : (set.insert .againRider).normalized = set.normalized.insert .againRider :=
    ModifierSet.normalized_insert (m := .againRider) nofun fun _ => ⟨nofun, nofun⟩
  simp only [ofBase, withBase, insert, kindOf_insert_againRider h, hallows, hnormal, hdeltas]

/-- With a hop a leaper is its rider without that letter, for both of them hop. -/
theorem ofBase_of_hops (h : l.rider? = some x) (hhops : 0 < set.hopCount) :
    ofBase l set = (ofBase x set).withBase l := by
  obtain ⟨hdeltas, _, _⟩ := BaseAtom.rider?_eq_some_iff.mp h
  have hkind : kindOf l set = kindOf x set := by
    rw [kindOf, kindOf, if_pos hhops, if_pos hhops]
  simp only [ofBase, withBase, hkind, hdeltas]

end MoveAtom

/-! ## Terms and texts -/

/-- The letters that hop. -/
def hopAlphabet : List Char := "gj".toList

theorem Modifier.letter_mem_hopAlphabet_iff {m : Modifier} :
    m.letter ∈ hopAlphabet ↔ ∃ style, m.hopStyle? = some style := by
  rw [← Option.isSome_iff_exists]
  cases m <;> decide

/-- The letters of a run that hop are as many as its hops. -/
theorem Modifier.countP_hopAlphabet (run : List Modifier) :
    (run.map letter).countP (· ∈ hopAlphabet) = (run.filterMap hopStyle?).length := by
  rw [List.countP_map, List.length_filterMap_eq_countP]
  apply List.countP_congr
  intro m _
  rw [Function.comp_apply, decide_eq_true_iff, letter_mem_hopAlphabet_iff, Option.isSome_iff_exists]

theorem ModifierSet.hopCount_ofRun_pos {run : List Modifier} {m : Modifier} (hm : m ∈ run)
    (hhop : m.letter ∈ hopAlphabet) : 0 < (ofRun run).hopCount := by
  obtain ⟨style, hstyle⟩ := Modifier.letter_mem_hopAlphabet_iff.mp hhop
  rw [hopCount_ofRun]
  exact List.length_pos_of_mem (List.mem_filterMap.mpr ⟨m, hm, hstyle⟩)

namespace Term

variable {l x : BaseAtom}

theorem moves_againRider (h : l.rider? = some x) (run : List Modifier) (board : Board)
    (origin : Square) :
    (atom ⟨.againRider :: run, l⟩).moves board origin = (atom ⟨run, x⟩).moves board origin := by
  have hset : ModifierSet.ofRun (.againRider :: run) = (ModifierSet.ofRun run).insert .againRider :=
    ModifierSet.ofRun_insert rfl [] run
  rw [atom, hset, MoveAtom.ofBase_insert_againRider h, MoveAtom.moves_withBase,
    MoveAtom.moves_insert_againRider, atom]

theorem moves_of_hops (h : l.rider? = some x) {run : List Modifier} {m : Modifier} (hm : m ∈ run)
    (hhop : m.letter ∈ hopAlphabet) (board : Board) (origin : Square) :
    (atom ⟨run, l⟩).moves board origin = (atom ⟨run, x⟩).moves board origin := by
  have hhops : 0 < (ModifierSet.ofRun run).hopCount := ModifierSet.hopCount_ofRun_pos hm hhop
  rw [atom, MoveAtom.ofBase_of_hops h hhops, MoveAtom.moves_withBase, atom]

end Term

namespace Spelling

/-- In front of a leaper the letter for riders makes the same moves as its rider does, whatever
other letters there are. If one of them hops, that letter may be left out. Fewer than 2³² letters
that hop are counted in 32 bits. -/
theorem generate_rider {l x : BaseAtom} (h : l.rider? = some x) {r : String}
    (hr : ∀ c ∈ r.toList, c ∈ modifierAlphabet) :
    ∃ again leaper rider : List MoveAtom,
      compile ("a" ++ r ++ String.singleton l.letter) = .ok again ∧
      compile (r ++ String.singleton l.letter) = .ok leaper ∧
      compile (r ++ String.singleton x.letter) = .ok rider ∧
      (∀ board origin, generate again board origin = generate rider board origin) ∧
      ((∃ c ∈ r.toList, c ∈ hopAlphabet) →
        ∀ board origin, generate leaper board origin = generate rider board origin) ∧
      (r.toList.countP (· ∈ hopAlphabet) < 4294967296 →
        ∀ a ∈ again ++ leaper ++ rider, a.hopCount < 4294967296) := by
  obtain ⟨run, hrun⟩ := exists_map_letter hr
  have hagain : ("a" ++ r).toList = (Modifier.againRider :: run).map Modifier.letter := by
    rw [String.toList_append, hrun]
    rfl
  refine ⟨_, _, _, compile_run hagain l, compile_run hrun l, compile_run hrun x, ?again, ?hops,
    ?count⟩
  case again =>
    intro board origin
    rw [generate_cons, generate_cons, Term.moves_againRider h]
  case hops =>
    rintro ⟨c, hc, hhop⟩ board origin
    rw [hrun] at hc
    obtain ⟨m, hm, rfl⟩ := List.mem_map.mp hc
    rw [generate_cons, generate_cons, Term.moves_of_hops h hm hhop]
  case count =>
    intro hcount
    rw [hrun, Modifier.countP_hopAlphabet] at hcount
    have hriding : (Term.atom ⟨.againRider :: run, l⟩).hopCount < 4294967296 := by
      rwa [Term.hopCount_atom]
    have hplain (b : BaseAtom) : (Term.atom ⟨run, b⟩).hopCount < 4294967296 := by
      rwa [Term.hopCount_atom]
    simp [hriding, hplain]

/-- A nightrider that leaps on after it has hopped, and the knight with the same letters. -/
theorem generate_rider_of_knight :
    BaseAtom.knight.rider? = some .nightrider ∧ (∀ c ∈ "yfgoz".toList, c ∈ modifierAlphabet) ∧
    (∃ c ∈ "yfgoz".toList, c ∈ hopAlphabet) ∧
    ∃ again leaper rider : List MoveAtom,
      compile "ayfgozN" = .ok again ∧ compile "yfgozN" = .ok leaper ∧
      compile "yfgozH" = .ok rider ∧
      (∀ board origin, generate again board origin = generate rider board origin) ∧
      (∀ board origin, generate leaper board origin = generate rider board origin) ∧
      ∀ a ∈ again ++ leaper ++ rider, a.hopCount < 4294967296 := by
  have hr : ∀ c ∈ "yfgoz".toList, c ∈ modifierAlphabet :=
    List.forall_iff_forall_mem.mp (by decide)
  have hhop : ∃ c ∈ "yfgoz".toList, c ∈ hopAlphabet := ⟨'g', by decide, by decide⟩
  obtain ⟨again, leaper, rider, hagain, hleaper, hrider, hsame, hhops, hcount⟩ :=
    generate_rider (l := .knight) (x := .nightrider) rfl hr
  exact ⟨rfl, hr, hhop, again, leaper, rider, hagain, hleaper, hrider, hsame, hhops hhop,
    hcount (by decide)⟩

end Spelling

end FairyMoves
