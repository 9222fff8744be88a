import FairyMoves.Proofs.Within
import Mathlib.Data.List.Forall2

/-!
# Runs that say the same

The order of the letters in a run does not matter, nor does it matter how often a letter occurs,
save that every hop letter counts. Letters may also say the same in other words: two directions and
the letter that stands for both, or a gate that gives way to the letter that leaps on. All that is
left of such differences is the style of the last hop, and no move depends on it.

## Main definitions

* `Term.Alike` — two terms say the same
* `MoveAtom.restyled` — an atom with another style of hopping

## Main results

* `ModifierSet.ext_switch` — modifiers are equal if their switches, hops and directions are
* `MoveAtom.moves_restyled` — the style of hopping does not bear on the moves
* `Term.Alike.atom_eq` — terms that say the same make the same atom, apart from the style
* `Spelling.generate_of_alike` — texts that say the same have the same moves
-/

namespace FairyMoves

/-! ## The style of hopping -/

/-- The modifiers with another style of hopping. -/
def ModifierSet.restyled (set : ModifierSet) (style : Option HopStyle) : ModifierSet :=
  { set with hopStyle := style }

/-- The atom with another style of hopping. -/
def MoveAtom.restyled (a : MoveAtom) (style : Option HopStyle) : MoveAtom :=
  { a with modifiers := a.modifiers.restyled style }

namespace MoveAtom

theorem ofBase_restyled (b : BaseAtom) (set : ModifierSet) (style : Option HopStyle) :
    ofBase b (set.restyled style) = (ofBase b set).restyled style := by
  have hnormal : (set.restyled style).normalized = set.normalized.restyled style := by
    cases h : set.captureThenLeap <;> simp [ModifierSet.normalized, ModifierSet.restyled, h]
  rw [ofBase, hnormal]
  rfl

/-- No move depends on the style of hopping. -/
theorem moves_restyled (a : MoveAtom) (style : Option HopStyle) (board : Board) (origin : Square) :
    (a.restyled style).moves board origin = a.moves board origin :=
  moves_relabelled a a.base style a.modifiers.againRider board origin

end MoveAtom

/-! ## Equal modifiers -/

namespace ModifierSet

theorem ext_switch {set set' : ModifierSet} (hswitch : ∀ m, set'.switch m = set.switch m)
    (hhops : set'.hopCount = set.hopCount) (hstyle : set'.hopStyle = set.hopStyle)
    (hdirections : set'.allowedDirections = set.allowedDirections) : set' = set := by
  cases set
  cases set'
  rw [ModifierSet.mk.injEq]
  exact ⟨hswitch .moveOnly, hswitch .captureOnly, hswitch .mustCaptureFirst,
    hswitch .mustNotCaptureFirst, hswitch .captureThenLeap, hswitch .zigzag,
    hswitch .takeAndContinue, hswitch .unblockable, hswitch .requiresClearPath,
    hswitch .againRider, hhops, hstyle, hdirections⟩

@[simp] theorem hopCount_normalized (set : ModifierSet) :
    set.normalized.hopCount = set.hopCount := by
  rw [normalized]
  split <;> rfl

@[simp] theorem hopStyle_normalized (set : ModifierSet) :
    set.normalized.hopStyle = set.hopStyle := by
  rw [normalized]
  split <;> rfl

@[simp] theorem allowedDirections_normalized (set : ModifierSet) :
    set.normalized.allowedDirections = set.allowedDirections := by
  rw [normalized]
  split <;> rfl

end ModifierSet

/-! ## Terms that say the same -/

namespace Term

/-- Two terms say the same: they have the same base and the same switches, apart from gates that
have no say, they hop as often, and they allow the same directions. -/
structure Alike (t t' : Term) : Prop where
  base : t'.base = t.base
  switches : ∀ m : Modifier, m.isSwitch →
    (.captureThenLeap ∈ t.run → m ≠ .mustCaptureFirst ∧ m ≠ .mustNotCaptureFirst) →
    (m ∈ t'.run ↔ m ∈ t.run)
  hops : t'.hops.length = t.hops.length
  directions : ∀ dir, dir ∈ t'.directions ↔ dir ∈ t.directions

theorem hopStyle_atom (t : Term) : t.atom.hopStyle = t.hops.getLast? := by
  rw [atom, MoveAtom.ofBase, MoveAtom.hopStyle, ModifierSet.hopStyle_normalized,
    ModifierSet.hopStyle_ofRun, hops]

variable {t t' : Term}

theorem Alike.switch_eq (h : t.Alike t') (m : Modifier) :
    (ModifierSet.ofRun t'.run).normalized.switch m =
      (ModifierSet.ofRun t.run).normalized.switch m := by
  have hleap : (ModifierSet.ofRun t'.run).captureThenLeap =
      (ModifierSet.ofRun t.run).captureThenLeap := by
    rw [Bool.eq_iff_iff, ModifierSet.captureThenLeap_ofRun, ModifierSet.captureThenLeap_ofRun]
    exact h.switches .captureThenLeap rfl fun _ => ⟨nofun, nofun⟩
  rw [ModifierSet.switch_normalized, ModifierSet.switch_normalized, hleap]
  by_cases hcleared : (ModifierSet.ofRun t.run).captureThenLeap ∧
      (m = .mustCaptureFirst ∨ m = .mustNotCaptureFirst)
  · obtain ⟨hon, rfl | rfl⟩ := hcleared <;> simp [hon]
  · have hswitch : (ModifierSet.ofRun t'.run).switch m = (ModifierSet.ofRun t.run).switch m := by
      rw [ModifierSet.switch_ofRun, ModifierSet.switch_ofRun]
      cases hm : m.isSwitch with
      | false => rfl
      | true =>
        have hmem : m ∈ t'.run ↔ m ∈ t.run := by
          refine h.switches m hm fun hmem => ?_
          have hon := ModifierSet.captureThenLeap_ofRun.mpr hmem
          exact ⟨fun heq => hcleared ⟨hon, .inl heq⟩, fun heq => hcleared ⟨hon, .inr heq⟩⟩
        rw [Bool.true_and, Bool.true_and, Bool.eq_iff_iff, List.contains_iff_mem,
          List.contains_iff_mem, hmem]
    rw [hswitch]

theorem Alike.allowedDirections_eq (h : t.Alike t') :
    (ModifierSet.ofRun t'.run).allowedDirections = (ModifierSet.ofRun t.run).allowedDirections := by
  rw [ModifierSet.allowedDirections_ofRun, ModifierSet.allowedDirections_ofRun]
  have hnil : t'.directions = [] ↔ t.directions = [] := by
    simp only [List.eq_nil_iff_forall_not_mem, h.directions]
  have hlist : Directions.ofList t'.directions = Directions.ofList t.directions :=
    Directions.ofList_congr h.directions
  rw [Term.directions, Term.directions] at hnil hlist
  simp only [hnil, hlist]

/-- Terms that say the same make the same atom, apart from the style of hopping. -/
theorem Alike.atom_eq (h : t.Alike t') : t'.atom = t.atom.restyled t'.atom.hopStyle := by
  have hset : (ModifierSet.ofRun t'.run).normalized =
      (ModifierSet.ofRun t.run).normalized.restyled (ModifierSet.ofRun t'.run).hopStyle := by
    apply ModifierSet.ext_switch
    case hswitch =>
      intro m
      rw [h.switch_eq m]
      cases m <;> rfl
    case hhops =>
      simp only [ModifierSet.restyled, ModifierSet.hopCount_normalized, ModifierSet.hopCount_ofRun]
      exact h.hops
    case hstyle => simp only [ModifierSet.restyled, ModifierSet.hopStyle_normalized]
    case hdirections =>
      simp only [ModifierSet.restyled, ModifierSet.allowedDirections_normalized,
        h.allowedDirections_eq]
  have hstyle : t'.atom.hopStyle = (ModifierSet.ofRun t'.run).hopStyle := by
    rw [hopStyle_atom, ModifierSet.hopStyle_ofRun, Term.hops]
  calc t'.atom
      = .ofBase t.base (ModifierSet.ofRun t'.run).normalized := by
        rw [MoveAtom.ofBase_normalized, atom, h.base]
    _ = .ofBase t.base ((ModifierSet.ofRun t.run).normalized.restyled
          (ModifierSet.ofRun t'.run).hopStyle) := by rw [hset]
    _ = t.atom.restyled t'.atom.hopStyle := by
        rw [MoveAtom.ofBase_restyled, MoveAtom.ofBase_normalized, hstyle, atom]

theorem generate_of_alike_terms {ts ts' : List Term} (h : List.Forall₂ Alike ts ts') (board : Board)
    (origin : Square) :
    generate (ts'.map atom) board origin = generate (ts.map atom) board origin := by
  induction h with
  | nil => rfl
  | cons ht _ ih =>
    rw [List.map_cons, List.map_cons, generate_cons, generate_cons, ht.atom_eq,
      MoveAtom.moves_restyled, ih]

end Term

/-! ## Texts that say the same -/

namespace Spelling

/-- Texts whose terms say the same, one after the other, compile to the same atoms apart from the
style of hopping, which is that of the last hop letter of each run, and have the same moves. -/
theorem generate_of_alike {source source' : String} {atoms atoms' : List MoveAtom}
    (h : compile source = .ok atoms) (h' : compile source' = .ok atoms')
    (halike : List.Forall₂ Term.Alike (terms source) (terms source')) :
    List.Forall₂ (fun a a' => a' = a.restyled a'.hopStyle) atoms atoms' ∧
    atoms.map MoveAtom.hopStyle = (terms source).map (fun t => t.hops.getLast?) ∧
    atoms'.map MoveAtom.hopStyle = (terms source').map (fun t => t.hops.getLast?) ∧
    ∀ board origin, generate atoms' board origin = generate atoms board origin := by
  have hstyles (ts : List Term) :
      (ts.map Term.atom).map MoveAtom.hopStyle = ts.map fun t => t.hops.getLast? := by
    rw [List.map_map]
    exact List.map_congr_left fun t _ => t.hopStyle_atom
  rw [atoms_of_compile h, atoms_of_compile h']
  refine ⟨?_, hstyles _, hstyles _, Term.generate_of_alike_terms halike⟩
  rw [List.forall₂_map_left_iff, List.forall₂_map_right_iff]
  exact halike.imp fun _ _ ht => ht.atom_eq

/-- A knight that leaps on after two hurdles, forward or backward, and a king that moves
sideways. -/
def leaperAndKing : List Term :=
  [⟨[.captureThenLeap, .vertical, .grasshopper, .cannon], .knight⟩, ⟨[.sideways, .moveOnly], .king⟩]

/-- The same in other letters, with two gates that have no say and the hops the other way around. -/
def leaperAndKingReworded : List Term :=
  [⟨[.cannon, .backward, .mustCaptureFirst, .forward, .mustNotCaptureFirst, .grasshopper,
      .captureThenLeap, .captureThenLeap], .knight⟩,
    ⟨[.left, .moveOnly, .right, .moveOnly], .king⟩]

theorem generate_of_alike_reworded :
    compile "yvgjNsmK" = .ok (leaperAndKing.map Term.atom) ∧
    compile "jbofxgyyNlmrmK" = .ok (leaperAndKingReworded.map Term.atom) ∧
    List.Forall₂ Term.Alike (terms "yvgjNsmK") (terms "jbofxgyyNlmrmK") ∧
    List.Forall₂ (fun a a' => a' = a.restyled a'.hopStyle) (leaperAndKing.map Term.atom)
      (leaperAndKingReworded.map Term.atom) ∧
    (leaperAndKing.map Term.atom).map MoveAtom.hopStyle =
      (terms "yvgjNsmK").map (fun t => t.hops.getLast?) ∧
    (leaperAndKingReworded.map Term.atom).map MoveAtom.hopStyle =
      (terms "jbofxgyyNlmrmK").map (fun t => t.hops.getLast?) ∧
    ∀ board origin, generate (leaperAndKingReworded.map Term.atom) board origin =
      generate (leaperAndKing.map Term.atom) board origin := by
  have hcompile : compile "yvgjNsmK" = .ok (leaperAndKing.map Term.atom) := rfl
  have hcompile' : compile "jbofxgyyNlmrmK" = .ok (leaperAndKingReworded.map Term.atom) := rfl
  have hknights : Term.Alike
      ⟨[.captureThenLeap, .vertical, .grasshopper, .cannon], .knight⟩
      ⟨[.cannon, .backward, .mustCaptureFirst, .forward, .mustNotCaptureFirst, .grasshopper,
        .captureThenLeap, .captureThenLeap], .knight⟩ :=
    ⟨rfl, fun m => by cases m <;> decide, rfl, fun dir => by cases dir <;> decide⟩
  have hkings : Term.Alike ⟨[.sideways, .moveOnly], .king⟩
      ⟨[.left, .moveOnly, .right, .moveOnly], .king⟩ :=
    ⟨rfl, fun m => by cases m <;> decide, rfl, fun dir => by cases dir <;> decide⟩
  have halike : List.Forall₂ Term.Alike (terms "yvgjNsmK") (terms "jbofxgyyNlmrmK") :=
    .cons hknights (.cons hkings .nil)
  exact ⟨hcompile, hcompile', halike, generate_of_alike hcompile hcompile' halike⟩

end Spelling

end FairyMoves
