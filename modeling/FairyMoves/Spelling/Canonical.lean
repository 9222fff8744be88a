import FairyMoves.Spelling

/-!
# Canonical spellings

Many runs of modifiers make the same atom. The canonical one has each switch once, then the hops
with the style that counts at their end, then the directions one by one.

## Main definitions

* `ModifierSet.canonicalRun` — the canonical run of a modifier set
* `MoveAtom.term`, `Spelling.ofAtoms` — the canonical term of an atom, and the text for several

## Main results

* `ModifierSet.insertRun_hopRun` — the hops of a canonical run bring back the count and the style
* `Spelling.compile_ofAtoms` — a canonical spelling compiles
-/

namespace FairyMoves

/-- The modifier that hops in a style. -/
def HopStyle.modifier : HopStyle → Modifier
  | .grasshopper => .grasshopper
  | .cannon => .cannon

/-- The modifier that allows one direction. -/
def Direction.modifier : Direction → Modifier
  | .forward => .forward
  | .backward => .backward
  | .left => .left
  | .right => .right

namespace ModifierSet

/-- The hops of a set. Only the last one gives away the style. -/
def hopRun (set : ModifierSet) : List Modifier :=
  match set.hopCount with
  | 0 => []
  | n + 1 =>
    List.replicate n .grasshopper ++ [(set.hopStyle.getD .grasshopper).modifier]

/-- The directions of a set, in their usual order. -/
def directionRun (set : ModifierSet) : List Modifier :=
  match set.allowedDirections with
  | none => []
  | some ds => ds.toList.map Direction.modifier

/-- The canonical run of a set: its switches, its hops and its directions. -/
def canonicalRun (set : ModifierSet) : List Modifier :=
  set.flags ++ set.hopRun ++ set.directionRun

theorem insertRun_replicate_grasshopper (set : ModifierSet) (n : Nat) (style : HopStyle) :
    set.insertRun (List.replicate n .grasshopper ++ [style.modifier]) =
      { set with hopCount := set.hopCount + (n + 1), hopStyle := some style } := by
  induction n generalizing set with
  | zero => cases style <;> rfl
  | succ n ih =>
    have hstep : set.insertRun (List.replicate (n + 1) .grasshopper ++ [style.modifier]) =
        (set.addHop .grasshopper).insertRun
          (List.replicate n .grasshopper ++ [style.modifier]) := rfl
    rw [hstep, ih]
    simp only [addHop, Nat.add_assoc, Nat.add_comm 1]

/-- Hops set the count and, if there are any, the style; the rest of a set is as it was. -/
theorem insertRun_hopRun {set other : ModifierSet} (h : other.hopCount = 0)
    (hs : set.hopCount = 0 → set.hopStyle = other.hopStyle)
    (hc : set.hopCount ≠ 0 → set.hopStyle.isSome) :
    other.insertRun set.hopRun =
      { other with hopCount := set.hopCount, hopStyle := set.hopStyle } := by
  unfold hopRun
  split
  case h_1 hn =>
    rw [hn, hs hn, ← h]
    rfl
  case h_2 n hn =>
    obtain ⟨style, hstyle⟩ := Option.isSome_iff_exists.mp (hc (by omega))
    rw [insertRun_replicate_grasshopper, hn, h, hstyle, Nat.zero_add]
    rfl

end ModifierSet

/-- The canonical term of an atom. -/
def MoveAtom.term (a : MoveAtom) : Term := ⟨a.modifiers.canonicalRun, a.base⟩

/-- The text that spells atoms canonically, one after the other. -/
def Spelling.ofAtoms (atoms : List MoveAtom) : String := ofTerms (atoms.map MoveAtom.term)

theorem Spelling.compile_ofAtoms (atoms : List MoveAtom) :
    compile (ofAtoms atoms) = .ok (atoms.map fun a => a.term.atom) := by
  rw [ofAtoms, compile_ofTerms, List.map_map]
  rfl

end FairyMoves
