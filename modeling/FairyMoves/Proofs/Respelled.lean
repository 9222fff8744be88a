import FairyMoves.Proofs.Compiled
import FairyMoves.Spelling.Canonical

/-!
# Atoms spelled again

An atom is told by few things: the text of its flags, its hops and their style, its directions and
its base letter. From these it can be spelled again, and compiling what is spelled brings the atom
back. Nothing else is left of the text that the atom came from.

## Main definitions

* `AtomProfile`, `MoveAtom.profile` — what an atom is told by
* `AtomProfile.spelling` — the text that spells an atom with such a profile

## Main results

* `ModifierSet.ofRun_canonicalRun` — the canonical run of a set asks for what the set does
* `Term.atom_term` — the canonical term of a compiled atom makes this atom
* `Spelling.ofAtoms_eq_join` — canonical spellings are what profiles spell, one after the other
* `Spelling.compile_respelled` — atoms spelled again compile to the same atoms, and no two atoms
  have one profile
-/

namespace FairyMoves

/-! ## Profiles -/

/-- The letter that hops in a style. -/
def HopStyle.letter : HopStyle → Char
  | .grasshopper => 'g'
  | .cannon => 'j'

/-- The letter that allows one direction. -/
def Direction.letter : Direction → Char
  | .forward => 'f'
  | .backward => 'b'
  | .left => 'l'
  | .right => 'r'

/-- What an atom is told by. -/
structure AtomProfile where
  /-- The letters of the flags, or a dash when there is none. -/
  flags : String
  hopCount : Nat
  hopStyle : Option HopStyle
  allowedDirections : Option Directions
  /-- The letter of the base atom. -/
  letter : Char
  deriving DecidableEq, Repr

/-- The profile of an atom, its flags as the table of atoms shows them. -/
def MoveAtom.profile (a : MoveAtom) : AtomProfile where
  flags := a.modifiers.flagLetters
  hopCount := a.hopCount
  hopStyle := a.hopStyle
  allowedDirections := a.modifiers.allowedDirections
  letter := a.base.letter

namespace AtomProfile

/-- The letters of the flags; a dash spells nothing. -/
def flagText (p : AtomProfile) : String := if p.flags = "-" then "" else p.flags

/-- A letter for each hop, of which the last tells the style. -/
def hopText (p : AtomProfile) : String :=
  match p.hopCount with
  | 0 => ""
  | n + 1 => String.ofList (List.replicate n 'g' ++ [(p.hopStyle.getD .grasshopper).letter])

/-- A letter for each direction, if there is a restriction. -/
def directionText (p : AtomProfile) : String :=
  match p.allowedDirections with
  | none => ""
  | some ds => String.ofList (ds.toList.map Direction.letter)

/-- The text that spells an atom with this profile. -/
def spelling (p : AtomProfile) : String :=
  p.flagText ++ p.hopText ++ p.directionText ++ String.singleton p.letter

end AtomProfile

/-! ## Canonical runs -/

theorem Directions.ofList_toList (ds : Directions) : ofList ds.toList = ds := by
  apply ext_contains
  intro dir
  rw [Bool.eq_iff_iff, contains_ofList, toList, List.mem_filter]
  exact and_iff_right dir.mem_all

namespace ModifierSet

variable {set other : ModifierSet}

theorem isSwitch_of_switch {m : Modifier} (h : set.switch m) : m.isSwitch := by
  cases m with
  | grasshopper | cannon | forward | backward | left | right | vertical | sideways => cases h
  | _ => rfl

theorem mem_flags_iff {m : Modifier} : m ∈ set.flags ↔ set.switch m :=
  List.mem_filter.trans (and_iff_right m.mem_all)

/-- The flags of a set turn its switches on, and do nothing else. -/
theorem ofRun_flags (set : ModifierSet) :
    ofRun set.flags = { set with hopCount := 0, hopStyle := none, allowedDirections := none } := by
  have hswitch {m : Modifier} (hm : m ∈ set.flags) : m.isSwitch :=
    isSwitch_of_switch (mem_flags_iff.mp hm)
  have hhops : set.flags.filterMap Modifier.hopStyle? = [] :=
    List.filterMap_eq_nil_iff.mpr fun m hm => Modifier.hopStyle?_of_isSwitch (hswitch hm)
  have hdirections : set.flags.flatMap Modifier.directions = [] :=
    List.flatMap_eq_nil_iff.mpr fun m hm => Modifier.directions_of_isSwitch (hswitch hm)
  apply ext_switch
  case hswitch =>
    intro m
    have hsame : ModifierSet.switch
        { set with hopCount := 0, hopStyle := none, allowedDirections := none } m =
          set.switch m := by
      cases m <;> rfl
    rw [hsame, switch_ofRun, Bool.eq_iff_iff, Bool.and_eq_true_iff, List.contains_iff_mem,
      mem_flags_iff]
    exact and_iff_right_of_imp isSwitch_of_switch
  case hhops => rw [hopCount_ofRun, hhops, List.length_nil]
  case hstyle => rw [hopStyle_ofRun, hhops, List.getLast?_nil]
  case hdirections => rw [allowedDirections_ofRun, if_pos hdirections]

/-- Direction letters one by one allow what a list of directions does. -/
theorem insertRun_map_modifier (set : ModifierSet) (dir : Direction) (list : List Direction) :
    set.insertRun ((dir :: list).map Direction.modifier) = set.addDirections (dir :: list) := by
  have hone (set : ModifierSet) (dir : Direction) :
      set.insert dir.modifier = set.addDirections [dir] := by
    cases dir <;> rfl
  induction list generalizing set dir with
  | nil => exact hone set dir
  | cons next list ih =>
    rw [List.map_cons, insertRun_cons, ih, hone]
    rfl

/-- Direction letters set the directions, if there are any; the rest of a set is as it was. -/
theorem insertRun_directionRun (h : other.allowedDirections = none)
    (hdirections : ∀ ds, set.allowedDirections = some ds → ∃ dir, ds.contains dir) :
    other.insertRun set.directionRun =
      { other with allowedDirections := set.allowedDirections } := by
  unfold directionRun
  split
  case h_1 hnone =>
    rw [hnone, ← h]
    rfl
  case h_2 ds hds =>
    obtain ⟨dir, hdir⟩ := hdirections ds hds
    have hmem : dir ∈ ds.toList := List.mem_filter.mpr ⟨dir.mem_all, hdir⟩
    obtain ⟨first, rest, hlist⟩ := List.exists_cons_of_ne_nil (List.ne_nil_of_mem hmem)
    rw [hlist, insertRun_map_modifier, ← hlist, addDirections, h, hds]
    exact congrArg (fun es => { other with allowedDirections := some es }) ds.ofList_toList

/-- A set asks for what its canonical run does, if there is a style just when there are hops, and a
direction in every restriction. -/
theorem ofRun_canonicalRun (hhops : set.hopStyle.isSome ↔ 0 < set.hopCount)
    (hdirections : ∀ ds, set.allowedDirections = some ds → ∃ dir, ds.contains dir) :
    ofRun set.canonicalRun = set := by
  have hnone (hzero : set.hopCount = 0) : set.hopStyle = none := by
    rw [← Option.not_isSome_iff_eq_none, hhops, hzero]
    exact Nat.lt_irrefl 0
  have hsome (hne : set.hopCount ≠ 0) : set.hopStyle.isSome := hhops.mpr (Nat.pos_of_ne_zero hne)
  rw [canonicalRun, ofRun_append, ofRun_append, ofRun_flags, insertRun_hopRun rfl hnone hsome,
    insertRun_directionRun rfl hdirections]

end ModifierSet

/-- The canonical term of an atom that a term makes is another term for this atom. -/
theorem Term.atom_term (t : Term) : t.atom.term.atom = t.atom := by
  have hmade := t.makesUp_atom
  have hrun : ModifierSet.ofRun t.atom.modifiers.canonicalRun = t.atom.modifiers :=
    ModifierSet.ofRun_canonicalRun hmade.hopStyle fun ds hds => (hmade.directions ds hds).1
  calc t.atom.term.atom
      = .ofBase t.base (.ofRun t.atom.modifiers.canonicalRun) := rfl
    _ = .ofBase t.base (ModifierSet.ofRun t.run).normalized := by
        rw [hrun]
        rfl
    _ = t.atom := MoveAtom.ofBase_normalized _ _

/-! ## Canonical texts -/

namespace MoveAtom

/-- A dash stands for no flags at all, and for nothing else. -/
theorem toList_flagText (a : MoveAtom) :
    a.profile.flagText.toList = a.modifiers.flags.map Modifier.letter := by
  have hdash (m : Modifier) : m.letter ≠ '-' := by
    cases m <;> decide
  rw [AtomProfile.flagText, profile, ModifierSet.flagLetters]
  cases a.modifiers.flags with
  | nil => rfl
  | cons m flags =>
    have hne : String.ofList ((m :: flags).map Modifier.letter) ≠ "-" := by
      intro heq
      have hlist := congrArg String.toList heq
      rw [String.toList_ofList] at hlist
      exact hdash m (List.cons.inj hlist).1
    simp only [List.isEmpty_cons, Bool.false_eq_true, if_false, if_neg hne, String.toList_ofList]

theorem toList_hopText (a : MoveAtom) :
    a.profile.hopText.toList = a.modifiers.hopRun.map Modifier.letter := by
  have hletter (style : HopStyle) : style.letter = style.modifier.letter := by
    cases style <;> rfl
  rw [AtomProfile.hopText, ModifierSet.hopRun]
  have hcount : a.profile.hopCount = a.modifiers.hopCount := rfl
  rw [hcount]
  cases a.modifiers.hopCount with
  | zero => rfl
  | succ n =>
    rw [String.toList_ofList, List.map_append, List.map_replicate, hletter]
    rfl

theorem toList_directionText (a : MoveAtom) :
    a.profile.directionText.toList = a.modifiers.directionRun.map Modifier.letter := by
  have hletter (dir : Direction) : dir.letter = dir.modifier.letter := by
    cases dir <;> rfl
  rw [AtomProfile.directionText, ModifierSet.directionRun]
  have hdirections : a.profile.allowedDirections = a.modifiers.allowedDirections := rfl
  rw [hdirections]
  cases a.modifiers.allowedDirections with
  | none => rfl
  | some ds =>
    rw [String.toList_ofList, List.map_map]
    exact List.map_congr_left fun dir _ => hletter dir

theorem toList_spelling (a : MoveAtom) :
    a.profile.spelling.toList = a.term.run.map Modifier.letter ++ [a.term.base.letter] := by
  rw [AtomProfile.spelling, String.toList_append, String.toList_append, String.toList_append,
    toList_flagText, toList_hopText, toList_directionText, String.toList_singleton, term,
    ModifierSet.canonicalRun, List.map_append, List.map_append]
  rfl

end MoveAtom

namespace Spelling

theorem ofAtoms_eq_join (atoms : List MoveAtom) :
    ofAtoms atoms = String.join (atoms.map fun a => a.profile.spelling) := by
  rw [← String.toList_inj, ofAtoms, toList_ofTerms, String.toList_join, List.flatMap_map,
    List.flatMap_map]
  exact List.flatMap_congr fun a _ => a.toList_spelling.symm

/-- Terms spelled canonically have the same atoms. -/
theorem compile_join_spelling (ts : List Term) :
    compile (String.join ((ts.map Term.atom).map fun a => a.profile.spelling)) =
      .ok (ts.map Term.atom) := by
  rw [← ofAtoms_eq_join, compile_ofAtoms, List.map_map]
  exact congrArg _ (List.map_congr_left fun t _ => t.atom_term)

theorem compile_spelling (t : Term) : compile t.atom.profile.spelling = .ok [t.atom] := by
  simpa using compile_join_spelling [t]

/-- Each atom of a text may be spelled again by its profile: the texts together compile to the same
atoms. So compiled atoms with the same profile are the same, whatever texts they come from. Fewer
than 2³² letters that hop in each run are counted in 32 bits. -/
theorem compile_respelled {source : String} {atoms : List MoveAtom}
    (h : compile source = .ok atoms) :
    compile (String.join (atoms.map fun a => a.profile.spelling)) = .ok atoms ∧
    (∀ source' atoms', compile source' = .ok atoms' → ∀ a ∈ atoms, ∀ a' ∈ atoms',
      a.profile = a'.profile → a = a') ∧
    ((∀ t ∈ terms source, t.hops.length < 4294967296) →
      ∀ a ∈ atoms, a.profile.hopCount < 4294967296) := by
  have hterms : atoms = (terms source).map Term.atom := atoms_of_compile h
  refine ⟨?again, ?told, ?count⟩
  case again =>
    rw [hterms]
    exact compile_join_spelling _
  case told =>
    intro source' atoms' h' a ha a' ha' hprofile
    rw [hterms] at ha
    rw [atoms_of_compile h'] at ha'
    obtain ⟨t, -, rfl⟩ := List.mem_map.mp ha
    obtain ⟨t', -, rfl⟩ := List.mem_map.mp ha'
    -- One text spells both atoms.
    have hboth : Except.ok [t.atom] = (.ok [t'.atom] : Except SpellingError (List MoveAtom)) := by
      rw [← compile_spelling t, hprofile, compile_spelling t']
    simpa using hboth
  case count =>
    intro hcount
    rw [hterms, List.forall_mem_map]
    intro t ht
    rw [MoveAtom.profile, Term.hopCount_atom]
    exact hcount t ht

/-- A knight with gates that give way and two hops in different styles, a ferz that rides, and a
bishop. -/
def hopperRiderAndBishop : List Term :=
  [⟨[.captureThenLeap, .mustCaptureFirst, .grasshopper, .vertical, .mustNotCaptureFirst, .cannon],
      .knight⟩,
    ⟨[.againRider, .sideways, .left], .ferz⟩, ⟨[], .bishop⟩]

/-- They are spelled again without the gates, and with the directions one by one. -/
theorem compile_respelled_hopper :
    compile "yogvxjNaslFB" = .ok (hopperRiderAndBishop.map Term.atom) ∧
    String.join ((hopperRiderAndBishop.map Term.atom).map fun a => a.profile.spelling) =
      "ygjfbNalrFB" ∧
    compile (String.join ((hopperRiderAndBishop.map Term.atom).map fun a => a.profile.spelling)) =
      .ok (hopperRiderAndBishop.map Term.atom) ∧
    (∀ source' atoms', compile source' = .ok atoms' →
      ∀ a ∈ hopperRiderAndBishop.map Term.atom, ∀ a' ∈ atoms', a.profile = a'.profile → a = a') ∧
    ∀ a ∈ hopperRiderAndBishop.map Term.atom, a.profile.hopCount < 4294967296 := by
  have hcompile : compile "yogvxjNaslFB" = .ok (hopperRiderAndBishop.map Term.atom) := rfl
  obtain ⟨hagain, htold, hcount⟩ := compile_respelled hcompile
  exact ⟨hcompile, by decide, hagain, htold, hcount (by decide)⟩

end Spelling

end FairyMoves
