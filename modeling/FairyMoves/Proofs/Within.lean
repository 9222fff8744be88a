import FairyMoves.Proofs.Landing
import Mathlib.Data.List.Basic
import Mathlib.Data.List.Flatten

/-!
# Atoms within atoms

Some modifier letters take moves away from a piece, and some give it more. In either case one atom
comes to lie within another: it goes no further, it may end on no more squares, and it has no more
deltas. Its moves are then found among those of the other, in the same order. Whether a letter
narrows an atom or widens it does not depend on the letters around it, except that a first direction
narrows and a later one widens.

## Main definitions

* `ModifierSet.Within`, `MoveAtom.Within` — modifiers or an atom ask for less than others
* `MoveAtom.relabelled` — an atom that differs in what no move depends on
* `Modifier.narrows`, `Modifier.widens` — the letters that take moves away, and those that give more
* `Spelling.runBetween` — the run that a letter joins which is put between two texts

## Main results

* `Slide.walkFrom_sublist` — a slide within another ends on some of its squares
* `MoveAtom.Within.moves_sublist` — so does every atom
* `MoveAtom.moves_withModifiers`, `MoveAtom.moves_relabelled` — what no move depends on
* `Term.within_of_narrows`, `Term.within_of_widens`, `Term.within_of_first_direction`,
  `Term.within_of_later_direction` — what one letter more does to a term
* `Spelling.generate_insert` — what one letter more does to the moves of a text
-/

namespace FairyMoves

/-- Modifiers ask for less than others: a piece that goes the same way is stopped earlier, if at
all, and may end on no other squares. -/
structure ModifierSet.Within (set set' : ModifierSet) : Prop where
  captureThenLeap : set'.captureThenLeap = set.captureThenLeap
  zigzag : set'.zigzag = set.zigzag
  hopCount : set'.hopCount = set.hopCount
  requiresClearPath : set'.requiresClearPath → set.requiresClearPath
  mayLand : ∀ q, set.mayLand q → set'.mayLand q
  mayStop : ∀ q, Slide.mayStop set q → Slide.mayStop set' q
  blocks : ∀ q, Slide.blocks set' q → Slide.blocks set q

/-- An atom has no deltas that another one lacks, and its modifiers ask for less. -/
structure MoveAtom.Within (a a' : MoveAtom) : Prop where
  kind : a'.kind = a.kind
  limit : a'.limit = a.limit
  modifiers : a.modifiers.Within a'.modifiers
  deltas : a.deltas.Sublist a'.deltas
  /-- A zigzag takes the first two deltas, which more deltas would change. -/
  zigzag : a.modifiers.zigzag → a'.deltas = a.deltas

theorem ModifierSet.Within.refl (set : ModifierSet) : set.Within set :=
  ⟨rfl, rfl, rfl, id, fun _ => id, fun _ => id, fun _ => id⟩

theorem MoveAtom.Within.refl (a : MoveAtom) : a.Within a :=
  ⟨rfl, rfl, .refl _, .refl _, fun _ => rfl⟩

/-! ## Moves within moves -/

section Moves

variable {set set' : ModifierSet} {board : Board} {origin : Square}

theorem ModifierSet.Within.land? (h : set.Within set') {d : Delta} {target s : Square}
    {q : SquareState} (hs : set.land? board d target q = some s) :
    set'.land? board d target q = some s := by
  rw [ModifierSet.land?] at hs ⊢
  rw [h.captureThenLeap]
  split at hs
  case isTrue hleap => rw [if_pos hleap, hs]
  case isFalse hleap =>
    split at hs
    case isTrue hmay => rw [if_neg hleap, if_pos (h.mayLand q hmay), hs]
    case isFalse => cases hs

theorem ModifierSet.Within.leap_destination? (h : set.Within set') {d : Delta} {s : Square}
    (hs : Leap.destination? set board origin d = some s) :
    Leap.destination? set' board origin d = some s := by
  obtain ⟨target, q, hlook, hclear, hland⟩ := Leap.destination?_eq_some_iff_look.mp hs
  have hclear' (hp : set'.requiresClearPath) : Leap.isPathClear board origin d :=
    hclear (h.requiresClearPath hp)
  exact Leap.destination?_eq_some_iff_look.mpr ⟨target, q, hlook, hclear', h.land? hland⟩

theorem ModifierSet.Within.hop_destination? (h : set.Within set') {d : Delta} {s : Square}
    (hs : Hop.destination? set board origin d = some s) :
    Hop.destination? set' board origin d = some s := by
  obtain ⟨landing, hlanding, hland⟩ := Option.bind_eq_some_iff.mp hs
  refine Option.bind_eq_some_iff.mpr ⟨landing, ?_, h.land? hland⟩
  rw [h.hopCount]
  exact hlanding

/-- A slide that is stopped earlier and ends on no other squares ends on some of the squares. -/
theorem Slide.walkFrom_sublist {a a' : MoveAtom} (hlimit : a'.limit = a.limit)
    (h : a.modifiers.Within a'.modifiers) (course : Course) (step : Nat) :
    (walkFrom a board origin course step).Sublist (walkFrom a' board origin course step) := by
  induction step using Slide.step_induction origin course with
  | h step ih =>
    rw [walkFrom_eq_look (a := a), walkFrom_eq_look (a := a'), hlimit]
    split
    case isFalse => exact .slnil
    case isTrue =>
      cases hlook : board.look (reach? origin (course step) step) with
      | none => exact .slnil
      | some seen =>
        obtain ⟨s, q⟩ := seen
        simp only [Option.elim_some]
        apply List.Sublist.append
        · split
          case isTrue hstop => rw [if_pos (h.mayStop q hstop)]
          case isFalse => exact List.nil_sublist _
        · split
          case isTrue => exact List.nil_sublist _
          case isFalse hgoes =>
            rw [if_neg fun hblocks => hgoes (h.blocks q hblocks)]
            exact ih s (Board.look_eq_some_iff.mp hlook).1

end Moves

namespace MoveAtom

variable {a a' : MoveAtom} {board : Board} {origin : Square}

theorem Within.courses (h : a.Within a') : (Slide.courses a).Sublist (Slide.courses a') := by
  rw [Slide.courses, Slide.courses, h.modifiers.zigzag]
  cases hz : a.modifiers.zigzag with
  | false => exact h.deltas.map Slide.straight
  | true => rw [h.zigzag hz]

/-- Fewer deltas, each with fewer destinations, lead to fewer squares. -/
theorem filterMap_sublist {ds ds' : List Delta} (hds : ds.Sublist ds')
    {f f' : Delta → Option Square} (h : ∀ d s, f d = some s → f' d = some s) :
    (ds.filterMap f).Sublist (ds'.filterMap f') := by
  have hsame : (ds.filterMap f).Sublist (ds.filterMap f') := by
    clear hds
    induction ds with
    | nil => exact .slnil
    | cons d ds ih =>
      cases hd : f d with
      | some s =>
        rw [List.filterMap_cons_some hd, List.filterMap_cons_some (h d s hd)]
        exact ih.cons_cons s
      | none =>
        rw [List.filterMap_cons_none hd]
        exact ih.trans ((List.sublist_cons_self d ds).filterMap f')
  exact hsame.trans (hds.filterMap f')

/-- The moves of an atom within another are found among those of the other, in the same order. -/
theorem Within.moves_sublist (h : a.Within a') (board : Board) (origin : Square) :
    (a.moves board origin).Sublist (a'.moves board origin) := by
  rw [moves, moves, h.kind]
  cases a.kind with
  | leap => exact filterMap_sublist h.deltas fun _ _ => h.modifiers.leap_destination?
  | hop => exact filterMap_sublist h.deltas fun _ _ => h.modifiers.hop_destination?
  | slide =>
    have hwalks : ((Slide.courses a).flatMap (Slide.walk a board origin)).Sublist
        ((Slide.courses a).flatMap (Slide.walk a' board origin)) :=
      List.Sublist.flatMap_right _ fun course _ =>
        Slide.walkFrom_sublist h.limit h.modifiers course 1
    exact hwalks.trans (h.courses.flatMap _)

/-- Atoms that lie within each other have the same moves. -/
theorem Within.moves_eq (h : a.Within a') (h' : a'.Within a) (board : Board) (origin : Square) :
    a.moves board origin = a'.moves board origin :=
  (h.moves_sublist board origin).antisymm (h'.moves_sublist board origin)

/-- The atom under the name of another base atom, with another style of hopping, and with the letter
for riders or without. -/
def relabelled (a : MoveAtom) (b : BaseAtom) (style : Option HopStyle) (again : Bool) : MoveAtom :=
  { a with base := b, modifiers := { a.modifiers with hopStyle := style, againRider := again } }

/-- Modifiers that ask for less than each other may take each other's place. The base atom may
change too, for its name alone makes no move. -/
theorem moves_withModifiers (a : MoveAtom) (b : BaseAtom) {set : ModifierSet}
    (h : a.modifiers.Within set ∧ set.Within a.modifiers) (board : Board) (origin : Square) :
    ({ a with base := b, modifiers := set } : MoveAtom).moves board origin =
      a.moves board origin := by
  have hle : ({ a with base := b, modifiers := set } : MoveAtom).Within a :=
    ⟨rfl, rfl, h.2, .refl _, fun _ => rfl⟩
  have hge : a.Within { a with base := b, modifiers := set } :=
    ⟨rfl, rfl, h.1, .refl _, fun _ => rfl⟩
  exact hle.moves_eq hge board origin

/-- Once an atom is made no move depends on any of these. -/
theorem moves_relabelled (a : MoveAtom) (b : BaseAtom) (style : Option HopStyle) (again : Bool)
    (board : Board) (origin : Square) :
    (a.relabelled b style again).moves board origin = a.moves board origin := by
  have hset : a.modifiers.Within (a.relabelled b style again).modifiers ∧
      (a.relabelled b style again).modifiers.Within a.modifiers :=
    ⟨⟨rfl, rfl, rfl, id, fun _ => id, fun _ => id, fun _ => id⟩,
      ⟨rfl, rfl, rfl, id, fun _ => id, fun _ => id, fun _ => id⟩⟩
  exact a.moves_withModifiers b hset board origin

end MoveAtom

/-- An atom may take the place of one within it, and only adds to the moves. -/
theorem generate_sublist_of_within {a a' : MoveAtom} (h : a.Within a')
    (before after : List MoveAtom) (board : Board) (origin : Square) :
    (generate (before ++ a :: after) board origin).Sublist
      (generate (before ++ a' :: after) board origin) := by
  rw [generate_append, generate_append, generate_cons, generate_cons]
  exact ((h.moves_sublist board origin).append (.refl _)).append_left _

/-! ## One letter more -/

namespace Modifier

/-- The letter takes moves away from a piece: it gates the landing or asks for a clear path. -/
def narrows : Modifier → Bool
  | moveOnly | captureOnly | mustCaptureFirst | mustNotCaptureFirst | requiresClearPath => true
  | _ => false

/-- The letter gives a piece more moves: less stops its slides. -/
def widens : Modifier → Bool
  | unblockable | takeAndContinue => true
  | _ => false

end Modifier

namespace ModifierSet

variable {set : ModifierSet} {m : Modifier}

theorem within_of_gate {state : SquareState} (hm : m.gate? = some state) (set : ModifierSet) :
    (set.insert m).Within set := by
  have hway := sameWay_insert_gate hm set
  have hland (q : SquareState) (h : (set.insert m).mayLand q) : set.mayLand q := by
    rw [mayLand_insert_gate hm] at h
    exact (Bool.and_eq_true_iff.mp h).1
  refine ⟨hway.captureThenLeap.symm, hway.zigzag.symm, hway.hopCount.symm, ?_, hland, ?_, ?_⟩
  · rw [hway.requiresClearPath]
    exact id
  · intro q h
    rw [Slide.mayStop, hway.takeAndContinue] at h
    rw [Slide.mayStop]
    split at h
    case isTrue htakes => rwa [if_pos htakes]
    case isFalse htakes =>
      rw [if_neg htakes]
      exact hland q h
  · intro q h
    cases q with
    | empty => cases h
    | friendly => simpa only [Slide.blocks, hway.unblockable] using h
    | enemy => simpa only [Slide.blocks, hway.unblockable, hway.takeAndContinue] using h

theorem within_of_narrows (hm : m.narrows) (set : ModifierSet) : (set.insert m).Within set := by
  cases m with
  | moveOnly | mustNotCaptureFirst => exact within_of_gate rfl set
  | captureOnly | mustCaptureFirst => exact within_of_gate rfl set
  | requiresClearPath => exact ⟨rfl, rfl, rfl, fun _ => rfl, fun _ => id, fun _ => id, fun _ => id⟩
  | _ => cases hm

theorem within_of_widens (hm : m.widens) (set : ModifierSet) : set.Within (set.insert m) := by
  cases m with
  | unblockable =>
    refine ⟨rfl, rfl, rfl, id, fun _ => id, fun _ => id, fun q h => ?_⟩
    cases q <;> cases h
  | takeAndContinue =>
    refine ⟨rfl, rfl, rfl, id, fun _ => id, fun q h => ?_, fun q h => ?_⟩
    · exact decide_eq_true (Slide.ne_friendly_of_mayStop h)
    · cases q with
      | empty => cases h
      | friendly => exact h
      | enemy => simp [Slide.blocks, insert] at h
  | _ => cases hm

/-- Directions have had their say once the deltas are chosen. -/
theorem within_withDirections (set : ModifierSet) (ds? : Option Directions) :
    set.Within { set with allowedDirections := ds? } ∧
      ({ set with allowedDirections := ds? } : ModifierSet).Within set :=
  ⟨⟨rfl, rfl, rfl, id, fun _ => id, fun _ => id, fun _ => id⟩,
    ⟨rfl, rfl, rfl, id, fun _ => id, fun _ => id, fun _ => id⟩⟩

/-- Direction letters choose among the deltas and do nothing else. -/
theorem within_of_directions (hm : m.directions ≠ []) (set : ModifierSet) :
    set.Within (set.insert m) ∧ (set.insert m).Within set := by
  cases m with
  | forward | backward | left | right | vertical | sideways => exact within_withDirections set _
  | _ => exact absurd rfl hm

theorem allows_of_unrestricted (h : set.allowedDirections = none) (d : Delta) : set.allows d := by
  rw [allows, h]

/-- Once there are directions, more of them allow more deltas. -/
theorem allows_insert_of_allows (hset : set.allowedDirections ≠ none) {d : Delta}
    (h : set.allows d) : (set.insert m).allows d := by
  obtain ⟨ds, hds⟩ := Option.ne_none_iff_exists'.mp hset
  rw [allows, hds] at h
  rw [allows, allowedDirections_insert, hds]
  split
  case h_1 => rfl
  case h_2 es hes =>
    split at hes
    case isTrue => rwa [← Option.some.inj hes]
    case isFalse =>
      obtain ⟨dir, hdir, hagrees⟩ := Directions.allows_iff.mp h
      rw [← Option.some.inj hes, Option.getD_some]
      refine Directions.allows_iff.mpr ⟨dir, ?_, hagrees⟩
      rw [Directions.contains_insertAll, hdir, Bool.true_or]

end ModifierSet

namespace Term

variable {t t' : Term} {m : Modifier}

theorem Adds.atom_eq_of_captureThenLeap (hm : m = .mustCaptureFirst ∨ m = .mustNotCaptureFirst)
    (hleap : .captureThenLeap ∈ t.run) (h : t.Adds m t') : t'.atom = t.atom := by
  have hplain : m.hopStyle? = none := by
    rcases hm with rfl | rfl <;> rfl
  have hon := ModifierSet.captureThenLeap_ofRun.mpr hleap
  rw [atom, atom, h.1, h.ofRun_eq hplain, ← MoveAtom.ofBase_normalized,
    ModifierSet.normalized_insert_of_captureThenLeap hm hon, MoveAtom.ofBase_normalized]

theorem within_of_narrows (hm : m.narrows) (h : t.Adds m t') : t'.atom.Within t.atom := by
  have hplain : m.isPlain := by
    cases m with
    | moveOnly | captureOnly | mustCaptureFirst | mustNotCaptureFirst | requiresClearPath => rfl
    | _ => cases hm
  by_cases hcleared : .captureThenLeap ∈ t.run ∧ (m = .mustCaptureFirst ∨ m = .mustNotCaptureFirst)
  · rw [h.atom_eq_of_captureThenLeap hcleared.2 hcleared.1]
    exact .refl _
  · rw [h.atom_eq hplain fun hleap =>
      ⟨fun heq => hcleared ⟨hleap, .inl heq⟩, fun heq => hcleared ⟨hleap, .inr heq⟩⟩]
    exact ⟨rfl, rfl, ModifierSet.within_of_narrows hm _, .refl _, fun _ => rfl⟩

theorem within_of_widens (hm : m.widens) (h : t.Adds m t') : t.atom.Within t'.atom := by
  have hatom : t'.atom = t.atom.insert m := by
    cases m with
    | unblockable | takeAndContinue => exact h.atom_eq rfl fun _ => ⟨nofun, nofun⟩
    | _ => cases hm
  rw [hatom]
  exact ⟨rfl, rfl, ModifierSet.within_of_widens hm _, .refl _, fun _ => rfl⟩

/-- A direction letter changes which deltas are left and nothing else. -/
theorem Adds.atom_eq_of_directions (hm : m.directions ≠ []) (h : t.Adds m t') :
    t'.atom = { t.atom.insert m with
      deltas := t.base.deltas.filter ((ModifierSet.ofRun t.run).insert m).allows } := by
  have hhop : m.hopStyle? = none := by
    cases m with
    | grasshopper | cannon => exact absurd rfl hm
    | _ => rfl
  have hother (k : Modifier) (hk : k.directions = []) : m ≠ k := fun heq => hm (heq ▸ hk)
  have hkind := MoveAtom.kindOf_insert hhop (hother .againRider rfl) t.base (.ofRun t.run)
  have hnormal : ((ModifierSet.ofRun t.run).insert m).normalized =
      (ModifierSet.ofRun t.run).normalized.insert m :=
    ModifierSet.normalized_insert (hother .captureThenLeap rfl) fun _ =>
      ⟨hother .mustCaptureFirst rfl, hother .mustNotCaptureFirst rfl⟩
  simp only [atom, h.1, h.ofRun_eq hhop, MoveAtom.ofBase, MoveAtom.insert, hkind, hnormal]

theorem within_of_first_direction (hm : m.directions ≠ []) (hzigzag : .zigzag ∉ t.run)
    (hfirst : ∀ k ∈ t.run, k.directions = []) (h : t.Adds m t') : t'.atom.Within t.atom := by
  have hnone : (ModifierSet.ofRun t.run).allowedDirections = none := by
    rw [ModifierSet.allowedDirections_ofRun, if_pos (List.flatMap_eq_nil_iff.mpr hfirst)]
  have hwithin := (ModifierSet.within_of_directions hm t.atom.modifiers).2
  rw [h.atom_eq_of_directions hm]
  refine ⟨rfl, rfl, hwithin, ?_,
    fun hz => absurd (zigzag_atom.mp (hwithin.zigzag.trans hz)) hzigzag⟩
  exact List.monotone_filter_right _ fun d _ => ModifierSet.allows_of_unrestricted hnone d

theorem within_of_later_direction (hm : m.directions ≠ []) (hzigzag : .zigzag ∉ t.run)
    (hlater : ∃ k ∈ t.run, k.directions ≠ []) (h : t.Adds m t') : t.atom.Within t'.atom := by
  have hsome : (ModifierSet.ofRun t.run).allowedDirections ≠ none := by
    obtain ⟨k, hk, hdirections⟩ := hlater
    rw [ModifierSet.allowedDirections_ofRun,
      if_neg fun hnil => hdirections (List.flatMap_eq_nil_iff.mp hnil k hk)]
    exact Option.some_ne_none _
  have hwithin := (ModifierSet.within_of_directions hm t.atom.modifiers).1
  rw [h.atom_eq_of_directions hm]
  refine ⟨rfl, rfl, hwithin, ?_, fun hz => absurd (zigzag_atom.mp hz) hzigzag⟩
  exact List.monotone_filter_right _ fun d => ModifierSet.allows_insert_of_allows hsome

end Term

/-! ## One letter more in a text -/

namespace Spelling

/-- The run that a letter joins which is put between two texts: the modifiers at the end of the one
and those in front of the first base letter of the other. -/
def runBetween (p q : String) : List Modifier := dangling p ++ (terms q).head?.elim [] Term.run

/-- A modifier that is put into a text joins the run around it and leaves all other terms alone. -/
theorem exists_adds_of_compile {p q : String} {atoms : List MoveAtom}
    (h : compile (p ++ q) = .ok atoms) (hq : q ≠ "") :
    ∃ before t after, terms (p ++ q) = before ++ t :: after ∧ t.run = runBetween p q ∧
      ∀ m : Modifier, ∃ t', t.Adds m t' ∧
        terms (p ++ String.singleton m.letter ++ q) = before ++ t' :: after := by
  obtain ⟨hp, atoms', hcompile⟩ := exists_compile_of_append h
  obtain ⟨u, us, hterms⟩ : ∃ u us, terms q = u :: us := by
    apply List.exists_cons_of_ne_nil
    intro hnil
    have hsource := source_of_compile hcompile
    rw [hnil] at hsource
    exact hq hsource
  refine ⟨terms p, _, us, terms_append hp hterms, ?_, fun m => ⟨⟨dangling p ++ m :: u.run, u.base⟩,
    ⟨rfl, dangling p, u.run, rfl, rfl⟩, ?_⟩⟩
  · rw [runBetween, hterms]
    rfl
  · have hletter : ∀ c ∈ (String.singleton m.letter).toList, IsLetter c := by
      intro c hc
      obtain rfl : c = m.letter := by simpa using hc
      exact (Letter.modifier m).isLetter_char
    have hnext : terms (String.singleton m.letter ++ q) = { u with run := m :: u.run } :: us := by
      rw [terms_append hletter hterms]
      simp [terms, dangling, letters, Term.split, Letter.ofChar?]
    rw [String.append_assoc, terms_append hp hnext]

/-- Letters may be put anywhere into a text that compiles, save at its end. -/
theorem exists_compile_insert {p q : String} {atoms : List MoveAtom}
    (h : compile (p ++ q) = .ok atoms) (hq : q ≠ "") {c : Char} (hc : IsLetter c) :
    ∃ atoms', compile (p ++ String.singleton c ++ q) = .ok atoms' := by
  obtain ⟨hp, hcompile⟩ := exists_compile_of_append h
  obtain ⟨hletters, hend⟩ := exists_compile_iff.mp hcompile
  refine exists_compile_iff.mpr ⟨?_, .inr ?_⟩
  · intro x hx
    simp only [String.toList_append, String.toList_singleton, List.mem_append,
      List.mem_singleton] at hx
    rcases hx with (hx | rfl) | hx
    · exact hp x hx
    · exact hc
    · exact hletters x hx
  · obtain ⟨d, hd, hlast⟩ := hend.resolve_left hq
    refine ⟨d, hd, ?_⟩
    rw [String.toList_append, List.getLast?_append, hlast, Option.some_or]

/-- What a letter does that is put between two texts, to the moves of the two texts together. -/
structure InsertLaws (p q : String) (atoms : List MoveAtom) : Prop where
  /-- Every letter, be it a modifier or a base letter, leaves a text that compiles. -/
  compiles : ∀ l : Letter, ∃ atoms', compile (p ++ String.singleton l.char ++ q) = .ok atoms'
  /-- The letters that gate the landing and the one for a clear path take moves away. -/
  narrows : ∀ m : Modifier, m.narrows →
    ∀ atoms', compile (p ++ String.singleton m.letter ++ q) = .ok atoms' →
    ∀ board origin, (generate atoms' board origin).Sublist (generate atoms board origin)
  /-- The letters that let a slide go on give it more moves. -/
  widens : ∀ m : Modifier, m.widens →
    ∀ atoms', compile (p ++ String.singleton m.letter ++ q) = .ok atoms' →
    ∀ board origin, (generate atoms board origin).Sublist (generate atoms' board origin)
  /-- The first direction letter of a run takes moves away, unless there is a zigzag. -/
  firstDirection : ∀ m : Modifier, m.directions ≠ [] → .zigzag ∉ runBetween p q →
    (∀ k ∈ runBetween p q, k.directions = []) →
    ∀ atoms', compile (p ++ String.singleton m.letter ++ q) = .ok atoms' →
    ∀ board origin, (generate atoms' board origin).Sublist (generate atoms board origin)
  /-- Every later one gives more, unless there is a zigzag. -/
  laterDirection : ∀ m : Modifier, m.directions ≠ [] → .zigzag ∉ runBetween p q →
    (∃ k ∈ runBetween p q, k.directions ≠ []) →
    ∀ atoms', compile (p ++ String.singleton m.letter ++ q) = .ok atoms' →
    ∀ board origin, (generate atoms board origin).Sublist (generate atoms' board origin)

/-- One letter more, anywhere in a text that compiles, takes moves away or gives more according to
the letter alone, and in the case of directions according to whether it is the first of its run. -/
theorem generate_insert {p q : String} {atoms : List MoveAtom} (h : compile (p ++ q) = .ok atoms)
    (hq : q ≠ "") : InsertLaws p q atoms := by
  obtain ⟨before, t, after, hterms, hrun, hinsert⟩ := exists_adds_of_compile h hq
  have hatoms : atoms = before.map Term.atom ++ t.atom :: after.map Term.atom := by
    rw [atoms_of_compile h, hterms, List.map_append, List.map_cons]
  have hmore (m : Modifier) (atoms' : List MoveAtom)
      (h' : compile (p ++ String.singleton m.letter ++ q) = .ok atoms') :
      ∃ t', t.Adds m t' ∧ atoms' = before.map Term.atom ++ t'.atom :: after.map Term.atom := by
    obtain ⟨t', hadds, hterms'⟩ := hinsert m
    refine ⟨t', hadds, ?_⟩
    rw [atoms_of_compile h', hterms', List.map_append, List.map_cons]
  constructor
  case compiles =>
    intro l
    exact exists_compile_insert h hq l.isLetter_char
  case narrows =>
    intro m hm atoms' h' board origin
    obtain ⟨t', hadds, rfl⟩ := hmore m atoms' h'
    rw [hatoms]
    exact generate_sublist_of_within (Term.within_of_narrows hm hadds) _ _ board origin
  case widens =>
    intro m hm atoms' h' board origin
    obtain ⟨t', hadds, rfl⟩ := hmore m atoms' h'
    rw [hatoms]
    exact generate_sublist_of_within (Term.within_of_widens hm hadds) _ _ board origin
  case firstDirection =>
    intro m hm hzigzag hfirst atoms' h' board origin
    rw [← hrun] at hzigzag hfirst
    obtain ⟨t', hadds, rfl⟩ := hmore m atoms' h'
    rw [hatoms]
    exact generate_sublist_of_within (Term.within_of_first_direction hm hzigzag hfirst hadds)
      _ _ board origin
  case laterDirection =>
    intro m hm hzigzag hlater atoms' h' board origin
    rw [← hrun] at hzigzag hlater
    obtain ⟨t', hadds, rfl⟩ := hmore m atoms' h'
    rw [hatoms]
    exact generate_sublist_of_within (Term.within_of_later_direction hm hzigzag hlater hadds)
      _ _ board origin

/-- Between a direction and a gate: the run has no zigzag, though the piece before it has one. -/
theorem generate_insert_after_direction :
    compile ("ztBf" ++ "cyN") = .ok [Term.atom ⟨[.zigzag, .takeAndContinue], .bishop⟩,
      Term.atom ⟨[.forward, .captureOnly, .captureThenLeap], .knight⟩] ∧
    "cyN" ≠ "" ∧
    runBetween "ztBf" "cyN" = [.forward, .captureOnly, .captureThenLeap] ∧
    InsertLaws "ztBf" "cyN" [Term.atom ⟨[.zigzag, .takeAndContinue], .bishop⟩,
      Term.atom ⟨[.forward, .captureOnly, .captureThenLeap], .knight⟩] := by
  have hcompile : compile ("ztBf" ++ "cyN") =
      .ok [Term.atom ⟨[.zigzag, .takeAndContinue], .bishop⟩,
        Term.atom ⟨[.forward, .captureOnly, .captureThenLeap], .knight⟩] := rfl
  have hq : "cyN" ≠ "" := by
    decide
  exact ⟨hcompile, hq, rfl, generate_insert hcompile hq⟩

end Spelling

end FairyMoves
