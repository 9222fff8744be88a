import FairyMoves.Moves
import FairyMoves.Proofs.Grammar

/-!
# One spelling after another

The end of a base atom is the end of all that its modifiers have to say. So a text that compiles
leaves nothing behind for the text after it: the atoms of the two follow each other, and what is
wrong with the second is wrong with the whole, only further on. A character that is no letter is a
fault whatever follows it.

## Main definitions

* `SpellingError.shifted` — the same error, further on in a text

## Main results

* `Spelling.ofTerms_append` — the terms of two texts follow each other
* `Spelling.FaultOf.append_left`, `Spelling.FaultOf.append_right` — a fault of the one or of the
  other part, as a fault of the whole
* `foldl_append_moves` — moves that are gathered atom by atom
* `Spelling.compile_append` — what becomes of two texts when the one follows the other
-/

namespace FairyMoves

/-- The same error at a character so many bytes further on. -/
def SpellingError.shifted (bytes : Nat) : SpellingError → SpellingError
  | unrecognized c i => .unrecognized c (bytes + i)
  | dangling c i => .dangling c (bytes + i)

/-- To gather the moves of atoms one after the other leaves what was there before, and puts the
moves of all behind it. -/
theorem foldl_append_moves (atoms : List MoveAtom) (board : Board) (origin : Square)
    (found : List Square) :
    atoms.foldl (fun found a => found ++ a.moves board origin) found =
      found ++ generate atoms board origin := by
  induction atoms generalizing found with
  | nil => rw [List.foldl_nil, generate_nil, List.append_nil]
  | cons a atoms ih => rw [List.foldl_cons, ih, generate_cons, List.append_assoc]

namespace Spelling

theorem ofTerms_append (ts us : List Term) : ofTerms (ts ++ us) = ofTerms ts ++ ofTerms us := by
  rw [ofTerms, ofTerms, ofTerms, List.flatMap_append, List.map_append, String.ofList_append]

theorem isLetter_of_compile {source : String} {atoms : List MoveAtom}
    (h : compile source = .ok atoms) : ∀ c ∈ source.toList, IsLetter c :=
  (exists_compile_iff.mp ⟨atoms, h⟩).1

/-! ## Faults of the parts -/

/-- A character that is no letter is to blame whatever follows it. -/
theorem FaultOf.append_right {s : String} {c : Char} {i : Nat} (h : FaultOf s (.unrecognized c i))
    (t : String) : FaultOf (s ++ t) (.unrecognized c i) := by
  cases h with
  | @unrecognized before after _ text hbefore hc =>
    have htext : (s ++ t).toList = before ++ c :: (after ++ t.toList) := by
      rw [String.toList_append, text, List.append_assoc, List.cons_append]
    exact .unrecognized htext hbefore hc

/-- Behind letters the same is to blame, so many bytes further on. -/
theorem FaultOf.append_left {t : String} {e : SpellingError} (h : FaultOf t e) {s : String}
    (hs : ∀ c ∈ s.toList, IsLetter c) : FaultOf (s ++ t) (e.shifted s.utf8ByteSize) := by
  cases h with
  | @unrecognized before after c text hbefore hc =>
    have hbytes : s.utf8ByteSize + (String.ofList before).utf8ByteSize =
        (String.ofList (s.toList ++ before)).utf8ByteSize := by
      rw [String.ofList_append, String.ofList_toList, String.utf8ByteSize_append]
    have htext : (s ++ t).toList = (s.toList ++ before) ++ c :: after := by
      rw [String.toList_append, text, List.append_assoc]
    rw [SpellingError.shifted, hbytes]
    exact .unrecognized htext (List.forall_mem_append.mpr ⟨hs, hbefore⟩) hc
  | @dangling c hletters hlast hc =>
    -- The last of the letters is one of `t`, so `t` is at least one byte long.
    have hbytes : t.utf8ByteSize = t.toList.length := by
      rw [← utf8ByteSize_ofList_of_isLetter hletters, String.ofList_toList]
    have hpos : 0 < t.toList.length := List.length_pos_of_mem (List.mem_of_getLast? hlast)
    have hindex : s.utf8ByteSize + (t.utf8ByteSize - 1) = (s ++ t).utf8ByteSize - 1 := by
      rw [String.utf8ByteSize_append]
      omega
    rw [SpellingError.shifted, hindex]
    refine .dangling ?_ ?_ hc
    · rw [String.toList_append]
      exact List.forall_mem_append.mpr ⟨hs, hletters⟩
    · rw [String.toList_append, List.getLast?_append, hlast, Option.some_or]

/-! ## The whole -/

theorem compile_eq_error_iff_faultOf {source : String} {e : SpellingError} :
    compile source = .error e ↔ FaultOf source e :=
  compile_eq_error_iff.trans fault?_eq_some_iff

section Parts

variable {s t : String} {as bs : List MoveAtom}

theorem compile_append_of_ok (hs : compile s = .ok as) (ht : compile t = .ok bs) :
    compile (s ++ t) = .ok (as ++ bs) := by
  obtain ⟨ts, rfl, rfl⟩ := compile_eq_ok_iff_ofTerms.mp hs
  obtain ⟨us, rfl, rfl⟩ := compile_eq_ok_iff_ofTerms.mp ht
  rw [← ofTerms_append, ← List.map_append]
  exact compile_ofTerms (ts ++ us)

theorem compile_append_of_error {e : SpellingError} (hs : compile s = .ok as)
    (ht : compile t = .error e) : compile (s ++ t) = .error (e.shifted s.utf8ByteSize) := by
  have hfault := compile_eq_error_iff_faultOf.mp ht
  apply compile_eq_error_iff_faultOf.mpr
  exact hfault.append_left (isLetter_of_compile hs)

theorem compile_append_of_unrecognized {c : Char} {i : Nat}
    (hs : compile s = .error (.unrecognized c i)) (t : String) :
    compile (s ++ t) = .error (.unrecognized c i) := by
  have hfault := compile_eq_error_iff_faultOf.mp hs
  apply compile_eq_error_iff_faultOf.mpr
  exact hfault.append_right t

end Parts

/-- Behind a text that compiles another one has the atoms and the errors that it has alone. A text
with a character that is no letter has the error that it has alone. The moves of the whole are those
of the parts, as the moves of atoms are those of each, one atom after the other. -/
theorem compile_append (s t : String) :
    (∀ as, compile s = .ok as →
      (∀ bs, compile t = .ok bs →
        compile (s ++ t) = .ok (as ++ bs) ∧
        ∀ board origin, generate (as ++ bs) board origin =
          generate as board origin ++ generate bs board origin) ∧
      ∀ e, compile t = .error e → compile (s ++ t) = .error (e.shifted s.utf8ByteSize)) ∧
    (∀ c index, compile s = .error (.unrecognized c index) →
      compile (s ++ t) = .error (.unrecognized c index)) ∧
    ∀ atoms board origin,
      generate atoms board origin = (atoms.map fun a => a.moves board origin).flatten ∧
      ∀ found, atoms.foldl (fun found a => found ++ a.moves board origin) found =
        found ++ generate atoms board origin := by
  refine ⟨?parts, ?fault, ?gathered⟩
  case parts =>
    intro as hs
    constructor
    · intro bs ht
      exact ⟨compile_append_of_ok hs ht, fun board origin => generate_append⟩
    · intro e ht
      exact compile_append_of_error hs ht
  case fault =>
    intro c index hs
    exact compile_append_of_unrecognized hs t
  case gathered =>
    intro atoms board origin
    refine ⟨?_, foldl_append_moves atoms board origin⟩
    rw [generate_eq_flatMap, List.flatMap_def]

/-- Two pieces, followed by a third one, by a letter of two bytes in the midst of a run, and by
modifiers without a base letter. -/
theorem compile_append_at_faults :
    compile "fmWyB" = .ok [Term.atom ⟨[.forward, .moveOnly], .wazir⟩,
      Term.atom ⟨[.captureThenLeap], .bishop⟩] ∧
    compile "gR" = .ok [Term.atom ⟨[.grasshopper], .rook⟩] ∧
    compile "zé?" = .error (.unrecognized 'é' 1) ∧
    compile "Fcm" = .error (.dangling 'm' 2) ∧
    compile "fmWyBgR" = .ok [Term.atom ⟨[.forward, .moveOnly], .wazir⟩,
      Term.atom ⟨[.captureThenLeap], .bishop⟩, Term.atom ⟨[.grasshopper], .rook⟩] ∧
    compile "fmWyBzé?" = .error (.unrecognized 'é' 6) ∧
    compile "fmWyBFcm" = .error (.dangling 'm' 7) ∧
    compile "zé?gR" = .error (.unrecognized 'é' 1) := by
  have hs : compile "fmWyB" = .ok [Term.atom ⟨[.forward, .moveOnly], .wazir⟩,
      Term.atom ⟨[.captureThenLeap], .bishop⟩] := rfl
  have ht : compile "gR" = .ok [Term.atom ⟨[.grasshopper], .rook⟩] := rfl
  have hletter : compile "zé?" = .error (.unrecognized 'é' 1) := rfl
  have hend : compile "Fcm" = .error (.dangling 'm' 2) := rfl
  exact ⟨hs, ht, hletter, hend,
    (((compile_append "fmWyB" "gR").1 _ hs).1 _ ht).1,
    ((compile_append "fmWyB" "zé?").1 _ hs).2 _ hletter,
    ((compile_append "fmWyB" "Fcm").1 _ hs).2 _ hend,
    (compile_append "zé?" "gR").2.1 _ _ hletter⟩

end Spelling

end FairyMoves
