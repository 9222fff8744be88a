import FairyMoves.Spelling

/-!
# The grammar of spellings

A spelling is a sequence of terms: modifier letters, as many as one likes, and then a base letter.
Compiling accepts these texts and no others. A text that is refused is blamed for its first
character that is no letter, wherever its modifiers stand; only a text of letters alone is blamed
for the modifiers at its end.

## Main definitions

* `modifierAlphabet`, `baseAlphabet`, `IsLetter` — the eighteen letters of the modifiers, the
  sixteen of the base atoms, and the characters that are one of them
* `FaultOf` — what a text is blamed for
* `Spelling.terms`, `Spelling.dangling` — the terms of a text, and the modifiers after them

## Main results

* `map_char_letters` — the letters that are read of a text are its characters up to the first one
  that is no letter
* `Term.getLast?_split` — modifiers are left over just when the last letter is one
* `fault?_eq_some_iff` — the fault that is found is the one to blame
* `Spelling.source_of_compile`, `Spelling.atoms_of_compile` — a text that compiles is made of its
  terms
* `Spelling.compile_run` — a run of modifier letters and a base letter
* `compile_grammar` — what is accepted, what it compiles to, and what the rest is blamed for
-/

namespace FairyMoves

/-! ## Alphabets -/

/-- The letters of the modifiers. -/
def modifierAlphabet : List Char := "mcoxyztupagjfblrvs".toList

/-- The letters of the base atoms. -/
def baseAlphabet : List Char := "WFNDAECZHGSPRBQK".toList

/-- The character may stand in a spelling. -/
def IsLetter (c : Char) : Prop := c ∈ modifierAlphabet ∨ c ∈ baseAlphabet

theorem mem_modifierAlphabet_iff {c : Char} :
    c ∈ modifierAlphabet ↔ ∃ m : Modifier, m.letter = c := by
  have halphabet : modifierAlphabet = Modifier.all.map Modifier.letter := by decide
  rw [halphabet, List.mem_map]
  exact ⟨fun ⟨m, _, hm⟩ => ⟨m, hm⟩, fun ⟨m, hm⟩ => ⟨m, Modifier.mem_all m, hm⟩⟩

theorem mem_baseAlphabet_iff {c : Char} : c ∈ baseAlphabet ↔ ∃ b : BaseAtom, b.letter = c := by
  have halphabet : baseAlphabet = BaseAtom.all.map BaseAtom.letter := by decide
  rw [halphabet, List.mem_map]
  exact ⟨fun ⟨b, _, hb⟩ => ⟨b, hb⟩, fun ⟨b, hb⟩ => ⟨b, BaseAtom.mem_all b, hb⟩⟩

/-- Characters that are letters of modifiers spell a run. -/
theorem exists_map_letter {cs : List Char} (h : ∀ c ∈ cs, c ∈ modifierAlphabet) :
    ∃ run : List Modifier, cs = run.map Modifier.letter := by
  induction cs with
  | nil => exact ⟨[], rfl⟩
  | cons c cs ih =>
    obtain ⟨hc, hcs⟩ := List.forall_mem_cons.mp h
    obtain ⟨m, rfl⟩ := mem_modifierAlphabet_iff.mp hc
    obtain ⟨run, rfl⟩ := ih hcs
    exact ⟨m :: run, rfl⟩

/-- No character is a letter of both kinds. -/
theorem baseLetter_notMem_modifierAlphabet (b : BaseAtom) : b.letter ∉ modifierAlphabet := by
  cases b <;> decide

@[simp] theorem BaseAtom.ofLetter?_modifierLetter (m : Modifier) :
    BaseAtom.ofLetter? m.letter = none := by
  cases m <;> rfl

theorem Letter.isLetter_char (l : Letter) : IsLetter l.char := by
  cases l with
  | modifier m => exact .inl (mem_modifierAlphabet_iff.mpr ⟨m, rfl⟩)
  | base b => exact .inr (mem_baseAlphabet_iff.mpr ⟨b, rfl⟩)

theorem isLetter_iff {c : Char} : IsLetter c ↔ ∃ l : Letter, l.char = c := by
  constructor
  · rintro (h | h)
    · obtain ⟨m, rfl⟩ := mem_modifierAlphabet_iff.mp h
      exact ⟨.modifier m, rfl⟩
    · obtain ⟨b, rfl⟩ := mem_baseAlphabet_iff.mp h
      exact ⟨.base b, rfl⟩
  · rintro ⟨l, rfl⟩
    exact l.isLetter_char

theorem Letter.ofChar?_eq_none_iff {c : Char} : ofChar? c = none ↔ ¬ IsLetter c := by
  constructor
  · intro hnone hletter
    obtain ⟨l, rfl⟩ := isLetter_iff.mp hletter
    simp at hnone
  · intro hno
    cases h : ofChar? c with
    | none => rfl
    | some l => exact absurd (isLetter_iff.mpr ⟨l, char_of_ofChar? h⟩) hno

/-- Letters are one byte each, so that bytes and characters count alike. -/
theorem utf8ByteSize_ofList_of_isLetter {cs : List Char} (h : ∀ c ∈ cs, IsLetter c) :
    (String.ofList cs).utf8ByteSize = cs.length := by
  induction cs with
  | nil => rfl
  | cons c cs ih =>
    obtain ⟨l, hl⟩ := isLetter_iff.mp (h c List.mem_cons_self)
    have hrest := ih fun x hx => h x (List.mem_cons_of_mem _ hx)
    have hsize : (String.singleton c).utf8ByteSize = 1 := by
      rw [← hl, String.utf8ByteSize_singleton, l.utf8Size_char]
    rw [← List.singleton_append, String.ofList_append, String.utf8ByteSize_append, hrest,
      ← String.singleton_eq_ofList, hsize, List.length_append, List.length_singleton]

/-! ## The letters of a text -/

/-- A text consists of letters, or it has a first character that is none. -/
theorem forall_isLetter_or_exists_first (cs : List Char) :
    (∀ c ∈ cs, IsLetter c) ∨
      ∃ before c after, cs = before ++ c :: after ∧ (∀ x ∈ before, IsLetter x) ∧ ¬ IsLetter c := by
  induction cs with
  | nil => exact .inl fun _ h => absurd h List.not_mem_nil
  | cons c cs ih =>
    by_cases hc : IsLetter c
    · rcases ih with hall | ⟨before, d, after, rfl, hbefore, hd⟩
      · exact .inl (List.forall_mem_cons.mpr ⟨hc, hall⟩)
      · exact .inr ⟨c :: before, d, after, rfl, List.forall_mem_cons.mpr ⟨hc, hbefore⟩, hd⟩
    · exact .inr ⟨[], c, cs, rfl, fun _ h => absurd h List.not_mem_nil, hc⟩

namespace Spelling

/-- Reading passes over letters and stops where the rest of the text makes it stop. -/
theorem map_char_letters_append {before : List Char} (h : ∀ c ∈ before, IsLetter c)
    (after : List Char) :
    (letters (before ++ after)).map Letter.char = before ++ (letters after).map Letter.char := by
  induction before with
  | nil => rfl
  | cons c before ih =>
    obtain ⟨hc, hrest⟩ := List.forall_mem_cons.mp h
    obtain ⟨l, rfl⟩ := isLetter_iff.mp hc
    simp [letters, ih hrest]

theorem map_char_letters {cs : List Char} (h : ∀ c ∈ cs, IsLetter c) :
    (letters cs).map Letter.char = cs := by
  simpa [letters] using map_char_letters_append h []

theorem map_char_letters_of_first {before : List Char} {c : Char} (h : ∀ x ∈ before, IsLetter x)
    (hc : ¬ IsLetter c) (after : List Char) :
    (letters (before ++ c :: after)).map Letter.char = before := by
  have hstop : letters (c :: after) = [] := by
    simp only [letters, Letter.ofChar?_eq_none_iff.mpr hc]
  rw [map_char_letters_append h, hstop, List.map_nil, List.append_nil]

end Spelling

/-! ## Modifiers at the end -/

theorem Letter.char_injective : Function.Injective Letter.char := fun l k h =>
  Option.some.inj (by rw [← ofChar?_char l, h, ofChar?_char])

namespace Term

/-- Modifiers are left over just when the last letter is one, and that one is the last of them. -/
theorem getLast?_split {ls : List Letter} {m : Modifier} :
    (split ls).2.getLast? = some m ↔ ls.getLast? = some (.modifier m) := by
  have hls := letters_split ls
  cases hd : (split ls).2 with
  | nil =>
    rw [hd, List.map_nil, List.append_nil] at hls
    rcases List.eq_nil_or_concat (split ls).1 with hnil | ⟨terms, t, hterms⟩
    · rw [hnil, List.flatMap_nil] at hls
      rw [← hls]
      simp
    · rw [hterms, List.concat_eq_append, List.flatMap_append, List.flatMap_singleton, letters,
        ← List.append_assoc] at hls
      rw [← hls]
      simp
  | cons k run =>
    have hlast : ls.getLast? = ((k :: run).getLast?).map Letter.modifier := by
      rw [← hls, hd, List.getLast?_append, List.getLast?_map, List.getLast?_cons]
      rfl
    rw [hlast, Option.map_eq_some_iff]
    constructor
    · exact fun h => ⟨m, h, rfl⟩
    · rintro ⟨m', h, heq⟩
      rw [h, Letter.modifier.inj heq]

end Term

namespace Spelling

/-! ## Faults -/

/-- What a text is blamed for. Indexes count the bytes in front of the character at fault. -/
inductive FaultOf (source : String) : SpellingError → Prop
  /-- Its first character that is no letter, even if its modifiers dangle as well. -/
  | unrecognized {before after : List Char} {c : Char} (text : source.toList = before ++ c :: after)
      (letters : ∀ x ∈ before, IsLetter x) (fault : ¬ IsLetter c) :
      FaultOf source (.unrecognized c (String.ofList before).utf8ByteSize)
  /-- The last of its letters, if that is a modifier. -/
  | dangling {c : Char} (letters : ∀ x ∈ source.toList, IsLetter x)
      (last : source.toList.getLast? = some c) (fault : c ∈ modifierAlphabet) :
      FaultOf source (.dangling c (source.utf8ByteSize - 1))

theorem fault?_of_first {source : String} {before after : List Char} {c : Char}
    (text : source.toList = before ++ c :: after) (hbefore : ∀ x ∈ before, IsLetter x)
    (hc : ¬ IsLetter c) : fault? source = some (.unrecognized c before.length) := by
  have hread := map_char_letters_of_first hbefore hc after
  have hlength : (letters source.toList).length = before.length := by
    rw [text, ← List.length_map Letter.char, hread]
  simp only [fault?, hlength]
  rw [text, List.drop_left]

theorem fault?_of_isLetter {source : String} (h : ∀ c ∈ source.toList, IsLetter c)
    {e : SpellingError} :
    fault? source = some e ↔ ∃ m : Modifier, source.toList.getLast? = some m.letter ∧
      e = .dangling m.letter (source.utf8ByteSize - 1) := by
  have hread := map_char_letters h
  have hlength : (letters source.toList).length = source.toList.length := by
    rw [← List.length_map Letter.char, hread]
  have hbytes : source.utf8ByteSize = source.toList.length := by
    rw [← utf8ByteSize_ofList_of_isLetter h, String.ofList_toList]
  have hlast (m : Modifier) : source.toList.getLast? = some m.letter ↔
      (Term.split (letters source.toList)).2.getLast? = some m := by
    rw [Term.getLast?_split, ← hread, List.getLast?_map, hread]
    constructor
    · intro h
      obtain ⟨l, hl, hm⟩ := Option.map_eq_some_iff.mp h
      have hmodifier : l = .modifier m := Letter.char_injective hm
      rw [hl, hmodifier]
    · intro h
      rw [h]
      rfl
  simp only [fault?, hlength, List.drop_length, hbytes, hlast, Option.map_eq_some_iff]
  exact exists_congr fun m => and_congr_right fun _ => eq_comm

theorem fault?_eq_some_iff {source : String} {e : SpellingError} :
    fault? source = some e ↔ FaultOf source e := by
  constructor
  · intro he
    rcases forall_isLetter_or_exists_first source.toList with
      hall | ⟨before, c, after, text, hbefore, hc⟩
    · obtain ⟨m, hlast, rfl⟩ := (fault?_of_isLetter hall).mp he
      exact .dangling hall hlast (mem_modifierAlphabet_iff.mpr ⟨m, rfl⟩)
    · obtain rfl := Option.some.inj ((fault?_of_first text hbefore hc).symm.trans he)
      rw [← utf8ByteSize_ofList_of_isLetter hbefore]
      exact .unrecognized text hbefore hc
  · intro he
    cases he with
    | unrecognized text hbefore hc =>
      rw [utf8ByteSize_ofList_of_isLetter hbefore, fault?_of_first text hbefore hc]
    | dangling hall hlast hc =>
      obtain ⟨m, rfl⟩ := mem_modifierAlphabet_iff.mp hc
      exact (fault?_of_isLetter hall).mpr ⟨m, hlast, rfl⟩

theorem fault?_eq_none_iff {source : String} :
    fault? source = none ↔ ∀ e, ¬ FaultOf source e := by
  rw [Option.eq_none_iff_forall_not_mem]
  exact forall_congr' fun e => not_congr fault?_eq_some_iff

/-! ## The terms of a text -/

/-- The terms of a text, one for each base letter before its first fault. -/
def terms (source : String) : List Term := (Term.split (letters source.toList)).1

/-- The modifiers of a text that no base letter follows. -/
def dangling (source : String) : List Modifier := (Term.split (letters source.toList)).2

theorem terms_ofTerms (ts : List Term) : terms (ofTerms ts) = ts := by
  rw [terms, ofTerms, String.toList_ofList, letters_map_char, Term.split_letters]

theorem letters_append {before : List Char} (h : ∀ c ∈ before, IsLetter c) (after : List Char) :
    letters (before ++ after) = letters before ++ letters after := by
  apply (List.map_inj_right fun _ _ heq => Letter.char_injective heq).mp
  rw [map_char_letters_append h, List.map_append, map_char_letters h]

/-! ## What is accepted -/

theorem toList_ofTerms (terms : List Term) :
    (ofTerms terms).toList =
      terms.flatMap fun t => t.run.map Modifier.letter ++ [t.base.letter] := by
  rw [ofTerms, String.toList_ofList, List.map_flatMap]
  simp only [Term.letters, List.map_append, List.map_map, List.map_singleton]
  rfl

/-- A text compiles just when it is the text of a sequence of terms, and then to their atoms. -/
theorem compile_eq_ok_iff_ofTerms {source : String} {atoms : List MoveAtom} :
    compile source = .ok atoms ↔
      ∃ terms : List Term, source = ofTerms terms ∧ atoms = terms.map Term.atom := by
  constructor
  · intro h
    obtain ⟨hfault, hatoms⟩ := compile_eq_ok_iff.mp h
    have hno := fault?_eq_none_iff.mp hfault
    rcases forall_isLetter_or_exists_first source.toList with
      hall | ⟨before, c, after, text, hbefore, hc⟩
    · have hread := map_char_letters hall
      have hdangling : (Term.split (letters source.toList)).2 = [] := by
        rw [← List.getLast?_eq_none_iff, Option.eq_none_iff_forall_not_mem]
        intro m hm
        have hlast := Term.getLast?_split.mp hm
        have hchar : source.toList.getLast? = some m.letter := by
          rw [← hread, List.getLast?_map, hlast]
          rfl
        exact hno _ (.dangling hall hchar (mem_modifierAlphabet_iff.mpr ⟨m, rfl⟩))
      have hterms := Term.letters_split (letters source.toList)
      rw [hdangling, List.map_nil, List.append_nil] at hterms
      refine ⟨(Term.split (letters source.toList)).1, ?_, hatoms.symm⟩
      rw [ofTerms, hterms, hread, String.ofList_toList]
    · exact absurd (.unrecognized text hbefore hc) (hno _)
  · rintro ⟨terms, rfl, rfl⟩
    exact compile_ofTerms terms

theorem source_of_compile {source : String} {atoms : List MoveAtom}
    (h : compile source = .ok atoms) : source = ofTerms (terms source) := by
  obtain ⟨ts, rfl, _⟩ := compile_eq_ok_iff_ofTerms.mp h
  rw [terms_ofTerms]

theorem atoms_of_compile {source : String} {atoms : List MoveAtom}
    (h : compile source = .ok atoms) : atoms = (terms source).map Term.atom :=
  (compile_eq_ok_iff.mp h).2.symm

theorem exists_compile_eq_ok_iff {source : String} :
    (∃ atoms, compile source = .ok atoms) ↔ ∀ e, ¬ FaultOf source e := by
  simp only [compile_eq_ok_iff, exists_and_left, exists_eq', and_true, fault?_eq_none_iff]

/-- A text is blamed for nothing just when it consists of letters and does not end in a modifier. -/
theorem forall_not_faultOf_iff {source : String} :
    (∀ e, ¬ FaultOf source e) ↔
      (∀ c ∈ source.toList, IsLetter c) ∧
        (source = "" ∨ ∃ c ∈ baseAlphabet, source.toList.getLast? = some c) := by
  constructor
  · intro hno
    rcases forall_isLetter_or_exists_first source.toList with
      hall | ⟨before, c, after, text, hbefore, hc⟩
    · refine ⟨hall, ?_⟩
      cases hlast : source.toList.getLast? with
      | none => exact .inl (String.toList_eq_nil_iff.mp (List.getLast?_eq_none_iff.mp hlast))
      | some c =>
        rcases hall c (List.mem_of_getLast? hlast) with hmodifier | hbase
        · exact absurd (.dangling hall hlast hmodifier) (hno _)
        · exact .inr ⟨c, hbase, rfl⟩
    · exact absurd (.unrecognized text hbefore hc) (hno _)
  · rintro ⟨hall, hend⟩ e he
    cases he with
    | unrecognized text _ hc => exact hc (hall _ (by simp [text]))
    | dangling _ hlast hc =>
      rcases hend with rfl | ⟨d, hd, hlast'⟩
      · simp at hlast
      · obtain rfl := Option.some.inj (hlast.symm.trans hlast')
        obtain ⟨b, rfl⟩ := mem_baseAlphabet_iff.mp hd
        exact baseLetter_notMem_modifierAlphabet b hc

/-- The texts that compile consist of letters, and the last of them is a base letter. -/
theorem exists_compile_iff {source : String} :
    (∃ atoms, compile source = .ok atoms) ↔
      (∀ c ∈ source.toList, IsLetter c) ∧
        (source = "" ∨ ∃ c ∈ baseAlphabet, source.toList.getLast? = some c) :=
  exists_compile_eq_ok_iff.trans forall_not_faultOf_iff

/-- The end of a text that compiles compiles too, and what stands before it consists of letters. -/
theorem exists_compile_of_append {p q : String} {atoms : List MoveAtom}
    (h : compile (p ++ q) = .ok atoms) :
    (∀ c ∈ p.toList, IsLetter c) ∧ ∃ atoms', compile q = .ok atoms' := by
  obtain ⟨hletters, hend⟩ := exists_compile_iff.mp ⟨atoms, h⟩
  rw [String.toList_append] at hletters
  obtain ⟨hp, hletters⟩ := List.forall_mem_append.mp hletters
  refine ⟨hp, exists_compile_iff.mpr ⟨hletters, ?_⟩⟩
  by_cases hq : q = ""
  · exact .inl hq
  · rcases hend with hempty | ⟨c, hc, hlast⟩
    · exact absurd (String.append_eq_empty_iff.mp hempty).2 hq
    · cases hlast' : q.toList.getLast? with
      | none => exact absurd (String.toList_eq_nil_iff.mp (List.getLast?_eq_none_iff.mp hlast')) hq
      | some d =>
        rw [String.toList_append, List.getLast?_append, hlast', Option.some_or] at hlast
        exact .inr ⟨c, hc, hlast⟩

/-- A text that goes on with terms has the terms of both parts, but modifiers at the end of the
first part join the first term of the second. -/
theorem terms_append {p q : String} (hp : ∀ c ∈ p.toList, IsLetter c) {u : Term} {us : List Term}
    (hq : terms q = u :: us) :
    terms (p ++ q) = terms p ++ { u with run := dangling p ++ u.run } :: us := by
  rw [terms, String.toList_append, letters_append hp, Term.split_append hq, terms, dangling]

/-- A run of modifier letters in front of a base letter is a text of one term. -/
theorem compile_run {r : String} {run : List Modifier} (h : r.toList = run.map Modifier.letter)
    (b : BaseAtom) :
    compile (r ++ String.singleton b.letter) = .ok [Term.atom ⟨run, b⟩] := by
  refine compile_eq_ok_iff_ofTerms.mpr ⟨[⟨run, b⟩], ?_, rfl⟩
  rw [← String.toList_inj, toList_ofTerms, List.flatMap_singleton, String.toList_append, h,
    String.toList_singleton]

/-- There is one atom for each base letter, in the order of the text. -/
theorem map_base_of_compile {source : String} {atoms : List MoveAtom}
    (h : compile source = .ok atoms) :
    atoms.map MoveAtom.base = source.toList.filterMap BaseAtom.ofLetter? := by
  obtain ⟨terms, rfl, rfl⟩ := compile_eq_ok_iff_ofTerms.mp h
  rw [toList_ofTerms]
  induction terms with
  | nil => rfl
  | cons t terms ih =>
    have hrun : (t.run.map Modifier.letter).filterMap BaseAtom.ofLetter? = [] := by
      simp
    have hrest := ih (compile_ofTerms terms)
    simp only [List.map_map] at hrest ⊢
    rw [List.map_cons, List.flatMap_cons, List.filterMap_append, List.filterMap_append, hrun, hrest,
      List.filterMap_cons_some (BaseAtom.ofLetter?_letter t.base)]
    rfl

/-- Compiling accepts exactly the sequences of terms, makes one atom of each, and blames every other
text for its first character that is no letter, or else for the modifier at its end. -/
theorem compile_grammar (source : String) :
    ((∃ atoms, compile source = .ok atoms) ↔
      (∀ c ∈ source.toList, IsLetter c) ∧
        (source = "" ∨ ∃ c ∈ baseAlphabet, source.toList.getLast? = some c)) ∧
    (∀ atoms, compile source = .ok atoms ↔
      ∃ terms : List Term,
        source.toList = terms.flatMap (fun t => t.run.map Modifier.letter ++ [t.base.letter]) ∧
        atoms = terms.map fun t => .ofBase t.base (t.run.foldl ModifierSet.insert .empty)) ∧
    (∀ atoms, compile source = .ok atoms →
      atoms.map MoveAtom.base = source.toList.filterMap BaseAtom.ofLetter?) ∧
    (∀ e, compile source = .error e ↔ FaultOf source e) ∧
    (∀ c index, compile source = .error (.unrecognized c index) →
      source.toList[index]? = some c) := by
  refine ⟨exists_compile_eq_ok_iff.trans forall_not_faultOf_iff, fun atoms => ?_,
    fun atoms => map_base_of_compile,
    fun e => compile_eq_error_iff.trans fault?_eq_some_iff, fun c index h => ?_⟩
  · rw [compile_eq_ok_iff_ofTerms]
    refine exists_congr fun terms => and_congr_left fun _ => ?_
    rw [← String.toList_inj, toList_ofTerms]
  · cases fault?_eq_some_iff.mp (compile_eq_error_iff.mp h) with
    | unrecognized text hbefore _ =>
      rw [utf8ByteSize_ofList_of_isLetter hbefore, text]
      simp

end Spelling

end FairyMoves
