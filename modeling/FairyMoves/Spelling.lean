import FairyMoves.MoveAtom
import FairyMoves.Text.Quoted

/-!
# Spellings of pieces

A piece is spelled as a sequence of terms, each a run of modifier letters and then the letter of a
base atom. Compiling a spelling gives one move atom for each term.

## Main definitions

* `Letter`, `Term` — a letter of either kind; a run of modifiers with the base atom it leads to
* `Term.split` — the terms of a sequence of letters, and the run that is left without a base atom
* `SpellingError` — what is wrong with a text
* `Spelling.Scan`, `Spelling.scan` — how far a text has been compiled, and how that goes on
* `Spelling.compile` — the move atoms of a text, or what is wrong with it
* `Spelling.letters` — the letters of a text up to its first other character
* `Spelling.atomsBeforeFault`, `Spelling.fault?` — what those letters spell, and what is wrong
* `Spelling.ofTerms` — the text that a sequence of terms makes

## Main results

* `Term.letters_split`, `Term.split_letters` — splitting loses no letter, and finds the terms that
  the letters were made of
* `Term.split_append` — modifiers at the end of letters join the term that begins the next ones
* `Spelling.scan_eq` — the scan, character by character, finds the terms and the fault of the text
* `Spelling.compile_eq_error_iff`, `Spelling.compile_eq_ok_iff` — a text compiles just when it has
  no fault
* `Spelling.compile_ofTerms` — the text of a sequence of terms compiles, to their atoms
-/

namespace FairyMoves

/-! ## Letters and terms -/

/-- A letter of a spelling. -/
inductive Letter where
  | modifier (m : Modifier)
  | base (b : BaseAtom)
  deriving DecidableEq, Repr

namespace Letter

/-- The character of a letter. -/
def char : Letter → Char
  | modifier m => m.letter
  | base b => b.letter

/-- The letter that a character is, if it is one. -/
def ofChar? (c : Char) : Option Letter :=
  match Modifier.ofLetter? c with
  | some m => some (modifier m)
  | none => (BaseAtom.ofLetter? c).map base

@[simp] theorem ofChar?_char (l : Letter) : ofChar? l.char = some l := by
  cases l with
  | modifier m => simp [char, ofChar?]
  | base b => cases b <;> rfl

theorem char_of_ofChar? {c : Char} {l : Letter} (h : ofChar? c = some l) : l.char = c := by
  unfold ofChar? at h
  split at h
  case h_1 m hm =>
    cases h
    exact Modifier.letter_of_ofLetter? hm
  case h_2 =>
    obtain ⟨b, hb, rfl⟩ := Option.map_eq_some_iff.mp h
    exact BaseAtom.letter_of_ofLetter? hb

theorem utf8Size_char (l : Letter) : l.char.utf8Size = 1 := by
  cases l with
  | modifier m => cases m <;> rfl
  | base b => cases b <;> rfl

end Letter

/-- A run of modifiers and the base atom that it stands in front of. -/
structure Term where
  run : List Modifier
  base : BaseAtom
  deriving DecidableEq, Repr

namespace Term

/-- The letters of a term. -/
def letters (t : Term) : List Letter := t.run.map .modifier ++ [.base t.base]

/-- The move atom that a term spells. -/
def atom (t : Term) : MoveAtom := .ofBase t.base (.ofRun t.run)

/-- The terms of a sequence of letters, and the modifiers after the last base atom. -/
def split : List Letter → List Term × List Modifier
  | [] => ([], [])
  | .base b :: rest =>
    match split rest with
    | (terms, dangling) => (⟨[], b⟩ :: terms, dangling)
  | .modifier m :: rest =>
    match split rest with
    | ([], dangling) => ([], m :: dangling)
    | (t :: terms, dangling) => ({ t with run := m :: t.run } :: terms, dangling)

/-- The terms and the modifiers left over are the letters that were split, in their order. -/
theorem letters_split (ls : List Letter) :
    (split ls).1.flatMap letters ++ (split ls).2.map .modifier = ls := by
  induction ls with
  | nil => rfl
  | cons l rest ih =>
    cases l with
    | base b => simpa [split, letters] using ih
    | modifier m =>
      -- The modifier joins the first term that follows, or else those left over.
      rcases hs : split rest with ⟨_ | ⟨t, terms⟩, dangling⟩ <;>
        simpa [split, hs, letters] using ih

/-- The letters of a term in front of others split off as that term. -/
theorem split_letters_append (t : Term) (ls : List Letter) :
    split (t.letters ++ ls) = (t :: (split ls).1, (split ls).2) := by
  obtain ⟨run, b⟩ := t
  induction run with
  | nil => rfl
  | cons m run ih =>
    simp only [letters, List.map_cons, List.cons_append, split] at ih ⊢
    rw [ih]

/-- The letters of terms split into these terms, with none left over. -/
theorem split_letters (terms : List Term) : split (terms.flatMap letters) = (terms, []) := by
  induction terms with
  | nil => rfl
  | cons t terms ih => rw [List.flatMap_cons, split_letters_append, ih]

/-- The modifiers left over at the end of letters join the first term of those that follow. -/
theorem split_append {as bs : List Letter} {u : Term} {us : List Term}
    (h : (split bs).1 = u :: us) :
    split (as ++ bs) =
      ((split as).1 ++ { u with run := (split as).2 ++ u.run } :: us, (split bs).2) := by
  induction as with
  | nil =>
    rw [List.nil_append, split, List.nil_append, List.nil_append, ← h]
  | cons l as ih =>
    rw [List.cons_append]
    cases l with
    | base b => simp only [split, ih, List.cons_append]
    | modifier m =>
      rcases hs : split as with ⟨_ | ⟨t, terms⟩, dangling⟩ <;> simp [split, ih, hs]

theorem split_append_base (ls : List Letter) (b : BaseAtom) :
    split (ls ++ [.base b]) = ((split ls).1 ++ [⟨(split ls).2, b⟩], []) := by
  rw [split_append (u := ⟨[], b⟩) rfl, List.append_nil]
  rfl

theorem split_append_modifier (ls : List Letter) (m : Modifier) :
    split (ls ++ [.modifier m]) = ((split ls).1, (split ls).2 ++ [m]) := by
  induction ls with
  | nil => rfl
  | cons l ls ih =>
    rw [List.cons_append]
    cases l with
    | base b => simp only [split, ih]
    | modifier k => rcases hs : split ls with ⟨_ | ⟨t, terms⟩, dangling⟩ <;> simp [split, ih, hs]

end Term

/-! ## Faults -/

/-- What is wrong with a spelling. Indexes count the bytes before the character at fault. -/
inductive SpellingError where
  /-- A character is no letter. -/
  | unrecognized (c : Char) (index : Nat)
  /-- The text ends in modifiers that no base atom follows; the last of them is named. -/
  | dangling (c : Char) (index : Nat)
  deriving DecidableEq, Repr

namespace SpellingError

/-- The character at fault. -/
def char : SpellingError → Char
  | unrecognized c _ => c
  | dangling c _ => c

/-- The number of bytes before the character at fault. -/
def index : SpellingError → Nat
  | unrecognized _ i => i
  | dangling _ i => i

/-- The sentence that reports an error. -/
def message : SpellingError → String
  | unrecognized c i => "unknown atom: got " ++ Text.quotedChar c ++ s!", err at idx {i}"
  | dangling c i => "modifiers without atom: got " ++ Text.quotedChar c ++ s!", err at idx {i}"

end SpellingError

/-! ## Compiling -/

namespace Spelling

/-- How far a text has been compiled: the atoms so far, the modifiers that wait for the next one,
and the last of these with its index. -/
structure Scan where
  atoms : List MoveAtom
  pending : ModifierSet
  last : Option (Char × Nat)
  deriving DecidableEq, Repr

namespace Scan

/-- Nothing has been read. -/
def start : Scan := ⟨[], .empty, none⟩

/-- The scan after one more character, which has this index; none if it is no letter. -/
def step? (s : Scan) (c : Char) (index : Nat) : Option Scan :=
  match Letter.ofChar? c with
  | some (.modifier m) =>
    some { s with pending := s.pending.insert m, last := some (c, index) }
  | some (.base b) => some ⟨s.atoms ++ [.ofBase b s.pending], .empty, none⟩
  | none => none

/-- Compiles the characters from an index on, up to the first fault. Modifiers may not be left
waiting at the end. -/
def run (s : Scan) (index : Nat) : List Char → Scan × Option SpellingError
  | [] => (s, s.last.map fun last => .dangling last.1 last.2)
  | c :: cs =>
    match s.step? c index with
    | some next => next.run (index + c.utf8Size) cs
    | none => (s, some (.unrecognized c index))

end Scan

/-- How far a text can be compiled, and what is wrong with it. -/
def scan (source : String) : Scan × Option SpellingError := Scan.start.run 0 source.toList

/-- The move atoms that a text spells, one for each base atom and in its order, or what is wrong. -/
def compile (source : String) : Except SpellingError (List MoveAtom) :=
  match scan source with
  | (_, some fault) => .error fault
  | (s, none) => .ok s.atoms

/-! ## Letters of a text -/

/-- The letters of a text up to its first character that is none. Each letter is one byte long. -/
def letters : List Char → List Letter
  | [] => []
  | c :: cs =>
    match Letter.ofChar? c with
    | some l => l :: letters cs
    | none => []

/-- The characters of letters are read back as these letters. -/
theorem letters_map_char (ls : List Letter) : letters (ls.map Letter.char) = ls := by
  induction ls with
  | nil => rfl
  | cons l ls ih => simp [letters, ih]

/-- A text is its letters and a rest, which does not start with a letter. -/
theorem map_char_letters_append_drop (cs : List Char) :
    (letters cs).map Letter.char ++ cs.drop (letters cs).length = cs ∧
      ∀ c rest, cs.drop (letters cs).length = c :: rest → Letter.ofChar? c = none := by
  induction cs with
  | nil => exact ⟨rfl, nofun⟩
  | cons c cs ih =>
    rw [letters]
    split
    case h_1 l hl =>
      obtain ⟨htext, hrest⟩ := ih
      refine ⟨?_, hrest⟩
      rw [List.map_cons, Letter.char_of_ofChar? hl, List.length_cons, List.drop_succ_cons,
        List.cons_append, htext]
    case h_2 hc =>
      refine ⟨rfl, fun d rest h => ?_⟩
      obtain rfl := (List.cons.inj h).1
      exact hc

/-- The text that terms make, one after the other. -/
def ofTerms (terms : List Term) : String :=
  String.ofList ((terms.flatMap Term.letters).map Letter.char)

/-- The atoms that a text spells before its first fault. -/
def atomsBeforeFault (source : String) : List MoveAtom :=
  (Term.split (letters source.toList)).1.map Term.atom

/-- What is wrong with a text: the first character that is no letter, else modifiers at its end. -/
def fault? (source : String) : Option SpellingError :=
  -- Letters are one byte each, so their number is the index of the character after them.
  let read := letters source.toList
  match source.toList.drop read.length with
  | c :: _ => some (.unrecognized c read.length)
  | [] => (Term.split read).2.getLast?.map fun m => .dangling m.letter (read.length - 1)

namespace Scan

/-- The scan of a sequence of letters: the atoms of its terms, and the modifiers left over. -/
def ofLetters (ls : List Letter) : Scan where
  atoms := (Term.split ls).1.map Term.atom
  pending := .ofRun (Term.split ls).2
  last := (Term.split ls).2.getLast?.map fun m => (m.letter, ls.length - 1)

theorem step?_ofLetters (ls : List Letter) (l : Letter) :
    (ofLetters ls).step? l.char ls.length = some (ofLetters (ls ++ [l])) := by
  rw [step?, Letter.ofChar?_char]
  cases l with
  | modifier m =>
    simp [ofLetters, Term.split_append_modifier, ModifierSet.ofRun_append, Letter.char,
      ModifierSet.insertRun]
  | base b => simp [ofLetters, Term.split_append_base, Term.atom, ModifierSet.ofRun,
      ModifierSet.insertRun]

/-- Scanning goes on behind letters as from the start of what follows. -/
theorem run_ofLetters (ls ls' : List Letter) (rest : List Char) :
    (ofLetters ls).run ls.length (ls'.map Letter.char ++ rest) =
      (ofLetters (ls ++ ls')).run (ls ++ ls').length rest := by
  induction ls' generalizing ls with
  | nil => rw [List.map_nil, List.nil_append, List.append_nil]
  | cons l ls' ih =>
    have hnext := ih (ls ++ [l])
    rw [List.length_append, List.length_singleton, List.append_assoc,
      List.singleton_append] at hnext
    rw [List.map_cons, List.cons_append, run, step?_ofLetters, Letter.utf8Size_char, ← hnext]

end Scan

/-- The scan stops at the first fault, with the atoms that stand before it. -/
theorem scan_eq (source : String) :
    (scan source).1.atoms = atomsBeforeFault source ∧ (scan source).2 = fault? source := by
  obtain ⟨htext, hrest⟩ := map_char_letters_append_drop source.toList
  have hscan : scan source =
      (Scan.ofLetters (letters source.toList)).run (letters source.toList).length
        (source.toList.drop (letters source.toList).length) := by
    rw [scan]
    conv => lhs; rw [← htext]
    exact Scan.run_ofLetters [] _ _
  rw [hscan, fault?]
  cases hdrop : source.toList.drop (letters source.toList).length with
  | nil =>
    refine ⟨rfl, ?_⟩
    simp only [Scan.run, Scan.ofLetters, Option.map_map]
    rfl
  | cons c rest =>
    have hstop : Scan.step? (Scan.ofLetters (letters source.toList)) c
        (letters source.toList).length = none := by
      rw [Scan.step?, hrest c rest hdrop]
    rw [Scan.run, hstop]
    exact ⟨rfl, rfl⟩

theorem compile_eq (source : String) :
    compile source =
      match fault? source with
      | some fault => .error fault
      | none => .ok (atomsBeforeFault source) := by
  obtain ⟨hatoms, hfault⟩ := scan_eq source
  rw [compile, ← hatoms, ← hfault]
  rcases scan source with ⟨s, _ | fault⟩ <;> rfl

theorem compile_eq_error_iff {source : String} {e : SpellingError} :
    compile source = .error e ↔ fault? source = some e := by
  rw [compile_eq]
  split <;> simp_all

theorem compile_eq_ok_iff {source : String} {atoms : List MoveAtom} :
    compile source = .ok atoms ↔ fault? source = none ∧ atomsBeforeFault source = atoms := by
  rw [compile_eq]
  split <;> simp_all

theorem compile_ofTerms (terms : List Term) :
    compile (ofTerms terms) = .ok (terms.map Term.atom) := by
  have hread : letters (ofTerms terms).toList = terms.flatMap Term.letters := by
    rw [ofTerms, String.toList_ofList, letters_map_char]
  have hsplit := Term.split_letters terms
  have hdrop : (ofTerms terms).toList.drop (terms.flatMap Term.letters).length = [] := by
    rw [ofTerms, String.toList_ofList, ← List.length_map Letter.char]
    exact List.drop_length
  refine compile_eq_ok_iff.mpr ⟨?_, ?_⟩
  · simp only [fault?, hread, hsplit, hdrop, List.getLast?_nil, Option.map_none]
  · rw [atomsBeforeFault, hread, hsplit]

end Spelling

end FairyMoves
