import FairyMoves.Program
import FairyMoves.Proofs.Drawing
import Mathlib.Algebra.GroupWithZero.Nat

/-!
# Listing moves

To list the moves of a piece the program compiles its spelling, reads a file and makes a grid of the
text in it. Each stage can fail, and the first one that does is reported. If none does, the drawing
and the list are printed, and the log lines count what is in the list: atom by atom, and then the
whole. Which log lines are shown bears on nothing but standard error.

How a log line and a report are laid out is up to the libraries. They show the texts that the
program hands to them, so the numbers and the failure can be read there.

## Main definitions

* `Listing.Ready`, `Listing.Fails` — all stages succeed, or the first failure is this one
* `LogEvent.Says` — an event with a text that its line shows
* `Generation.Counted` — a list and counts that add up to its length
* `Listing.Tallies` — log lines whose numbers agree with the list of moves
* `Listing.Reports` — what is printed for a failure

## Main results

* `Listing.ready_or_fails` — one of the two is the case
* `Text.lines_flatMap_newline` — what is printed line by line has these lines
* `Listing.lines_movesText` — the lines of the output are those of the drawing and one for each move
* `sum_counts_generation` — what is counted atom by atom adds up to the length of the list
* `Listing.tallies` — the log lines that a filter shows agree with the list
* `Program.run_moves` — what is printed when moves are listed, and when that fails
-/

namespace FairyMoves

/-! ## Stages -/

namespace Listing

variable {source path : String} {reading : FileReading} {atoms : List MoveAtom} {g : Grid}
  {f : Failure}

/-- Moves can be listed: the spelling compiles to these atoms, and the bytes of the file are a text,
which is that of the grid. -/
structure Ready (source : String) (reading : FileReading) (atoms : List MoveAtom) (g : Grid) :
    Prop where
  compiles : Spelling.compile source = .ok atoms
  parses : ∃ bytes text, reading = .ok bytes ∧ String.fromUTF8? bytes = some text ∧
    Grid.ofText text = .ok g

/-- The failure of the first stage that fails. The stages before it succeed. -/
inductive Fails (source path : String) (reading : FileReading) : Failure → Prop where
  | spelling {fault : SpellingError} (faulty : Spelling.compile source = .error fault) :
      Fails source path reading
        ⟨"Couldn't compile notation: `" ++ source ++ "`", [fault.message]⟩
  | file {atoms : List MoveAtom} {message : String}
      (compiles : Spelling.compile source = .ok atoms) (unread : reading = .error message) :
      Fails source path reading ⟨"Couldn't read board file " ++ Text.quotedPath path, [message]⟩
  | encoding {atoms : List MoveAtom} {bytes : ByteArray}
      (compiles : Spelling.compile source = .ok atoms) (read : reading = .ok bytes)
      (undecoded : String.fromUTF8? bytes = none) :
      Fails source path reading
        ⟨"Couldn't read board file " ++ Text.quotedPath path,
          ["stream did not contain valid UTF-8"]⟩
  | grid {atoms : List MoveAtom} {bytes : ByteArray} {text : String} {fault : GridError}
      (compiles : Spelling.compile source = .ok atoms) (read : reading = .ok bytes)
      (decoded : String.fromUTF8? bytes = some text) (faulty : Grid.ofText text = .error fault) :
      Fails source path reading
        ⟨"Couldn't parse board file " ++ Text.quotedPath path, [fault.message]⟩

/-- The stages all succeed, or one of them is the first to fail. -/
theorem ready_or_fails (source path : String) (reading : FileReading) :
    (∃ atoms g, Ready source reading atoms g) ∨ ∃ f, Fails source path reading f := by
  cases hcompile : Spelling.compile source with
  | error fault => exact .inr ⟨_, .spelling hcompile⟩
  | ok atoms =>
    cases hread : reading with
    | error e => exact .inr ⟨_, .file hcompile rfl⟩
    | ok bytes =>
      cases hdecode : String.fromUTF8? bytes with
      | none => exact .inr ⟨_, .encoding hcompile rfl hdecode⟩
      | some text =>
        cases hgrid : Grid.ofText text with
        | error fault => exact .inr ⟨_, .grid hcompile rfl hdecode hgrid⟩
        | ok g => exact .inl ⟨atoms, g, hcompile, bytes, text, rfl, hdecode, hgrid⟩

theorem Ready.moves_eq (h : Ready source reading atoms g) (path : String) (origin : Square) :
    Report.moves source path origin reading =
      ⟨Report.compileEvents source ++
          Report.moveEvents g origin (generation atoms g.board origin),
        .ok (Report.movesText g origin (generate atoms g.board origin))⟩ := by
  obtain ⟨hcompile, bytes, text, rfl, hdecode, hgrid⟩ := h
  simp only [Report.moves, Report.compiledAtoms, Report.boardOf, FileReading.text, hcompile,
    hdecode, hgrid, generate]

theorem Fails.moves_eq (h : Fails source path reading f) (origin : Square) :
    Report.moves source path origin reading = ⟨Report.compileEvents source, .error f⟩ := by
  cases h with
  | spelling hcompile => simp only [Report.moves, Report.compiledAtoms, hcompile]
  | file hcompile hread =>
    simp only [Report.moves, Report.compiledAtoms, Report.boardOf, FileReading.text, hcompile,
      hread]
  | encoding hcompile hread hdecode =>
    simp only [Report.moves, Report.compiledAtoms, Report.boardOf, FileReading.text, hcompile,
      hread, hdecode]
  | grid hcompile hread hdecode hgrid =>
    simp only [Report.moves, Report.compiledAtoms, Report.boardOf, FileReading.text, hcompile,
      hread, hdecode, hgrid]

end Listing

/-! ## Plain texts -/

namespace Text

theorem isPlain_repr (n : Nat) : IsPlain n.repr := by
  intro c hc
  rw [Nat.repr_eq_ofList_toDigits, String.toList_ofList] at hc
  have hdigit := Nat.isDigit_of_mem_toDigits (by decide) (by decide) hc
  rw [Char.isDigit, Bool.and_eq_true, decide_eq_true_iff, decide_eq_true_iff] at hdigit
  exact ⟨UInt32.le_trans (by decide) hdigit.1, UInt32.le_trans hdigit.2 (by decide)⟩

theorem isPlain_toString (n : Int) : IsPlain (toString n) := by
  rw [Int.toString_eq_repr, Int.repr_eq_if]
  split
  · exact isPlain_repr _
  · exact IsPlain.append (by decide) (isPlain_repr _)

theorem IsPlain.newline_notMem {text : String} (h : IsPlain text) : '\n' ∉ text.toList :=
  fun hmem => absurd (h _ hmem).1 (by decide)

end Text

theorem Square.isPlain_toText (s : Square) : Text.IsPlain s.toText :=
  ((Text.isPlain_toString s.x).append (by decide)).append (Text.isPlain_toString s.y)

theorem Square.isPlain_pairText (s : Square) : Text.IsPlain s.pairText :=
  (((Text.IsPlain.append (by decide) (Text.isPlain_toString s.x)).append (by decide)).append
    (Text.isPlain_toString s.y)).append (by decide)

theorem MoveKind.isPlain_name (kind : MoveKind) : Text.IsPlain kind.name := by
  cases kind <;> decide

theorem BaseAtom.isPlain_name (b : BaseAtom) : Text.IsPlain b.name := by
  cases b <;> decide

/-! ## Lines -/

namespace Text

theorem lines_append_newline {line : List Char} (h : '\n' ∉ line) (cs : List Char) :
    lines (line ++ '\n' :: cs) = line :: lines cs := by
  induction line with
  | nil => rw [List.nil_append, lines, if_pos rfl]
  | cons c line ih =>
    obtain ⟨hc, hline⟩ := not_or.mp (List.mem_cons.not.mp h)
    rw [List.cons_append, lines, if_neg (Ne.symm hc), ih hline]

/-- What is printed line by line has these lines, and nothing behind the last newline. -/
theorem lines_flatMap_newline {rows : List (List Char)} (h : ∀ row ∈ rows, '\n' ∉ row) :
    lines (rows.flatMap fun row => row ++ ['\n']) = rows ++ [[]] := by
  induction rows with
  | nil => rfl
  | cons row rows ih =>
    obtain ⟨hrow, hrows⟩ := List.forall_mem_cons.mp h
    rw [List.flatMap_cons, List.append_assoc, List.singleton_append, lines_append_newline hrow,
      ih hrows, List.cons_append]

end Text

theorem Drawing.mark_ne_newline (g : Grid) (origin : Square) (moves : List Square) (s : Square) :
    mark g origin moves s ≠ '\n' := by
  rw [mark]
  split
  · decide
  · split
    · split <;> decide
    · cases (g.get? s).getD .empty <;> decide

theorem Drawing.newline_notMem_lines {g : Grid} {origin : Square} {moves : List Square} :
    ∀ row ∈ lines g origin moves, '\n' ∉ row := by
  intro row hrow hnewline
  obtain ⟨y, _, rfl⟩ := List.mem_map.mp hrow
  obtain ⟨x, _, hmark⟩ := List.mem_map.mp hnewline
  exact mark_ne_newline g origin moves ⟨x, y⟩ hmark

namespace Listing

/-- The lines of the output are those of the drawing, and then one for each move. -/
theorem lines_movesText (g : Grid) (origin : Square) (moves : List Square) :
    Text.lines (Report.movesText g origin moves).toList =
      Drawing.lines g origin moves ++ moves.map (fun s => s.toText.toList) ++ [[]] := by
  have htext : (Report.movesText g origin moves).toList =
      (Drawing.lines g origin moves ++ moves.map fun s => s.toText.toList).flatMap
        fun row => row ++ ['\n'] := by
    rw [Report.movesText, String.toList_append, String.toList_join, Drawing.toList_draw,
      List.flatMap_append, List.flatMap_map, List.flatMap_map]
    congr 2
    funext s
    rw [String.toList_append]
    rfl
  rw [htext, Text.lines_flatMap_newline]
  intro row hrow
  rcases List.mem_append.mp hrow with hrow | hrow
  · exact Drawing.newline_notMem_lines row hrow
  · obtain ⟨s, _, rfl⟩ := List.mem_map.mp hrow
    exact s.isPlain_toText.newline_notMem

end Listing

/-! ## What is said -/

namespace LogEvent

variable {lib : Libraries} {origin : Square}

/-- An event has this level and says this text, and its line shows both. -/
structure Says (lib : Libraries) (e : LogEvent) (level : LogLevel) (text : String) : Prop where
  level_eq : e.level = level
  text_eq : e.text = text
  shows_level : Text.Shows (e.line lib) level.name
  shows_text : Text.Shows (e.line lib) text

theorem says_of_isPlain (hlib : lib.Documented) {e : LogEvent} (h : Text.IsPlain e.text) :
    e.Says lib e.level e.text where
  level_eq := rfl
  text_eq := rfl
  shows_level := hlib.line_level e.level e.text
  shows_text := hlib.line_text e.level e.text h

/-- The line about the whole list gives its length. -/
def SaysTotal (lib : Libraries) (origin : Square) (total : Nat) (e : LogEvent) : Prop :=
  e.Says lib .info (toString total ++ " destinations from " ++
    (toString origin.x ++ "," ++ toString origin.y))

/-- A line about one atom gives the number of its moves. -/
def SaysTally (lib : Libraries) (origin : Square) (e : LogEvent) (tally : MoveAtom × Nat) : Prop :=
  e.Says lib .trace (tally.1.kind.name ++ " " ++ tally.1.base.name ++ " from " ++
    ("(" ++ toString origin.x ++ ", " ++ toString origin.y ++ ")") ++ ": " ++ toString tally.2 ++
      " moves")

theorem saysTotal_destinations (hlib : lib.Documented) (total : Nat) :
    (destinations total origin).SaysTotal lib origin total := by
  have hplain : Text.IsPlain (destinations total origin).text :=
    ((Text.isPlain_repr total).append (by decide)).append origin.isPlain_toText
  exact says_of_isPlain hlib hplain

theorem saysTally_atomMoves (hlib : lib.Documented) (tally : MoveAtom × Nat) :
    (atomMoves tally.1 origin tally.2).SaysTally lib origin tally := by
  have hplain : Text.IsPlain (atomMoves tally.1 origin tally.2).text :=
    ((((((tally.1.kind.isPlain_name.append (by decide)).append tally.1.base.isPlain_name).append
      (by decide)).append origin.isPlain_pairText).append (by decide)).append
        (Text.isPlain_repr tally.2)).append (by decide)
  exact says_of_isPlain hlib hplain

end LogEvent

/-! ## Counts -/

namespace Generation

variable {found : Generation} {board : Board} {origin : Square} {a : MoveAtom}

/-- The numbers of the atoms add up to the length of the list. -/
def Counted (found : Generation) : Prop := (found.counts.map Prod.snd).sum = found.moves.size

theorem counted_start : start.Counted := rfl

/-- The list never gets shorter, so that the difference is the number of moves that were added. -/
theorem Counted.add (h : found.Counted) : (found.add board origin a).Counted := by
  have hgrown : found.moves.size ≤ (a.pushMoves board origin found.moves).size :=
    size_pushMoves found.moves ▸ Nat.le_add_right _ _
  unfold Counted at h ⊢
  rw [Generation.add, List.map_append, List.sum_append, h, List.map_singleton, List.sum_singleton]
  exact Nat.add_sub_cancel' hgrown

theorem Counted.foldl_add (h : found.Counted) (atoms : List MoveAtom) :
    (atoms.foldl (Generation.add board origin) found).Counted := by
  induction atoms generalizing found with
  | nil => exact h
  | cons a atoms ih => exact ih h.add

end Generation

/-- What the atoms give adds up to the whole list. -/
theorem sum_counts_generation (atoms : List MoveAtom) (board : Board) (origin : Square) :
    ((generation atoms board origin).counts.map Prod.snd).sum =
      (generate atoms board origin).length :=
  Generation.counted_start.foldl_add atoms

/-! ## Log lines -/

namespace Listing

variable {lib : Libraries} {filter : LogFilter} {board : Board} {origin : Square}

/-- The log lines that are shown agree with the list of moves. -/
structure Tallies (lib : Libraries) (filter : LogFilter) (atoms : List MoveAtom) (board : Board)
    (origin : Square) (events : List LogEvent) : Prop where
  shown_of_mem : ∀ e ∈ events, filter.shows e
  /-- If the line about the whole list is shown, it gives the length of the list. -/
  total : filter LogSource.program.target .info →
    ∃ e, events.filter (fun e => e.level = .info) = [e] ∧
      e.SaysTotal lib origin (generate atoms board origin).length
  /-- If the lines about atoms are shown, there is one for each atom. The first of their numbers add
  up to the moves of the first atoms, and all of them to the length of the list. -/
  counts : filter LogSource.moves.target .trace → ∃ tallies : List (MoveAtom × Nat),
    tallies.map Prod.fst = atoms ∧
    List.Forall₂ (LogEvent.SaysTally lib origin) (events.filter fun e => e.source = .moves)
      tallies ∧
    (∀ i, ((tallies.map Prod.snd).take i).sum = (generate (atoms.take i) board origin).length) ∧
    (tallies.map Prod.snd).sum = (generate atoms board origin).length

/-- What is logged while a spelling is compiled is not about moves. -/
theorem source_of_mem_compileEvents {source : String} {e : LogEvent}
    (h : e ∈ Report.compileEvents source) : e.source = .spelling := by
  rcases List.mem_append.mp h with h | h
  · obtain ⟨a, _, rfl⟩ := List.mem_map.mp h
    rfl
  · split at h
    · rw [List.mem_singleton.mp h]
      rfl
    · cases h

/-- One line only is about the list as a whole. -/
theorem filter_info_events (source : String) (g : Grid) (found : Generation) :
    (Report.compileEvents source ++ Report.moveEvents g origin found).filter
        (fun e => e.level = .info) = [.destinations found.moves.size origin] := by
  have hcompiled : (Report.compileEvents source).filter (fun e => e.level = .info) = [] := by
    rw [List.filter_eq_nil_iff]
    intro e he
    have hsource := source_of_mem_compileEvents he
    cases e <;> first | exact Bool.false_ne_true | cases hsource
  have hatoms : List.filter (fun e : LogEvent => e.level = .info)
      (found.counts.map fun count => .atomMoves count.1 origin count.2) = [] := by
    rw [List.filter_eq_nil_iff, List.forall_mem_map]
    exact fun _ _ => Bool.false_ne_true
  rw [List.filter_append, hcompiled, List.nil_append, Report.moveEvents, List.cons_append,
    List.filter_cons_of_neg Bool.false_ne_true, List.filter_append, hatoms]
  rfl

/-- The lines about atoms are those that count their moves. -/
theorem filter_moves_events (source : String) (g : Grid) (found : Generation) :
    (Report.compileEvents source ++ Report.moveEvents g origin found).filter
        (fun e => e.source = .moves) =
      found.counts.map fun count => .atomMoves count.1 origin count.2 := by
  have hcompiled : (Report.compileEvents source).filter (fun e => e.source = .moves) = [] := by
    rw [List.filter_eq_nil_iff]
    intro e he
    rw [source_of_mem_compileEvents he]
    exact Bool.false_ne_true
  have hatoms : List.filter (fun e : LogEvent => e.source = .moves)
      (found.counts.map fun count => .atomMoves count.1 origin count.2) =
        found.counts.map fun count => .atomMoves count.1 origin count.2 := by
    rw [List.filter_eq_self, List.forall_mem_map]
    exact fun _ _ => rfl
  rw [List.filter_append, hcompiled, List.nil_append, Report.moveEvents, List.cons_append,
    List.filter_cons_of_neg Bool.false_ne_true, List.filter_append, hatoms]
  exact List.append_nil _

/-- The lines about atoms are all shown or none is, so none is missing when they are added up. -/
theorem filter_moves_filter_shows (h : filter LogSource.moves.target .trace)
    (events : List LogEvent) :
    (events.filter filter.shows).filter (fun e => e.source = .moves) =
      events.filter fun e => e.source = .moves := by
  rw [List.filter_filter]
  apply List.filter_congr
  intro e _
  cases e with
  | atomMoves a s n => exact (Bool.and_eq_left_iff_imp.mpr fun _ => h)
  | _ => rfl

theorem tallies (hlib : lib.Documented) (filter : LogFilter) (source : String)
    (atoms : List MoveAtom) (g : Grid) (origin : Square) :
    Tallies lib filter atoms g.board origin
      ((Report.compileEvents source ++
        Report.moveEvents g origin (generation atoms g.board origin)).filter filter.shows) where
  shown_of_mem _ he := (List.mem_filter.mp he).2
  total h := by
    refine ⟨_, ?_, LogEvent.saysTotal_destinations hlib _⟩
    rw [List.filter_comm, filter_info_events]
    exact List.filter_cons_of_pos h
  counts h := by
    refine ⟨(generation atoms g.board origin).counts, ?_, ?_, fun i => ?_,
      sum_counts_generation _ _ _⟩
    · rw [counts_generation, List.map_map]
      exact List.map_id _
    · rw [filter_moves_filter_shows h, filter_moves_events, List.forall₂_map_left_iff,
        List.forall₂_same]
      exact fun tally _ => LogEvent.saysTally_atomMoves hlib tally
    · rw [← sum_counts_generation, counts_generation, counts_generation, ← List.map_take,
        ← List.map_take]

/-! ## Failures -/

/-- What a run prints that ends with a failure: log lines and a report that begins with what could
not be done, and nothing else. -/
structure Reports (lib : Libraries) (f : Failure) (outcome : Outcome) : Prop where
  exit : outcome.exit = 1
  stdout : outcome.stdout = ""
  stderr : ∃ events : List LogEvent, outcome.stderr =
    String.join (events.map (LogEvent.line lib)) ++ "Error: " ++ lib.report f ++ "\n"
  context : f.context.toList <+: (lib.report f).toList
  causes : ∀ cause ∈ f.causes, '\n' ∉ cause.toList → Text.Shows (lib.report f) cause

theorem reports_failed (hlib : lib.Documented) (f : Failure) (events : List LogEvent) :
    Reports lib f (.failed lib (String.join (events.map (LogEvent.line lib))) f) where
  exit := rfl
  stdout := rfl
  stderr := ⟨events, rfl⟩
  context := hlib.report_context f
  causes := hlib.report_causes f

end Listing

/-! ## Runs -/

namespace Program

variable {lib : Libraries} {args : List String} {verbose : Bool} {source path : String}
  {origin : Square}

/-- There always is a filter, if only the one that stands in for the others. -/
theorem exists_filterInForce (hlib : lib.Documented) (verbose : Bool) (setting : Option String) :
    ∃ filter, filterInForce lib verbose setting = .ok filter := by
  cases verbose with
  | true => exact ⟨_, rfl⟩
  | false =>
    cases hfilter : settingFilter? lib setting with
    | some filter => exact ⟨filter, by rw [filterInForce, if_neg Bool.false_ne_true, hfilter]⟩
    | none =>
      obtain ⟨filter, hinfo⟩ := hlib.reads_info
      exact ⟨filter, by rw [filterInForce, if_neg Bool.false_ne_true, hfilter, hinfo]⟩

/-- What is printed is what the report of the request makes of it. -/
theorem run_eq_outcome (h : lib.parse args = .ok ⟨verbose, .moves source path origin⟩)
    {around : Surroundings} {filter : LogFilter}
    (hfilter : filterInForce lib verbose around.logSetting = .ok filter) :
    run lib args around =
      (Report.moves source path origin (around.read path)).outcome lib filter := by
  rw [run, h]
  simp only [hfilter]
  rfl

theorem run_of_ready (h : lib.parse args = .ok ⟨verbose, .moves source path origin⟩)
    {around : Surroundings} {filter : LogFilter}
    (hfilter : filterInForce lib verbose around.logSetting = .ok filter)
    {atoms : List MoveAtom} {g : Grid}
    (hready : Listing.Ready source (around.read path) atoms g) :
    run lib args around =
      ⟨0, Report.movesText g origin (generate atoms g.board origin),
        Report.logText lib filter (Report.compileEvents source ++
          Report.moveEvents g origin (generation atoms g.board origin))⟩ := by
  rw [run_eq_outcome h hfilter, hready.moves_eq]
  rfl

theorem run_of_fails (h : lib.parse args = .ok ⟨verbose, .moves source path origin⟩)
    {around : Surroundings} {filter : LogFilter}
    (hfilter : filterInForce lib verbose around.logSetting = .ok filter)
    {f : Failure} (hfails : Listing.Fails source path (around.read path) f) :
    run lib args around =
      .failed lib (Report.logText lib filter (Report.compileEvents source)) f := by
  rw [run_eq_outcome h hfilter, hfails.moves_eq]
  rfl

/-- Moves are listed if all stages succeed. Then the drawing and a line for each move are printed,
and the log lines that are shown give the numbers of the list. If not, the first failure is reported
and nothing else is printed, but for log lines. Which of these are shown makes no difference to the
output and the exit code. -/
theorem run_moves (hlib : lib.Documented)
    (h : lib.parse args = .ok ⟨verbose, .moves source path origin⟩) (around : Surroundings) :
    ((run lib args around).exit = 0 ↔
      ∃ atoms g, Listing.Ready source (around.read path) atoms g) ∧
    ((run lib args around).exit ≠ 0 ↔ ∃ f, Listing.Fails source path (around.read path) f) ∧
    (∀ f, Listing.Fails source path (around.read path) f →
      Listing.Reports lib f (run lib args around)) ∧
    (∀ atoms g, Listing.Ready source (around.read path) atoms g →
      (run lib args around).stdout =
        Drawing.draw g origin (generate atoms g.board origin) ++
          String.join ((generate atoms g.board origin).map fun s =>
            toString s.x ++ "," ++ toString s.y ++ "\n") ∧
      Text.lines (run lib args around).stdout.toList =
        Drawing.lines g origin (generate atoms g.board origin) ++
          (generate atoms g.board origin).map
            (fun s => (toString s.x ++ "," ++ toString s.y).toList) ++ [[]] ∧
      ∃ filter, filterInForce lib verbose around.logSetting = .ok filter ∧
        ∃ events : List LogEvent,
          (run lib args around).stderr = String.join (events.map (LogEvent.line lib)) ∧
          Listing.Tallies lib filter atoms g.board origin events) ∧
    ∀ args' verbose' around',
      lib.parse args' = .ok ⟨verbose', .moves source path origin⟩ →
      around'.read path = around.read path →
      (run lib args' around').stdout = (run lib args around).stdout ∧
        (run lib args' around').exit = (run lib args around).exit := by
  obtain ⟨filter, hfilter⟩ := exists_filterInForce hlib verbose around.logSetting
  have hsuccess {atoms : List MoveAtom} {g : Grid}
      (hready : Listing.Ready source (around.read path) atoms g) :
      (run lib args around).exit = 0 := by
    rw [run_of_ready h hfilter hready]
  have hfailure {f : Failure} (hfails : Listing.Fails source path (around.read path) f) :
      Listing.Reports lib f (run lib args around) := by
    rw [run_of_fails h hfilter hfails]
    exact Listing.reports_failed hlib f _
  refine ⟨?success, ?failure, fun f => hfailure, ?output, ?quiet⟩
  case success =>
    constructor
    · intro hexit
      rcases Listing.ready_or_fails source path (around.read path) with hready | ⟨f, hfails⟩
      · exact hready
      · rw [(hfailure hfails).exit] at hexit
        cases hexit
    · rintro ⟨atoms, g, hready⟩
      exact hsuccess hready
  case failure =>
    constructor
    · intro hexit
      rcases Listing.ready_or_fails source path (around.read path) with ⟨atoms, g, hready⟩ | hfails
      · exact absurd (hsuccess hready) hexit
      · exact hfails
    · rintro ⟨f, hfails⟩
      rw [(hfailure hfails).exit]
      exact Nat.one_ne_zero
  case output =>
    intro atoms g hready
    rw [run_of_ready h hfilter hready]
    exact ⟨rfl, Listing.lines_movesText g origin (generate atoms g.board origin), filter, hfilter,
      _, rfl, Listing.tallies hlib filter source atoms g origin⟩
  case quiet =>
    intro args' verbose' around' h' hread
    obtain ⟨filter', hfilter'⟩ := exists_filterInForce hlib verbose' around'.logSetting
    rw [run_eq_outcome h hfilter, run_eq_outcome h' hfilter', hread]
    exact ⟨Report.outcome_stdout _ _ _ _, Report.outcome_exit _ _ _ _⟩

/-- The filter of a setting that is the word for a level. -/
def wordFilter? : String → Option LogFilter
  | "info" => some fun _ level => level ≠ .debug ∧ level ≠ .trace
  | "debug" => some fun _ level => level ≠ .trace
  | "trace" => some fun _ _ => true
  | _ => none

/-- Libraries that understand three command lines and the words for three levels. A log line has its
level on the right of a column of five characters. -/
def fewWords : Libraries where
  parse args :=
    if args = ["moves", "WmF", "--board", "rows", "-x", "1", "-y=0"] then
      .ok ⟨false, .moves "WmF" "rows" ⟨1, 0⟩⟩
    else if args = ["-v", "moves", "WmF", "-y0", "-b", "rows", "-x=1"] then
      .ok ⟨true, .moves "WmF" "rows" ⟨1, 0⟩⟩
    else if args = ["moves", "W?", "-y-4", "-b", "lost", "-x=1"] then
      .ok ⟨false, .moves "W?" "lost" ⟨1, -4⟩⟩
    else .error ⟨2, "", "error: unexpected arguments found\n"⟩
  filter setting := (wordFilter? setting).getD fun _ _ => false
  filter? setting :=
    match wordFilter? setting with
    | some filter => .ok filter
    | none => .error ⟨"invalid filter directive", []⟩
  line level text :=
    String.ofList (List.replicate (5 - level.name.length) ' ') ++ level.name ++ " " ++ text ++ "\n"
  report f :=
    f.context ++ String.join (f.causes.map fun cause => "\n\nCaused by:\n    " ++ cause)
  table header rows := "\n".intercalate ((header :: rows).map fun row => " | ".intercalate row)

theorem documented_fewWords : fewWords.Documented where
  reads_info := ⟨_, rfl⟩
  line_level level text := by
    refine ⟨List.replicate (5 - level.name.length) ' ', (" " ++ text ++ "\n").toList, ?_⟩
    simp [fewWords]
  line_text level text _ := by
    refine ⟨List.replicate (5 - level.name.length) ' ' ++ (level.name ++ " ").toList, ['\n'], ?_⟩
    simp [fewWords]
  report_context f := by
    rw [fewWords, String.toList_append]
    exact List.prefix_append _ _
  report_causes f cause hcause _ := by
    obtain ⟨before, after, hsplit⟩ := List.append_of_mem hcause
    refine ⟨(f.context ++ String.join (before.map fun cause => "\n\nCaused by:\n    " ++ cause) ++
      "\n\nCaused by:\n    ").toList,
      (String.join (after.map fun cause => "\n\nCaused by:\n    " ++ cause)).toList, ?_⟩
    simp [fewWords, hsplit]

/-- Around the program there is one file, with two rows of squares. -/
def twoRows (logSetting : Option String) : Surroundings where
  logSetting := logSetting
  read path := if path = "rows" then .ok "..E\n.F.".toUTF8
    else .error "No such file or directory (os error 2)"

/-- A run that shows all log lines, one that is asked for the same and shows fewer, and one for
which there is neither a piece nor a file. The first has four moves, two of them by each atom. -/
theorem run_moves_on_two_rows :
    fewWords.Documented ∧
    fewWords.parse ["moves", "WmF", "--board", "rows", "-x", "1", "-y=0"] =
      .ok ⟨false, .moves "WmF" "rows" ⟨1, 0⟩⟩ ∧
    Listing.Ready "WmF" ((twoRows (some "trace")).read "rows")
      [Term.atom ⟨[], .wazir⟩, Term.atom ⟨[.moveOnly], .ferz⟩]
      (((Grid.empty 3 2).set 2 0 .enemy).set 1 1 .friendly) ∧
    run fewWords ["moves", "WmF", "--board", "rows", "-x", "1", "-y=0"] (twoRows (some "trace")) =
      ⟨0, "*Ox\n*F*\n2,0\n0,0\n2,1\n0,1\n",
        "TRACE W -> Leap Bounded(1) over 4 deltas\nTRACE F -> Leap Bounded(1) over 4 deltas\n" ++
        "DEBUG compiled \x22WmF\x22 into 2 atoms\nDEBUG board 3x2:\n..E\n.F.\n" ++
        "TRACE Leap Wazir from (1, 0): 2 moves\nTRACE Leap Ferz from (1, 0): 2 moves\n" ++
        " INFO 4 destinations from 1,0\n"⟩ ∧
    (∃ events : List LogEvent,
      (run fewWords ["moves", "WmF", "--board", "rows", "-x", "1", "-y=0"]
        (twoRows (some "trace"))).stderr = String.join (events.map (LogEvent.line fewWords)) ∧
      (∃ e ∈ events, e.SaysTotal fewWords ⟨1, 0⟩ 4) ∧
      ∃ tallies : List (MoveAtom × Nat), (tallies.map Prod.snd).sum = 4 ∧
        List.Forall₂ (LogEvent.SaysTally fewWords ⟨1, 0⟩) (events.filter fun e => e.source = .moves)
          tallies) ∧
    fewWords.parse ["-v", "moves", "WmF", "-y0", "-b", "rows", "-x=1"] =
      .ok ⟨true, .moves "WmF" "rows" ⟨1, 0⟩⟩ ∧
    (run fewWords ["-v", "moves", "WmF", "-y0", "-b", "rows", "-x=1"] (twoRows none)).stdout =
      (run fewWords ["moves", "WmF", "--board", "rows", "-x", "1", "-y=0"]
        (twoRows (some "trace"))).stdout ∧
    fewWords.parse ["moves", "W?", "-y-4", "-b", "lost", "-x=1"] =
      .ok ⟨false, .moves "W?" "lost" ⟨1, -4⟩⟩ ∧
    Listing.Fails "W?" "lost" ((twoRows none).read "lost")
      ⟨"Couldn't compile notation: `" ++ "W?" ++ "`",
        [(SpellingError.unrecognized '?' 1).message]⟩ ∧
    Listing.Reports fewWords
      ⟨"Couldn't compile notation: `" ++ "W?" ++ "`", [(SpellingError.unrecognized '?' 1).message]⟩
      (run fewWords ["moves", "W?", "-y-4", "-b", "lost", "-x=1"] (twoRows none)) := by
  have hargs : fewWords.parse ["moves", "WmF", "--board", "rows", "-x", "1", "-y=0"] =
      .ok ⟨false, .moves "WmF" "rows" ⟨1, 0⟩⟩ := rfl
  have hargs' : fewWords.parse ["-v", "moves", "WmF", "-y0", "-b", "rows", "-x=1"] =
      .ok ⟨true, .moves "WmF" "rows" ⟨1, 0⟩⟩ := rfl
  have hlost : fewWords.parse ["moves", "W?", "-y-4", "-b", "lost", "-x=1"] =
      .ok ⟨false, .moves "W?" "lost" ⟨1, -4⟩⟩ := rfl
  have hready : Listing.Ready "WmF" ((twoRows (some "trace")).read "rows")
      [Term.atom ⟨[], .wazir⟩, Term.atom ⟨[.moveOnly], .ferz⟩]
      (((Grid.empty 3 2).set 2 0 .enemy).set 1 1 .friendly) :=
    ⟨rfl, _, _, rfl, rfl, rfl⟩
  have hfails : Listing.Fails "W?" "lost" ((twoRows none).read "lost")
      ⟨"Couldn't compile notation: `" ++ "W?" ++ "`",
        [(SpellingError.unrecognized '?' 1).message]⟩ := .spelling rfl
  have hlength : (generate [Term.atom ⟨[], .wazir⟩, Term.atom ⟨[.moveOnly], .ferz⟩]
      (((Grid.empty 3 2).set 2 0 .enemy).set 1 1 .friendly).board ⟨1, 0⟩).length = 4 := by
    decide
  obtain ⟨_, _, _, houtput, hquiet⟩ :=
    run_moves documented_fewWords hargs (twoRows (some "trace"))
  obtain ⟨_, _, filter, hfilter, events, hstderr, htallies⟩ := houtput _ _ hready
  obtain rfl : (fun _ _ => true) = filter := Except.ok.inj hfilter
  obtain ⟨e, hone, htotal⟩ := htallies.total rfl
  obtain ⟨tallies, _, hshown, _, hsum⟩ := htallies.counts rfl
  rw [hlength] at htotal hsum
  have he : e ∈ events := (List.mem_filter.mp (hone ▸ List.mem_singleton.mpr rfl)).1
  exact ⟨documented_fewWords, hargs, hready, by decide +kernel,
    ⟨events, hstderr, ⟨e, he, htotal⟩, tallies, hsum, hshown⟩, hargs',
    (hquiet _ _ _ hargs' rfl).1, hlost, hfails,
    (run_moves documented_fewWords hlost (twoRows none)).2.2.1 _ hfails⟩

end Program

end FairyMoves
