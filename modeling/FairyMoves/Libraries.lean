import FairyMoves.Log

/-!
# Libraries

The program leaves some of its work to libraries: they read the command line, choose the log lines
that are shown, and lay out log lines, reports of failures and tables. They are no part of this
development, so they are a parameter of the program. What is relied on is listed, and it is little:
which lines are shown, and what else stands in them, is up to the libraries.

## Main definitions

* `Request`, `CommandLine` — what is asked of the program
* `Failure`, `Outcome` — what could not be done, and how a run of the program ends
* `Libraries` — what the libraries do
* `Text.IsPlain`, `Text.Shows` — texts that every layout leaves as they are, and where these stand
* `Libraries.Documented` — what the program relies on
-/

namespace FairyMoves

/-! ## Requests -/

/-- What is asked of the program. -/
inductive Request where
  /-- The table of base atoms. -/
  | atoms
  /-- The table of the atoms that a text spells. -/
  | compile (source : String)
  /-- The destinations of a piece from one square of the board in a file. -/
  | moves (source boardPath : String) (origin : Square)
  deriving DecidableEq, Repr

/-- A request, and whether more log lines are wanted with it. -/
structure CommandLine where
  verbose : Bool
  request : Request
  deriving DecidableEq, Repr

/-! ## Ends of a run -/

/-- What could not be done, and why: each cause is behind the one before it. -/
structure Failure where
  context : String
  causes : List String
  deriving DecidableEq, Repr

/-- What a run of the program prints, and its exit code. -/
structure Outcome where
  exit : Nat
  stdout : String
  stderr : String
  deriving DecidableEq, Repr

/-! ## Libraries -/

/-- The log lines that are shown, by the part of the program that they come from and their level. -/
abbrev LogFilter := String → LogLevel → Bool

/-- What the libraries do for the program. -/
structure Libraries where
  /-- The command line that arguments make. If they make none, the run ends at once. -/
  parse : List String → Except Outcome CommandLine
  /-- The filter that a setting asks for, where what cannot be read of it is left out. -/
  filter : String → LogFilter
  /-- The same, where a setting that cannot be read is a failure. -/
  filter? : String → Except Failure LogFilter
  /-- The line that is logged for a text. -/
  line : LogLevel → String → String
  /-- The report of a failure. -/
  report : Failure → String
  /-- The table of a header and rows. -/
  table : List String → List (List String) → String

/-! ## What is relied on -/

namespace Text

/-- Such a text has visible characters of ASCII and spaces only. -/
def IsPlain (text : String) : Prop := ∀ c ∈ text.toList, ' ' ≤ c ∧ c ≤ '~'

instance (text : String) : Decidable (IsPlain text) :=
  List.decidableBAll (fun c => ' ' ≤ c ∧ c ≤ '~') text.toList

/-- The one text stands in the other. -/
def Shows (whole part : String) : Prop := part.toList <:+: whole.toList

theorem IsPlain.append {s t : String} (hs : IsPlain s) (ht : IsPlain t) : IsPlain (s ++ t) := by
  intro c hc
  rw [String.toList_append] at hc
  exact (List.mem_append.mp hc).elim (hs c) (ht c)

end Text

/-- What the program relies on. -/
structure Libraries.Documented (lib : Libraries) : Prop where
  /-- The setting that stands in for a missing one can be read. -/
  reads_info : ∃ filter, lib.filter? "info" = .ok filter
  /-- A log line shows its level, -/
  line_level : ∀ level text, Text.Shows (lib.line level text) level.name
  /-- and its text, in which nothing has to be escaped if it is plain. -/
  line_text : ∀ level text, Text.IsPlain text → Text.Shows (lib.line level text) text
  /-- A report begins with what could not be done, -/
  report_context : ∀ failure, failure.context.toList <+: (lib.report failure).toList
  /-- and shows the causes. Those of several lines may be indented. -/
  report_causes : ∀ failure, ∀ cause ∈ failure.causes, '\n' ∉ cause.toList →
    Text.Shows (lib.report failure) cause

end FairyMoves
