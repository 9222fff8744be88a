import FairyMoves.AtomTable
import FairyMoves.Drawing
import FairyMoves.Grid.Text
import FairyMoves.Moves
import FairyMoves.Spelling

/-!
# The program

What the program prints and how it ends, as a function of its arguments, of its libraries and of
what it finds around it: the log setting and the board file. Results go to standard output; log
lines and failures go to standard error, the log lines first.

## Main definitions

* `FileReading` — what comes of reading a file
* `Report` — what one request leaves: its log events, and its output or failure
* `Report.compile`, `Report.moves` — the two requests that can fail
* `Program.filterInForce` — the log lines that are shown, unless the setting fails
* `Surroundings`, `Program.run` — what a run finds around it, and how it ends

## Main results

* `Report.outcome_stdout`, `Report.outcome_exit` — the choice of log lines changes standard error
  only
-/

namespace FairyMoves

/-! ## Files -/

/-- What comes of reading a file: its bytes, or the message that says why there are none. -/
abbrev FileReading := Except String ByteArray

/-- The text of a file, whose bytes have to be UTF-8. -/
def FileReading.text (reading : FileReading) : Except String String :=
  match reading with
  | .error message => .error message
  | .ok bytes =>
    match String.fromUTF8? bytes with
    | some text => .ok text
    | none => .error "stream did not contain valid UTF-8"

/-! ## Reports -/

/-- What a request leaves: log events in their order, and its output or failure. -/
structure Report where
  events : List LogEvent
  result : Except Failure String

namespace Report

/-- The events of compiling a text. Atoms before a fault have been compiled when it is found. -/
def compileEvents (source : String) : List LogEvent :=
  let atoms := (Spelling.scan source).1.atoms
  atoms.map .atomCompiled ++
    match (Spelling.scan source).2 with
    | none => [.compiled source atoms.length]
    | some _ => []

/-- The atoms that a text spells, or the failure to compile it. -/
def compiledAtoms (source : String) : Except Failure (List MoveAtom) :=
  match Spelling.compile source with
  | .error fault => .error ⟨"Couldn't compile notation: `" ++ source ++ "`", [fault.message]⟩
  | .ok atoms => .ok atoms

/-- The board in a file, or the failure to read it or to make sense of it. -/
def boardOf (path : String) (reading : FileReading) : Except Failure Grid :=
  match reading.text with
  | .error message => .error ⟨"Couldn't read board file " ++ Text.quotedPath path, [message]⟩
  | .ok text =>
    match Grid.ofText text with
    | .error fault =>
      .error ⟨"Couldn't parse board file " ++ Text.quotedPath path, [fault.message]⟩
    | .ok g => .ok g

/-- The events of generating moves on a board: the board, what each atom has given, and all of
it. -/
def moveEvents (g : Grid) (origin : Square) (found : Generation) : List LogEvent :=
  .boardRead g.width g.height g.toText ::
    (found.counts.map fun count => .atomMoves count.1 origin count.2) ++
      [.destinations found.moves.size origin]

/-- The drawing of a list of destinations, and then the list, a square to a line. -/
def movesText (g : Grid) (origin : Square) (moves : List Square) : String :=
  Drawing.draw g origin moves ++ String.join (moves.map fun s => s.toText ++ "\n")

/-- The table of all base atoms. -/
def atoms (lib : Libraries) : Report := ⟨[], .ok (AtomTable.ofBaseAtoms lib ++ "\n")⟩

/-- The table of the atoms that a text spells. -/
def compile (lib : Libraries) (source : String) : Report where
  events := compileEvents source
  result := (compiledAtoms source).map fun atoms => AtomTable.ofMoveAtoms lib atoms ++ "\n"

/-- The destinations of the piece that a text spells, from one square of the board in a file. -/
def moves (source path : String) (origin : Square) (reading : FileReading) : Report :=
  -- The spelling is compiled before the file is looked at, so its fault is the one reported.
  match compiledAtoms source with
  | .error failure => ⟨compileEvents source, .error failure⟩
  | .ok atoms =>
    match boardOf path reading with
    | .error failure => ⟨compileEvents source, .error failure⟩
    | .ok g =>
      let found := generation atoms g.board origin
      ⟨compileEvents source ++ moveEvents g origin found,
        .ok (movesText g origin found.moves.toList)⟩

/-- What a request leaves, when `read` gives what reading a file comes to. -/
def ofRequest (lib : Libraries) (read : String → FileReading) : Request → Report
  | .atoms => atoms lib
  | .compile source => compile lib source
  | .moves source path origin => moves source path origin (read path)

end Report

/-! ## Outcomes -/

/-- The line of an event. -/
def LogEvent.line (lib : Libraries) (e : LogEvent) : String := lib.line e.level e.text

/-- The filter lets an event through. -/
def LogFilter.shows (filter : LogFilter) (e : LogEvent) : Bool := filter e.source.target e.level

/-- The run that ends with a failure. It prints nothing to standard output and exits with 1. -/
def Outcome.failed (lib : Libraries) (log : String) (failure : Failure) : Outcome :=
  ⟨1, "", log ++ "Error: " ++ lib.report failure ++ "\n"⟩

namespace Report

/-- The log lines of the events that are shown. -/
def logText (lib : Libraries) (filter : LogFilter) (events : List LogEvent) : String :=
  String.join ((events.filter filter.shows).map (LogEvent.line lib))

/-- The run that a report makes when some of its events are shown. -/
def outcome (lib : Libraries) (filter : LogFilter) (r : Report) : Outcome :=
  match r.result with
  | .ok text => ⟨0, text, logText lib filter r.events⟩
  | .error failure => .failed lib (logText lib filter r.events) failure

theorem outcome_stdout (lib : Libraries) (r : Report) (p q : LogFilter) :
    (r.outcome lib p).stdout = (r.outcome lib q).stdout := by
  unfold outcome
  split <;> rfl

theorem outcome_exit (lib : Libraries) (r : Report) (p q : LogFilter) :
    (r.outcome lib p).exit = (r.outcome lib q).exit := by
  unfold outcome
  split <;> rfl

end Report

/-! ## Runs -/

/-- What a run of the program finds around it. -/
structure Surroundings where
  /-- The log setting, if there is one and it is a text. -/
  logSetting : Option String
  /-- What reading a file comes to. -/
  read : String → FileReading

namespace Program

/-- The path of the board file that a command line names. -/
def boardPath? (lib : Libraries) (args : List String) : Option String :=
  match lib.parse args with
  | .ok ⟨_, .moves _ path _⟩ => some path
  | _ => none

/-- The filter of the log setting; none if it is missing or cannot be read. -/
def settingFilter? (lib : Libraries) (setting : Option String) : Option LogFilter :=
  setting.bind fun text => (lib.filter? text).toOption

/-- The filter in force: `debug` when the program was asked to be verbose, else that of the setting,
and `info` when there is none. -/
def filterInForce (lib : Libraries) (verbose : Bool) (setting : Option String) :
    Except Failure LogFilter :=
  if verbose then .ok (lib.filter "debug")
  else
    match settingFilter? lib setting with
    | some filter => .ok filter
    | none => lib.filter? "info"

/-- A run of the program. -/
def run (lib : Libraries) (args : List String) (around : Surroundings) : Outcome :=
  match lib.parse args with
  | .error outcome => outcome
  | .ok line =>
    match filterInForce lib line.verbose around.logSetting with
    | .error failure => .failed lib "" failure
    | .ok filter => (Report.ofRequest lib around.read line.request).outcome lib filter

end Program

end FairyMoves
