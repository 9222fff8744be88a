import FairyMoves.MoveAtom

/-!
# Log lines

While it works the program reports what it does, in lines of several levels of detail. Each line
comes from one part of the program.

## Main definitions

* `LogLevel`, `LogSource` — how important a line is, and where it comes from
* `LogEvent` — what a line reports, with its `level`, its `source` and its `text`
-/

namespace FairyMoves

/-- How much a line matters, from errors to fine detail. -/
inductive LogLevel where
  | error
  | warn
  | info
  | debug
  | trace
  deriving DecidableEq, Repr, Inhabited

namespace LogLevel

/-- The word for a level. -/
def name : LogLevel → String
  | error => "ERROR"
  | warn => "WARN"
  | info => "INFO"
  | debug => "DEBUG"
  | trace => "TRACE"

end LogLevel

/-- A part of the program that reports what it does. -/
inductive LogSource where
  /-- The program as a whole. -/
  | program
  /-- The part that compiles spellings. -/
  | spelling
  /-- The part that generates moves. -/
  | moves
  deriving DecidableEq, Repr, Inhabited

/-- The name by which a setting knows a part of the program. -/
def LogSource.target : LogSource → String
  | program => "xbetza"
  | spelling => "xbetza::notation"
  | moves => "xbetza::move_gen"

/-! ## Events -/

/-- Something that is reported. -/
inductive LogEvent where
  /-- An atom was compiled. -/
  | atomCompiled (a : MoveAtom)
  /-- A whole spelling was compiled. -/
  | compiled (source : String) (atoms : Nat)
  /-- A board was read; its text shows it. -/
  | boardRead (width height : Nat) (text : String)
  /-- The moves of an atom were generated. -/
  | atomMoves (a : MoveAtom) (origin : Square) (moves : Nat)
  /-- All moves were generated. -/
  | destinations (moves : Nat) (origin : Square)
  deriving DecidableEq, Repr

namespace LogEvent

/-- How much an event matters. -/
def level : LogEvent → LogLevel
  | atomCompiled _ => .trace
  | compiled _ _ => .debug
  | boardRead _ _ _ => .debug
  | atomMoves _ _ _ => .trace
  | destinations _ _ => .info

/-- The part of the program that reports an event. -/
def source : LogEvent → LogSource
  | atomCompiled _ => .spelling
  | compiled _ _ => .spelling
  | boardRead _ _ _ => .program
  | atomMoves _ _ _ => .moves
  | destinations _ _ => .program

/-- What is said about an event. -/
def text : LogEvent → String
  | atomCompiled a =>
    a.base.letter.toString ++ s!" -> {a.kind.name} {a.limit.name} over {a.deltas.length} deltas"
  | compiled source atoms => "compiled \x22" ++ source ++ s!"\x22 into {atoms} atoms"
  | boardRead width height text => s!"board {width}x{height}:\n{text}"
  | atomMoves a origin moves =>
    s!"{a.kind.name} {a.base.name} from {origin.pairText}: {moves} moves"
  | destinations moves origin => s!"{moves} destinations from {origin.toText}"

end LogEvent

end FairyMoves
