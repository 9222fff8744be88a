import FairyMoves.Program

/-!
# Running the program

Reads the log setting and the board file, and prints what `Program.run` makes of them. The libraries
remain to be chosen.
-/

namespace FairyMoves

/-- Reads a file. -/
def readBoardFile (path : String) : IO FileReading := do
  try
    return .ok (← IO.FS.readBinFile path)
  catch e =>
    match e with
    | .noFileOrDirectory .. => return .error "No such file or directory (os error 2)"
    | .inappropriateType .. => return .error "Is a directory (os error 21)"
    | e => return .error (toString e)

/-- Runs the program on these arguments, and gives its exit code. -/
def Program.execute (lib : Libraries) (args : List String) : IO UInt32 := do
  let setting ← IO.getEnv "RUST_LOG"
  let reading ← match boardPath? lib args with
    | some path => readBoardFile path
    | none => pure (.error "")
  let outcome := run lib args ⟨setting, fun _ => reading⟩
  IO.eprint outcome.stderr
  IO.print outcome.stdout
  return outcome.exit.toUInt32

end FairyMoves
