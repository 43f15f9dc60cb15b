import Conform.Command.Run

/-!
The command as a program: it reads the environment and the files that a run looks at, and writes what
the run leaves.
-/
namespace Conform.Command

def variableNames : List String :=
  ["MAX_DEPTH", "STRICT_SHAPES", "LOG_LEVEL", "PRINT_LEVEL", "CACHE_ENABLED"].map
    ("SHAPE_VERIFIER_" ++ ·)

def readEnvironment : IO Settings.Environment :=
  variableNames.filterMapM fun name => return (← IO.getEnv name).map fun text => (name, text)

/-- The number under which the system refuses to read a directory as a file. -/
def isDirectoryCode : UInt32 := 21

/-- What a path leads to, if it can be read. -/
def readEntry (p : Path) : IO (Option (Path × Entry)) := do
  try
    return some (p, .file (← IO.FS.readBinFile p.text).toList)
  catch e =>
    match e with
    | .inappropriateType _ code _ =>
      return if code = isDirectoryCode then some (p, .directory) else none
    | _ => return none

def readFiles (ps : List Path) : IO Files := return .ofList (← ps.filterMapM readEntry)

def Failure.message : Failure → String
  | .environment e => e.message
  | .depth e => e.message
  | .decode e => e.message
  | .dump e => e.message?.getD "keys of unlike types have no order"
  | .unwritable => Numeral.unwritableMessage

end Conform.Command

open Conform Command in
/-- A manifest is read first, and then the files that it names. -/
def main (args : List String) : IO UInt32 := do
  let listed ← readFiles (paths (.ofList []) args)
  let files ← readFiles (paths listed args)
  let out := run (← readEnvironment) files args
  IO.print out.output
  IO.eprint out.errors
  match out.ending with
  | .exit code => return UInt32.ofNat code
  | .failure e =>
    IO.eprintln e.message
    return 1
