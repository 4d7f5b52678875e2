import Uncaught.Command.Run

/-
  This file defines the command line. The paths of the files in
  the working directory come on the standard input, one a line,
  a directory with a slash at its end.

  Key definitions include:
    * `main`
-/

namespace Uncaught

namespace Command

/- Read the listed files from the working directory. -/
partial def readTree
    (listing : IO.FS.Stream)
    (t : FileTree) : IO FileTree := do
  let line ← listing.getLine
  if line.isEmpty then
    return t
  let path := Text.trim line
  if path.isEmpty then
    readTree listing t
  else if Text.endsWith path "/" then
    readTree listing (t.add path .empty)
  else
    let contents ← IO.FS.readBinFile path
    readTree listing (t.add path contents)

/- Read the variables that settings come from. -/
def readEnvironment : IO (Table String String) := do
  let names := [Settings.prefixesVariable,
    Settings.unknownVariable, Settings.outputVariable]
  let values ← names.filterMapM fun name => do
    return (← IO.getEnv name).map fun value => (name, value)
  return .ofList values

/- Write the files of a run. -/
def writeFiles
    (r : Run) : IO Unit := do
  for (path, contents) in r.written do
    let directory : Path := { path with parts := path.parts.dropLast }
    IO.FS.createDirAll directory.text
    IO.FS.writeFile path.text contents

/- The exit code of a run. -/
def exitCode
    (r : Run) : UInt32 :=
  match r.ending with
  | .exit code => code.toUInt32
  | .usage _ => 2
  | .failure _ => 1

/- What is said of a run that does not end well. -/
def complaint
    (r : Run) : String :=
  match r.ending with
  | .exit _ => ""
  | .usage e => e.message ++ "\n"
  | .failure _ => "the analysis broke off\n"

end Command

end Uncaught

open Uncaught in
/- Run the command line. -/
def main
    (arguments : List String) : IO UInt32 := do
  let tree ← Command.readTree (← IO.getStdin) .empty
  let run := Command.run tree (← Command.readEnvironment) arguments
  Command.writeFiles run
  IO.print run.out
  IO.eprint (run.log ++ Command.complaint run)
  return Command.exitCode run
