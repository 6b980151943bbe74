import ImportAtlas.CommandLine.Run
import ImportAtlas.FileTree.Listing

/-!
# The program

The program reads a listing of the files from its standard input and runs the
command of its arguments on it. A file that the command writes is printed as an
entry of a listing.
-/

namespace ImportAtlas.Program

partial def readAll (input : IO.FS.Stream) (before : String) : IO String := do
  let line ← input.getLine
  if line.isEmpty then return before else readAll input (before ++ line)

def report (outcome : CommandLine.Outcome) : IO UInt32 := do
  IO.print outcome.printed
  match outcome.written with
  | some path =>
    match outcome.tree.readText path with
    | .ok text => IO.print (Listing.fileEntry path text)
    | .error _ => pure ()
  | none => pure ()
  match outcome.error with
  | some message => IO.eprintln ("error: " ++ message)
  | none => pure ()
  return outcome.code.toUInt32

/-- Arguments that name no command are answered without a listing. -/
def run (arguments : List String) : IO UInt32 := do
  match CommandLine.Invocation.read arguments with
  | .error _ => report (CommandLine.run FileTree.empty ⟨"/"⟩ arguments)
  | .ok _ =>
    match Listing.read? (← readAll (← IO.getStdin) "") with
    | some listing =>
      report (CommandLine.run listing.tree listing.workingDirectory arguments)
    | none =>
      IO.eprintln "error: the listing cannot be read"
      return 2

end ImportAtlas.Program

def main (arguments : List String) : IO UInt32 :=
  ImportAtlas.Program.run arguments
