import ImportAtlas.CommandLine.Arguments
import ImportAtlas.FileTree.Change
import ImportAtlas.Output.Write

/-!
# Running a command

A command runs on a file tree and leaves an exit code, what it printed, and the
tree with the file that it was told to write.
-/

namespace ImportAtlas.CommandLine

structure Outcome where
  code : Nat
  printed : String := ""
  error : Option String := none
  written : Option Path := none
  tree : FileTree

namespace Invocation

def roots (invocation : Invocation) : List Path :=
  match invocation.values .paths ++ invocation.values .path with
  | [] => [⟨"."⟩]
  | texts => texts.map Path.mk

def styles (invocation : Invocation) : StyleFilter :=
  ⟨ImportStyle.all.filter fun style => invocation.isOn (.hide style)⟩

def path? (invocation : Invocation) (parameter : Parameter) : Option Path :=
  (invocation.value? parameter).map Path.mk

def options (invocation : Invocation) (workingDirectory : Path) : ScanOptions :=
  let basic : ScanOptions := { workingDirectory := workingDirectory }
  { ((basic.withStyles invocation.styles).withIncludes
      (invocation.values .includes)).withExcludes (invocation.values .excludes)
      with
    verbose := invocation.isOn .verbose
    modulePath :=
      if invocation.command = .list then none else invocation.path? .modulePath
    baseUrl := invocation.path? .baseUrl
    manifest := invocation.path? .manifest }

/-- The format that was asked for; reports are documents unless the user says
otherwise. -/
def format (invocation : Invocation) : OutputFormat :=
  match (invocation.value? .format).bind OutputFormat.ofName? with
  | some format => format
  | none => if invocation.command = .report then .json else .text

end Invocation

/-- Scans root after root; the first one that fails ends the command. -/
def scanRoots {α : Type} (tree : FileTree) (options : ScanOptions)
    (answer : Scan → α) :
    List Path → Except String (List α)
  | [] => .ok []
  | root :: roots =>
    match Scan.run tree root options with
    | .error error =>
      .error
        (": ".intercalate (("Failed to scan " ++ root.text) :: error.causes))
    | .ok scan =>
      match scanRoots tree options answer roots with
      | .error message => .error message
      | .ok answers => .ok (answer scan :: answers)

def answerCommand (tree : FileTree) (options : ScanOptions)
    (invocation : Invocation) : Except String Answer :=
  let roots := invocation.roots
  match invocation.command with
  | .find =>
    (scanRoots tree options (fun scan =>
      searchScan tree scan (invocation.value? .module) options) roots).map
      fun reports => .search (reports.foldl SearchReport.merge {})
  | .list =>
    (scanRoots tree options (fun scan => searchScan tree scan none options)
      roots).map
      fun reports => .search (reports.foldl SearchReport.merge {})
  | .report =>
    (scanRoots tree options (fun scan =>
      reportScan tree scan (invocation.value? .moduleName) options) roots).map
      Answer.reports
  | .unused =>
    (scanRoots tree options
      (fun scan => unusedScan tree scan (invocation.value? .filter)) roots).map
      fun reports => .unused (reports.foldl UnusedReport.merge {})
  | .map =>
    (scanRoots tree options (fun scan => mapScan scan options) roots).map
      Answer.maps

/-- A search that finds nothing fails; every other command succeeds with
whatever it finds. -/
def exitCode (invocation : Invocation) (answer : Answer) : Nat :=
  match invocation.command, answer with
  | .find, .search report => if report.results.isEmpty then 1 else 0
  | _, _ => 0

def deliver (tree : FileTree) (workingDirectory : Path)
    (invocation : Invocation) (answer : Answer) : Outcome :=
  let text := answer.write invocation.format
  let code := exitCode invocation answer
  match invocation.path? .output with
  | none => { code := code, printed := text, tree := tree }
  | some path =>
    let place := workingDirectory.join path
    match tree.write place (some text) with
    | .ok changed => { code := code, written := some place, tree := changed }
    | .error error =>
      { code := 1, error := some ("Failed to create " ++ path.text ++ ": " ++
        error.message), tree := tree }

def runInvocation (tree : FileTree) (workingDirectory : Path)
    (invocation : Invocation) : Outcome :=
  match answerCommand tree (invocation.options workingDirectory) invocation with
  | .error message => { code := 1, error := some message, tree := tree }
  | .ok answer => deliver tree workingDirectory invocation answer

def usageText : String :=
  "Usage: " ++ programName ++
    " [OPTIONS] <COMMAND>\n\nCommands: find, list, report, unused, map, help\n"

def run (tree : FileTree) (workingDirectory : Path) (arguments : List String) :
    Outcome :=
  match Invocation.read arguments with
  | .ok invocation =>
    runInvocation tree ((tree.realPath? workingDirectory).getD workingDirectory)
      invocation
  | .error .version =>
    { code := 0, printed := versionText ++ "\n", tree := tree }
  | .error .help => { code := 0, printed := usageText, tree := tree }
  | .error .nothingGiven => { code := 2, tree := tree }
  | .error (.usage error) =>
    { code := 2, error := some error.message, tree := tree }

end ImportAtlas.CommandLine
