import ImportAtlas.Output.Format

/-!
# Answers as plain text

Answers for people, as lines. Files are shown from the root below which they
were found.
-/

namespace ImportAtlas.PlainText

/-- A path from the first root that it lies below; a root itself is shown in
full. -/
def display (roots : List Path) (path : Path) : String :=
  match roots.findSome? path.stripPrefix? with
  | some below => if below.text.isEmpty then path.text else below.text
  | none => path.text

def bindingText (binding : Binding) : String :=
  if binding.imported == binding.localName || binding.imported ==
    defaultName then binding.localName
  else binding.imported ++ " as " ++ binding.localName

def bindingsText : List Binding → String
  | [] => ""
  | bindings =>
    "  \x7b " ++ ", ".intercalate (bindings.map bindingText) ++ " \x7d"

def importLine (record : ImportRecord) : String :=
  "  L" ++ toString record.line ++ "  " ++ record.specifier ++ "  [" ++
    record.style.text ++ "/" ++
    record.kind.text ++ "]" ++ bindingsText record.bindings

def failedLines (roots : List Path) : List FailedFile → List String
  | [] => []
  | failures =>
    ["", "Skipped " ++ toString failures.length ++
      " file(s) that could not be parsed:"] ++
      failures.map fun failure =>
        "  " ++ display roots failure.path ++ ": " ++ failure.error

def scannedText (count : Nat) : String :=
  "(" ++ toString count ++ " files scanned)"

def searchLines (report : SearchReport) : List String :=
  (if report.results.isEmpty then
    ["No matching imports found " ++ scannedText report.filesScanned]
    else
      report.results.flatMap (fun importer =>
        display report.roots importer.file :: importer.imports.map importLine ++
          [""]) ++
      [toString report.results.length ++ " file(s), " ++
        toString report.importCount ++ " import(s) " ++
        scannedText report.filesScanned]) ++
    failedLines report.roots report.failed

def unusedLine (roots : List Path) (unused : UnusedFile) : String :=
  "  " ++ display roots unused.file ++ "  (" ++ unused.reason.text ++ ")"

def unusedLines (report : UnusedReport) : List String :=
  (if report.unused.isEmpty then
    ["No unused files found " ++ scannedText report.filesScanned]
    else
      ["Unused files:"] ++ report.unused.map (unusedLine report.roots) ++
        ["", toString report.unused.length ++ " unused file(s) " ++
          scannedText report.filesScanned]) ++
    failedLines report.roots report.failed

def rightAligned (value : Nat) : String :=
  let digits := toString value
  String.ofList (List.replicate (4 - digits.length) ' ') ++ digits

def countLine (roots : List Path) (entry : FileCount) : String :=
  "    " ++ rightAligned entry.count ++ "  " ++ display roots entry.file

/-- A group of files in order, back to its first one. -/
def cycleText (roots : List Path) : List Path → String
  | [] => ""
  | first :: others =>
    " -> ".intercalate ((first :: others ++ [first]).map (display roots))

def titled (title : String) : List String → List String
  | [] => []
  | lines => title :: lines

def statsLines (roots : List Path) (stats : MapStats) : List String :=
  ["  files: " ++ toString stats.totalFiles ++ "  imports: " ++
    toString stats.totalImports ++
    "  resolved: " ++ toString stats.resolvedImports ++ "  packages: " ++
      toString stats.packageImports ++
    "  unresolved: " ++ toString stats.unresolvedImports] ++
    titled "  Most imported:" (stats.mostImported.map (countLine roots)) ++
    titled "  Least imported:" (stats.leastImported.map (countLine roots)) ++
    titled "  Circular imports:" (stats.circular.map fun group =>
      "    " ++ cycleText roots group)

def targetText (roots : List Path) : Option Target → String
  | none => "unresolved"
  | some (.file path) => display roots path
  | some (.package name) => name

def mapLines (map : ImportMap) : List String :=
  let roots := [map.root]
  ["Import map for " ++ map.root.text] ++ statsLines roots map.stats ++
    map.imports.flatMap (fun (file, records) =>
      ["", display roots file ++ "  (imported by " ++
        toString ((atPath? file map.importedBy).getD []).length ++ ")"] ++
        records.map fun record =>
          "  L" ++ toString record.line ++ "  " ++ record.specifier ++ " -> " ++
            targetText roots record.resolved) ++
    failedLines roots map.failed

def reportLines (report : ProjectReport) : List String :=
  let roots := [report.root]
  ["Report for " ++ report.root.text ++ " " ++ scannedText report.filesScanned,
    "", "Imports:"] ++
    (if report.search.results.isEmpty then ["  none"] else []) ++
    report.search.results.flatMap (fun importer =>
      ("  " ++ display roots importer.file) :: importer.imports.map
        fun record => "  " ++ importLine record) ++
    ["", "Unused files: " ++ toString report.unused.length] ++
      report.unused.map (unusedLine roots) ++
    ["", "Stats:"] ++ statsLines roots report.stats ++
      failedLines roots report.failed

def separated : List (List String) → List String
  | [] => []
  | [part] => part
  | part :: parts => part ++ [""] ++ separated parts

def answerLines : Answer → List String
  | .search report => searchLines report
  | .unused report => unusedLines report
  | .maps maps => separated (maps.map mapLines)
  | .reports reports => separated (reports.map reportLines)

def render (answer : Answer) : String :=
  String.join ((answerLines answer).map (· ++ "\n"))

end ImportAtlas.PlainText
