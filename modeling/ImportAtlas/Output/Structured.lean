import ImportAtlas.Output.Document
import ImportAtlas.Output.Format

/-!
# Answers as documents

Every field of an answer is written. Fields without a value and empty lists of
failures are left out. A single map or report is written by itself, any other
number of them as a list.
-/

namespace ImportAtlas

namespace Document

def ofPath (path : Path) : Document :=
  .text path.text

def ofPaths (paths : List Path) : Document :=
  .list (paths.map ofPath)

def field? {α : Type} (name : String) (write : α → Document) :
    Option α → List (String × Document)
  | none => []
  | some value => [(name, write value)]

/-- A field with a list that is left out when the list is empty. -/
def listField? {α : Type} (name : String) (write : α → Document) :
    List α → List (String × Document)
  | [] => []
  | items => [(name, .list (items.map write))]

def ofBinding (binding : Binding) : Document :=
  .object [("imported", .text binding.imported),
    ("local", .text binding.localName)]

def ofImport (record : ImportRecord) : Document :=
  .object ([
    ("specifier", .text record.specifier),
    ("style", .text record.style.text),
    ("line", .number record.line),
    ("column", .number record.column),
    ("bindings", .list (record.bindings.map ofBinding)),
    ("kind", .text record.kind.text),
    ("sourceText", .text record.sourceText)] ++
    field? "resolved" (fun target => .text target.text) record.resolved)

def ofImports (records : List ImportRecord) : Document :=
  .list (records.map ofImport)

def ofImporter (importer : Importer) : Document :=
  .object [("file", ofPath importer.file),
    ("imports", ofImports importer.imports)]

def ofFailed (failure : FailedFile) : Document :=
  .object [("path", ofPath failure.path), ("error", .text failure.error)]

def ofSearch (report : SearchReport) : Document :=
  .object (
    [("roots", ofPaths report.roots)] ++
    field? "module" .text report.module ++
    field? "target" ofPath report.target ++
    [("results", .list (report.results.map ofImporter)),
      ("filesScanned", .number report.filesScanned)] ++
    listField? "failed" ofFailed report.failed)

def ofReason : UnusedReason → Document
  | .notImported => .object [("kind", .text "notImported")]
  | .onlyThroughUnusedBarrel barrel =>
    .object [("kind", .text "onlyViaUnusedBarrel"), ("barrel", ofPath barrel)]

def ofUnusedFile (unused : UnusedFile) : Document :=
  .object [("file", ofPath unused.file), ("reason", ofReason unused.reason)]

def ofUnused (report : UnusedReport) : Document :=
  .object ([
    ("roots", ofPaths report.roots),
    ("unused", .list (report.unused.map ofUnusedFile)),
    ("filesScanned", .number report.filesScanned)] ++
    listField? "failed" ofFailed report.failed)

def ofFileCount (entry : FileCount) : Document :=
  .object [("file", ofPath entry.file), ("count", .number entry.count)]

def ofStats (stats : MapStats) : Document :=
  .object ([
    ("totalFiles", .number stats.totalFiles),
    ("totalImports", .number stats.totalImports),
    ("resolvedImports", .number stats.resolvedImports),
    ("unresolvedImports", .number stats.unresolvedImports),
    ("packageImports", .number stats.packageImports),
    ("mostImported", .list (stats.mostImported.map ofFileCount)),
    ("leastImported", .list (stats.leastImported.map ofFileCount))] ++
    listField? "circular" ofPaths stats.circular)

def ofMap (map : ImportMap) : Document :=
  .object ([
    ("root", ofPath map.root),
    ("imports", .object (map.imports.map fun (file, records) =>
      (file.text, ofImports records))),
    ("importedBy", .object (map.importedBy.map fun (file, importers) =>
      (file.text, ofPaths importers))),
    ("stats", ofStats map.stats)] ++
    listField? "failed" ofFailed map.failed)

def ofReport (report : ProjectReport) : Document :=
  .object ([
    ("root", ofPath report.root),
    ("filesScanned", .number report.filesScanned),
    ("search", ofSearch report.search),
    ("unused", .list (report.unused.map ofUnusedFile)),
    ("stats", ofStats report.stats)] ++
    listField? "failed" ofFailed report.failed)

/-- One document by itself, any other number of them as a list. -/
def oneOrMany : List Document → Document
  | [document] => document
  | documents => .list documents

def ofAnswer : Answer → Document
  | .search report => ofSearch report
  | .unused report => ofUnused report
  | .maps maps => oneOrMany (maps.map ofMap)
  | .reports reports => oneOrMany (reports.map ofReport)

end Document

end ImportAtlas
