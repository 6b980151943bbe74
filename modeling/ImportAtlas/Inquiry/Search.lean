import ImportAtlas.Barrel.Consumer
import ImportAtlas.Corpus.Loading

/-!
# Who imports a module

A search finds the imports of a file, or of whatever a name may mean. From the
direct importers of a file it goes on through barrels: whoever imports the
file's names from a barrel imports the file.
-/

namespace ImportAtlas

/-! ## Results -/

/-- Adds an importer; the imports of a file that is already there are merged
into it. -/
def addImporter (added : Importer) : List Importer → List Importer
  | [] => [added]
  | importer :: importers =>
    if importer.file.key = added.file.key then
      importer.merge added.imports :: importers
    else importer :: addImporter added importers

def addImporters (importers added : List Importer) : List Importer :=
  added.foldl (fun merged importer => addImporter importer merged) importers

structure SearchReport where
  roots : List Path := []
  module : Option String := none
  target : Option Path := none
  results : List Importer := []
  filesScanned : Nat := 0
  failed : List FailedFile := []
  deriving Repr

namespace SearchReport

def importCount (report : SearchReport) : Nat :=
  report.results.foldl (fun count importer => count + importer.imports.length) 0

def merge (report other : SearchReport) : SearchReport where
  roots := report.roots ++ other.roots
  module := report.module <|> other.module
  target := report.target <|> other.target
  results := addImporters (addImporters [] report.results) other.results
  filesScanned := report.filesScanned + other.filesScanned
  failed := report.failed ++ other.failed

end SearchReport

/-! ## Direct imports -/

structure Query where
  name : Option String
  target : Option Path
  /-- Index files beside the target that pass it on, with the names that they
  pass on. -/
  siblings : List (Path × NameSet)
  deriving Repr

namespace Query

def siblingBarrels (tree : FileTree) (corpus : Corpus) (target : Path) :
    List (Path × NameSet) :=
  (corpus.resolver.siblingIndexes tree target).filterMap fun index =>
    (corpus.module? index).bind fun module =>
      let names := forwardedNames tree corpus.resolver module target none
      if names.isEmpty then none else some (index, names)

def build (tree : FileTree) (corpus : Corpus) (name : Option String)
    (options : ScanOptions) : Query :=
  let target := options.modulePath.map fun path =>
    corpus.resolver.resolveTarget tree path options.workingDirectory
  ⟨name, target, target.elim [] (siblingBarrels tree corpus)⟩

def nameMatches (name : String) (record : ImportRecord) : Bool :=
  record.specifier == name || record.boundNames.contains name ||
    baseName record.specifier == name ||
    match record.resolved.bind Target.file? with
    | some path => baseName path.text == name
    | none => false

/-- Whether an import leads to the target, or to it through an index file
beside it. -/
def targetMatches (siblings : List (Path × NameSet)) (target : Path)
    (record : ImportRecord) : Bool :=
  match record.resolved with
  | none => false
  | some found =>
    found.isFile target || siblings.any fun (barrel, names) =>
      found.isFile barrel && usesAny record names

def accepts (query : Query) (record : ImportRecord) : Bool :=
  match query.target with
  | some target => targetMatches query.siblings target record
  | none =>
    match query.name with
    | some name => nameMatches name record
    | none => true

end Query

def matchingImports (styles : StyleFilter) (query : Query)
    (module : FileModule) : List ImportRecord :=
  module.imports.filter fun record =>
    styles.allows record.style && query.accepts record

def directImporters (corpus : Corpus) (styles : StyleFilter) (query : Query) :
    List Importer :=
  corpus.modules.filterMap fun module =>
    match matchingImports styles query module with
    | [] => none
    | found => some ⟨module.path, found⟩

/-! ## Through barrels -/

structure Pending where
  file : Path
  via : Path
  carried : Carried
  deriving Repr

def allowedConsumers (styles : StyleFilter) (consumers : List Importer) :
    List Importer :=
  consumers.filterMap fun consumer =>
    match consumer.imports.filter fun record => styles.allows record.style with
    | [] => none
    | found => some ⟨consumer.file, found⟩

structure Trace where
  visited : VisitedBarrels
  pending : List Pending
  found : List Importer
  deriving Repr

/-- Takes the first pending file and, if it is a barrel that was not followed
yet, follows it. -/
def Trace.step (tree : FileTree) (corpus : Corpus) (styles : StyleFilter)
    (trace : Trace) : Trace :=
  match trace.pending with
  | [] => trace
  | next :: pending =>
    let skipped := { trace with pending := pending }
    if trace.visited.contains next.file then skipped
    else
      match corpus.module? next.file with
      | none => skipped
      | some module =>
        let names :=
          forwardedNames tree corpus.resolver module next.via next.carried
        if names.isEmpty then skipped
        else
          let (consumers, visited) :=
            followBarrel tree corpus.resolver next.file names corpus.modules
              trace.visited
          let allowed := allowedConsumers styles consumers
          { visited := visited
            pending := pending ++ allowed.map fun consumer =>
            ⟨consumer.file, next.file, some names⟩
            found := addImporters trace.found allowed }

def Trace.run (tree : FileTree) (corpus : Corpus) (styles : StyleFilter) :
    Nat → Trace → Trace
  | 0, trace => trace
  | steps + 1, trace =>
    if trace.pending.isEmpty then trace
    else run tree corpus styles steps (trace.step tree corpus styles)

/-- As many steps as a search can take: every file is followed once and adds at
most every file. -/
def traceSteps (corpus : Corpus) (found : List Importer) : Nat :=
  found.length + corpus.modules.length * corpus.modules.length

def traceBarrels (tree : FileTree) (corpus : Corpus) (styles : StyleFilter)
    (target : Path) (direct : List Importer) : List Importer :=
  let start : Trace :=
    ⟨VisitedBarrels.empty, direct.map fun importer =>
      ⟨importer.file, target, none⟩, direct⟩
  (start.run tree corpus styles (traceSteps corpus direct)).found

/-! ## Searches -/

def searchResults (tree : FileTree) (corpus : Corpus) (styles : StyleFilter)
    (query : Query) : List Importer :=
  let direct := addImporters [] (directImporters corpus styles query)
  match query.target with
  | some target => traceBarrels tree corpus styles target direct
  | none => direct

def searchCorpus (tree : FileTree) (corpus : Corpus) (name : Option String)
    (options : ScanOptions) : SearchReport :=
  let query := Query.build tree corpus name options
  { roots := [corpus.root]
    module := name
    target := query.target
    results := searchResults tree corpus options.styles query }

def searchScan (tree : FileTree) (scan : Scan) (name : Option String)
    (options : ScanOptions) : SearchReport :=
  { searchCorpus tree scan.corpus name options with
    filesScanned := scan.fileCount
    failed := scan.corpus.failed }

end ImportAtlas
