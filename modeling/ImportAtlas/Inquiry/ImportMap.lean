import ImportAtlas.Corpus.Loading
import ImportAtlas.Graph.Cycle

/-!
# Import maps

What every file of a corpus imports and by which files it is imported, with
counts, rankings and cycles.
-/

namespace ImportAtlas

structure FileCount where
  file : Path
  count : Nat
  deriving DecidableEq, Repr

structure MapStats where
  totalFiles : Nat := 0
  totalImports : Nat := 0
  resolvedImports : Nat := 0
  unresolvedImports : Nat := 0
  packageImports : Nat := 0
  mostImported : List FileCount := []
  leastImported : List FileCount := []
  circular : List (List Path) := []
  deriving DecidableEq, Repr

structure ImportMap where
  root : Path := ⟨""⟩
  imports : List (Path × List ImportRecord) := []
  importedBy : List (Path × List Path) := []
  stats : MapStats := {}
  failed : List FailedFile := []
  deriving DecidableEq, Repr

/-- Enters a value at a path, in path order; an earlier value at the path is
replaced. -/
def insertAtPath {α : Type} (path : Path) (value : α) :
    List (Path × α) → List (Path × α)
  | [] => [(path, value)]
  | (other, old) :: others =>
    match path.compare other with
    | .lt => (path, value) :: (other, old) :: others
    | .eq => (other, value) :: others
    | .gt => (other, old) :: insertAtPath path value others

def byPath {α : Type} (entries : List (Path × α)) : List (Path × α) :=
  entries.foldl (fun table entry => insertAtPath entry.1 entry.2 table) []

def atPath? {α : Type} (path : Path) (table : List (Path × α)) : Option α :=
  (table.find? fun entry => entry.1.same path).map Prod.snd

def keptImports (styles : StyleFilter) (module : FileModule) :
    List ImportRecord :=
  module.imports.filter fun record => styles.allows record.style

def addToGraph (styles : StyleFilter) (graph : ImportGraph)
    (module : FileModule) : ImportGraph :=
  (keptImports styles module).foldl
    (fun grown record =>
      match record.resolved with
      | some (.file path) =>
        grown.addImport module.path (.file path) record.style record.line
      | _ => grown)
    (graph.addFile module.path).1

def importGraph (styles : StyleFilter) (modules : List FileModule) :
    ImportGraph :=
  modules.foldl (addToGraph styles) ImportGraph.empty

def isFileImport (record : ImportRecord) : Bool :=
  match record.resolved with
  | some (.file _) => true
  | _ => false

def isPackageImport (record : ImportRecord) : Bool :=
  match record.resolved with
  | some (.package _) => true
  | _ => false

/-- More imports come first, then the order of paths counts. -/
def FileCount.rankMost (first second : FileCount) : Bool :=
  ((Ord.compare second.count first.count).then
    (first.file.compare second.file)).isLE

def FileCount.rankLeast (first second : FileCount) : Bool :=
  ((Ord.compare first.count second.count).then
    (first.file.compare second.file)).isLE

def importMap (corpus : Corpus) (styles : StyleFilter) (statsLimit : Nat) :
    ImportMap :=
  let graph := importGraph styles corpus.modules
  let kept := corpus.modules.flatMap (keptImports styles)
  let counts := graph.fileCounts.filter fun entry => entry.2 != 0
  let ranked := counts.map fun entry => FileCount.mk entry.1 entry.2
  { root := corpus.root
    imports :=
    byPath (corpus.modules.map fun module =>
      (module.path, keptImports styles module))
    importedBy :=
      byPath (counts.map fun entry => (entry.1, graph.importersOf entry.1))
    stats :=
      { totalFiles := corpus.modules.length
        totalImports := kept.length
        resolvedImports := (kept.filter isFileImport).length
        unresolvedImports :=
          (kept.filter fun record => record.resolved.isNone).length
        packageImports := (kept.filter isPackageImport).length
        mostImported := (ranked.mergeSort FileCount.rankMost).take statsLimit
        leastImported := (ranked.mergeSort FileCount.rankLeast).take statsLimit
        circular := graph.cycles } }

def mapScan (scan : Scan) (options : ScanOptions) : ImportMap :=
  { importMap scan.corpus options.styles options.statsLimit with
    failed := scan.corpus.failed }

end ImportAtlas
