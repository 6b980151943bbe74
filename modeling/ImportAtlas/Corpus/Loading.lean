import ImportAtlas.Corpus.Options
import ImportAtlas.Corpus.Selection
import ImportAtlas.Module.Analysis
import ImportAtlas.Resolution.BaseDirectory
import ImportAtlas.Resolution.Resolver

/-!
# Loading files

The corpus of a scan: every file that was loaded, analyzed and resolved once,
and every file that could not be loaded. Both answers stay as they were at the
first attempt.
-/

namespace ImportAtlas

structure FailedFile where
  path : Path
  error : String
  deriving DecidableEq, Repr

structure Corpus where
  root : Path
  resolver : Resolver
  modules : List FileModule
  failed : List FailedFile
  deriving Repr

namespace Corpus

def new (root : Path) (resolver : Resolver) : Corpus :=
  ⟨root, resolver, [], []⟩

def forRoot (tree : FileTree) (root : Path) (options : ScanOptions) : Corpus :=
  let base :=
    discoverBase tree options.baseUrl options.manifest root
      options.workingDirectory
  new root ((Resolver.new base).withExtensions options.extensions)

def module? (corpus : Corpus) (path : Path) : Option FileModule :=
  corpus.modules.find? fun module => module.path.same path

def hasFailed (corpus : Corpus) (path : Path) : Bool :=
  corpus.failed.any fun failure => failure.path.same path

def insertModule (module : FileModule) : List FileModule → List FileModule
  | [] => [module]
  | other :: others =>
    match module.path.compare other.path with
    | .lt => module :: other :: others
    | .eq => module :: others
    | .gt => other :: insertModule module others

def resolveImports (tree : FileTree) (resolver : Resolver)
    (module : FileModule) : FileModule :=
  { module with
    imports := module.imports.map fun record =>
      { record with
        resolved := resolver.resolve tree record.specifier module.path } }

def load (tree : FileTree) (corpus : Corpus) (path : Path) : Corpus :=
  if corpus.hasFailed path || (corpus.module? path).isSome then corpus
  else
    match analyzeFile tree path with
    | .ok module =>
      { corpus with
        modules :=
          insertModule (resolveImports tree corpus.resolver module)
            corpus.modules }
    | .error error =>
      { corpus with failed := corpus.failed ++ [⟨path, error.message⟩] }

def loadBatch (tree : FileTree) (corpus : Corpus) (paths : List Path) :
    Corpus :=
  paths.foldl (load tree) corpus

/-! ## Batches -/

structure Progress where
  batch : Nat
  processed : Nat
  total : Nat
  failed : Nat
  deriving DecidableEq, Repr

/-- Cuts a list into pieces of a size; the budget is the list itself. -/
def piecesWithin (size : Nat) : List Path → List Path → List (List Path)
  | [], _ => []
  | _ :: _, [] => []
  | _ :: budget, path :: paths =>
    (path :: paths.take (size - 1)) :: piecesWithin size budget
      (paths.drop (size - 1))

/-- The batches of a list; a size of zero counts as one. -/
def batches (size : Nat) (paths : List Path) : List (List Path) :=
  piecesWithin size paths paths

def loadBatches (tree : FileTree) (total : Nat) :
    Corpus → Nat → Nat → List (List Path) → Corpus × List Progress
  | corpus, _, _, [] => (corpus, [])
  | corpus, batch, processed, paths :: rest =>
    let next := corpus.loadBatch tree paths
    let progress : Progress :=
      ⟨batch + 1, processed + paths.length, total, next.failed.length⟩
    let (final, later) :=
      loadBatches tree total next (batch + 1) (processed + paths.length) rest
    (final, progress :: later)

def loadAll (tree : FileTree) (corpus : Corpus) (paths : List Path)
    (batchSize : Nat) : Corpus × List Progress :=
  loadBatches tree paths.length corpus 0 0 (batches batchSize paths)

/-! ## Pauses -/

/-- A load that stands still after a batch: what it has loaded, what it told
then, and what is left. -/
structure PausedLoad where
  corpus : Corpus
  told : Progress
  rest : List (List Path)
  deriving Repr

namespace PausedLoad

def start (corpus : Corpus) (paths : List Path) (batchSize : Nat) :
    PausedLoad :=
  ⟨corpus, ⟨0, 0, paths.length, 0⟩, batches batchSize paths⟩

def resume (tree : FileTree) (paused : PausedLoad) : Option PausedLoad :=
  match paused.rest with
  | [] => none
  | paths :: rest =>
    let next := paused.corpus.loadBatch tree paths
    some
      { corpus := next
        told :=
        ⟨paused.told.batch + 1, paused.told.processed + paths.length,
          paused.told.total, next.failed.length⟩
        rest := rest }

private theorem length_rest_of_resume {tree : FileTree}
    {paused next : PausedLoad} (h : paused.resume tree = some next) :
    next.rest.length < paused.rest.length := by
  unfold resume at h
  split at h
  · contradiction
  · rename_i paths rest hrest
    obtain rfl := Option.some.inj h
    rw [hrest]
    exact Nat.lt_succ_self _

def pauses (tree : FileTree) (paused : PausedLoad) : List PausedLoad :=
  match _h : paused.resume tree with
  | none => []
  | some next => next :: next.pauses tree
termination_by paused.rest.length
decreasing_by exact length_rest_of_resume _h

end PausedLoad

/-- Loads batch after batch like `loadAll`, but hands over control after each.
-/
def loadAllPausing (tree : FileTree) (corpus : Corpus) (paths : List Path)
    (batchSize : Nat) :
    Corpus × List Progress :=
  let start := PausedLoad.start corpus paths batchSize
  let pauses := start.pauses tree
  ((pauses.getLast?.getD start).corpus, pauses.map PausedLoad.told)

end Corpus

structure Scan where
  corpus : Corpus
  fileCount : Nat
  progress : List Corpus.Progress
  deriving Repr

def Scan.run (tree : FileTree) (root : Path) (options : ScanOptions) :
    Except ScanError Scan :=
  let absolute := options.absolute root
  match findFiles tree absolute options.includes options.excludes with
  | .error error => .error error
  | .ok files =>
    let (corpus, progress) :=
      (Corpus.forRoot tree absolute options).loadAll tree files
        options.batchSize
    .ok ⟨corpus, files.length, progress⟩

end ImportAtlas
