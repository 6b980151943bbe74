import ImportAtlas.Corpus.Loading

/-!
# Files that nothing uses

A file is used when another file imports it, or when an index file that is
itself imported passes it on. An import by which an index file only passes
something on is no use.
-/

namespace ImportAtlas

inductive UnusedReason where
  | notImported
  | onlyThroughUnusedBarrel (barrel : Path)
  deriving DecidableEq, Repr

def UnusedReason.text : UnusedReason → String
  | .notImported => "not imported by any file"
  | .onlyThroughUnusedBarrel barrel =>
    "only re-exported through unused barrel " ++ barrel.text

structure UnusedFile where
  file : Path
  reason : UnusedReason
  deriving DecidableEq, Repr

structure UnusedReport where
  roots : List Path := []
  unused : List UnusedFile := []
  filesScanned : Nat := 0
  failed : List FailedFile := []
  deriving DecidableEq, Repr

def UnusedReport.merge (report other : UnusedReport) : UnusedReport where
  roots := report.roots ++ other.roots
  unused := report.unused ++ other.unused
  filesScanned := report.filesScanned + other.filesScanned
  failed := report.failed ++ other.failed

def isIndexFile (path : Path) : Bool :=
  path.fileStem? == some "index"

def FileModule.forwards (module : FileModule) (record : ImportRecord) : Bool :=
  module.exports.any fun exported =>
    match exported.source with
    | some source => source == record.specifier
    | none => record.boundNames.contains exported.localName

def usedKeys (module : FileModule) : List String :=
  module.imports.filterMap fun record =>
    if isIndexFile module.path && module.forwards record then none
    else
      match record.resolved.bind Target.file? with
      | none => none
      | some path => if path.key = module.path.key then none else some path.key

def passedOnFiles (tree : FileTree) (resolver : Resolver)
    (module : FileModule) : List Path :=
  (module.imports.filter module.forwards).filterMap fun record =>
    (resolver.targetOf tree module.path record).bind Target.file?

/-- The module with a key; of several the last one counts. -/
def moduleByKey? (modules : List FileModule) (key : String) :
    Option FileModule :=
  modules.reverse.find? fun module => module.path.key == key

structure PassedOn where
  found : List String
  seen : List String
  pending : List FileModule

/-- Notes a file that is passed on; an index file is looked into later, unless
that was done. -/
def PassedOn.note (modules : List FileModule) (state : PassedOn) (path : Path) :
    PassedOn :=
  let key := path.key
  let noted := { state with found := key :: state.found }
  if isIndexFile path && !state.seen.contains key then
    { noted with
      seen := key :: state.seen
      pending := (moduleByKey? modules key).toList ++ state.pending }
  else noted

def PassedOn.run (tree : FileTree) (resolver : Resolver)
    (modules : List FileModule) : Nat → PassedOn → PassedOn
  | 0, state => state
  | steps + 1, state =>
    match state.pending with
    | [] => state
    | module :: pending =>
      run tree resolver modules steps
        ((passedOnFiles tree resolver module).foldl (note modules) { state with
          pending := pending })

/-- The keys of all files that an index file passes on, itself or through other
index files. -/
def passedOnKeys (tree : FileTree) (corpus : Corpus) (index : FileModule) :
    List String :=
  let start : PassedOn := ⟨[], [index.path.key], [index]⟩
  let final :=
    start.run tree corpus.resolver corpus.modules (corpus.modules.length + 1)
  final.found.filter (· != index.path.key)

def containsText (part text : List Char) : Bool :=
  match text with
  | [] => part.isEmpty
  | c :: rest => part.isPrefixOf (c :: rest) || containsText part rest

/-- The unused files of a corpus; with a filter, only those whose paths contain
it. -/
def unusedFiles (tree : FileTree) (corpus : Corpus) (filter : Option String) :
    List UnusedFile :=
  let used := corpus.modules.flatMap usedKeys
  let indexes :=
    (corpus.modules.filter fun module => isIndexFile module.path).map
      fun module => (module, passedOnKeys tree corpus module)
  let reachable :=
    (indexes.filter fun index => used.contains index.1.path.key).flatMap
      Prod.snd
  let considered := corpus.modules.filter fun module =>
    match filter with
    | none => true
    | some part => containsText part.toList module.path.text.toList
  considered.filterMap fun module =>
    let key := module.path.key
    if used.contains key || reachable.contains key then none
    else
      match indexes.find? fun index => index.2.contains key with
      | some index => some ⟨module.path, .onlyThroughUnusedBarrel index.1.path⟩
      | none => some ⟨module.path, .notImported⟩

def unusedScan (tree : FileTree) (scan : Scan) (filter : Option String) :
    UnusedReport where
  roots := [scan.corpus.root]
  unused := unusedFiles tree scan.corpus filter
  filesScanned := scan.fileCount
  failed := scan.corpus.failed

end ImportAtlas
