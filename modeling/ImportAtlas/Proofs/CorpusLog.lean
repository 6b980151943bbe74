import ImportAtlas.Proofs.GraphAnswers
import ImportAtlas.Proofs.ImportMapConsistency

/-!
# The log of a corpus

The import graph of a corpus is the graph of a log: every module calls for its
file and then for each kept import of a file.  What the graph answers about
files can so be read off the kept imports.
-/

namespace ImportAtlas

/-- The call that an import in a file makes, if it was resolved to a file. -/
def ImportRecord.logged? (file : Path) (record : ImportRecord) :
    Option LoggedImport :=
  match record.resolved with
  | some (.file path) => some ⟨file, .file path, record.style, record.line⟩
  | _ => none

def FileModule.loggedImports (styles : StyleFilter) (module : FileModule) :
    List LoggedImport :=
  (keptImports styles module).filterMap (ImportRecord.logged? module.path)

def FileModule.log (styles : StyleFilter) (module : FileModule) : GraphLog :=
  .addFile module.path :: (module.loggedImports styles).map .addImport

def corpusLog (styles : StyleFilter) (modules : List FileModule) : GraphLog :=
  modules.flatMap (FileModule.log styles)

variable {styles : StyleFilter} {modules : List FileModule}
    {module : FileModule} {record : ImportRecord}

private theorem ImportRecord.logged?_eq_some {file : Path}
    {entry : LoggedImport} :
    record.logged? file = some entry ↔
      ∃ path, record.resolved = some (.file path) ∧
        entry = ⟨file, .file path, record.style, record.line⟩ := by
  unfold logged?
  split
  · rename_i path hpath
    simp [hpath, eq_comm]
  · rename_i hother
    constructor
    · intro h
      contradiction
    · rintro ⟨path, hpath, -⟩
      exact (hother path hpath).elim

private theorem addToGraph_eq_foldl (styles : StyleFilter) (graph : ImportGraph)
    (module : FileModule) :
    addToGraph styles graph module =
      (module.log styles).foldl GraphCall.apply graph := by
  have hrecord (graph : ImportGraph) (record : ImportRecord) :
      graph.addRecord module.path record =
        ((record.logged? module.path).toList.map GraphCall.addImport).foldl
          GraphCall.apply graph := by
    unfold ImportGraph.addRecord ImportRecord.logged?
    split <;> simp_all [GraphCall.apply]
  rw [ImportGraph.addToGraph_eq, FileModule.log, List.foldl_cons,
    FileModule.loggedImports]
  change _ = List.foldl _ (graph.addModule (.file module.path)).1 _
  generalize (graph.addModule (.file module.path)).1 = start
  induction keptImports styles module generalizing start with
  | nil => rfl
  | cons record records ih =>
      rw [List.foldl_cons, ih, hrecord, List.filterMap_cons]
      cases record.logged? module.path <;> rfl

theorem importGraph_eq_graph (styles : StyleFilter)
    (modules : List FileModule) :
    importGraph styles modules = (corpusLog styles modules).graph := by
  rw [importGraph, GraphLog.graph, corpusLog, List.foldl_flatMap]
  congr
  funext graph module
  exact addToGraph_eq_foldl styles graph module

/-! ## Imports of the log -/

private theorem FileModule.imports_log (styles : StyleFilter)
    (module : FileModule) :
    GraphLog.imports (module.log styles) = module.loggedImports styles := by
  rw [FileModule.log, GraphLog.imports, List.filterMap_cons, List.filterMap_map]
  exact List.filterMap_some

theorem imports_corpusLog (styles : StyleFilter) (modules : List FileModule) :
    GraphLog.imports (corpusLog styles modules) =
      modules.flatMap (FileModule.loggedImports styles) := by
  rw [corpusLog, GraphLog.imports, List.filterMap_flatMap]
  congr
  funext module
  exact module.imports_log styles

theorem mem_imports_corpusLog {entry : LoggedImport} :
    entry ∈ GraphLog.imports (corpusLog styles modules) ↔
      ∃ module ∈ modules, ∃ record ∈ keptImports styles module,
        ∃ path, record.resolved = some (.file path) ∧
        entry = ⟨module.path, .file path, record.style, record.line⟩ := by
  simp [imports_corpusLog, FileModule.loggedImports,
    ImportRecord.logged?_eq_some]

theorem ImportRecord.resolvesTo_iff_file {file : Path} :
    record.ResolvesTo file ↔
      ∃ path, record.resolved = some (.file path) ∧ path.key = file.key := by
  constructor
  · rintro ⟨found, hfound, hfile⟩
    cases found with
    | file path => exact ⟨path, hfound, Path.sameFile_iff.1 hfile⟩
    | package name => cases hfile
  · rintro ⟨path, hpath, hkey⟩
    exact ⟨.file path, hpath, Path.sameFile_iff.2 hkey⟩

instance (record : ImportRecord) (file : Path) :
    Decidable (record.ResolvesTo file) :=
  decidable_of_iff (record.resolved.any (Target.isFile · file) = true) (by
    rw [ImportRecord.ResolvesTo]
    cases record.resolved <;> simp)

theorem countOf_corpusLog (styles : StyleFilter) (modules : List FileModule)
    (file : Path) :
    (corpusLog styles modules).countOf file =
      (modules.flatMap (keptImports styles)).countP fun record =>
        record.ResolvesTo file := by
  rw [GraphLog.countOf, imports_corpusLog, List.countP_flatMap,
    List.countP_flatMap]
  congr 1
  refine List.map_congr_left fun module _ => ?_
  rw [Function.comp_apply, FileModule.loggedImports, List.countP_filterMap]
  refine List.countP_congr fun record _ => ?_
  rw [decide_eq_true_eq, ImportRecord.resolvesTo_iff_file, ImportRecord.logged?]
  split
  · rename_i path hpath
    simp [hpath, Target.isFile, Path.sameFile_iff]
  · rename_i hother
    simpa using fun path hpath => (hother path hpath).elim

end ImportAtlas
