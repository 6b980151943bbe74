import ImportAtlas.Inquiry.ImportMap
import ImportAtlas.Proofs.GraphLinks
import ImportAtlas.Proofs.LoadedCorpus

/-!
# Both directions of an import map

The imports of an import map and its importers say the same, up to the identity
of files.  Between them stands the import graph, whose links are the imports
that were resolved to files.
-/

namespace ImportAtlas

open Std

/-! ## Tables by path -/

section Tables

variable {α : Type} {table entries : List (Path × α)} {path : Path} {value : α}

private theorem mem_insertAtPath {entry : Path × α}
    (h : entry ∈ insertAtPath path value table) :
    entry.1.same path = true ∨ entry ∈ table := by
  fun_induction insertAtPath path value table with
  | case1 =>
      obtain rfl := List.mem_singleton.1 h
      exact .inl (Path.same_refl path)
  | case2 other old others _ =>
      rcases List.mem_cons.1 h with rfl | h
      · exact .inl (Path.same_refl path)
      · exact .inr h
  | case3 other old others heq =>
      rcases List.mem_cons.1 h with rfl | h
      · exact .inl (Path.same_symm (Path.compare_eq_iff_same.1 heq))
      · exact .inr (List.mem_cons_of_mem _ h)
  | case4 other old others _ ih =>
      rcases List.mem_cons.1 h with rfl | h
      · exact .inr List.mem_cons_self
      · exact (ih h).imp id (List.mem_cons_of_mem _)

private theorem insertAtPath_perm
    (h : ∀ entry ∈ table, entry.1.same path ≠ true) :
    (insertAtPath path value table).Perm ((path, value) :: table) := by
  fun_induction insertAtPath path value table with
  | case1 => exact .refl _
  | case2 other old others _ => exact .refl _
  | case3 other old others heq =>
      have hdifferent := h (other, old) List.mem_cons_self
      exact (hdifferent (Path.same_symm (Path.compare_eq_iff_same.1 heq))).elim
  | case4 other old others _ ih =>
      have hothers :=
        ih fun entry hentry => h entry (List.mem_cons_of_mem _ hentry)
      exact (hothers.cons _).trans (.swap _ _ _)

private theorem insertAtPath_ordered (path : Path) (value : α)
    (h : table.Pairwise fun first second => first.1.Before second.1) :
    (insertAtPath path value table).Pairwise fun first second =>
      first.1.Before second.1 := by
  fun_induction insertAtPath path value table with
  | case1 => exact List.pairwise_singleton _ _
  | case2 other old others hlt =>
      refine List.pairwise_cons.2 ⟨?_, h⟩
      intro entry hentry
      rcases List.mem_cons.1 hentry with rfl | hentry
      · exact hlt
      · exact Path.Before.trans hlt ((List.pairwise_cons.1 h).1 entry hentry)
  | case3 other old others _ =>
    exact List.pairwise_cons.2 (List.pairwise_cons.1 h)
  | case4 other old others hgt ih =>
      refine List.pairwise_cons.2 ⟨?_, ih (List.pairwise_cons.1 h).2⟩
      intro entry hentry
      rcases mem_insertAtPath hentry with hsame | hentry
      · have hafter : other.Before path := OrientedCmp.lt_of_gt hgt
        exact hafter.trans_le (Path.le_iff.2 (.inr (Path.same_symm hsame)))
      · exact (List.pairwise_cons.1 h).1 entry hentry

theorem byPath_ordered (entries : List (Path × α)) :
    (byPath entries).Pairwise fun first second => first.1.Before second.1 := by
  unfold byPath
  generalize htable : ([] : List (Path × α)) = table
  have h : table.Pairwise fun first second => first.1.Before second.1 := by
    rw [← htable]; exact .nil
  clear htable
  induction entries generalizing table with
  | nil => exact h
  | cons entry entries ih => exact ih _ (insertAtPath_ordered entry.1 entry.2 h)

theorem byPath_perm
    (h : entries.Pairwise fun first second => first.1.same second.1 ≠ true) :
    (byPath entries).Perm entries := by
  suffices hfold : ∀ table : List (Path × α),
      (table ++ entries).Pairwise
        (fun first second => first.1.same second.1 ≠ true) →
        (entries.foldl (fun table entry => insertAtPath entry.1 entry.2 table)
          table).Perm (table ++ entries) from
    hfold [] h
  clear h
  induction entries with
  | nil => simp
  | cons entry entries ih =>
      intro table h
      have hnew : ∀ other ∈ table, other.1.same entry.1 ≠ true :=
        fun other hother =>
          (List.pairwise_append.1 h).2.2 other hother entry List.mem_cons_self
      have hperm : (table ++ entry :: entries).Perm
          (insertAtPath entry.1 entry.2 table ++ entries) :=
        List.perm_middle.trans
          ((insertAtPath_perm hnew).symm.append_right entries)
      refine (ih _ ((hperm.pairwise_iff ?_).1 h)).trans hperm.symm
      intro first second hdifferent hsame
      exact hdifferent (Path.same_symm hsame)

private theorem byPath_of_ordered
    (h : entries.Pairwise fun first second => first.1.Before second.1) :
    byPath entries = entries := by
  refine List.Perm.eq_of_pairwise ?_ (byPath_ordered entries) h
    (byPath_perm (h.imp Path.Before.not_same))
  intro first second _ _ hbefore hafter
  exact absurd hafter hbefore.not_before

end Tables

/-! ## The graph of a corpus -/

def ImportRecord.Links (file : Path) (record : ImportRecord)
    (source target : NodeKey) : Prop :=
  ∃ path, record.resolved = some (.file path) ∧ source = .file file.key ∧
    target = .file path.key

def FileModule.Links (styles : StyleFilter) (module : FileModule)
    (source target : NodeKey) : Prop :=
  ∃ record ∈ keptImports styles module, record.Links module.path source target

namespace ImportGraph

def addRecord (file : Path) (graph : ImportGraph) (record : ImportRecord) :
    ImportGraph :=
  match record.resolved with
  | some (.file path) =>
    graph.addImport file (.file path) record.style record.line
  | _ => graph

theorem addToGraph_eq (styles : StyleFilter) (graph : ImportGraph)
    (module : FileModule) :
    addToGraph styles graph module =
      (keptImports styles module).foldl (addRecord module.path)
      (graph.addModule (.file module.path)).1 := rfl

variable {graph : ImportGraph}

theorem WellFormed.addRecord (h : graph.WellFormed) (file : Path)
    (record : ImportRecord) :
    graph.Grows (graph.addRecord file record) (record.Links file) := by
  unfold ImportGraph.addRecord
  split
  · rename_i path hpath
    have himport := h.addImport file (.file path) record.style record.line
    refine ⟨himport.wellFormed, fun source target => ?_⟩
    rw [himport.links, ImportRecord.Links, hpath]
    simp [NodeKey.of]
  · rename_i hother
    refine ⟨h, fun source target => (or_iff_left ?_).symm⟩
    rintro ⟨path, hpath, -⟩
    exact hother path hpath

theorem WellFormed.addToGraph (h : graph.WellFormed) (styles : StyleFilter)
    (module : FileModule) :
    graph.Grows (addToGraph styles graph module) (module.Links styles) := by
  have hfile := h.addModule (.file module.path)
  have hrecords := hfile.wellFormed.foldl
    (fun _ record hgraph => hgraph.addRecord module.path record)
    (keptImports styles module)
  rw [addToGraph_eq]
  refine ⟨hrecords.wellFormed, fun source target => ?_⟩
  rw [← h.links_iff hfile.nodes hfile.edges]
  exact hrecords.links source target

end ImportGraph

theorem importGraph_grows (styles : StyleFilter) (modules : List FileModule) :
    ImportGraph.empty.Grows (importGraph styles modules) fun source target =>
      ∃ module ∈ modules, module.Links styles source target :=
  ImportGraph.wellFormed_empty.foldl
    (fun _ module h => h.addToGraph styles module) modules

theorem importGraph_wellFormed (styles : StyleFilter)
    (modules : List FileModule) :
    (importGraph styles modules).WellFormed :=
  (importGraph_grows styles modules).wellFormed

theorem links_importGraph {styles : StyleFilter} {modules : List FileModule}
    {source target : NodeKey} :
    (importGraph styles modules).Links source target ↔
      ∃ module ∈ modules, module.Links styles source target := by
  rw [(importGraph_grows styles modules).links]
  exact or_iff_right ImportGraph.not_links_empty

/-! ## Import maps -/

variable {corpus : Corpus} {styles : StyleFilter} {statsLimit : Nat}

theorem importMap_imports (hordered : corpus.Ordered) :
    (importMap corpus styles statsLimit).imports =
      corpus.modules.map fun module =>
        (module.path, keptImports styles module) :=
  byPath_of_ordered (List.pairwise_map.2 hordered)

theorem importedBy_perm :
    (importMap corpus styles statsLimit).importedBy.Perm
      (((importGraph styles corpus.modules).fileCounts.filter fun entry =>
        entry.2 != 0).map fun entry =>
        (entry.1,
          (importGraph styles corpus.modules).importersOf entry.1)) := by
  have hwellFormed := importGraph_wellFormed styles corpus.modules
  refine byPath_perm
    (List.pairwise_map.2 ((hwellFormed.fileCounts_pairwise.filter _).imp ?_))
  intro first second hdifferent hsame
  exact hdifferent (Path.key_eq_of_same hsame)

theorem mem_importedBy {file : Path} {importers : List Path} :
    (file, importers) ∈ (importMap corpus styles statsLimit).importedBy ↔
      .file file ∈ (importGraph styles corpus.modules).nodes ∧
        (∃ source,
          (importGraph styles corpus.modules).Links source (.file file.key)) ∧
        importers = (importGraph styles corpus.modules).importersOf file := by
  have hwellFormed := importGraph_wellFormed styles corpus.modules
  rw [importedBy_perm.mem_iff, ← and_assoc, ← hwellFormed.mem_fileCounts]
  simp only [List.mem_map, List.mem_filter, bne_iff_ne, Prod.mk.injEq]
  constructor
  · rintro ⟨⟨path, count⟩, hcount, rfl, rfl⟩
    exact ⟨⟨count, hcount⟩, rfl⟩
  · rintro ⟨⟨count, hcount⟩, rfl⟩
    exact ⟨(file, count), hcount, rfl, rfl⟩

theorem mem_imports (hordered : corpus.Ordered) {file : Path}
    {records : List ImportRecord} :
    (file, records) ∈ (importMap corpus styles statsLimit).imports ↔
      ∃ module ∈ corpus.modules, module.path = file ∧
        keptImports styles module = records := by
  simp [importMap_imports hordered]

/-- Whether the two directions of an import map agree up to the identity of
files. -/
structure ImportMap.Consistent (map : ImportMap) : Prop where
  forward : ∀ file records, (file, records) ∈ map.imports →
    ∀ record ∈ records, ∀ target,
    record.resolved = some (.file target) →
      ∃ key importers, (key, importers) ∈ map.importedBy ∧
        key.sameFile target = true ∧
        (∃ importer ∈ importers, importer.sameFile file = true) ∧
        ∀ other others, (other, others) ∈ map.importedBy →
          other.sameFile target = true →
          other = key ∧ others = importers
  backward : ∀ key importers, (key, importers) ∈ map.importedBy →
    ∀ importer ∈ importers,
    ∃ file records, (file, records) ∈ map.imports ∧
      file.sameFile importer = true ∧
      ∃ record ∈ records, record.ResolvesTo key
  files : (map.imports.map Prod.fst).Pairwise Path.Before
  keys : (map.importedBy.map Prod.fst).Pairwise Path.Before
  nonempty : ∀ key importers, (key, importers) ∈ map.importedBy → importers ≠ []
  increasing : ∀ key importers, (key, importers) ∈ map.importedBy →
    importers.Pairwise Path.Before
  distinct : ∀ key importers, (key, importers) ∈ map.importedBy →
    importers.Pairwise fun first second => first.sameFile second = false

theorem exists_nodes_of_links {source target : String}
    (h : (importGraph styles corpus.modules).Links (.file source)
      (.file target)) :
    ∃ importer file,
      .file importer ∈ (importGraph styles corpus.modules).nodes ∧
      importer.key = source ∧
      .file file ∈ (importGraph styles corpus.modules).nodes ∧
      file.key = target := by
  obtain ⟨edge, -, hsource, htarget⟩ := h
  obtain ⟨importer, himporter, hsourceKey⟩ :=
    ImportGraph.exists_file_of_keys hsource
  obtain ⟨file, hfile, htargetKey⟩ := ImportGraph.exists_file_of_keys htarget
  exact ⟨importer, file, List.mem_of_getElem? himporter, hsourceKey,
    List.mem_of_getElem? hfile, htargetKey⟩

theorem importMap_forward (hordered : corpus.Ordered) {file target : Path}
    {records : List ImportRecord}
    (hentry : (file, records) ∈ (importMap corpus styles statsLimit).imports)
    {record : ImportRecord} (hrecord : record ∈ records)
    (htarget : record.resolved = some (.file target)) :
    ∃ key importers,
      (key, importers) ∈ (importMap corpus styles statsLimit).importedBy ∧
      key.sameFile target = true ∧
      (∃ importer ∈ importers, importer.sameFile file = true) ∧
      ∀ other others,
        (other, others) ∈ (importMap corpus styles statsLimit).importedBy →
        other.sameFile target = true → other = key ∧ others = importers := by
  have hwellFormed := importGraph_wellFormed styles corpus.modules
  obtain ⟨module, hmember, rfl, rfl⟩ := (mem_imports hordered).1 hentry
  have hlinks :=
    links_importGraph.2 ⟨module, hmember, record, hrecord, target,
      htarget, rfl, rfl⟩
  -- The map lists the paths of the nodes, which need not be written as the
  -- import or its file are.
  obtain ⟨importer, key, himporter, himporterKey, hkey, hkeyKey⟩ :=
    exists_nodes_of_links hlinks
  refine ⟨key, _, mem_importedBy.2 ⟨hkey, ⟨_, by rw [hkeyKey]; exact hlinks⟩,
    rfl⟩, ?_, ⟨importer, ?_, ?_⟩, ?_⟩
  · exact Path.sameFile_iff.2 hkeyKey
  · exact hwellFormed.mem_importersOf.2 ⟨himporter,
      by rw [himporterKey, hkeyKey]; exact hlinks⟩
  · exact Path.sameFile_iff.2 himporterKey
  · intro other others hother hsame
    obtain ⟨hnode, -, rfl⟩ := mem_importedBy.1 hother
    obtain rfl : other = key :=
      Target.file.inj (hwellFormed.eq_of_key hnode hkey (congrArg NodeKey.file
        ((Path.sameFile_iff.1 hsame).trans hkeyKey.symm)))
    exact ⟨rfl, rfl⟩

theorem importMap_backward (hordered : corpus.Ordered) {key importer : Path}
    {importers : List Path}
    (hentry : (key, importers) ∈
      (importMap corpus styles statsLimit).importedBy) (himporter :
      importer ∈ importers) :
    ∃ file records,
      (file, records) ∈ (importMap corpus styles statsLimit).imports ∧
      file.sameFile importer = true ∧
      ∃ record ∈ records, record.ResolvesTo key := by
  obtain ⟨-, -, rfl⟩ := mem_importedBy.1 hentry
  have hlinks :=
    ((importGraph_wellFormed styles corpus.modules).mem_importersOf.1
      himporter).2
  obtain ⟨module, hmember, record, hrecord, path, hpath, hsource, htarget⟩ :=
    links_importGraph.1 hlinks
  refine ⟨_, _, (mem_imports hordered).2 ⟨module, hmember, rfl, rfl⟩, ?_,
    record, hrecord, _, hpath, ?_⟩
  · exact Path.sameFile_iff.2 (NodeKey.file.inj hsource).symm
  · exact Path.sameFile_iff.2 (NodeKey.file.inj htarget).symm

theorem importMap_importers_ne_nil {key : Path} {importers : List Path}
    (hentry : (key, importers) ∈
      (importMap corpus styles statsLimit).importedBy) : importers ≠ [] := by
  obtain ⟨-, ⟨source, hlinks⟩, rfl⟩ := mem_importedBy.1 hentry
  obtain ⟨module, -, record, -, path, -, rfl, -⟩ := links_importGraph.1 hlinks
  obtain ⟨importer, -, himporter, hkey, -⟩ := exists_nodes_of_links hlinks
  exact List.ne_nil_of_mem
    ((importGraph_wellFormed styles corpus.modules).mem_importersOf.2
      ⟨himporter, by rw [hkey]; exact hlinks⟩)

private theorem importMap_importers_distinct {key : Path}
    {importers : List Path}
    (hentry : (key, importers) ∈
      (importMap corpus styles statsLimit).importedBy) :
    importers.Pairwise fun first second => first.sameFile second = false := by
  obtain ⟨-, -, rfl⟩ := mem_importedBy.1 hentry
  have hwellFormed := importGraph_wellFormed styles corpus.modules
  refine List.Pairwise.imp_of_mem ?_
    (ImportGraph.importersOf_pairwise (importGraph styles corpus.modules) key)
  intro first second hfirst hsecond hbefore
  rw [Path.sameFile_eq_false_iff]
  intro hkey
  obtain rfl : first = second := Target.file.inj (hwellFormed.eq_of_key
    (hwellFormed.mem_importersOf.1 hfirst).1
    (hwellFormed.mem_importersOf.1 hsecond).1 (congrArg NodeKey.file hkey))
  exact hbefore.not_before hbefore

/--
In the import map of a corpus in path order both directions agree up to the
identity of files, and every file of the corpus has one entry with its imports
of allowed styles in source order.
-/
theorem importMap_directions_agree (hordered : corpus.Ordered)
    (styles : StyleFilter) (statsLimit : Nat) :
    (importMap corpus styles statsLimit).Consistent ∧
      (importMap corpus styles statsLimit).imports =
        corpus.modules.map fun module =>
          (module.path, module.imports.filter fun record =>
            styles.allows record.style) := by
  refine ⟨?_, importMap_imports hordered⟩
  constructor
  case forward =>
    exact fun _ _ hentry _ hrecord _ htarget =>
      importMap_forward hordered hentry hrecord htarget
  case backward =>
    exact fun _ _ hentry _ himporter =>
      importMap_backward hordered hentry himporter
  case files => exact List.pairwise_map.2 (byPath_ordered _)
  case keys => exact List.pairwise_map.2 (byPath_ordered _)
  case nonempty => exact fun _ _ hentry => importMap_importers_ne_nil hentry
  case increasing =>
    intro key importers hentry
    obtain ⟨-, -, rfl⟩ := mem_importedBy.1 hentry
    exact ImportGraph.importersOf_pairwise _ key
  case distinct => exact fun _ _ hentry => importMap_importers_distinct hentry

theorem user_listed_under_hub :
    ∃ key importers,
      (key, importers) ∈
        (importMap forkCorpus {} defaultStatsLimit).importedBy ∧
      key.sameFile ⟨"/hub.ts"⟩ = true ∧
      ∃ importer ∈ importers, importer.sameFile ⟨"/user.ts"⟩ = true := by
  obtain ⟨user, huser, hpath, record, hrecord, htarget⟩ :
      ∃ user ∈ forkCorpus.modules, user.path = ⟨"/user.ts"⟩ ∧
        ∃ record ∈ user.imports.filter
          (fun record => StyleFilter.allows {} record.style),
          record.resolved = some (.file ⟨"/hub.ts"⟩) := by
    decide +kernel
  obtain ⟨hconsistent, himports⟩ :=
    importMap_directions_agree forkCorpus_loaded.ordered {} defaultStatsLimit
  have hentry : (user.path, user.imports.filter fun record =>
      StyleFilter.allows {} record.style) ∈
      (importMap forkCorpus {} defaultStatsLimit).imports := by
    rw [himports]
    exact List.mem_map.2 ⟨user, huser, rfl⟩
  obtain ⟨key, importers, hlisted, hkey, himporter, -⟩ :=
    hconsistent.forward _ _ hentry record hrecord _ htarget
  rw [hpath] at himporter
  exact ⟨key, importers, hlisted, hkey, himporter⟩

end ImportAtlas
