import ImportAtlas.Proofs.GraphLog

/-!
# Answers of an import graph

Whatever is asked of an import graph has an answer in the log of the calls that
built it.  Numbers of nodes take part in no answer but that of the adding
calls: between the graph and its log stands the number of a first mention,
which tells mentioned keys apart.
-/

namespace ImportAtlas

theorem Target.isFile_iff {target : Target} {path : Path} :
    target.isFile path = true ↔ NodeKey.of target = .file path.key := by
  cases target with
  | file found => simp [isFile, NodeKey.of, Path.sameFile_iff]
  | package name => simp [isFile, NodeKey.of]

theorem firstSpelling_eq {mentions : List Target} {node : Target}
    (h : NodeKey.of node ∈ mentions.map NodeKey.of) :
    (mentions.find? fun other => NodeKey.of other = NodeKey.of node) =
      some (firstSpelling mentions node) := by
  obtain ⟨other, hother, -⟩ := find?_key_of_mem h
  rw [firstSpelling, hother, Option.getD_some]

theorem firstNumber_beq {mentions : List Target} {key other : NodeKey}
    (hkey : key ∈ mentions.map NodeKey.of)
    (hother : other ∈ mentions.map NodeKey.of) :
    (firstNumber mentions key == firstNumber mentions other) =
      decide (key = other) := by
  rw [Bool.eq_iff_iff, beq_iff_eq, decide_eq_true_eq,
    firstNumber_inj hkey hother]

namespace GraphLog

variable {log : GraphLog} {key : NodeKey} {path : Path}

theorem index?_graph (log : GraphLog) (node : Target) :
    log.graph.index? node =
      if NodeKey.of node ∈ log.mentions.map NodeKey.of then
        some (firstNumber log.mentions (.of node)) else none := by
  rw [graph_eq, ImportGraph.index?_firstMentions]

theorem addModule_graph (log : GraphLog) (node : Target) :
    (log.graph.addModule node).2 = firstNumber log.mentions (.of node) := by
  rw [graph_eq, ImportGraph.addModule_firstMentions]

private theorem index?_stable {node : Target} {index : Nat}
    (h : log.graph.index? node = some index) (more : GraphLog) :
    (graph (log ++ more)).index? node = some index := by
  rw [index?_graph] at h ⊢
  split at h
  · rename_i hmentioned
    rw [mentions_append, List.map_append,
      if_pos (List.mem_append_left _ hmentioned),
      firstNumber_append more.mentions hmentioned]
    exact h
  · contradiction

private theorem nodes_prefix_append (log more : GraphLog) :
    log.graph.nodes <+: (graph (log ++ more)).nodes := by
  rw [graph_eq, graph_eq, mentions_append]
  exact firstMentions_prefix log.mentions more.mentions

private theorem containsFile_graph :
    log.graph.containsFile path = true ↔
      ∃ other, .file other ∈ log.mentions ∧ other.sameFile path = true := by
  have hmentioned : log.graph.containsFile path = true ↔
      NodeKey.file path.key ∈ log.mentions.map NodeKey.of := by
    rw [ImportGraph.containsFile, index?_graph, NodeKey.of]
    split <;> simp_all
  rw [hmentioned, List.mem_map]
  constructor
  · rintro ⟨node, hnode, hkey⟩
    cases node with
    | file other =>
      exact ⟨other, hnode, Path.sameFile_iff.2 (NodeKey.file.inj hkey)⟩
    | package name => simp [NodeKey.of] at hkey
  · rintro ⟨other, hother, hsame⟩
    exact ⟨.file other, hother,
      congrArg NodeKey.file (Path.sameFile_iff.1 hsame)⟩

/-! ## Imports -/

private theorem successors_graph (hkey : key ∈ log.mentions.map NodeKey.of) :
    log.graph.successors (firstNumber log.mentions key) =
      (log.imports.filter fun entry => NodeKey.file entry.source.key = key).map
        fun entry => firstNumber log.mentions (.of entry.target) := by
  rw [graph_eq, ImportGraph.successors, List.filter_map, List.map_map]
  congr 1
  refine List.filter_congr fun entry hentry => ?_
  obtain ⟨hsource, -⟩ := keys_mem_of_mem_imports hentry
  exact firstNumber_beq hsource hkey

private theorem predecessors_graph (hkey : key ∈ log.mentions.map NodeKey.of) :
    log.graph.predecessors (firstNumber log.mentions key) =
      (log.imports.filter fun entry => NodeKey.of entry.target = key).map
        fun entry => firstNumber log.mentions (.file entry.source.key) := by
  rw [graph_eq, ImportGraph.predecessors, List.filter_map, List.map_map]
  congr 1
  refine List.filter_congr fun entry hentry => ?_
  obtain ⟨-, htarget⟩ := keys_mem_of_mem_imports hentry
  exact firstNumber_beq htarget hkey

private theorem distinct_numbers {mentions nodes : List Target}
    (h : ∀ node ∈ nodes, NodeKey.of node ∈ mentions.map NodeKey.of) :
    ImportGraph.distinct (nodes.map fun node =>
      firstNumber mentions (.of node)) =
      (firstMentions nodes).map fun node =>
        firstNumber mentions (.of node) := by
  induction nodes with
  | nil => rfl
  | cons first rest ih =>
      have hfirst := h first List.mem_cons_self
      have hrest : ∀ node ∈ rest, NodeKey.of node ∈ mentions.map NodeKey.of :=
        fun node hnode => h node (List.mem_cons_of_mem first hnode)
      rw [List.map_cons, ImportGraph.distinct, ih hrest, firstMentions,
        List.map_cons, List.filter_map]
      congr 2
      refine List.filter_congr fun node hnode => ?_
      have hnumber :=
        firstNumber_beq (hrest node (mem_of_mem_firstMentions hnode)) hfirst
      simp [bne, hnumber]

def importsFrom (log : GraphLog) (path : Path) : List LoggedImport :=
  log.imports.filter fun entry => entry.source.sameFile path

def countOf (log : GraphLog) (path : Path) : Nat :=
  log.imports.countP fun entry => entry.target.isFile path

theorem importsFrom_eq (log : GraphLog) (path : Path) :
    log.importsFrom path = log.imports.filter fun entry =>
      NodeKey.file entry.source.key = .file path.key := by
  refine List.filter_congr fun entry _ => ?_
  rw [Bool.eq_iff_iff, Path.sameFile_iff, decide_eq_true_eq, NodeKey.file.injEq]

private theorem importsFrom_of_not_mem
    (h : NodeKey.file path.key ∉ log.mentions.map NodeKey.of) :
    log.importsFrom path = [] := by
  rw [importsFrom_eq, List.filter_eq_nil_iff]
  intro entry hentry hsource
  obtain ⟨hmentioned, -⟩ := keys_mem_of_mem_imports hentry
  rw [of_decide_eq_true hsource] at hmentioned
  exact h hmentioned

private theorem filterMap_nodes {nodes : List Target}
    (h : ∀ node ∈ nodes, NodeKey.of node ∈ log.mentions.map NodeKey.of) :
    ((nodes.map fun node => firstNumber log.mentions (.of node)).filterMap
      fun index => log.graph.nodes[index]?) =
      nodes.map (firstSpelling log.mentions) := by
  rw [graph_eq, List.filterMap_map]
  calc
    nodes.filterMap _ =
        nodes.filterMap (some ∘ firstSpelling log.mentions) := by
      refine List.filterMap_congr fun node hnode => ?_
      rw [Function.comp_apply, getElem?_firstNumber,
        firstSpelling_eq (h node hnode)]
      rfl
    _ = nodes.map (firstSpelling log.mentions) := by rw [List.filterMap_eq_map]

private theorem importsOf_graph (log : GraphLog) (path : Path) :
    log.graph.importsOf path =
      (firstMentions ((log.importsFrom path).map LoggedImport.target)).map
        (firstSpelling log.mentions) := by
  rw [ImportGraph.importsOf, index?_graph, NodeKey.of]
  by_cases hmentioned : NodeKey.file path.key ∈ log.mentions.map NodeKey.of
  · have htargets : ∀ node ∈ (log.importsFrom path).map LoggedImport.target,
        NodeKey.of node ∈ log.mentions.map NodeKey.of := by
      intro node hnode
      obtain ⟨entry, hentry, rfl⟩ := List.mem_map.1 hnode
      exact (keys_mem_of_mem_imports (List.mem_of_mem_filter hentry)).2
    have hnumbers := distinct_numbers htargets
    rw [List.map_map, Function.comp_def] at hnumbers
    simp only [if_pos hmentioned, successors_graph hmentioned, ← importsFrom_eq]
    rw [hnumbers]
    exact filterMap_nodes fun node hnode =>
      htargets node (mem_of_mem_firstMentions hnode)
  · simp only [if_neg hmentioned, importsFrom_of_not_mem hmentioned]
    rfl

/-! ## Importers -/

private theorem mem_importersOf_graph {importer : Path} :
    importer ∈ log.graph.importersOf path ↔
      ∃ entry ∈ log.imports, entry.target.isFile path = true ∧
        firstSpelling log.mentions (.file entry.source) = .file importer := by
  have hnodes : log.graph.nodes = firstMentions log.mentions := by rw [graph_eq]
  rw [(graph_wellFormed log).mem_importersOf, hnodes, links_graph,
    mem_firstMentions]
  constructor
  · rintro ⟨hfirst, entry, hentry, hsource, htarget⟩
    refine ⟨entry, hentry, Target.isFile_iff.2 htarget.symm, ?_⟩
    rw [NodeKey.of, hsource] at hfirst
    rw [firstSpelling, NodeKey.of, hfirst, Option.getD_some]
  · rintro ⟨entry, hentry, htarget, hspelling⟩
    have hfound :=
      @firstSpelling_eq log.mentions (.file entry.source)
        (keys_mem_of_mem_imports hentry).1
    rw [hspelling] at hfound
    have hkey : NodeKey.of (.file importer) = .of (.file entry.source) := by
      simpa using List.find?_some hfound
    refine ⟨by rw [hkey]; exact hfound, entry, hentry, hkey,
      (Target.isFile_iff.1 htarget).symm⟩

theorem inCount_graph
    (hkey : NodeKey.file path.key ∈ log.mentions.map NodeKey.of) :
    log.graph.inCount (firstNumber log.mentions (.file path.key)) =
      log.countOf path := by
  rw [ImportGraph.inCount, predecessors_graph hkey, List.length_map,
    ← List.countP_eq_length_filter, countOf]
  refine List.countP_congr fun entry _ => ?_
  rw [decide_eq_true_eq, Target.isFile_iff]

private theorem importCount_graph (log : GraphLog) (path : Path) :
    log.graph.importCount path = log.countOf path := by
  rw [ImportGraph.importCount, index?_graph, NodeKey.of]
  by_cases hmentioned : NodeKey.file path.key ∈ log.mentions.map NodeKey.of
  · simp only [if_pos hmentioned]
    exact inCount_graph hmentioned
  · simp only [if_neg hmentioned]
    symm
    rw [countOf, List.countP_eq_zero]
    intro entry hentry hfile
    obtain ⟨-, htarget⟩ := keys_mem_of_mem_imports hentry
    rw [Target.isFile_iff.1 hfile] at htarget
    exact hmentioned htarget

private theorem filterMap_range_getElem? {α β : Type} (f : α → Option β)
    (items : List α) :
    ((List.range items.length).filterMap fun index => items[index]?.bind f) =
      items.filterMap f := by
  induction items with
  | nil => rfl
  | cons item items ih =>
      rw [List.length_cons, List.range_succ_eq_map, List.filterMap_cons,
        List.filterMap_cons, List.filterMap_map, ← ih]
      rfl

theorem fileCounts_graph (log : GraphLog) :
    log.graph.fileCounts =
      ((firstMentions log.mentions).filterMap Target.file?).map fun path =>
        (path, log.countOf path) := by
  have hnodes : log.graph.nodes = firstMentions log.mentions := by rw [graph_eq]
  have hentry (index : Nat) :
      ((log.graph.filePath? index).map fun path =>
        (path, log.graph.inCount index)) =
        log.graph.nodes[index]?.bind fun node =>
          node.file?.map fun path => (path, log.countOf path) := by
    cases hnode : log.graph.nodes[index]? with
    | none => simp [ImportGraph.filePath?, hnode]
    | some node =>
        cases node with
        | package name => simp [ImportGraph.filePath?, hnode, Target.file?]
        | file path =>
            have hkey := ImportGraph.keys_of_file hnode
            have hmentioned :
                NodeKey.file path.key ∈ log.mentions.map NodeKey.of := by
              rw [keys_graph] at hkey
              exact mem_keys_firstMentions.1 (List.mem_of_getElem? hkey)
            obtain rfl :=
              (graph_wellFormed log).index_unique hkey
                (keys_getElem?_firstNumber hmentioned)
            simp [ImportGraph.filePath?, hnode, Target.file?,
              inCount_graph hmentioned]
  rw [ImportGraph.fileCounts]
  simp only [hentry, filterMap_range_getElem?]
  rw [hnodes, List.map_filterMap]

/-! ## All answers -/

/-- What the calls of a log make a graph answer. -/
structure Determines (log : GraphLog) (graph : ImportGraph) : Prop where
  nodes : graph.nodes = firstMentions log.mentions
  nodeCount : graph.nodes.length = (log.mentions.map NodeKey.of).toFinset.card
  edgeCount : graph.edges.length = log.imports.length
  fileNumber :
    ∀ path, (graph.addFile path).2 = firstNumber log.mentions (.file path.key)
  moduleNumber :
    ∀ node, (graph.addModule node).2 = firstNumber log.mentions (.of node)
  containsFile : ∀ path, graph.containsFile path = true ↔
    ∃ other, .file other ∈ log.mentions ∧ other.sameFile path = true
  importsOf : ∀ path, graph.importsOf path =
    (firstMentions ((log.importsFrom path).map LoggedImport.target)).map
      (firstSpelling log.mentions)
  importersOf : ∀ path, (graph.importersOf path).Pairwise Path.Before ∧
    ∀ importer, importer ∈ graph.importersOf path ↔
      ∃ entry ∈ log.imports, entry.target.isFile path = true ∧
      firstSpelling log.mentions (.file entry.source) = .file importer
  importCount : ∀ path, graph.importCount path = log.countOf path
  fileCounts : graph.fileCounts =
    ((firstMentions log.mentions).filterMap Target.file?).map fun path =>
      (path, log.countOf path)

/-- A log determines the answers of its graph, and later calls leave nodes and
numbers as they are. -/
theorem graph_refines_log (log : GraphLog) :
    log.Determines log.graph ∧
      ∀ more : GraphLog, log.graph.nodes <+: (graph (log ++ more)).nodes ∧
        ∀ node index, log.graph.index? node = some index →
          (graph (log ++ more)).index? node = some index := by
  refine ⟨?_, fun more =>
    ⟨nodes_prefix_append log more, fun node index h => index?_stable h more⟩⟩
  constructor
  case nodes => rw [graph_eq]
  case nodeCount => rw [graph_eq]; exact length_firstMentions log.mentions
  case edgeCount => rw [graph_eq]; exact List.length_map _
  case fileNumber => exact fun path => addModule_graph log (.file path)
  case moduleNumber => exact addModule_graph log
  case containsFile => exact fun path => containsFile_graph
  case importsOf => exact importsOf_graph log
  case importersOf =>
    exact fun path =>
      ⟨ImportGraph.importersOf_pairwise log.graph path, fun _ =>
        mem_importersOf_graph⟩
  case importCount => exact importCount_graph log
  case fileCounts => exact fileCounts_graph log

end GraphLog

end ImportAtlas
