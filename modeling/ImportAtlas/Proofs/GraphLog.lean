import ImportAtlas.Proofs.GraphLinks
import ImportAtlas.Proofs.KeyedList
import Mathlib.Data.List.TakeWhile

/-!
# Import graphs and logs of calls

An import graph is the outcome of calls that mention files and packages.  Its
nodes are the first mentions of the log, its edges are the imports of the log
with keys replaced by numbers, and what it answers about a path can be read off
the log.
-/

namespace ImportAtlas

structure LoggedImport where
  source : Path
  target : Target
  style : ImportStyle
  line : Nat
  deriving DecidableEq, Repr

inductive GraphCall where
  | addFile (path : Path)
  | addModule (node : Target)
  | addImport (entry : LoggedImport)
  deriving DecidableEq, Repr

namespace GraphCall

def apply (graph : ImportGraph) : GraphCall → ImportGraph
  | addFile path => (graph.addFile path).1
  | addModule node => (graph.addModule node).1
  | addImport entry =>
    graph.addImport entry.source entry.target entry.style entry.line

def mentioned : GraphCall → List Target
  | addFile path => [.file path]
  | addModule node => [node]
  | addImport entry => [.file entry.source, entry.target]

def logged? : GraphCall → Option LoggedImport
  | addImport entry => some entry
  | _ => none

end GraphCall

abbrev GraphLog := List GraphCall

def GraphLog.mentions (log : GraphLog) : List Target :=
  log.flatMap GraphCall.mentioned

def GraphLog.imports (log : GraphLog) : List LoggedImport :=
  log.filterMap GraphCall.logged?

def GraphLog.Imports (log : GraphLog) (source target : NodeKey) : Prop :=
  ∃ entry ∈ log.imports, source = .file entry.source.key ∧
    target = .of entry.target

def GraphLog.graph (log : GraphLog) : ImportGraph :=
  log.foldl GraphCall.apply ImportGraph.empty

/-! ## First mentions -/

def firstMentions : List Target → List Target
  | [] => []
  | node :: rest =>
    node :: (firstMentions rest).filter fun other =>
      NodeKey.of other ≠ NodeKey.of node

def firstNumber (mentions : List Target) (key : NodeKey) : Nat :=
  ((mentions.takeWhile fun node => NodeKey.of node ≠ key).map
    NodeKey.of).toFinset.card

/-- A node in the spelling of its first mention. -/
def firstSpelling (mentions : List Target) (node : Target) : Target :=
  (mentions.find? fun other => NodeKey.of other = NodeKey.of node).getD node

section FirstMentions

variable {mentions : List Target} {node : Target} {key : NodeKey}

theorem firstMentions_eq (mentions : List Target) :
    firstMentions mentions = firstBy NodeKey.of mentions := by
  induction mentions with
  | nil => rfl
  | cons first rest ih => rw [firstMentions, firstBy, ih]

theorem mem_keys_firstMentions :
    key ∈ (firstMentions mentions).map NodeKey.of ↔
      key ∈ mentions.map NodeKey.of := by
  rw [firstMentions_eq]
  exact mem_keys_firstBy

private theorem nodup_keys_firstMentions (mentions : List Target) :
    ((firstMentions mentions).map NodeKey.of).Nodup := by
  rw [firstMentions_eq]
  exact nodup_keys_firstBy NodeKey.of mentions

theorem length_firstMentions (mentions : List Target) :
    (firstMentions mentions).length =
      (mentions.map NodeKey.of).toFinset.card := by
  rw [firstMentions_eq, length_firstBy]

private theorem find?_firstMentions (mentions : List Target) (key : NodeKey) :
    ((firstMentions mentions).find? fun other => NodeKey.of other = key) =
      mentions.find? fun other => NodeKey.of other = key := by
  rw [firstMentions_eq, find?_firstBy]

private theorem takeWhile_firstMentions (mentions : List Target)
    (key : NodeKey) :
    ((firstMentions mentions).takeWhile fun other => NodeKey.of other ≠ key) =
      firstMentions (mentions.takeWhile fun other =>
        NodeKey.of other ≠ key) := by
  induction mentions with
  | nil => rfl
  | cons first rest ih =>
      by_cases hfirst : NodeKey.of first = key
      · simp [firstMentions, hfirst]
      · rw [firstMentions, List.takeWhile_cons_of_pos (by simpa using hfirst),
          List.takeWhile_cons_of_pos (by simpa using hfirst), firstMentions,
          ← ih, List.takeWhile_filter]
        congr 3
        funext other
        by_cases hother : NodeKey.of other = NodeKey.of first <;>
          simp [hother, hfirst]

theorem findIdx_firstMentions (mentions : List Target) (key : NodeKey) :
    (firstMentions mentions).findIdx (fun other => NodeKey.of other = key) =
      firstNumber mentions key := by
  rw [firstNumber, ← length_firstMentions, ← takeWhile_firstMentions,
    List.takeWhile_eq_take_findIdx_not, List.length_take]
  simp only [ne_eq, decide_not, Bool.not_not]
  exact (Nat.min_eq_left List.findIdx_le_length).symm

theorem getElem?_firstNumber (mentions : List Target) (key : NodeKey) :
    (firstMentions mentions)[firstNumber mentions key]? =
      mentions.find? fun other => NodeKey.of other = key := by
  rw [← findIdx_firstMentions, ← List.find?_eq_getElem?_findIdx,
    find?_firstMentions]

theorem find?_key_of_mem (h : key ∈ mentions.map NodeKey.of) :
    ∃ node, (mentions.find? fun other => NodeKey.of other = key) = some node ∧
      NodeKey.of node = key := by
  obtain ⟨other, hother, hkey⟩ := List.mem_map.1 h
  have hfound : (mentions.find? fun other => NodeKey.of other = key).isSome :=
    List.find?_isSome.2 ⟨other, hother, by simpa using hkey⟩
  obtain ⟨node, hnode⟩ := Option.isSome_iff_exists.1 hfound
  exact ⟨node, hnode, by simpa using List.find?_some hnode⟩

theorem firstNumber_inj {other : NodeKey} (hkey : key ∈ mentions.map NodeKey.of)
    (hother : other ∈ mentions.map NodeKey.of) :
    firstNumber mentions key = firstNumber mentions other ↔ key = other := by
  refine ⟨fun h => ?_, fun h => h ▸ rfl⟩
  obtain ⟨node, hnode, rfl⟩ := find?_key_of_mem hkey
  obtain ⟨node', hnode', rfl⟩ := find?_key_of_mem hother
  rw [← getElem?_firstNumber, h, getElem?_firstNumber, hnode',
    Option.some.injEq] at hnode
  rw [hnode]

theorem mem_firstMentions :
    node ∈ firstMentions mentions ↔
      (mentions.find? fun other => NodeKey.of other = NodeKey.of node) =
        some node := by
  rw [firstMentions_eq]
  exact mem_firstBy

theorem mem_of_mem_firstMentions (h : node ∈ firstMentions mentions) :
    node ∈ mentions :=
  List.mem_of_find?_eq_some (mem_firstMentions.1 h)

theorem firstMentions_concat (mentions : List Target) (node : Target) :
    firstMentions (mentions ++ [node]) =
      if NodeKey.of node ∈ mentions.map NodeKey.of then firstMentions mentions
      else firstMentions mentions ++ [node] := by
  simp only [firstMentions_eq]
  exact firstBy_concat NodeKey.of mentions node

theorem firstMentions_prefix (mentions more : List Target) :
    firstMentions mentions <+: firstMentions (mentions ++ more) := by
  induction more using List.reverseRecOn with
  | nil => simp
  | append_singleton more node ih =>
      rw [← List.append_assoc, firstMentions_concat]
      split
      · exact ih
      · exact ih.trans (List.prefix_append _ _)

theorem firstNumber_append (more : List Target)
    (h : key ∈ mentions.map NodeKey.of) :
    firstNumber (mentions ++ more) key = firstNumber mentions key := by
  obtain ⟨node, hnode, rfl⟩ := List.mem_map.1 h
  have hstop : (mentions.takeWhile fun other =>
      NodeKey.of other ≠ NodeKey.of node).length ≠ mentions.length := by
    intro hlength
    have hbegin : (mentions.takeWhile fun other =>
        NodeKey.of other ≠ NodeKey.of node) <+: mentions :=
      List.takeWhile_prefix _
    have := List.mem_takeWhile_imp (hbegin.eq_of_length hlength ▸ hnode)
    simp at this
  rw [firstNumber, List.takeWhile_append, if_neg hstop, firstNumber]

theorem firstNumber_concat (mentions : List Target) (node : Target) :
    firstNumber (mentions ++ [node]) (.of node) =
      firstNumber mentions (.of node) := by
  by_cases h : NodeKey.of node ∈ mentions.map NodeKey.of
  · exact firstNumber_append [node] h
  · have hall : (mentions.takeWhile fun other =>
        NodeKey.of other ≠ NodeKey.of node) = mentions := by
      refine List.takeWhile_eq_self_iff.2 fun other hother => ?_
      simp only [ne_eq, decide_not, Bool.not_eq_true', decide_eq_false_iff_not]
      exact fun hkey => h (List.mem_map.2 ⟨other, hother, hkey⟩)
    rw [firstNumber, List.takeWhile_append, hall, firstNumber, hall]
    simp

private theorem firstNumber_of_not_mem (h : key ∉ mentions.map NodeKey.of) :
    firstNumber mentions key = (firstMentions mentions).length := by
  rw [← findIdx_firstMentions, List.findIdx_eq_length_of_false]
  intro node hnode
  rw [decide_eq_false_iff_not]
  rintro rfl
  exact h (mem_keys_firstMentions.1 (List.mem_map.2 ⟨node, hnode, rfl⟩))

end FirstMentions

/-! ## Graphs whose nodes are first mentions -/

def LoggedImport.edge (mentions : List Target) (entry : LoggedImport) :
    ImportEdge :=
  ⟨firstNumber mentions (.file entry.source.key),
    firstNumber mentions (.of entry.target), entry.style, entry.line⟩

namespace ImportGraph

variable {mentions : List Target} {edges : List ImportEdge}

private theorem keyIndex?_eq_findIdx? (key : NodeKey) (nodes : List Target) :
    keyIndex? key nodes = nodes.findIdx? fun node => NodeKey.of node = key := by
  induction nodes with
  | nil => rfl
  | cons node nodes ih => simp [keyIndex?, List.findIdx?_cons, ih]

theorem index?_firstMentions (node : Target) :
    index? ⟨firstMentions mentions, edges⟩ node =
      if NodeKey.of node ∈ mentions.map NodeKey.of then
        some (firstNumber mentions (.of node)) else none := by
  rw [index?, keyIndex?_eq_findIdx?, ← findIdx_firstMentions]
  split
  · rename_i h
    obtain ⟨other, hother, hkey⟩ := List.mem_map.1 (mem_keys_firstMentions.2 h)
    exact List.findIdx?_eq_some_of_exists ⟨other, hother, by simpa using hkey⟩
  · rename_i h
    refine List.findIdx?_eq_none_iff.2 fun other hother => ?_
    rw [decide_eq_false_iff_not]
    exact fun hkey =>
      h (mem_keys_firstMentions.1 (List.mem_map.2 ⟨other, hother, hkey⟩))

theorem addModule_firstMentions (node : Target) :
    addModule ⟨firstMentions mentions, edges⟩ node =
      (⟨firstMentions (mentions ++ [node]), edges⟩,
        firstNumber mentions (.of node)) := by
  rw [addModule, index?_firstMentions, firstMentions_concat]
  by_cases h : NodeKey.of node ∈ mentions.map NodeKey.of
  · simp only [if_pos h]
  · simp only [if_neg h, firstNumber_of_not_mem h]

private theorem addImport_firstMentions (entry : LoggedImport) :
    addImport ⟨firstMentions mentions, edges⟩ entry.source entry.target
      entry.style entry.line =
      ⟨firstMentions (mentions ++ [.file entry.source, entry.target]),
        edges ++
          [entry.edge (mentions ++ [.file entry.source, entry.target])]⟩ := by
  have hsplit : mentions ++ [.file entry.source, entry.target] =
      mentions ++ [.file entry.source] ++ [entry.target] := by simp
  have hsource : firstNumber (mentions ++ [.file entry.source] ++
      [entry.target]) (.file entry.source.key) =
      firstNumber mentions (.of (.file entry.source)) := by
    rw [← firstNumber_concat]
    exact firstNumber_append _ (by simp [NodeKey.of])
  rw [addImport, addFile, addModule_firstMentions]
  simp only [addModule_firstMentions, LoggedImport.edge, hsplit, hsource,
    firstNumber_concat]

end ImportGraph

/-! ## The graph of a log -/

namespace GraphLog

variable {log : GraphLog} {entry : LoggedImport}

@[simp] theorem mentions_append (log more : GraphLog) :
    mentions (log ++ more) = log.mentions ++ more.mentions :=
  List.flatMap_append

@[simp] theorem imports_append (log more : GraphLog) :
    imports (log ++ more) = log.imports ++ more.imports :=
  List.filterMap_append

theorem keys_mem_of_mem_imports (h : entry ∈ log.imports) :
    .file entry.source.key ∈ log.mentions.map NodeKey.of ∧
      NodeKey.of entry.target ∈ log.mentions.map NodeKey.of := by
  obtain ⟨call, hcall, hentry⟩ := List.mem_filterMap.1 h
  cases call with
  | addFile path => contradiction
  | addModule node => contradiction
  | addImport other =>
      obtain rfl := Option.some.inj hentry
      have hmentioned : ∀ node ∈ [.file other.source, other.target],
          NodeKey.of node ∈ log.mentions.map NodeKey.of :=
        fun node hnode =>
          List.mem_map_of_mem (List.mem_flatMap.2 ⟨_, hcall, hnode⟩)
      exact ⟨hmentioned (.file other.source) (by simp),
        hmentioned other.target (by simp)⟩

private theorem map_edge_append (log : GraphLog) (more : List Target) :
    log.imports.map (LoggedImport.edge (log.mentions ++ more)) =
      log.imports.map (LoggedImport.edge log.mentions) := by
  refine List.map_congr_left fun entry hentry => ?_
  obtain ⟨hsource, htarget⟩ := keys_mem_of_mem_imports hentry
  rw [LoggedImport.edge, firstNumber_append more hsource,
    firstNumber_append more htarget, LoggedImport.edge]

/-- The graph of a log is its first mentions with its imports between them. -/
theorem graph_eq (log : GraphLog) :
    log.graph = ⟨firstMentions log.mentions,
      log.imports.map (LoggedImport.edge log.mentions)⟩ := by
  induction log using List.reverseRecOn with
  | nil => rfl
  | append_singleton log call ih =>
      have hstep : graph (log ++ [call]) = call.apply (graph log) := by
        simp [graph]
      rw [hstep, ih, mentions_append, imports_append, List.map_append,
        map_edge_append]
      cases call with
      | addFile path =>
          simp [GraphCall.apply, ImportGraph.addFile,
            ImportGraph.addModule_firstMentions, mentions, imports,
            GraphCall.mentioned, GraphCall.logged?]
      | addModule node =>
          simp [GraphCall.apply, ImportGraph.addModule_firstMentions, mentions,
            imports, GraphCall.mentioned, GraphCall.logged?]
      | addImport entry =>
          simp [GraphCall.apply, ImportGraph.addImport_firstMentions, mentions,
            imports, GraphCall.mentioned, GraphCall.logged?]

theorem keys_graph (log : GraphLog) :
    log.graph.keys = (firstMentions log.mentions).map NodeKey.of := by
  rw [graph_eq, ImportGraph.keys]

theorem keys_getElem?_firstNumber {key : NodeKey}
    (h : key ∈ log.mentions.map NodeKey.of) :
    log.graph.keys[firstNumber log.mentions key]? = some key := by
  obtain ⟨node, hnode, rfl⟩ := find?_key_of_mem h
  rw [keys_graph, List.getElem?_map, getElem?_firstNumber, hnode,
    Option.map_some]

theorem graph_wellFormed (log : GraphLog) : log.graph.WellFormed := by
  constructor
  · rw [keys_graph]
    exact nodup_keys_firstMentions log.mentions
  · intro edge hedge
    rw [graph_eq] at hedge
    obtain ⟨entry, hentry, rfl⟩ := List.mem_map.1 hedge
    obtain ⟨hsource, htarget⟩ := keys_mem_of_mem_imports hentry
    exact ⟨(List.getElem?_eq_some_iff.1 (keys_getElem?_firstNumber hsource)).1,
      (List.getElem?_eq_some_iff.1 (keys_getElem?_firstNumber htarget)).1⟩

theorem links_graph {source target : NodeKey} :
    log.graph.Links source target ↔ log.Imports source target := by
  have hedges : log.graph.edges =
    log.imports.map (LoggedImport.edge log.mentions) := by rw [graph_eq]
  rw [ImportGraph.Links, hedges, Imports]
  simp only [List.mem_map, exists_exists_and_eq_and]
  refine exists_congr fun entry => and_congr_right fun hentry => ?_
  obtain ⟨hsource, htarget⟩ := keys_mem_of_mem_imports hentry
  rw [LoggedImport.edge, keys_getElem?_firstNumber hsource,
    keys_getElem?_firstNumber htarget, Option.some.injEq, Option.some.injEq]
  exact and_congr eq_comm eq_comm

end GraphLog

end ImportAtlas
