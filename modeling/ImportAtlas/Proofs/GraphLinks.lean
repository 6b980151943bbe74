import ImportAtlas.Graph.Basic
import ImportAtlas.Proofs.FileIdentity
import Mathlib.Data.List.Nodup

/-!
# Links of an import graph

The numbers of the nodes are an inner matter of an import graph.  What it says
is which keys it links: adding a node keeps the links, and adding an import
adds one.  The importers of a file are the file nodes that are linked to it, in
strictly increasing path order.
-/

namespace ImportAtlas.ImportGraph

def keys (graph : ImportGraph) : List NodeKey :=
  graph.nodes.map NodeKey.of

structure WellFormed (graph : ImportGraph) : Prop where
  nodup : graph.keys.Nodup
  edges : ∀ edge ∈ graph.edges, edge.source < graph.keys.length ∧
    edge.target < graph.keys.length

def Links (graph : ImportGraph) (source target : NodeKey) : Prop :=
  ∃ edge ∈ graph.edges, graph.keys[edge.source]? = some source ∧
    graph.keys[edge.target]? = some target

variable {graph later : ImportGraph}

/-! ## Nodes -/

theorem keys_of_keyIndex? {key : NodeKey} {nodes : List Target} {index : Nat}
    (h : keyIndex? key nodes = some index) :
    (nodes.map NodeKey.of)[index]? = some key := by
  induction nodes generalizing index with
  | nil => contradiction
  | cons node nodes ih =>
      rw [keyIndex?] at h
      split at h
      · rename_i hkey
        obtain rfl := Option.some.inj h
        simp [hkey]
      · obtain ⟨before, hbefore, rfl⟩ := Option.map_eq_some_iff.1 h
        simpa using ih hbefore

theorem not_mem_of_keyIndex? {key : NodeKey} {nodes : List Target}
    (h : keyIndex? key nodes = none) :
    key ∉ nodes.map NodeKey.of := by
  induction nodes with
  | nil => simp
  | cons node nodes ih =>
      rw [keyIndex?] at h
      split at h
      · contradiction
      · rename_i hkey
        rw [List.map_cons, List.mem_cons, not_or]
        exact ⟨fun heq => hkey heq.symm, ih (Option.map_eq_none_iff.1 h)⟩

namespace WellFormed

theorem index_unique (h : graph.WellFormed) {key : NodeKey} {first second : Nat}
    (hfirst : graph.keys[first]? = some key)
    (hsecond : graph.keys[second]? = some key) : first = second := by
  obtain ⟨hlength, -⟩ := List.getElem?_eq_some_iff.1 hfirst
  exact (List.getElem?_inj hlength h.nodup).1 (hfirst.trans hsecond.symm)

private theorem index?_eq (h : graph.WellFormed) {node : Target} {index : Nat}
    (hindex : graph.keys[index]? = some (.of node)) :
    graph.index? node = some index := by
  cases hfound : graph.index? node with
  | none =>
    exact absurd (List.mem_of_getElem? hindex) (not_mem_of_keyIndex? hfound)
  | some found => rw [h.index_unique (keys_of_keyIndex? hfound) hindex]

theorem eq_of_key (h : graph.WellFormed) {first second : Target}
    (hfirst : first ∈ graph.nodes) (hsecond : second ∈ graph.nodes)
    (hkey : NodeKey.of first = NodeKey.of second) : first = second :=
  List.inj_on_of_nodup_map h.nodup hfirst hsecond hkey

end WellFormed

theorem exists_file_of_keys {index : Nat} {key : String}
    (h : graph.keys[index]? = some (.file key)) :
    ∃ path, graph.nodes[index]? = some (.file path) ∧ path.key = key := by
  rw [keys, List.getElem?_map] at h
  obtain ⟨node, hnode, hkey⟩ := Option.map_eq_some_iff.1 h
  cases node with
  | file path => exact ⟨path, hnode, by simpa [NodeKey.of] using hkey⟩
  | package name => simp [NodeKey.of] at hkey

/-! ## Growth -/

private theorem keys_getElem?_of_prefix (h : graph.keys <+: later.keys)
    {index : Nat} {key : NodeKey} (hindex : graph.keys[index]? = some key) :
    later.keys[index]? = some key := by
  obtain ⟨hlength, -⟩ := List.getElem?_eq_some_iff.1 hindex
  obtain ⟨added, hadded⟩ := h
  rw [← hadded, List.getElem?_append_left hlength]
  exact hindex

theorem WellFormed.links_iff (h : graph.WellFormed)
    (hnodes : graph.keys <+: later.keys) (hedges : later.edges = graph.edges)
    {source target : NodeKey} :
    later.Links source target ↔ graph.Links source target := by
  obtain ⟨added, hadded⟩ := hnodes
  rw [Links, hedges, Links]
  refine exists_congr fun edge => and_congr_right fun hedge => ?_
  rw [← hadded, List.getElem?_append_left (h.edges edge hedge).1,
    List.getElem?_append_left (h.edges edge hedge).2]

structure Adds (graph later : ImportGraph) (node : Target) (index : Nat) :
    Prop where
  wellFormed : later.WellFormed
  nodes : graph.keys <+: later.keys
  edges : later.edges = graph.edges
  index : later.keys[index]? = some (.of node)

theorem WellFormed.addModule (h : graph.WellFormed) (node : Target) :
    graph.Adds (graph.addModule node).1 node (graph.addModule node).2 := by
  unfold ImportGraph.addModule
  split
  · rename_i index hindex
    exact ⟨h, List.prefix_rfl, rfl, keys_of_keyIndex? hindex⟩
  · rename_i hindex
    have hnew := not_mem_of_keyIndex? hindex
    have hkeys : keys { graph with nodes := graph.nodes ++ [node] } =
        graph.keys ++ [.of node] := by
      simp [keys]
    refine ⟨⟨?_, ?_⟩, ?_, rfl, ?_⟩
    · rw [hkeys, ← List.concat_eq_append]
      exact h.nodup.concat hnew
    · intro edge hedge
      have hrange := h.edges edge hedge
      rw [hkeys, List.length_append]
      omega
    · rw [hkeys]
      exact List.prefix_append _ _
    · rw [hkeys]
      simp [keys]

theorem wellFormed_empty : empty.WellFormed :=
  ⟨List.nodup_nil, by simp [empty]⟩

theorem not_links_empty {source target : NodeKey} :
    ¬empty.Links source target := by
  simp [Links, empty]

private theorem links_addEdge {edge : ImportEdge} {source target : NodeKey} :
    Links { graph with edges := graph.edges ++ [edge] } source target ↔
      graph.Links source target ∨
        graph.keys[edge.source]? = some source ∧
        graph.keys[edge.target]? = some target := by
  simp only [Links, List.mem_append, List.mem_singleton, or_and_right,
    exists_or, exists_eq_left]
  rfl

/-- Whether a graph is well formed and has, beside the links of another one,
exactly the given ones. -/
structure Grows (graph later : ImportGraph) (added : NodeKey → NodeKey → Prop) :
    Prop where
  wellFormed : later.WellFormed
  links : ∀ source target, later.Links source target ↔
    graph.Links source target ∨ added source target

theorem WellFormed.addImport (h : graph.WellFormed) (file : Path)
    (target : Target) (style : ImportStyle) (line : Nat) :
    graph.Grows (graph.addImport file target style line)
      fun source other => source = .file file.key ∧ other = .of target := by
  have hsource := h.addModule (.file file)
  rcases hadded : graph.addModule (.file file) with ⟨withSource, sourceIndex⟩
  rw [hadded] at hsource
  have htarget := hsource.wellFormed.addModule target
  rcases hadded' : withSource.addModule target with ⟨withTarget, targetIndex⟩
  rw [hadded'] at htarget
  dsimp only at hsource htarget
  simp only [ImportGraph.addImport, addFile, hadded, hadded']
  have hsourceIndex := keys_getElem?_of_prefix htarget.nodes hsource.index
  constructor
  · refine ⟨htarget.wellFormed.nodup, ?_⟩
    intro edge hedge
    rcases List.mem_append.1 hedge with hedge | hedge
    · exact htarget.wellFormed.edges edge hedge
    · obtain rfl := List.mem_singleton.1 hedge
      exact ⟨(List.getElem?_eq_some_iff.1 hsourceIndex).1,
        (List.getElem?_eq_some_iff.1 htarget.index).1⟩
  · intro source other
    have hbefore : withTarget.Links source other ↔ graph.Links source other :=
      h.links_iff (hsource.nodes.trans htarget.nodes)
        (htarget.edges.trans hsource.edges)
    rw [links_addEdge, hbefore, hsourceIndex, htarget.index, Option.some.injEq,
      Option.some.injEq]
    exact or_congr_right (and_congr eq_comm eq_comm)

theorem WellFormed.foldl {α : Type} {grow : ImportGraph → α → ImportGraph}
    {added : α → NodeKey → NodeKey → Prop}
    (hgrow : ∀ (graph : ImportGraph) (item : α), graph.WellFormed →
      graph.Grows (grow graph item) (added item))
    (h : graph.WellFormed) (items : List α) :
    graph.Grows (items.foldl grow graph) fun source target =>
      ∃ item ∈ items, added item source target := by
  induction items generalizing graph with
  | nil => exact ⟨h, by simp⟩
  | cons item items ih =>
      have hitem := hgrow graph item h
      have hrest := ih hitem.wellFormed
      refine ⟨hrest.wellFormed, ?_⟩
      intro source target
      rw [List.foldl_cons, hrest.links, hitem.links, or_assoc,
        List.exists_mem_cons_iff]

/-! ## Importers -/

theorem mem_of_mem_dropRepeats {path : Path} {paths : List Path}
    (h : path ∈ dropRepeats paths) : path ∈ paths := by
  fun_induction dropRepeats paths with
  | case1 => exact h
  | case2 => exact h
  | case3 first second rest _ ih =>
      rcases List.mem_cons.1 (ih h) with rfl | hrest
      · exact List.mem_cons_self
      · exact List.mem_cons_of_mem first (List.mem_cons_of_mem second hrest)
  | case4 first second rest _ ih =>
      rcases List.mem_cons.1 h with rfl | h
      · exact List.mem_cons_self
      · exact List.mem_cons_of_mem first (ih h)

private theorem exists_same_mem_dropRepeats (paths : List Path) :
    ∀ path ∈ paths, ∃ kept ∈ dropRepeats paths, kept.same path = true := by
  fun_induction dropRepeats paths with
  | case1 => simp
  | case2 only => simp [Path.same_refl]
  | case3 first second rest hsame ih =>
      intro path hpath
      rcases List.mem_cons.1 hpath with rfl | hpath
      · exact ih path List.mem_cons_self
      · rcases List.mem_cons.1 hpath with rfl | hpath
        · obtain ⟨kept, hkept, hfirst⟩ := ih first List.mem_cons_self
          exact ⟨kept, hkept, Path.same_trans hfirst hsame⟩
        · exact ih path (List.mem_cons_of_mem first hpath)
  | case4 first second rest _ ih =>
      intro path hpath
      rcases List.mem_cons.1 hpath with rfl | hpath
      · exact ⟨path, List.mem_cons_self, Path.same_refl path⟩
      · obtain ⟨kept, hkept, hsame⟩ := ih path hpath
        exact ⟨kept, List.mem_cons_of_mem first hkept, hsame⟩

private theorem dropRepeats_pairwise {paths : List Path}
    (h : paths.Pairwise fun first second => first.le second = true) :
    (dropRepeats paths).Pairwise Path.Before := by
  fun_induction dropRepeats paths with
  | case1 => exact .nil
  | case2 path => exact List.pairwise_singleton _ _
  | case3 first second rest _ ih =>
      exact ih
        (h.sublist
          (List.Sublist.cons_cons first (List.sublist_cons_self second rest)))
  | case4 first second rest hsame ih =>
      obtain ⟨hfirst, hrest⟩ := List.pairwise_cons.1 h
      have hbefore :=
        (Path.le_iff.1 (hfirst second List.mem_cons_self)).resolve_right hsame
      refine List.pairwise_cons.2 ⟨?_, ih hrest⟩
      intro path hpath
      rcases List.mem_cons.1 (mem_of_mem_dropRepeats hpath) with rfl | hpath
      · exact hbefore
      · exact hbefore.trans_le ((List.pairwise_cons.1 hrest).1 path hpath)

theorem importersOf_pairwise (graph : ImportGraph) (path : Path) :
    (graph.importersOf path).Pairwise Path.Before := by
  unfold importersOf
  split
  · exact .nil
  · exact dropRepeats_pairwise (Path.sort_pairwise _)

theorem filePath?_eq_some {index : Nat} {path : Path} :
    graph.filePath? index = some path ↔
      graph.nodes[index]? = some (.file path) := by
  unfold filePath?
  cases graph.nodes[index]? with
  | none => simp
  | some node => cases node <;> simp [Target.file?]

theorem keys_of_file {index : Nat} {path : Path}
    (h : graph.nodes[index]? = some (.file path)) :
    graph.keys[index]? = some (.file path.key) := by
  rw [keys, List.getElem?_map, h]
  rfl

theorem mem_predecessors {index source : Nat} :
    source ∈ graph.predecessors index ↔
      ∃ edge ∈ graph.edges, edge.target = index ∧ edge.source = source := by
  simp [predecessors, and_assoc]

theorem WellFormed.mem_importersOf (h : graph.WellFormed)
    {file importer : Path} :
    importer ∈ graph.importersOf file ↔
      .file importer ∈ graph.nodes ∧ graph.Links (.file importer.key)
      (.file file.key) := by
  constructor
  · intro himporter
    unfold importersOf at himporter
    split at himporter
    · contradiction
    · rename_i index hindex
      obtain ⟨source, hsource, hpath⟩ :=
        List.mem_filterMap.1
          (Path.mem_sort.1 (mem_of_mem_dropRepeats himporter))
      obtain ⟨edge, hedge, rfl, rfl⟩ := mem_predecessors.1 hsource
      rw [filePath?_eq_some] at hpath
      exact ⟨List.mem_of_getElem? hpath, edge, hedge, keys_of_file hpath,
        keys_of_keyIndex? hindex⟩
  · rintro ⟨hnode, edge, hedge, hsource, htarget⟩
    obtain ⟨path, hpath, hkey⟩ := exists_file_of_keys hsource
    obtain rfl : path = importer := Target.file.inj
      (h.eq_of_key (List.mem_of_getElem? hpath) hnode
        (congrArg NodeKey.file hkey))
    have hlisted : path ∈ (graph.predecessors edge.target).filterMap
        graph.filePath? :=
      List.mem_filterMap.2 ⟨edge.source,
        mem_predecessors.2 ⟨edge, hedge, rfl, rfl⟩, filePath?_eq_some.2 hpath⟩
    obtain ⟨kept, hkept, hsame⟩ :=
      exists_same_mem_dropRepeats _ path (Path.mem_sort.2 hlisted)
    -- A path that repeats another one is the path of the same node.
    obtain ⟨other, -, hother⟩ :=
      List.mem_filterMap.1 (Path.mem_sort.1 (mem_of_mem_dropRepeats hkept))
    obtain rfl : kept = path := Target.file.inj
      (h.eq_of_key (List.mem_of_getElem? (filePath?_eq_some.1 hother)) hnode
        (congrArg NodeKey.file (Path.key_eq_of_same hsame)))
    rw [importersOf, h.index?_eq htarget]
    exact hkept

theorem inCount_ne_zero {index : Nat} :
    graph.inCount index ≠ 0 ↔ ∃ edge ∈ graph.edges, edge.target = index := by
  rw [inCount, Nat.ne_zero_iff_zero_lt, List.length_pos_iff_exists_mem]
  simp [mem_predecessors]

theorem WellFormed.mem_fileCounts (h : graph.WellFormed) {path : Path} :
    (∃ count, (path, count) ∈ graph.fileCounts ∧ count ≠ 0) ↔
      .file path ∈ graph.nodes ∧ ∃ source,
      graph.Links source (.file path.key) := by
  constructor
  · rintro ⟨count, hcount, hpositive⟩
    obtain ⟨index, -, hentry⟩ := List.mem_filterMap.1 hcount
    obtain ⟨file, hfile, heq⟩ := Option.map_eq_some_iff.1 hentry
    obtain ⟨rfl, rfl⟩ := Prod.mk.inj heq
    rw [filePath?_eq_some] at hfile
    obtain ⟨edge, hedge, rfl⟩ := inCount_ne_zero.1 hpositive
    have hsource := List.getElem?_eq_getElem (h.edges edge hedge).1
    exact ⟨List.mem_of_getElem? hfile, _, edge, hedge, hsource,
      keys_of_file hfile⟩
  · rintro ⟨hnode, source, edge, hedge, -, htarget⟩
    obtain ⟨index, hindex⟩ := List.mem_iff_getElem?.1 hnode
    obtain rfl := h.index_unique htarget (keys_of_file hindex)
    refine ⟨graph.inCount edge.target, List.mem_filterMap.2 ⟨edge.target, ?_,
      ?_⟩, inCount_ne_zero.2 ⟨edge, hedge, rfl⟩⟩
    · exact List.mem_range.2 (List.getElem?_eq_some_iff.1 hindex).1
    · rw [filePath?_eq_some.2 hindex]
      rfl

theorem WellFormed.fileCounts_pairwise (h : graph.WellFormed) :
    graph.fileCounts.Pairwise fun first second =>
      first.1.key ≠ second.1.key := by
  rw [fileCounts, List.pairwise_filterMap]
  refine List.pairwise_lt_range.imp ?_
  intro first second hless entry hentry other hother hkey
  obtain ⟨path, hpath, rfl⟩ := Option.map_eq_some_iff.1 hentry
  obtain ⟨path', hpath', rfl⟩ := Option.map_eq_some_iff.1 hother
  have hfirst := keys_of_file (filePath?_eq_some.1 hpath)
  have hsecond := keys_of_file (filePath?_eq_some.1 hpath')
  rw [hkey] at hfirst
  exact absurd (h.index_unique hfirst hsecond) (Nat.ne_of_lt hless)

end ImportAtlas.ImportGraph
