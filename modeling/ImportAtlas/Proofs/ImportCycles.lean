import ImportAtlas.Proofs.GraphLog
import ImportAtlas.Proofs.GraphReach

/-!
# Cycles of an import graph

The groups of an import graph are its classes of nodes that reach each other.
A group is listed at its smallest number, so no two groups share a node.  Imports
start at files, so every node of a group is a file, and sorting the files of
the groups loses none of them.
-/

namespace ImportAtlas

namespace ImportGraph

open Relation Std

def Mutual (graph : ImportGraph) (first second : Nat) : Prop :=
  TransGen graph.Step first second ∧ TransGen graph.Step second first

def mates (graph : ImportGraph) (index : Nat) : List Nat :=
  cycleMates ((List.range graph.nodes.length).map graph.reached) index

/-- The nodes on a cycle with a node, if it has the smallest number among them.
-/
def groupAt? (graph : ImportGraph) (index : Nat) : Option (List Nat) :=
  match graph.mates index with
  | first :: others => if first = index then some (first :: others) else none
  | [] => none

def groups (graph : ImportGraph) : List (List Nat) :=
  (List.range graph.nodes.length).filterMap graph.groupAt?

def groupFiles (graph : ImportGraph) (group : List Nat) : List Path :=
  Path.sort (group.filterMap graph.filePath?)

theorem cycles_eq (graph : ImportGraph) :
    graph.cycles =
      ((graph.groups.map graph.groupFiles).filter fun group =>
        !group.isEmpty).mergeSort
      fun first second => (comparePaths first second).isLE := rfl

variable {graph : ImportGraph} {index other : Nat} {group : List Nat}

/-! ## Groups of numbers -/

namespace Mutual

variable {first second third : Nat}

theorem symm (h : graph.Mutual first second) : graph.Mutual second first :=
  ⟨h.2, h.1⟩

theorem trans (h : graph.Mutual first second) (h' : graph.Mutual second third) :
    graph.Mutual first third :=
  ⟨h.1.trans h'.1, h'.2.trans h.2⟩

theorem refl_left (h : graph.Mutual first second) : graph.Mutual first first :=
  h.trans h.symm

end Mutual

theorem mates_eq_filter (h : index < graph.nodes.length) :
    graph.mates index = (List.range graph.nodes.length).filter fun other =>
      (graph.reached index).contains other &&
        (graph.reached other).contains index := by
  rw [mates, cycleMates, List.length_map, List.length_range]
  refine List.filter_congr fun other hother => ?_
  simp [h, List.mem_range.1 hother]

theorem mem_mates (h : index < graph.nodes.length) :
    other ∈ graph.mates index ↔
      other < graph.nodes.length ∧ graph.Mutual index other := by
  simp [mates_eq_filter h, mem_reached, Mutual]

theorem mates_eq_of_mutual (h : graph.Mutual index other)
    (hindex : index < graph.nodes.length)
    (hother : other < graph.nodes.length) :
    graph.mates index = graph.mates other := by
  rw [mates_eq_filter hindex, mates_eq_filter hother]
  refine List.filter_congr fun node _ => ?_
  rw [Bool.eq_iff_iff]
  simp only [Bool.and_eq_true, List.contains_iff_mem, mem_reached]
  exact ⟨h.symm.trans, h.trans⟩

theorem groupAt?_eq_some :
    graph.groupAt? index = some group ↔
      graph.mates index = group ∧ group.head? = some index := by
  unfold groupAt?
  split
  · rename_i first others hmates
    rw [hmates]
    constructor
    · intro h
      split at h
      · rename_i hfirst
        obtain rfl := Option.some.inj h
        exact ⟨rfl, by rw [hfirst]; rfl⟩
      · contradiction
    · rintro ⟨rfl, hfirst⟩
      rw [if_pos (by simpa using hfirst)]
  · rename_i hmates
    rw [hmates]
    constructor
    · intro h
      contradiction
    · rintro ⟨rfl, hfirst⟩
      contradiction

theorem mem_groups :
    group ∈ graph.groups ↔
      ∃ index < graph.nodes.length, graph.mates index = group ∧
        group.head? = some index := by
  simp [groups, groupAt?_eq_some]

theorem mates_of_mem_groups (hgroup : group ∈ graph.groups)
    (hindex : index ∈ group) :
    index < graph.nodes.length ∧ graph.mates index = group := by
  obtain ⟨leader, hleader, rfl, -⟩ := mem_groups.1 hgroup
  obtain ⟨hlength, hmutual⟩ := (mem_mates hleader).1 hindex
  exact ⟨hlength, (mates_eq_of_mutual hmutual hleader hlength).symm⟩

theorem eq_of_mem_groups {group' : List Nat} (hgroup : group ∈ graph.groups)
    (hgroup' : group' ∈ graph.groups) (hindex : index ∈ group)
    (hindex' : index ∈ group') : group = group' :=
  (mates_of_mem_groups hgroup hindex).2.symm.trans
    (mates_of_mem_groups hgroup' hindex').2

theorem mutual_of_mem_groups (hgroup : group ∈ graph.groups)
    (hindex : index ∈ group) (hother : other ∈ group) :
    graph.Mutual index other := by
  obtain ⟨hlength, hmates⟩ := mates_of_mem_groups hgroup hindex
  rw [← hmates] at hother
  exact ((mem_mates hlength).1 hother).2

private theorem mates_mem_groups (hindex : index < graph.nodes.length)
    (h : graph.Mutual index index) :
    graph.mates index ∈ graph.groups := by
  have hself : index ∈ graph.mates index := (mem_mates hindex).2 ⟨hindex, h⟩
  obtain ⟨leader, others, hmates⟩ :=
    List.exists_cons_of_ne_nil (List.ne_nil_of_mem hself)
  have hmember : leader ∈ graph.mates index := by
    rw [hmates]; exact List.mem_cons_self
  obtain ⟨hleader, hmutual⟩ := (mem_mates hindex).1 hmember
  refine mem_groups.2 ⟨leader, hleader,
    (mates_eq_of_mutual hmutual hindex hleader).symm, ?_⟩
  rw [hmates, List.head?_cons]

private theorem groups_disjoint (graph : ImportGraph) :
    graph.groups.Pairwise fun first second =>
      ∀ index ∈ first, index ∉ second := by
  rw [groups, List.pairwise_filterMap]
  refine List.pairwise_lt_range.imp_of_mem ?_
  intro leader leader' hleader hleader' hless group hgroup group' hgroup' index
    hindex hindex'
  have hsame : group = group' := eq_of_mem_groups
    (List.mem_filterMap.2 ⟨leader, hleader, hgroup⟩)
    (List.mem_filterMap.2 ⟨leader', hleader', hgroup'⟩) hindex hindex'
  have hhead := (groupAt?_eq_some.1 hgroup).2
  rw [hsame, (groupAt?_eq_some.1 hgroup').2, Option.some.injEq] at hhead
  omega

theorem nodup_of_mem_groups (hgroup : group ∈ graph.groups) : group.Nodup := by
  obtain ⟨index, hindex, rfl, -⟩ := mem_groups.1 hgroup
  rw [mates_eq_filter hindex]
  exact List.nodup_range.filter _

/-! ## Groups of files -/

theorem filePath?_injective (h : graph.WellFormed) {path path' : Path}
    (hindex : graph.filePath? index = some path)
    (hother : graph.filePath? other = some path')
    (hkey : path.key = path'.key) : index = other := by
  have hfirst := keys_of_file (filePath?_eq_some.1 hindex)
  rw [hkey] at hfirst
  exact h.index_unique hfirst (keys_of_file (filePath?_eq_some.1 hother))

theorem mem_groupFiles {path : Path} :
    path ∈ graph.groupFiles group ↔
      ∃ index ∈ group, graph.filePath? index = some path := by
  simp [groupFiles]

theorem groupFiles_increasing (h : graph.WellFormed) (hgroup : group.Nodup) :
    (graph.groupFiles group).Pairwise Path.Before := by
  have hdifferent : (group.filterMap graph.filePath?).Pairwise
      fun first second => first.same second ≠ true := by
    rw [List.pairwise_filterMap]
    refine hgroup.imp ?_
    intro index other hne path hpath path' hpath' hsame
    exact hne (filePath?_injective h hpath hpath' (Path.key_eq_of_same hsame))
  have hsorted : (graph.groupFiles group).Pairwise fun first second =>
      first.same second ≠ true := by
    refine ((List.mergeSort_perm _ _).pairwise_iff ?_).2 hdifferent
    intro first second hne hsame
    exact hne (Path.same_symm hsame)
  refine ((Path.sort_pairwise _).and hsorted).imp ?_
  rintro first second ⟨hle, hne⟩
  exact (Path.le_iff.1 hle).resolve_right hne

theorem comparePaths_eq_compareLex (first second : List Path) :
    comparePaths first second = List.compareLex Path.compare first second := by
  induction first generalizing second with
  | nil => cases second <;> rfl
  | cons path paths ih =>
      cases second with
      | nil => rfl
      | cons path' paths' => rw [comparePaths, List.compareLex_cons_cons, ih]

instance : TransCmp comparePaths where
  eq_swap {first second} := by
    simp only [comparePaths_eq_compareLex]
    exact OrientedCmp.eq_swap
  isLE_trans {first second third} := by
    simp only [comparePaths_eq_compareLex]
    exact TransCmp.isLE_trans

private theorem cycles_sorted (graph : ImportGraph) :
    graph.cycles.Pairwise fun first second =>
      (comparePaths first second).isLE = true := by
  rw [cycles_eq]
  exact Path.pairwise_mergeSort_compare _

def FilesImport (graph : ImportGraph) : Prop :=
  ∀ edge ∈ graph.edges, ∃ path, graph.filePath? edge.source = some path

private theorem FilesImport.filePath?_of_mutual (hfiles : graph.FilesImport)
    (h : graph.Mutual index other) :
    ∃ path, graph.filePath? index = some path := by
  obtain ⟨next, hstep, -⟩ := TransGen.head'_iff.1 h.1
  obtain ⟨edge, hedge, rfl, -⟩ := step_iff.1 hstep
  exact hfiles edge hedge

theorem FilesImport.groupFiles_ne_nil (hfiles : graph.FilesImport)
    (hgroup : group ∈ graph.groups) :
    graph.groupFiles group ≠ [] := by
  obtain ⟨leader, -, -, hhead⟩ := mem_groups.1 hgroup
  have hmember := List.mem_of_head? hhead
  obtain ⟨path, hpath⟩ :=
    hfiles.filePath?_of_mutual (mutual_of_mem_groups hgroup hmember hmember)
  exact List.ne_nil_of_mem (mem_groupFiles.2 ⟨leader, hmember, hpath⟩)

theorem FilesImport.cycles_perm (hfiles : graph.FilesImport) :
    graph.cycles.Perm (graph.groups.map graph.groupFiles) := by
  have hkept : ((graph.groups.map graph.groupFiles).filter fun group =>
      !group.isEmpty) = graph.groups.map graph.groupFiles := by
    refine List.filter_eq_self.2 fun files hmem => ?_
    obtain ⟨group, hgroup, rfl⟩ := List.mem_map.1 hmem
    simpa using hfiles.groupFiles_ne_nil hgroup
  rw [cycles_eq, hkept]
  exact List.mergeSort_perm _ _

theorem FilesImport.mem_cycles (hfiles : graph.FilesImport)
    {files : List Path} :
    files ∈ graph.cycles ↔
      ∃ group ∈ graph.groups, graph.groupFiles group = files := by
  rw [hfiles.cycles_perm.mem_iff, List.mem_map]

theorem FilesImport.cycles_disjoint (hfiles : graph.FilesImport)
    (h : graph.WellFormed) :
    graph.cycles.Pairwise fun first second =>
      ∀ file ∈ first, ∀ other ∈ second, file.sameFile other = false := by
  have hgroups : (graph.groups.map graph.groupFiles).Pairwise
      fun first second =>
      ∀ file ∈ first, ∀ other ∈ second, file.sameFile other = false := by
    refine List.pairwise_map.2 ((groups_disjoint graph).imp ?_)
    intro first second hdisjoint file hfile other hother
    obtain ⟨index, hindex, hpath⟩ := mem_groupFiles.1 hfile
    obtain ⟨index', hindex', hpath'⟩ := mem_groupFiles.1 hother
    rw [Path.sameFile_eq_false_iff]
    intro hkey
    obtain rfl := filePath?_injective h hpath hpath' hkey
    exact hdisjoint index hindex hindex'
  refine (hfiles.cycles_perm.pairwise_iff ?_).2 hgroups
  intro first second hdisjoint file hfile other hother
  have hother := hdisjoint other hother file hfile
  rw [Path.sameFile_eq_false_iff] at hother ⊢
  exact fun hkey => hother hkey.symm

/-- Groups that compare as equal would share their first file. -/
theorem FilesImport.cycles_strictly_sorted (hfiles : graph.FilesImport)
    (h : graph.WellFormed) :
    graph.cycles.Pairwise fun first second =>
      comparePaths first second = .lt := by
  refine ((cycles_sorted graph).and (hfiles.cycles_disjoint h)).imp_of_mem ?_
  rintro first second hfirst - ⟨hle, hdisjoint⟩
  refine (Ordering.isLE_iff_eq_lt_or_eq_eq.1 hle).resolve_right fun heq => ?_
  obtain ⟨group, hgroup, rfl⟩ := hfiles.mem_cycles.1 hfirst
  obtain ⟨file, files, hcons⟩ :=
    List.exists_cons_of_ne_nil (hfiles.groupFiles_ne_nil hgroup)
  rw [hcons] at heq hdisjoint
  cases second with
  | nil => contradiction
  | cons other others =>
      rw [comparePaths, Ordering.then_eq_eq] at heq
      have hkey := Path.key_eq_of_same (Path.compare_eq_iff_same.1 heq.1)
      have hdifferent :=
        hdisjoint file List.mem_cons_self other List.mem_cons_self
      exact Path.sameFile_eq_false_iff.1 hdifferent hkey

end ImportGraph

/-! ## Cycles of a log -/

namespace GraphLog

open Relation

variable {log : GraphLog} {first second : Path} {index other : Nat}

def Reaches (log : GraphLog) : NodeKey → NodeKey → Prop :=
  TransGen log.Imports

theorem filesImport_graph (log : GraphLog) : log.graph.FilesImport := by
  intro edge hedge
  rw [graph_eq] at hedge
  obtain ⟨entry, hentry, rfl⟩ := List.mem_map.1 hedge
  obtain ⟨path, hpath, -⟩ :=
    ImportGraph.exists_file_of_keys
      (keys_getElem?_firstNumber (keys_mem_of_mem_imports hentry).1)
  exact ⟨path, ImportGraph.filePath?_eq_some.2 hpath⟩

theorem mem_firstMentions_iff_filePath? :
    .file first ∈ firstMentions log.mentions ↔
      ∃ index, log.graph.filePath? index = some first := by
  have hnodes : log.graph.nodes = firstMentions log.mentions := by rw [graph_eq]
  simp only [← hnodes, List.mem_iff_getElem?, ImportGraph.filePath?_eq_some]

theorem transGen_step_graph {key key' : NodeKey}
    (hkey : log.graph.keys[index]? = some key)
    (hkey' : log.graph.keys[other]? = some key') :
    TransGen log.graph.Step index other ↔ log.Reaches key key' := by
  have hlinks : log.graph.Links = log.Imports := by
    funext source target
    exact propext links_graph
  rw [(graph_wellFormed log).transGen_step_iff hkey hkey', hlinks, Reaches]

private theorem mutual_graph (hfirst : log.graph.filePath? index = some first)
    (hsecond : log.graph.filePath? other = some second) :
    log.graph.Mutual index other ↔
      log.Reaches (.file first.key) (.file second.key) ∧
      log.Reaches (.file second.key) (.file first.key) := by
  have hkey := ImportGraph.keys_of_file (ImportGraph.filePath?_eq_some.1 hfirst)
  have hkey' :=
    ImportGraph.keys_of_file (ImportGraph.filePath?_eq_some.1 hsecond)
  rw [ImportGraph.Mutual, transGen_step_graph hkey hkey',
    transGen_step_graph hkey' hkey]

private theorem not_reaches_package (log : GraphLog) (name : String)
    (key : NodeKey) : ¬log.Reaches (.package name) key := by
  intro h
  obtain ⟨next, ⟨entry, -, hsource, -⟩, -⟩ := TransGen.head'_iff.1 h
  contradiction

theorem mem_same_cycle_iff (hfirst : .file first ∈ firstMentions log.mentions)
    (hsecond : .file second ∈ firstMentions log.mentions) :
    (∃ group ∈ log.graph.cycles, first ∈ group ∧ second ∈ group) ↔
      log.Reaches (.file first.key) (.file second.key) ∧
      log.Reaches (.file second.key) (.file first.key) := by
  have hfiles := filesImport_graph log
  have hinjective {path : Path} {index other : Nat}
      (hindex : log.graph.filePath? index = some path)
      (hother : log.graph.filePath? other = some path) : index = other :=
    ImportGraph.filePath?_injective (graph_wellFormed log) hindex hother rfl
  obtain ⟨index, hindex⟩ := mem_firstMentions_iff_filePath?.1 hfirst
  obtain ⟨other, hother⟩ := mem_firstMentions_iff_filePath?.1 hsecond
  rw [← mutual_graph hindex hother]
  constructor
  · rintro ⟨files, hcycle, hmem, hmem'⟩
    obtain ⟨group, hgroup, rfl⟩ := hfiles.mem_cycles.1 hcycle
    obtain ⟨index', hindex', hpath⟩ := ImportGraph.mem_groupFiles.1 hmem
    obtain ⟨other', hother', hpath'⟩ := ImportGraph.mem_groupFiles.1 hmem'
    obtain rfl := hinjective hindex hpath
    obtain rfl := hinjective hother hpath'
    exact ImportGraph.mutual_of_mem_groups hgroup hindex' hother'
  · intro hmutual
    have hlength {index : Nat} {path : Path}
        (hindex : log.graph.filePath? index = some path) :
        index < log.graph.nodes.length :=
          (List.getElem?_eq_some_iff.1
            (ImportGraph.filePath?_eq_some.1 hindex)).1
    have hmates :=
      ImportGraph.mates_mem_groups (hlength hindex) hmutual.refl_left
    refine ⟨_, hfiles.mem_cycles.2 ⟨_, hmates, rfl⟩,
      ImportGraph.mem_groupFiles.2 ⟨index, ?_, hindex⟩,
      ImportGraph.mem_groupFiles.2 ⟨other, ?_, hother⟩⟩
    · exact (ImportGraph.mem_mates (hlength hindex)).2 ⟨hlength hindex,
        hmutual.refl_left⟩
    · exact (ImportGraph.mem_mates (hlength hindex)).2 ⟨hlength hother, hmutual⟩

theorem mem_firstMentions_of_mem_cycles {group : List Path}
    (hgroup : group ∈ log.graph.cycles) (hfile : first ∈ group) :
    .file first ∈ firstMentions log.mentions := by
  obtain ⟨numbers, -, rfl⟩ := (filesImport_graph log).mem_cycles.1 hgroup
  obtain ⟨index, -, hpath⟩ := ImportGraph.mem_groupFiles.1 hfile
  exact mem_firstMentions_iff_filePath?.2 ⟨index, hpath⟩

private theorem eq_of_mem_cycles {group group' : List Path}
    (hgroup : group ∈ log.graph.cycles) (hgroup' : group' ∈ log.graph.cycles)
    (hfile : first ∈ group) (hfile' : first ∈ group') : group = group' := by
  have hfiles := filesImport_graph log
  obtain ⟨numbers, hnumbers, rfl⟩ := hfiles.mem_cycles.1 hgroup
  obtain ⟨numbers', hnumbers', rfl⟩ := hfiles.mem_cycles.1 hgroup'
  obtain ⟨index, hindex, hpath⟩ := ImportGraph.mem_groupFiles.1 hfile
  obtain ⟨index', hindex', hpath'⟩ := ImportGraph.mem_groupFiles.1 hfile'
  obtain rfl :=
    ImportGraph.filePath?_injective (graph_wellFormed log) hpath hpath' rfl
  rw [ImportGraph.eq_of_mem_groups hnumbers hnumbers' hindex hindex']

private theorem exists_file_of_reaches {key key' : NodeKey}
    (h : log.Reaches key key') :
    ∃ file, .file file ∈ firstMentions log.mentions ∧ key = .file file.key := by
  obtain ⟨next, ⟨entry, hentry, rfl, -⟩, -⟩ := TransGen.head'_iff.1 h
  obtain ⟨file, hfile, hkey⟩ :=
    ImportGraph.exists_file_of_keys
      (keys_getElem?_firstNumber (keys_mem_of_mem_imports hentry).1)
  exact ⟨file, mem_firstMentions_iff_filePath?.2
    ⟨_, ImportGraph.filePath?_eq_some.2 hfile⟩, by rw [hkey]⟩

theorem exists_mem_cycle {group : List Path} (hgroup : group ∈ log.graph.cycles)
    (hfile : first ∈ group) {key : NodeKey}
    (hto : log.Reaches (.file first.key) key)
    (hback : log.Reaches key (.file first.key)) :
    ∃ other ∈ group, key = .file other.key := by
  obtain ⟨other, hother, rfl⟩ := exists_file_of_reaches hback
  have hfirst := mem_firstMentions_of_mem_cycles hgroup hfile
  obtain ⟨group', hgroup', hfile', hother'⟩ :=
    (mem_same_cycle_iff hfirst hother).2 ⟨hto, hback⟩
  rw [eq_of_mem_cycles hgroup' hgroup hfile' hfile] at hother'
  exact ⟨other, hother', rfl⟩

/-- Whether groups of files are the files that lie on cycles of imports,
divided by mutual reach. -/
structure CycleGroups (log : GraphLog) (groups : List (List Path)) : Prop where
  nonempty : ∀ group ∈ groups, group ≠ []
  increasing : ∀ group ∈ groups, group.Pairwise Path.Before
  ordered : groups.Pairwise fun first second =>
    ImportGraph.comparePaths first second = .lt
  disjoint : groups.Pairwise fun first second =>
    ∀ file ∈ first, ∀ other ∈ second, file.sameFile other = false
  onCycle : ∀ file, (∃ group ∈ groups, file ∈ group) ↔
    .file file ∈ firstMentions log.mentions ∧
    log.Reaches (.file file.key) (.file file.key)
  together : ∀ first second, .file first ∈ firstMentions log.mentions →
    .file second ∈ firstMentions log.mentions →
    ((∃ group ∈ groups, first ∈ group ∧ second ∈ group) ↔
      log.Reaches (.file first.key) (.file second.key) ∧
      log.Reaches (.file second.key) (.file first.key))
  whole :
    ∀ group ∈ groups, ∀ file ∈ group, ∀ key, log.Reaches (.file file.key) key →
    log.Reaches key (.file file.key) → ∃ other ∈ group, key = .file other.key
  packages : ∀ name key, ¬log.Reaches (.package name) key

/-- After any calls the groups of an import graph are its strong components
that hold a cycle. -/
theorem cycles_are_strong_components (log : GraphLog) :
    log.CycleGroups log.graph.cycles := by
  have hfiles := filesImport_graph log
  have hwellFormed := graph_wellFormed log
  constructor
  case nonempty =>
    intro files hmem
    obtain ⟨group, hgroup, rfl⟩ := hfiles.mem_cycles.1 hmem
    exact hfiles.groupFiles_ne_nil hgroup
  case increasing =>
    intro files hmem
    obtain ⟨group, hgroup, rfl⟩ := hfiles.mem_cycles.1 hmem
    exact ImportGraph.groupFiles_increasing hwellFormed
      (ImportGraph.nodup_of_mem_groups hgroup)
  case ordered => exact hfiles.cycles_strictly_sorted hwellFormed
  case disjoint => exact hfiles.cycles_disjoint hwellFormed
  case onCycle =>
    intro file
    constructor
    · rintro ⟨group, hgroup, hfile⟩
      have hfirst := mem_firstMentions_of_mem_cycles hgroup hfile
      exact ⟨hfirst,
        ((mem_same_cycle_iff hfirst hfirst).1 ⟨group, hgroup, hfile, hfile⟩).1⟩
    · rintro ⟨hfirst, hreaches⟩
      obtain ⟨group, hgroup, hfile, -⟩ :=
        (mem_same_cycle_iff hfirst hfirst).2 ⟨hreaches, hreaches⟩
      exact ⟨group, hgroup, hfile⟩
  case together =>
    exact fun first second hfirst hsecond => mem_same_cycle_iff hfirst hsecond
  case whole =>
    exact fun group hgroup file hfile key hto hback =>
      exists_mem_cycle hgroup hfile hto hback
  case packages => exact not_reaches_package log

end GraphLog

end ImportAtlas
