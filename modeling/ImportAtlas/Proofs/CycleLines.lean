import ImportAtlas.Output.PlainText
import ImportAtlas.Proofs.FileCycles

/-!
# Lines of cycles

The plain text shows a group of files that import each other as a walk with
arrows.  The walk goes through the files in the order of their paths and back
to the first one, whatever they import.  So an arrow leads from a file to the
next one of its group, which may be several imports away; only in groups of one
or two files it is always an import.
-/

namespace ImportAtlas

open Relation

/-! ## Neighbours in the order of paths -/

def roundTrip (group : List Path) : List Path :=
  group ++ group.head?.toList

def Arrow (group : List Path) (file target : Path) : Prop :=
  [file, target] <:+: roundTrip group

/-- Whether a file of a group comes right before another one in path order, or
last where the other is first. -/
def NextInOrder (group : List Path) (file target : Path) : Prop :=
  file ∈ group ∧ target ∈ group ∧
    ((file.Before target ∧
      ∀ other ∈ group, ¬(file.Before other ∧ other.Before target)) ∨
      (∀ other ∈ group, ¬file.Before other) ∧
      ∀ other ∈ group, ¬other.Before target)

section Order

variable {group : List Path} {file target : Path}

private theorem infix_pair_iff (hgroup : group.Pairwise Path.Before) :
    [file, target] <:+: group ↔
      file ∈ group ∧ target ∈ group ∧ file.Before target ∧
      ∀ other ∈ group, ¬(file.Before other ∧ other.Before target) := by
  constructor
  · rintro ⟨before, after, rfl⟩
    obtain ⟨hstart, -, hcross⟩ := List.pairwise_append.1 hgroup
    obtain ⟨-, hpair, hbefore⟩ := List.pairwise_append.1 hstart
    have hstep : file.Before target := by simpa using hpair
    refine ⟨by simp, by simp, hstep, ?_⟩
    rintro other hother ⟨hafter, hahead⟩
    simp only [List.mem_append, List.mem_cons, List.not_mem_nil,
      or_false] at hother
    rcases hother with (hother | rfl | rfl) | hother
    · exact hafter.not_before (hbefore other hother file (by simp))
    · exact hafter.not_before hafter
    · exact hahead.not_before hahead
    · exact hahead.not_before (hcross target (by simp) other hother)
  · rintro ⟨hfile, htarget, hstep, hnone⟩
    obtain ⟨before, after, rfl⟩ := List.append_of_mem hfile
    obtain ⟨-, hafter, hcross⟩ := List.pairwise_append.1 hgroup
    have hlater : target ∈ after := by
      rcases List.mem_append.1 htarget with htarget | htarget
      · exact (hstep.not_before (hcross target htarget file
          List.mem_cons_self)).elim
      · rcases List.mem_cons.1 htarget with rfl | htarget
        · exact (hstep.not_before hstep).elim
        · exact htarget
    cases after with
    | nil => contradiction
    | cons next rest =>
        rcases List.mem_cons.1 hlater with rfl | hrest
        · exact ⟨before, rest, by simp⟩
        · -- The file right after the first one would stand between the two.
          have hnext := (List.pairwise_cons.1 hafter).1 next List.mem_cons_self
          have hbetween :=
            (List.pairwise_cons.1 (List.pairwise_cons.1 hafter).2).1
              target hrest
          exact (hnone next (by simp) ⟨hnext, hbetween⟩).elim

private theorem suffix_singleton_iff (hgroup : group.Pairwise Path.Before) :
    [file] <:+ group ↔ file ∈ group ∧ ∀ other ∈ group, ¬file.Before other := by
  constructor
  · rintro ⟨before, rfl⟩
    refine ⟨by simp, fun other hother hafter => ?_⟩
    rcases List.mem_append.1 hother with hother | hother
    · exact hafter.not_before
        ((List.pairwise_append.1 hgroup).2.2 other hother file (by simp))
    · obtain rfl := List.mem_singleton.1 hother
      exact hafter.not_before hafter
  · rintro ⟨hfile, hlast⟩
    obtain ⟨before, after, rfl⟩ := List.append_of_mem hfile
    cases after with
    | nil => exact ⟨before, rfl⟩
    | cons next rest =>
        have hnext :=
          (List.pairwise_cons.1 (List.pairwise_append.1 hgroup).2.1).1
            next List.mem_cons_self
        exact (hlast next (by simp) hnext).elim

theorem head?_eq_some_iff (hgroup : group.Pairwise Path.Before) :
    group.head? = some target ↔
      target ∈ group ∧ ∀ other ∈ group, ¬other.Before target := by
  cases group with
  | nil => simp
  | cons first rest =>
      obtain ⟨hfirst, -⟩ := List.pairwise_cons.1 hgroup
      rw [List.head?_cons, Option.some.injEq]
      constructor
      · rintro rfl
        refine ⟨List.mem_cons_self, fun other hother hahead => ?_⟩
        rcases List.mem_cons.1 hother with rfl | hother
        · exact hahead.not_before hahead
        · exact hahead.not_before (hfirst other hother)
      · rintro ⟨htarget, hnone⟩
        rcases List.mem_cons.1 htarget with rfl | htarget
        · rfl
        · exact (hnone first List.mem_cons_self (hfirst target htarget)).elim

private theorem suffix_pair_iff {first : Path} :
    [file, target] <:+ group ++ [first] ↔
      [file] <:+ group ∧ first = target := by
  rw [List.suffix_concat_iff]
  constructor
  · rintro (hnil | ⟨before, hbefore, hsuffix⟩)
    · contradiction
    · change [file] ++ [target] = before ++ [first] at hbefore
      obtain ⟨rfl, hlast⟩ := List.append_inj' hbefore rfl
      exact ⟨hsuffix, (List.singleton_inj.1 hlast).symm⟩
  · rintro ⟨hsuffix, rfl⟩
    exact .inr ⟨[file], rfl, hsuffix⟩

theorem arrow_iff (hgroup : group.Pairwise Path.Before) :
    Arrow group file target ↔ NextInOrder group file target := by
  have hround : Arrow group file target ↔
      [file, target] <:+: group ∨ [file] <:+ group ∧
      group.head? = some target := by
    unfold Arrow roundTrip
    cases group.head? with
    | none => simp
    | some first =>
      rw [Option.toList_some, List.infix_concat_iff, suffix_pair_iff,
        Option.some.injEq, or_comm]
  rw [hround, infix_pair_iff hgroup, suffix_singleton_iff hgroup,
    head?_eq_some_iff hgroup]
  constructor
  · rintro (⟨hfile, htarget, hnext⟩ | ⟨⟨hfile, hlast⟩, htarget, hfirst⟩)
    · exact ⟨hfile, htarget, .inl hnext⟩
    · exact ⟨hfile, htarget, .inr ⟨hlast, hfirst⟩⟩
  · rintro ⟨hfile, htarget, hnext | ⟨hlast, hfirst⟩⟩
    · exact .inl ⟨hfile, htarget, hnext⟩
    · exact .inr ⟨⟨hfile, hlast⟩, htarget, hfirst⟩

end Order

/-! ## Imports of a map -/

/-- Whether a file that a map lists has an import of another one, up to the
identities of both. -/
def ImportMap.Imports (map : ImportMap) (file target : Path) : Prop :=
  ∃ entry ∈ map.imports, entry.1.sameFile file = true ∧
    ∃ record ∈ entry.2, record.ResolvesTo target

variable {corpus : Corpus} {styles : StyleFilter} {statsLimit : Nat}

theorem imports_importMap_iff (hpaths : corpus.DistinctPaths)
    {file target : Path} :
    (importMap corpus styles statsLimit).Imports file target ↔
      (corpusLog styles corpus.modules).ImportsFile file target := by
  have hperm : (importMap corpus styles statsLimit).imports.Perm
      (corpus.modules.map fun module =>
        (module.path, keptImports styles module)) :=
    byPath_perm (List.pairwise_map.2 hpaths)
  constructor
  · rintro ⟨⟨importer, records⟩, hentry, himporter, record, hrecord, hresolves⟩
    obtain ⟨module, hmodule, heq⟩ := List.mem_map.1 (hperm.mem_iff.1 hentry)
    obtain ⟨rfl, rfl⟩ := Prod.mk.inj heq
    obtain ⟨path, hpath, hkey⟩ := ImportRecord.resolvesTo_iff_file.1 hresolves
    refine ⟨_, mem_imports_corpusLog.2 ⟨module, hmodule, record, hrecord, path,
      hpath, rfl⟩, ?_, ?_⟩
    · rw [Path.sameFile_iff.1 himporter]
    · rw [NodeKey.of, hkey]
  · rintro ⟨entry, hentry, hsource, htarget⟩
    obtain ⟨module, hmodule, record, hrecord, path, hpath, rfl⟩ :=
      mem_imports_corpusLog.1 hentry
    refine ⟨_, hperm.mem_iff.2 (List.mem_map.2 ⟨module, hmodule, rfl⟩), ?_,
      record, hrecord, ?_⟩
    · exact Path.sameFile_iff.2 (NodeKey.file.inj hsource).symm
    · exact ImportRecord.resolvesTo_iff_file.2 ⟨path, hpath,
        (NodeKey.file.inj htarget).symm⟩

/-! ## Lines of the plain text -/

structure ImportMap.CycleLine (map : ImportMap) (group : List Path) : Prop where
  text : PlainText.cycleText [map.root] group =
    " -> ".intercalate ((roundTrip group).map (PlainText.display [map.root]))
  arrows : ∀ file target, Arrow group file target ↔
    NextInOrder group file target
  /-- An arrow stands for a walk of imports inside the group. -/
  walks : ∀ file target, Arrow group file target →
    TransGen (JoinsWithin map.Imports group) file target
  short : group.length ≤ 2 → ∀ file target, Arrow group file target →
    map.Imports file target
  /-- The group has all files that lie on a cycle with one of its files. -/
  whole : ∀ file ∈ group, ∀ other, TransGen map.Imports file other →
    TransGen map.Imports other file →
    ∃ member ∈ group, member.sameFile other = true

private theorem cycleText_eq (roots group : List Path) :
    PlainText.cycleText roots group =
      " -> ".intercalate ((roundTrip group).map (PlainText.display roots)) := by
  cases group <;> rfl

private theorem statsLines_eq (roots : List Path) (stats : MapStats) :
    ∃ above, PlainText.statsLines roots stats =
      above ++ PlainText.titled "  Circular imports:"
        (stats.circular.map fun group =>
          "    " ++ PlainText.cycleText roots group) :=
  ⟨_, rfl⟩

theorem mapLines_eq (map : ImportMap) : ∃ above below, PlainText.mapLines map =
    above ++ PlainText.titled "  Circular imports:"
      (map.stats.circular.map fun group =>
        "    " ++ PlainText.cycleText [map.root] group) ++ below := by
  obtain ⟨above, habove⟩ := statsLines_eq [map.root] map.stats
  unfold PlainText.mapLines
  dsimp only
  rw [habove, List.append_assoc, ← List.append_assoc _ above]
  exact ⟨_, _, rfl⟩

private theorem circular_increasing {group : List Path}
    (hgroup : group ∈ (importMap corpus styles statsLimit).stats.circular) :
    group.Pairwise Path.Before := by
  rw [circular_eq] at hgroup
  obtain ⟨numbers, hnumbers, rfl⟩ :=
    (GraphLog.filesImport_graph _).mem_cycles.1 hgroup
  exact ImportGraph.groupFiles_increasing (GraphLog.graph_wellFormed _)
    (ImportGraph.nodup_of_mem_groups hnumbers)

private theorem walk_imports (hpaths : corpus.DistinctPaths) {group : List Path}
    (hgroup : group ∈ (importMap corpus styles statsLimit).stats.circular)
    {file target : Path} (hfile : file ∈ group) (htarget : target ∈ group) :
    TransGen (JoinsWithin (importMap corpus styles statsLimit).Imports group)
      file target := by
  rw [circular_eq] at hgroup
  exact JoinsWithin.walk_mono (fun _ _ _ _ => (imports_importMap_iff hpaths).2)
    (GraphLog.walk_within hgroup hfile htarget)

theorem reaches_of_imports (hpaths : corpus.DistinctPaths) {file target : Path}
    (h : TransGen (importMap corpus styles statsLimit).Imports file target) :
    (corpusLog styles corpus.modules).Reaches (.file file.key)
      (.file target.key) :=
  TransGen.lift (fun path : Path => NodeKey.file path.key)
    (fun _ _ => (imports_importMap_iff hpaths).1) _ _ h

private theorem imports_of_short {imports : Path → Path → Prop}
    {group : List Path} (hgroup : group.Pairwise Path.Before)
    (hlength : group.length ≤ 2) {file target : Path}
    (hnext : NextInOrder group file target)
    (hwalk : TransGen (JoinsWithin imports group) file target) :
    imports file target := by
  refine (step_of_walk hwalk fun place _ hstep => ?_).2.2
  obtain ⟨hfile, htarget, horder⟩ := hnext
  have hplace := hstep.1
  rcases group with _ | ⟨first, _ | ⟨second, _ | ⟨third, rest⟩⟩⟩
  · contradiction
  · exact .inl
      ((List.mem_singleton.1 hplace).trans (List.mem_singleton.1 hfile).symm)
  · have hbefore : first.Before second := by simpa using hgroup
    have hne : file ≠ target := by
      rintro rfl
      rcases horder with ⟨hself, -⟩ | ⟨hlast, hfirst⟩
      · exact hself.not_before hself
      · rcases List.mem_pair.1 hfile with rfl | rfl
        · exact hlast second (by simp) hbefore
        · exact hfirst first (by simp) hbefore
    simp only [List.mem_cons, List.not_mem_nil, or_false]
      at hplace hfile htarget
    grind
  · simp at hlength

/--
Under the title of cycles there is a line for every group, and its arrows lead
from every file to the next one of the group in path order.  An arrow stands
for a walk of imports inside the group, and for an import if the group has no
more than two files.
-/
theorem cycle_lines_go_round_in_path_order (hkeys : corpus.DistinctKeys)
    (styles : StyleFilter) (statsLimit : Nat) :
    (∃ above below, PlainText.mapLines (importMap corpus styles statsLimit) =
        above ++ PlainText.titled "  Circular imports:"
          ((importMap corpus styles statsLimit).stats.circular.map fun group =>
            "    " ++ PlainText.cycleText
              [(importMap corpus styles statsLimit).root] group) ++ below) ∧
      ∀ group ∈ (importMap corpus styles statsLimit).stats.circular,
        (importMap corpus styles statsLimit).CycleLine group := by
  refine ⟨mapLines_eq _, fun group hgroup => ?_⟩
  have hpaths := hkeys.distinctPaths
  have hincreasing := circular_increasing hgroup
  have hwalks : ∀ file target, Arrow group file target →
      TransGen (JoinsWithin (importMap corpus styles statsLimit).Imports group)
        file target := by
    intro file target harrow
    obtain ⟨hfile, htarget, -⟩ := (arrow_iff hincreasing).1 harrow
    exact walk_imports hpaths hgroup hfile htarget
  constructor
  case text => exact cycleText_eq _ group
  case arrows => exact fun file target => arrow_iff hincreasing
  case walks => exact hwalks
  case short =>
    intro hlength file target harrow
    exact imports_of_short hincreasing hlength
      ((arrow_iff hincreasing).1 harrow) (hwalks file target harrow)
  case whole =>
    intro file hfile other hto hback
    rw [circular_eq] at hgroup
    obtain ⟨member, hmember, hkey⟩ := GraphLog.exists_mem_cycle hgroup hfile
      (reaches_of_imports hpaths hto) (reaches_of_imports hpaths hback)
    exact ⟨member, hmember, Path.sameFile_iff.2 (NodeKey.file.inj hkey).symm⟩

/-! ## A cycle against the order of paths -/

/-- The first file imports the last one, the last one the second, and the
second one the first. -/
def triangleTree : FileTree :=
  ⟨[("a.ts", .file (some "import './c';")),
    ("b.ts", .file (some "import './a';")),
    ("c.ts", .file (some "import './b';"))]⟩

def triangleCorpus : Corpus :=
  ((Corpus.new ⟨"/"⟩ (Resolver.new none)).loadAll triangleTree
    [⟨"/a.ts"⟩, ⟨"/b.ts"⟩, ⟨"/c.ts"⟩] defaultBatchSize).1

def triangleGroup : List Path :=
  [⟨"/a.ts"⟩, ⟨"/b.ts"⟩, ⟨"/c.ts"⟩]

theorem triangleCorpus_circular :
    (importMap triangleCorpus {} defaultStatsLimit).stats.circular =
      [triangleGroup] := by
  obtain ⟨hgroups, hperm, hordered⟩ :
      (importGraph {} triangleCorpus.modules).groups = [[0, 1, 2]] ∧
        ([0, 1, 2].filterMap
          (importGraph {} triangleCorpus.modules).filePath?).Perm
          triangleGroup ∧
        triangleGroup.Pairwise fun first second =>
          first.compare second = .lt := by
    decide +kernel
  have hfiles : (importGraph {} triangleCorpus.modules).groupFiles [0, 1, 2] =
      triangleGroup := by
    refine List.Perm.eq_of_pairwise ?_ ?_ hordered
      ((List.mergeSort_perm _ _).trans hperm)
    · intro first second _ _ hbefore hafter
      exact absurd hafter (Path.Before.not_before hbefore)
    · exact ImportGraph.groupFiles_increasing (importGraph_wellFormed _ _)
        (by decide)
  have hcycles :=
    (GraphLog.filesImport_graph (corpusLog {}
      triangleCorpus.modules)).cycles_perm
  rw [← importGraph_eq_graph, hgroups, List.map_singleton, hfiles] at hcycles
  exact List.perm_singleton.1 hcycles

instance (map : ImportMap) (file target : Path) :
    Decidable (map.Imports file target) :=
  inferInstanceAs (Decidable (∃ entry ∈ map.imports, _ ∧
    ∃ record ∈ entry.2, record.ResolvesTo target))

theorem triangleCorpus_distinctKeys : triangleCorpus.DistinctKeys := by
  decide +kernel

theorem triangle_arrow_is_walk :
    Arrow triangleGroup ⟨"/a.ts"⟩ ⟨"/b.ts"⟩ ∧
      TransGen
        (JoinsWithin (importMap triangleCorpus {} defaultStatsLimit).Imports
          triangleGroup)
        ⟨"/a.ts"⟩ ⟨"/b.ts"⟩ := by
  have hgroup : triangleGroup ∈
      (importMap triangleCorpus {} defaultStatsLimit).stats.circular := by
    rw [triangleCorpus_circular]
    exact List.mem_singleton_self _
  have harrow : Arrow triangleGroup ⟨"/a.ts"⟩ ⟨"/b.ts"⟩ :=
    ⟨[], [⟨"/c.ts"⟩, ⟨"/a.ts"⟩], rfl⟩
  exact ⟨harrow,
    ((cycle_lines_go_round_in_path_order triangleCorpus_distinctKeys
      {} defaultStatsLimit).2 _ hgroup).walks
    _ _ harrow⟩

/-- None of the arrows in the line of the triangle stands for an import. -/
theorem triangle_line_shows_no_import :
    triangleCorpus.Loaded triangleTree ∧ triangleCorpus.DistinctKeys ∧
      (∃ above below,
        PlainText.mapLines (importMap triangleCorpus {} defaultStatsLimit) =
          above ++ ["  Circular imports:",
            "    a.ts -> b.ts -> c.ts -> a.ts"] ++ below) ∧
      ¬(importMap triangleCorpus {} defaultStatsLimit).Imports
        ⟨"/a.ts"⟩ ⟨"/b.ts"⟩ ∧
      ¬(importMap triangleCorpus {} defaultStatsLimit).Imports
        ⟨"/b.ts"⟩ ⟨"/c.ts"⟩ ∧
      ¬(importMap triangleCorpus {} defaultStatsLimit).Imports
        ⟨"/c.ts"⟩ ⟨"/a.ts"⟩ := by
  have hlines : PlainText.titled "  Circular imports:"
      ([triangleGroup].map fun group =>
        "    " ++ PlainText.cycleText [⟨"/"⟩] group) =
        ["  Circular imports:", "    a.ts -> b.ts -> c.ts -> a.ts"] := by
    decide +kernel
  obtain ⟨above, below, htext⟩ :=
    mapLines_eq (importMap triangleCorpus {} defaultStatsLimit)
  have hroot : (importMap triangleCorpus {} defaultStatsLimit).root =
    ⟨"/"⟩ := by decide +kernel
  rw [triangleCorpus_circular, hroot, hlines] at htext
  refine ⟨(Corpus.loaded_new _ _ _).loadAll _ _, triangleCorpus_distinctKeys,
    ⟨above, below, htext⟩, ?_⟩
  decide +kernel

end ImportAtlas
