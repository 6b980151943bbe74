import ImportAtlas.Proofs.CorpusLog
import ImportAtlas.Proofs.ImportCycles

/-!
# Cycles of files

The groups of an import map are cycles of files up to their identities: between
any two files of a group there is a walk of imports that stays inside the
group.  Where no other path that is mentioned has the identity of a file of the
group, it is a walk of the very files.
-/

namespace ImportAtlas

open Relation

/-! ## Walks inside a group -/

def JoinsWithin (imports : Path → Path → Prop) (group : List Path)
    (file target : Path) : Prop :=
  file ∈ group ∧ target ∈ group ∧ imports file target

/-- Whether a group of files is a cycle: a file alone imports itself, and
several ones reach each other. -/
structure CycleOf (imports : Path → Path → Prop) (group : List Path) :
    Prop where
  alone : ∀ file, group = [file] → imports file file
  together : ∀ file ∈ group, ∀ other ∈ group, file ≠ other →
    TransGen (JoinsWithin imports group) file other

theorem step_of_walk {α : Type} {step : α → α → Prop} {first last : α}
    (h : TransGen step first last)
    (hends : ∀ place next, step place next → place = first ∨ place = last) :
    step first last := by
  suffices hwalk : ∀ place, TransGen step first place → place = last →
    step first last from hwalk last h rfl
  intro place hplace
  induction hplace with
  | single hstep =>
      rintro rfl
      exact hstep
  | tail _ hstep ih =>
      rintro rfl
      rcases hends _ _ hstep with rfl | hlast
      · exact hstep
      · exact ih hlast

section Mono

variable {imports imports' : Path → Path → Prop} {group : List Path}

theorem JoinsWithin.walk_mono (himports : ∀ file ∈ group,
      ∀ target ∈ group, imports file target → imports' file target)
    {file target : Path}
    (h : TransGen (JoinsWithin imports group) file target) :
    TransGen (JoinsWithin imports' group) file target := by
  refine TransGen.mono ?_ _ _ h
  rintro place next ⟨hplace, hnext, hjoins⟩
  exact ⟨hplace, hnext, himports place hplace next hnext hjoins⟩

theorem CycleOf.mono (h : CycleOf imports group)
    (himports : ∀ file ∈ group, ∀ target ∈ group, imports file target →
      imports' file target) :
    CycleOf imports' group := by
  constructor
  · intro file hfile
    have hmember : file ∈ group := by
      rw [hfile]; exact List.mem_singleton_self file
    exact himports file hmember file hmember (h.alone file hfile)
  · intro file hfile other hother hne
    exact JoinsWithin.walk_mono himports
      (h.together file hfile other hother hne)

end Mono

namespace GraphLog

variable {log : GraphLog} {group : List Path} {file target : Path}

theorem reaches_of_mem_cycle (hgroup : group ∈ log.graph.cycles)
    (hfile : file ∈ group) (htarget : target ∈ group) :
    log.Reaches (.file file.key) (.file target.key) :=
  ((mem_same_cycle_iff (mem_firstMentions_of_mem_cycles hgroup hfile)
    (mem_firstMentions_of_mem_cycles hgroup htarget)).1 ⟨group, hgroup,
    hfile, htarget⟩).1

private theorem eq_of_mem_cycle (hgroup : group ∈ log.graph.cycles)
    (hfile : file ∈ group) (htarget : target ∈ group)
    (hkey : file.key = target.key) : file = target := by
  have hfirst :=
    mem_firstMentions.1 (mem_firstMentions_of_mem_cycles hgroup hfile)
  have hsecond :=
    mem_firstMentions.1 (mem_firstMentions_of_mem_cycles hgroup htarget)
  rw [NodeKey.of, hkey] at hfirst
  exact Target.file.inj (Option.some.inj (hfirst.symm.trans hsecond))

def ImportsFile (log : GraphLog) (file target : Path) : Prop :=
  log.Imports (.file file.key) (.file target.key)

theorem walk_within (hgroup : group ∈ log.graph.cycles) (hfile : file ∈ group)
    (htarget : target ∈ group) :
    TransGen (JoinsWithin log.ImportsFile group) file target := by
  -- Whatever the walk passes on its way back to the file lies on a cycle with
  -- it.
  have hwalk : ∀ key, log.Reaches (.file file.key) key →
      log.Reaches key (.file file.key) →
      ∃ other ∈ group, key = .file other.key ∧
        TransGen (JoinsWithin log.ImportsFile group) file other := by
    intro key hto
    induction hto with
    | single hstep =>
        intro hback
        obtain ⟨other, hother, rfl⟩ :=
          exists_mem_cycle hgroup hfile (.single hstep) hback
        exact ⟨other, hother, rfl, .single ⟨hfile, hother, hstep⟩⟩
    | tail hbefore hstep ih =>
        intro hback
        obtain ⟨other, hother, rfl⟩ :=
          exists_mem_cycle hgroup hfile (hbefore.tail hstep) hback
        obtain ⟨last, hlast, rfl, hwalk⟩ := ih (.head hstep hback)
        exact ⟨other, hother, rfl, hwalk.tail ⟨hlast, hother, hstep⟩⟩
  obtain ⟨other, hother, hkey, hwalk⟩ := hwalk
    _ (reaches_of_mem_cycle hgroup hfile htarget)
    (reaches_of_mem_cycle hgroup htarget hfile)
  rw [eq_of_mem_cycle hgroup htarget hother (NodeKey.file.inj hkey)]
  exact hwalk

private theorem cycleOf_mem_cycles (hgroup : group ∈ log.graph.cycles) :
    CycleOf log.ImportsFile group := by
  constructor
  · rintro file rfl
    have hfile := List.mem_singleton_self file
    refine (step_of_walk (walk_within hgroup hfile hfile) fun place
      next hstep => .inl ?_).2.2
    exact List.mem_singleton.1 hstep.1
  · exact fun file hfile other hother _ => walk_within hgroup hfile hother

end GraphLog

/-! ## Imports of a corpus -/

namespace Corpus

def ImportsFile (corpus : Corpus) (styles : StyleFilter) (file target : Path) :
    Prop :=
  ∃ module ∈ corpus.modules, module.path.same file = true ∧
    ∃ record ∈ keptImports styles module, ∃ found,
    record.resolved = some (.file found) ∧ found.same target = true

/-- Whether the like holds of paths with the identities of the two. -/
def ImportsIdentity (corpus : Corpus) (styles : StyleFilter)
    (file target : Path) : Prop :=
  ∃ importer found, importer.sameFile file = true ∧
    found.sameFile target = true ∧
    corpus.ImportsFile styles importer found

def mentioned (corpus : Corpus) (styles : StyleFilter) : List Path :=
  corpus.modules.flatMap fun module =>
    module.path :: (keptImports styles module).filterMap fun record =>
      record.resolved.bind Target.file?

/-- Whether no other path that is mentioned has the identity of a file. -/
def HasOwnIdentity (corpus : Corpus) (styles : StyleFilter) (file : Path) :
    Prop :=
  ∀ other ∈ corpus.mentioned styles, other.sameFile file = true →
    other.same file = true

instance (corpus : Corpus) (styles : StyleFilter) (file : Path) :
    Decidable (corpus.HasOwnIdentity styles file) :=
  inferInstanceAs (Decidable (∀ other ∈ corpus.mentioned styles, _ → _))

variable {corpus : Corpus} {styles : StyleFilter} {file target : Path}

private theorem importsIdentity_iff :
    corpus.ImportsIdentity styles file target ↔
      (corpusLog styles corpus.modules).ImportsFile file target := by
  constructor
  · rintro ⟨importer, found, himporter, hfound, module, hmodule, hpath, record,
      hrecord, path, hresolved, htarget⟩
    refine ⟨_, mem_imports_corpusLog.2 ⟨module, hmodule, record, hrecord, path,
      hresolved, rfl⟩, ?_, ?_⟩
    · rw [Path.key_eq_of_same hpath, Path.sameFile_iff.1 himporter]
    · rw [NodeKey.of, Path.key_eq_of_same htarget, Path.sameFile_iff.1 hfound]
  · rintro ⟨entry, hentry, hsource, htarget⟩
    obtain ⟨module, hmodule, record, hrecord, path, hresolved, rfl⟩ :=
      mem_imports_corpusLog.1 hentry
    refine ⟨module.path, path, ?_, ?_, module, hmodule, Path.same_refl _,
      record, hrecord, path, hresolved, Path.same_refl _⟩
    · exact Path.sameFile_iff.2 (NodeKey.file.inj hsource).symm
    · exact Path.sameFile_iff.2 (NodeKey.file.inj htarget).symm

private theorem ImportsIdentity.importsFile
    (h : corpus.ImportsIdentity styles file target)
    (hfile : corpus.HasOwnIdentity styles file)
    (htarget : corpus.HasOwnIdentity styles target) :
    corpus.ImportsFile styles file target := by
  obtain ⟨importer, found, himporter, hfound, module, hmodule, hpath, record,
    hrecord, path, hresolved, hsame⟩ := h
  have hkey := (Path.key_eq_of_same hpath).trans (Path.sameFile_iff.1 himporter)
  have htargetKey :=
    (Path.key_eq_of_same hsame).trans (Path.sameFile_iff.1 hfound)
  refine ⟨module, hmodule, hfile _ ?_ (Path.sameFile_iff.2 hkey), record,
    hrecord, path, hresolved, htarget _ ?_ (Path.sameFile_iff.2 htargetKey)⟩
  · exact List.mem_flatMap.2 ⟨module, hmodule, List.mem_cons_self⟩
  · refine List.mem_flatMap.2 ⟨module, hmodule,
      List.mem_cons_of_mem _ (List.mem_filterMap.2 ⟨record, hrecord, ?_⟩)⟩
    rw [hresolved]
    rfl

end Corpus

variable {corpus : Corpus} {styles : StyleFilter} {statsLimit : Nat}

theorem circular_eq :
    (importMap corpus styles statsLimit).stats.circular =
      (corpusLog styles corpus.modules).graph.cycles := by
  rw [← importGraph_eq_graph]
  rfl

/--
Every group of an import map is a cycle of files up to their identities, and a
cycle of the very files if no other path that is mentioned has the identity of
one of them.
-/
theorem circular_groups_are_cycles_of_identities (corpus : Corpus)
    (styles : StyleFilter) (statsLimit : Nat) :
    ∀ group ∈ (importMap corpus styles statsLimit).stats.circular,
      CycleOf (corpus.ImportsIdentity styles) group ∧
        ((∀ file ∈ group, corpus.HasOwnIdentity styles file) →
          CycleOf (corpus.ImportsFile styles) group) := by
  intro group hgroup
  rw [circular_eq] at hgroup
  have hcycle : CycleOf (corpus.ImportsIdentity styles) group :=
    (GraphLog.cycleOf_mem_cycles hgroup).mono fun _ _ _ _ =>
      Corpus.importsIdentity_iff.2
  refine ⟨hcycle, fun hown =>
    hcycle.mono fun file hfile target htarget himports => ?_⟩
  exact himports.importsFile (hown file hfile) (hown target htarget)

/-! ## Small projects -/

theorem groupFiles_mem_circular (statsLimit : Nat) {numbers : List Nat}
    (hnumbers : numbers ∈ (importGraph styles corpus.modules).groups) :
    (importGraph styles corpus.modules).groupFiles numbers ∈
      (importMap corpus styles statsLimit).stats.circular := by
  rw [importGraph_eq_graph] at hnumbers ⊢
  rw [circular_eq]
  exact (GraphLog.filesImport_graph _).mem_cycles.2 ⟨numbers, hnumbers, rfl⟩

def hingeTree : FileTree :=
  ⟨[("a.ts", .file (some "import './b';")),
    ("b.ts", .file (some "import './a';\nimport './c';")),
    ("c.ts", .file (some "import './b';"))]⟩

def hingeCorpus : Corpus :=
  ((Corpus.new ⟨"/"⟩ (Resolver.new none)).loadAll hingeTree
    [⟨"/a.ts"⟩, ⟨"/b.ts"⟩, ⟨"/c.ts"⟩] defaultBatchSize).1

theorem hinge_files_reach_each_other :
    ∃ group ∈ (importMap hingeCorpus {} defaultStatsLimit).stats.circular,
      ⟨"/a.ts"⟩ ∈ group ∧ ⟨"/c.ts"⟩ ∈ group ∧
      TransGen (JoinsWithin (hingeCorpus.ImportsFile {}) group)
        ⟨"/c.ts"⟩ ⟨"/a.ts"⟩ := by
  obtain ⟨hgroups, hfirst, hlast, hown⟩ :
      [0, 1, 2] ∈ (importGraph {} hingeCorpus.modules).groups ∧
        (importGraph {} hingeCorpus.modules).filePath? 0 = some ⟨"/a.ts"⟩ ∧
        (importGraph {} hingeCorpus.modules).filePath? 2 = some ⟨"/c.ts"⟩ ∧
        ∀ index ∈ [0, 1, 2],
          ∀ file ∈ (importGraph {} hingeCorpus.modules).filePath? index,
          hingeCorpus.HasOwnIdentity {} file := by
    decide +kernel
  have hgroup := groupFiles_mem_circular defaultStatsLimit hgroups
  have hmember : ⟨"/a.ts"⟩ ∈ (importGraph {} hingeCorpus.modules).groupFiles
      [0, 1, 2] :=
    ImportGraph.mem_groupFiles.2 ⟨0, by simp, hfirst⟩
  have hmember' : ⟨"/c.ts"⟩ ∈ (importGraph {} hingeCorpus.modules).groupFiles
      [0, 1, 2] :=
    ImportGraph.mem_groupFiles.2 ⟨2, by simp, hlast⟩
  have hcycle :=
    (circular_groups_are_cycles_of_identities hingeCorpus {} defaultStatsLimit
      _ hgroup).2 fun file hfile => by
        obtain ⟨index, hindex, hpath⟩ := ImportGraph.mem_groupFiles.1 hfile
        exact hown index hindex file hpath
  exact ⟨_, hgroup, hmember, hmember',
    hcycle.together _ hmember' _ hmember (by decide)⟩

def echoTree : FileTree :=
  ⟨[("a.ts", .file (some "")), ("a.tsx", .file (some "import './a.ts';"))]⟩

def echoCorpus : Corpus :=
  ((Corpus.new ⟨"/"⟩ (Resolver.new none)).loadAll echoTree
    [⟨"/a.ts"⟩, ⟨"/a.tsx"⟩] defaultBatchSize).1

def outsideTree : FileTree :=
  ⟨[("0.ts", .file (some "import './a.js';")), ("a.js", .file (some "")),
    ("a.ts", .file (some "import './0';"))]⟩

def outsideCorpus : Corpus :=
  ((Corpus.new ⟨"/"⟩ (Resolver.new none)).loadAll outsideTree
    [⟨"/0.ts"⟩, ⟨"/a.ts"⟩] defaultBatchSize).1

theorem not_importsFile {file target : Path}
    (h : ∀ module ∈ corpus.modules, module.path.same file = true →
      keptImports styles module = []) :
    ¬corpus.ImportsFile styles file target := by
  rintro ⟨module, hmodule, hpath, record, hrecord, -⟩
  rw [h module hmodule hpath] at hrecord
  contradiction

/--
Files of one identity make cycles that no files form: a file that imports
nothing is a cycle alone, and in a corpus of different identities a file
outside of it is on a cycle.
-/
theorem cycles_of_identities_without_files :
    (echoCorpus.Loaded echoTree ∧
      [⟨"/a.ts"⟩] ∈ (importMap echoCorpus {} defaultStatsLimit).stats.circular ∧
      ¬CycleOf (echoCorpus.ImportsFile {}) [⟨"/a.ts"⟩]) ∧
    (outsideCorpus.Loaded outsideTree ∧ outsideCorpus.DistinctKeys ∧
      ∃ group ∈ (importMap outsideCorpus {} defaultStatsLimit).stats.circular,
        ⟨"/0.ts"⟩ ∈ group ∧ ⟨"/a.js"⟩ ∈ group ∧
        ¬CycleOf (outsideCorpus.ImportsFile {}) group) := by
  constructor
  · obtain ⟨hgroups, hpath, hnone⟩ :
        [0] ∈ (importGraph {} echoCorpus.modules).groups ∧
          (importGraph {} echoCorpus.modules).filePath? 0 = some ⟨"/a.ts"⟩ ∧
          ∀ module ∈ echoCorpus.modules, module.path.same ⟨"/a.ts"⟩ = true →
            keptImports {} module = [] := by
      decide +kernel
    have hgroup := groupFiles_mem_circular defaultStatsLimit hgroups
    have hfiles : (importGraph {} echoCorpus.modules).groupFiles [0] =
        [⟨"/a.ts"⟩] := by
      simp [ImportGraph.groupFiles, Path.sort, hpath]
    rw [hfiles] at hgroup
    refine ⟨(Corpus.loaded_new _ _ _).loadAll _ _, hgroup, fun hcycle => ?_⟩
    exact not_importsFile hnone (hcycle.alone _ rfl)
  · obtain ⟨hkeys, hgroups, hfirst, hlast, hnone⟩ :
        outsideCorpus.DistinctKeys ∧
          [0, 1] ∈ (importGraph {} outsideCorpus.modules).groups ∧
          (importGraph {} outsideCorpus.modules).filePath? 0 = some ⟨"/0.ts"⟩ ∧
          (importGraph {} outsideCorpus.modules).filePath? 1 = some ⟨"/a.js"⟩ ∧
          ∀ module ∈ outsideCorpus.modules, module.path.same ⟨"/a.js"⟩ = true →
            keptImports {} module = [] := by
      decide +kernel
    have hmember :
        ⟨"/0.ts"⟩ ∈ (importGraph {} outsideCorpus.modules).groupFiles [0, 1] :=
      ImportGraph.mem_groupFiles.2 ⟨0, by simp, hfirst⟩
    have hmember' :
        ⟨"/a.js"⟩ ∈ (importGraph {} outsideCorpus.modules).groupFiles [0, 1] :=
      ImportGraph.mem_groupFiles.2 ⟨1, by simp, hlast⟩
    refine ⟨(Corpus.loaded_new _ _ _).loadAll _ _, hkeys, _,
      groupFiles_mem_circular _ hgroups, hmember, hmember', ?_⟩
    intro hcycle
    obtain ⟨next, hstep, -⟩ :=
      TransGen.head'_iff.1 (hcycle.together _ hmember' _ hmember (by decide))
    exact not_importsFile hnone hstep.2.2

end ImportAtlas
