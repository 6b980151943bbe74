import ImportAtlas.Proofs.ImportMapConsistency
import ImportAtlas.Proofs.UnusedFiles

/-!
# Files that are called not imported

A file is called not imported exactly when no module with another identity
imports it.  An importer with the identity of the file does not count, although
it may be another file: the keys of `Foo.ts` and `Foo.vue` agree.  The import
map of the corpus draws the line at the same place.
-/

namespace ImportAtlas

/-- Whether a module with another identity imports a file. -/
def Corpus.ImportedByOther (corpus : Corpus) (file : Path) : Prop :=
  ∃ importer ∈ corpus.modules, importer.path.sameFile file = false ∧
    ∃ record ∈ importer.imports, record.ResolvesTo file

variable {tree : FileTree} {corpus : Corpus} {file : Path}

/-! ## What an index file passes on -/

namespace PassedOn

variable {state : PassedOn}

structure Avoids (corpus : Corpus) (key : String) (state : PassedOn) :
    Prop where
  found : key ∉ state.found
  pending : ∀ module ∈ state.pending, module ∈ corpus.modules ∧
    module.path.key ≠ key

private theorem key_ne_of_mem_passedOnFiles (hresolved : corpus.ResolvedIn tree)
    (hnone : ¬corpus.ImportedByOther file)
    {module : FileModule} (hmember : module ∈ corpus.modules)
    (hother : module.path.key ≠ file.key) {path : Path}
    (hpath : path ∈ passedOnFiles tree corpus.resolver module) :
    path.key ≠ file.key := by
  intro hkey
  obtain ⟨record, hrecord, -, hfound⟩ :=
    (mem_passedOnFiles hresolved hmember).1 hpath
  apply hnone
  refine ⟨module, hmember, ?_, record, hrecord,
    ImportRecord.resolvesTo_iff.2 ⟨path, hfound, hkey⟩⟩
  simpa [Path.sameFile] using hother

theorem Avoids.step (hresolved : corpus.ResolvedIn tree)
    (hnone : ¬corpus.ImportedByOther file) (h : Avoids corpus file.key state)
    {module : FileModule} {pending : List FileModule}
    (hpending : state.pending = module :: pending) :
    Avoids corpus file.key
      ((passedOnFiles tree corpus.resolver module).foldl (note corpus.modules)
        { state with pending := pending }) := by
  have hnoted := noted_foldl corpus.modules { state with pending := pending }
    (passedOnFiles tree corpus.resolver module)
  obtain ⟨hmember, hother⟩ := h.pending module (by simp [hpending])
  have hpaths : ∀ path ∈ passedOnFiles tree corpus.resolver module,
      path.key ≠ file.key :=
    fun path => key_ne_of_mem_passedOnFiles hresolved hnone hmember hother
  constructor
  case found =>
    intro hfound
    rcases (hnoted.found _).1 hfound with hfound | ⟨path, hpath, hkey⟩
    · exact h.found hfound
    · exact hpaths path hpath hkey
  case pending =>
    intro next hnext
    rcases (hnoted.pending next).1 hnext
      with hnext | ⟨path, hpath, -, -, hmodule⟩
    · exact h.pending next (by simp [hpending, hnext])
    · obtain ⟨hnextMember, hkey⟩ := mem_of_moduleByKey? hmodule
      exact ⟨hnextMember, by rw [hkey]; exact hpaths path hpath⟩

private theorem key_mem_found_run {key : String} (resolver : Resolver)
    (modules : List FileModule) (steps : Nat) (h : key ∈ state.found) :
    key ∈ (state.run tree resolver modules steps).found :=
  run_invariant (p :=
    fun state => key ∈ state.found) (fun before _ pending hfound _ =>
    ((noted_foldl modules { before with pending := pending } _).found key).2
      (.inl hfound)) h steps

end PassedOn

private theorem key_not_mem_passedOnKeys (hresolved : corpus.ResolvedIn tree)
    (hnone : ¬corpus.ImportedByOther file)
    {index : FileModule} (hmember : index ∈ corpus.modules) :
    file.key ∉ passedOnKeys tree corpus index := by
  simp only [passedOnKeys, List.mem_filter, bne_iff_ne, not_and, not_not]
  intro hfound
  by_contra hother
  have hstart : PassedOn.Avoids corpus file.key
      ⟨[], [index.path.key], [index]⟩ :=
    ⟨by simp, by simpa using ⟨hmember, Ne.symm hother⟩⟩
  have hended := PassedOn.run_invariant
    (fun _ _ _ hstate hpending => hstate.step hresolved hnone hpending) hstart
    (corpus.modules.length + 1)
  exact hended.found hfound

private theorem key_mem_passedOnKeys_of_forwardsFile
    (hresolved : corpus.ResolvedIn tree) {index : FileModule}
    (hmember : index ∈ corpus.modules) (hother : index.path.key ≠ file.key)
    (h : index.ForwardsFile file) :
    file.key ∈ passedOnKeys tree corpus index := by
  obtain ⟨path, hpath, hkey⟩ := (forwardsFile_iff hresolved hmember).1 h
  simp only [passedOnKeys, List.mem_filter, bne_iff_ne]
  refine ⟨?_, Ne.symm hother⟩
  simp only [PassedOn.run]
  apply PassedOn.key_mem_found_run
  exact ((PassedOn.noted_foldl corpus.modules _ _).found _).2
    (.inr ⟨path, hpath, hkey⟩)

/-! ## The reason -/

private theorem unusedFile?_eq_notImported :
    unusedFile? tree corpus file = some ⟨file, .notImported⟩ ↔
      ¬corpus.UsesFile file ∧ ∀ index ∈ corpus.indexFiles,
      file.key ∉ passedOnKeys tree corpus index := by
  have hreason : Corpus.reasonFor (Corpus.firstIndex? tree corpus file) =
      .notImported ↔
      ∀ index ∈ corpus.indexFiles,
        file.key ∉ passedOnKeys tree corpus index := by
    cases hfirst : Corpus.firstIndex? tree corpus file with
    | none => simpa [Corpus.reasonFor, Corpus.firstIndex?] using hfirst
    | some index =>
        have hmember := List.mem_of_find?_eq_some hfirst
        have hpassed := List.find?_some hfirst
        simp only [Corpus.reasonFor, reduceCtorEq, false_iff]
        exact fun hnone => hnone index hmember (by simpa using hpassed)
  rw [unusedFile?, Option.ite_none_left_eq_some, Option.some.injEq,
    UnusedFile.mk.injEq, hreason, ← key_mem_usedKeys]
  simp only [Bool.or_eq_true, List.any_eq_true, Bool.and_eq_true,
    List.contains_iff_mem, not_or, true_and]
  constructor
  · rintro ⟨⟨hunused, -⟩, hnone⟩
    exact ⟨hunused, hnone⟩
  · rintro ⟨hunused, hnone⟩
    refine ⟨⟨hunused, ?_⟩, hnone⟩
    rintro ⟨index, hindex, -, hkey⟩
    exact hnone index hindex hkey

theorem unusedFile?_notImported_iff (hresolved : corpus.ResolvedIn tree) :
    unusedFile? tree corpus file = some ⟨file, .notImported⟩ ↔
      ¬corpus.ImportedByOther file := by
  rw [unusedFile?_eq_notImported]
  constructor
  · rintro ⟨hunused, hnone⟩ ⟨importer, hmember, hother, record, hrecord, hfile⟩
    -- An import that is no use is one that an index file forwards, and then
    -- the index file is blamed.
    by_cases hforwards : isIndexFile importer.path = true ∧
      importer.forwards record = true
    · refine hnone importer (Corpus.mem_indexFiles.2 ⟨hmember, hforwards.1⟩) ?_
      refine key_mem_passedOnKeys_of_forwardsFile hresolved hmember ?_ ⟨record,
        hrecord, hforwards.2, hfile⟩
      simpa [Path.sameFile] using hother
    · exact hunused ⟨importer, hmember, hother, record, hrecord,
        hfile, hforwards⟩
  · intro hnone
    constructor
    · rintro ⟨importer, hmember, hother, record, hrecord, hfile, -⟩
      exact hnone ⟨importer, hmember, hother, record, hrecord, hfile⟩
    · intro index hindex
      exact key_not_mem_passedOnKeys hresolved hnone
        (Corpus.mem_indexFiles.1 hindex).1

theorem unusedFile?_file {unused : UnusedFile}
    (h : unusedFile? tree corpus file = some unused) :
    unused.file = file := by
  rw [unusedFile?, Option.ite_none_left_eq_some, Option.some.injEq] at h
  rw [← h.2]

theorem exists_module_of_mem_unusedFiles {filter : Option String}
    {unused : UnusedFile} (h : unused ∈ unusedFiles tree corpus filter) :
    ∃ module ∈ corpus.modules, unused.file = module.path ∧
      unusedFile? tree corpus module.path = some unused := by
  rw [unusedFiles_eq] at h
  obtain ⟨module, hmodule, hunused⟩ := List.mem_filterMap.1 h
  exact ⟨module, (List.mem_filter.1 hmodule).1, unusedFile?_file hunused,
    hunused⟩

theorem mem_unusedFiles {filter : Option String} {module : FileModule}
    (hmember : module ∈ corpus.modules) {reason : UnusedReason} :
    ⟨module.path, reason⟩ ∈ unusedFiles tree corpus filter ↔
      (∀ part, filter = some part → part.toList <:+: module.path.text.toList) ∧
        unusedFile? tree corpus module.path = some ⟨module.path, reason⟩ := by
  have hmatches (other : FileModule) :
      (filter.all fun part => containsText part.toList other.path.text.toList) =
        true ↔
        ∀ part, filter = some part →
          part.toList <:+: other.path.text.toList := by
    cases filter <;> simp [containsText_iff]
  rw [unusedFiles_eq, List.mem_filterMap]
  simp only [List.mem_filter, hmatches]
  constructor
  · rintro ⟨other, ⟨-, hfilter⟩, hunused⟩
    have hpath : module.path = other.path := unusedFile?_file hunused
    rw [hpath] at hunused ⊢
    exact ⟨hfilter, hunused⟩
  · rintro ⟨hfilter, hunused⟩
    exact ⟨module, ⟨hmember, hfilter⟩, hunused⟩

/--
A file of a loaded corpus whose path contains the filter is called not imported
exactly when every module that imports it has the identity of the file itself.
-/
theorem notImported_iff_own_identity_imports (hloaded : corpus.Loaded tree)
    (filter : Option String) {module : FileModule}
    (hmember : module ∈ corpus.modules) :
    ⟨module.path, .notImported⟩ ∈ unusedFiles tree corpus filter ↔
      (∀ part, filter = some part → part.toList <:+: module.path.text.toList) ∧
        ∀ importer ∈ corpus.modules, ∀ record ∈ importer.imports,
          record.ResolvesTo module.path →
          importer.path.sameFile module.path = true := by
  rw [mem_unusedFiles hmember, unusedFile?_notImported_iff hloaded.resolved]
  refine and_congr_right fun _ => ?_
  simp only [Corpus.ImportedByOther, not_exists, not_and]
  constructor
  · intro hnone importer himporter record hrecord hfile
    by_contra hother
    exact hnone importer himporter (by simpa using hother) record hrecord hfile
  · intro hown importer himporter hother record hrecord hfile
    simp [hown importer himporter record hrecord hfile] at hother

def componentTree : FileTree :=
  ⟨[("Foo.ts", .file (some "")),
    ("Foo.vue",
      .file (some "<script>import \x7b a \x7d from './Foo.ts';</script>"))]⟩

def componentCorpus : Corpus :=
  ((Corpus.new ⟨"/"⟩ (Resolver.new none)).loadAll componentTree
    [⟨"/Foo.ts"⟩, ⟨"/Foo.vue"⟩] defaultBatchSize).1

theorem componentCorpus_loaded : componentCorpus.Loaded componentTree :=
  (Corpus.loaded_new componentTree _ _).loadAll _ _

theorem component_has_identity_of_script :
    ∃ script ∈ componentCorpus.modules, script.path = ⟨"/Foo.ts"⟩ ∧
      ⟨script.path, .notImported⟩ ∈
        unusedFiles componentTree componentCorpus none ∧
      ∃ component ∈ componentCorpus.modules, component.path = ⟨"/Foo.vue"⟩ ∧
        component.path.sameFile script.path = true := by
  obtain ⟨script, hscript, hpath, hunused, component, hcomponent, hvue, record,
      hrecord, found, hfound, hfile⟩ :
      ∃ script ∈ componentCorpus.modules, script.path = ⟨"/Foo.ts"⟩ ∧
        ⟨script.path, .notImported⟩ ∈
          unusedFiles componentTree componentCorpus none ∧
        ∃ component ∈ componentCorpus.modules, component.path = ⟨"/Foo.vue"⟩ ∧
          ∃ record ∈ component.imports, ∃ found ∈ record.resolved,
            found.isFile script.path = true := by
    decide +kernel
  have hown :=
    ((notImported_iff_own_identity_imports componentCorpus_loaded none
      hscript).1 hunused).2
  exact ⟨script, hscript, hpath, hunused, component, hcomponent, hvue,
    hown component hcomponent record hrecord ⟨found, hfound, hfile⟩⟩

theorem imported_script_called_notImported :
    componentCorpus.Loaded componentTree ∧
      ⟨⟨"/Foo.ts"⟩, .notImported⟩ ∈
        unusedFiles componentTree componentCorpus none ∧
      ∃ component ∈ componentCorpus.modules,
        component.path.same ⟨"/Foo.ts"⟩ = false ∧
        ∃ record ∈ component.imports, record.resolved =
          some (.file ⟨"/Foo.ts"⟩) := by
  refine ⟨componentCorpus_loaded, ?_⟩
  decide +kernel

/-! ## The import map -/

section ImportMaps

variable {styles : StyleFilter} {statsLimit : Nat}

theorem Corpus.ImportedByOther.listed (h : corpus.ImportedByOther file)
    (hordered : corpus.Ordered)
    (hstyles : ∀ style, styles.allows style = true) :
    ∃ key importers,
      (key, importers) ∈ (importMap corpus styles statsLimit).importedBy ∧
      key.sameFile file = true ∧
      (∃ importer ∈ importers, importer.sameFile file = false) ∧
      ∀ other others,
        (other, others) ∈ (importMap corpus styles statsLimit).importedBy →
        other.sameFile file = true → others = importers := by
  obtain ⟨module, hmember, hother, record, hrecord, hfile⟩ := h
  obtain ⟨target, htarget, hkey⟩ := ImportRecord.resolvesTo_iff.1 hfile
  have hresolved : record.resolved = some (.file target) := by
    cases hfound : record.resolved with
    | none => simp [hfound] at htarget
    | some found => cases found <;> simp_all [Target.file?]
  have hkept : record ∈ keptImports styles module := by
    simp [keptImports, hrecord, hstyles]
  have hentry : (module.path, keptImports styles module) ∈
      (importMap corpus styles statsLimit).imports :=
    (mem_imports hordered).2 ⟨module, hmember, rfl, rfl⟩
  obtain ⟨key, importers, hlisted, htargetKey, ⟨importer, himporter, hmodule⟩,
      hunique⟩ :=
    importMap_forward hordered hentry hkept hresolved
  simp only [Path.sameFile_iff] at htargetKey hmodule hunique
  simp only [← Bool.not_eq_true, Path.sameFile_iff] at hother ⊢
  refine ⟨key, importers, hlisted, htargetKey.trans hkey,
    ⟨importer, himporter, ?_⟩, ?_⟩
  · rw [hmodule]
    exact hother
  · intro other others hentry hsame
    exact (hunique other others hentry (hsame.trans hkey.symm)).2

private theorem importedByOther_of_listed (hordered : corpus.Ordered)
    {key importer : Path} {importers : List Path}
    (hlisted : (key, importers) ∈
      (importMap corpus styles statsLimit).importedBy) (hkey :
      key.sameFile file = true)
    (himporter : importer ∈ importers)
    (hother : importer.sameFile file = false) :
    corpus.ImportedByOther file := by
  obtain ⟨path, records, hentry, hsame, record, hrecord, hfile⟩ :=
    importMap_backward hordered hlisted himporter
  obtain ⟨module, hmember, rfl, rfl⟩ := (mem_imports hordered).1 hentry
  obtain ⟨target, htarget, htargetKey⟩ := ImportRecord.resolvesTo_iff.1 hfile
  simp only [Path.sameFile_iff] at hsame hkey
  refine ⟨module, hmember, ?_, record, (List.mem_filter.1 hrecord).1,
    ImportRecord.resolvesTo_iff.2 ⟨target, htarget, htargetKey.trans hkey⟩⟩
  rw [Path.sameFile, hsame]
  exact hother

end ImportMaps

/--
With all styles allowed, a file of a loaded corpus is called not imported
exactly when the import map lists no importers under its identity, or lists
only importers that have its identity themselves.
-/
theorem notImported_iff_importMap_lists_no_other (hloaded : corpus.Loaded tree)
    (styles : StyleFilter) (hstyles : ∀ style, styles.allows style = true)
    (statsLimit : Nat) {module : FileModule}
    (hmember : module ∈ corpus.modules) :
    ⟨module.path, .notImported⟩ ∈ unusedFiles tree corpus none ↔
      (∀ key importers,
        (key, importers) ∈ (importMap corpus styles statsLimit).importedBy →
          key.sameFile module.path = false) ∨
        ∃ key importers,
          (key, importers) ∈ (importMap corpus styles statsLimit).importedBy ∧
          key.sameFile module.path = true ∧
          ∀ importer ∈ importers, importer.sameFile module.path = true := by
  rw [mem_unusedFiles hmember, unusedFile?_notImported_iff hloaded.resolved]
  simp only [reduceCtorEq, false_implies, implies_true, true_and]
  constructor
  · intro hnone
    by_cases hlisted : ∃ key importers,
        (key, importers) ∈ (importMap corpus styles statsLimit).importedBy ∧
        key.sameFile module.path = true
    · obtain ⟨key, importers, hlisted, hkey⟩ := hlisted
      refine .inr ⟨key, importers, hlisted, hkey, fun importer himporter => ?_⟩
      by_contra hother
      exact hnone (importedByOther_of_listed hloaded.ordered hlisted hkey
        himporter (by simpa using hother))
    · refine .inl fun key importers hentry => ?_
      by_contra hkey
      exact hlisted ⟨key, importers, hentry, by simpa using hkey⟩
  · intro hmap hother
    obtain ⟨key, importers, hlisted, hkey, ⟨importer, himporter, hdifferent⟩,
        hunique⟩ :=
      hother.listed hloaded.ordered hstyles
    rcases hmap with habsent | ⟨other, others, hentry, hsame, hown⟩
    · simp [habsent key importers hlisted] at hkey
    · obtain rfl := hunique other others hentry hsame
      simp [hown importer himporter] at hdifferent

theorem script_listed_under_own_identity_only :
    ⟨⟨"/Foo.ts"⟩, .notImported⟩ ∈
      unusedFiles componentTree componentCorpus none ∧
      ∃ key importers,
        (key, importers) ∈
          (importMap componentCorpus {} defaultStatsLimit).importedBy ∧
        key.sameFile ⟨"/Foo.ts"⟩ = true ∧
        ∀ importer ∈ importers, importer.sameFile ⟨"/Foo.ts"⟩ = true := by
  obtain ⟨script, hscript, hpath, hunused, entry, hentry, hkey⟩ :
      ∃ script ∈ componentCorpus.modules, script.path = ⟨"/Foo.ts"⟩ ∧
        ⟨script.path, .notImported⟩ ∈
          unusedFiles componentTree componentCorpus none ∧
        ∃ entry ∈ (importMap componentCorpus {} defaultStatsLimit).importedBy,
          entry.1.sameFile script.path = true := by
    decide +kernel
  have hmap :=
    (notImported_iff_importMap_lists_no_other componentCorpus_loaded {}
      (fun _ => rfl)
    defaultStatsLimit hscript).1 hunused
  rw [hpath] at hunused hkey hmap
  refine ⟨hunused, hmap.resolve_left fun habsent => ?_⟩
  simp [habsent entry.1 entry.2 hentry] at hkey

end ImportAtlas
