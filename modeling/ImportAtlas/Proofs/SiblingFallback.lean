import ImportAtlas.Proofs.ReportedImports

/-!
# Index files beside a target

A search takes an import as a match also when it uses an index file beside the
target that passes the target on.  The walk through barrels finds these imports
by itself, except those by which such an index file imports itself: the walk
does not look for users of a barrel in the barrel.
-/

namespace ImportAtlas

variable {tree : FileTree} {corpus : Corpus} {styles : StyleFilter}
    {target : Path}

/-- An import by which an index file beside the target takes from itself what
it passes on of the target. -/
def SiblingSelfImport (tree : FileTree) (corpus : Corpus) (target : Path)
    (module : FileModule) (record : ImportRecord) : Prop :=
  ∃ index names, (index, names) ∈ Query.siblingBarrels tree corpus target ∧
    module.path.sameFile index = true ∧
    corpus.resolver.leadsTo tree module.path record module.path = true ∧
    usesAny record names = true

private theorem selfImport_or_consumer_of_sibling (hkeys : corpus.DistinctKeys)
    {module : FileModule} (hmember : module ∈ corpus.modules)
    {record : ImportRecord} (hrecord : record ∈ module.imports)
    (hallowed : styles.allows record.style = true) {index : Path}
    {names : NameSet}
    (hindex : (index, names) ∈ Query.siblingBarrels tree corpus target)
    (hleads : corpus.resolver.leadsTo tree module.path record index = true)
    (huses : usesAny record names = true) :
    SiblingSelfImport tree corpus target module record ∨
      ∃ count, ∃ carrier ∈ reachedBarrels tree corpus styles target count,
        Reports (carrier.consumers tree corpus styles) module.path.key
          record.identity := by
  by_cases hsame : module.path.sameFile index = true
  · rw [← Resolver.leadsTo_congr (Path.sameFile_iff.1 hsame)] at hleads
    exact .inl ⟨index, names, hindex, hsame, hleads, huses⟩
  · obtain ⟨barrel, hbarrel, hnonempty, rfl, hkey⟩ :=
      Query.exists_module_of_mem_siblingBarrels hindex
    obtain ⟨count, hreached⟩ : FirstArrival tree corpus styles target
        barrel.path _ :=
      FirstArrival.of_first hkeys hbarrel hnonempty
    have hother : module.path.sameFile barrel.path = false := by
      rw [Bool.eq_false_iff, Ne, Path.sameFile_iff, hkey, ← Path.sameFile_iff]
      exact hsame
    rw [← Resolver.leadsTo_congr hkey] at hleads
    exact .inr ⟨count, _, hreached,
      reports_consumers.2 ⟨module, hmember, rfl, hother, record, hrecord, rfl,
        hallowed, hleads, huses⟩⟩

/-! ## Searches with any index files -/

/-- The index files of a query count for the direct matches only: the barrels
that are followed stay the same. -/
theorem reports_searchResults (hloaded : corpus.Loaded tree)
    (hkeys : corpus.DistinctKeys)
    (hstyles : ∀ style, styles.allows style = true) (name : Option String)
    (siblings : List (Path × NameSet)) {key : String}
    {identity : ImportIdentity} :
    Reports (searchResults tree corpus styles ⟨name, some target, siblings⟩)
      key identity ↔
      (∃ module ∈ corpus.modules, module.path.key = key ∧
        ∃ record ∈ module.imports, record.identity = identity ∧
        Query.targetMatches siblings target record = true) ∨
      ∃ count, ∃ carrier ∈ reachedBarrels tree corpus styles target count,
        Reports (carrier.consumers tree corpus styles) key identity := by
  rw [searchResults_of_target hkeys, reports_traceBarrels hkeys.distinctPaths,
    directCarriers_of_matching hkeys.distinctPaths fun _ hmember _ hcarrier =>
      matchingImports_of_carrier? hloaded.resolved hstyles name siblings
        hmember hcarrier,
    reports_directImporters]
  simp only [hstyles, true_and, Query.accepts_of_target, reachedBarrels]

theorem reports_fileQuery_iff (hloaded : corpus.Loaded tree)
    (hkeys : corpus.DistinctKeys)
    (hstyles : ∀ style, styles.allows style = true) (name : Option String)
    {key : String} {identity : ImportIdentity} :
    Reports (searchResults tree corpus styles
      (fileQuery tree corpus name target)) key identity ↔
      Reports (searchResults tree corpus styles ⟨name, some target, []⟩)
        key identity ∨
        ∃ module ∈ corpus.modules, module.path.key = key ∧
          ∃ record ∈ module.imports, record.identity = identity ∧
          SiblingSelfImport tree corpus target module record := by
  rw [fileQuery, reports_searchResults hloaded hkeys hstyles,
    reports_searchResults hloaded hkeys hstyles]
  constructor
  · rintro (⟨module, hmember, rfl, record, hrecord, rfl, hmatch⟩ | hconsumer)
    · rcases (targetMatches_iff hloaded.resolved hmember hrecord).1 hmatch with
        hleads | ⟨index, names, hindex, hleads, huses⟩
      · have hmatch :=
          targetMatches_of_leadsTo hloaded.resolved hmember hrecord hleads []
        exact .inl (.inl ⟨module, hmember, rfl, record, hrecord, rfl, hmatch⟩)
      · rcases selfImport_or_consumer_of_sibling hkeys hmember hrecord
            (hstyles _) hindex hleads huses with
          hself | hconsumer
        · exact .inr ⟨module, hmember, rfl, record, hrecord, rfl, hself⟩
        · exact .inl (.inr hconsumer)
    · exact .inl (.inr hconsumer)
  · rintro ((⟨module, hmember, hkey, record, hrecord, hidentity, hmatch⟩
      | hconsumer) | ⟨module, hmember, hkey, record, hrecord, hidentity, index,
          names, hindex, hsame, hleads, huses⟩)
    · have hleads :=
        (targetMatches_iff hloaded.resolved hmember hrecord).1 hmatch
      refine .inl ⟨module, hmember, hkey, record, hrecord, hidentity, ?_⟩
      exact targetMatches_of_leadsTo hloaded.resolved hmember hrecord
        (by simpa using hleads) _
    · exact .inr hconsumer
    · rw [Resolver.leadsTo_congr (Path.sameFile_iff.1 hsame)] at hleads
      refine .inl ⟨module, hmember, hkey, record, hrecord, hidentity, ?_⟩
      exact (targetMatches_iff hloaded.resolved hmember hrecord).2
        (.inr ⟨index, names, hindex, hleads, huses⟩)

/-! ## What the index files add -/

def ReportedIn (results : List Importer) (file : Path)
    (identity : ImportIdentity) : Prop :=
  ∃ importer ∈ results, importer.file = file ∧
    identity ∈ identities importer.imports

instance (results : List Importer) (file : Path) (identity : ImportIdentity) :
    Decidable (ReportedIn results file identity) :=
  inferInstanceAs (Decidable (∃ importer ∈ results, _))

theorem reportedIn_iff (hkeys : corpus.DistinctKeys) {results : List Importer}
    (hfiles : ∀ importer ∈ results, ∃ module ∈ corpus.modules, module.path =
      importer.file) {file : Path}
    {identity : ImportIdentity} :
    ReportedIn results file identity ↔
      ∃ module ∈ corpus.modules, module.path = file ∧
        Reports results module.path.key identity := by
  constructor
  · rintro ⟨importer, himporter, rfl, hidentity⟩
    obtain ⟨module, hmember, hpath⟩ := hfiles importer himporter
    exact ⟨module, hmember, hpath, importer, himporter,
      by rw [hpath], hidentity⟩
  · rintro ⟨module, hmember, rfl, importer, himporter, hkey, hidentity⟩
    obtain ⟨other, hother, hpath⟩ := hfiles importer himporter
    rw [← hpath] at hkey
    obtain rfl := hkeys.eq_of_key hother hmember hkey
    exact ⟨importer, himporter, hpath.symm, hidentity⟩

/--
With all styles allowed and different identities, a search reports an import
exactly when it does so without the index files beside the target, or the import
is one by which such an index file imports itself.
-/
theorem siblings_add_own_imports_only (hloaded : corpus.Loaded tree)
    (hkeys : corpus.DistinctKeys) (name : Option String) {options : ScanOptions}
    {path : Path} (hpath : options.modulePath = some path)
    (hstyles : ∀ style, options.styles.allows style = true) (file : Path)
    (identity : ImportIdentity) :
    ReportedIn (searchCorpus tree corpus name options).results file identity ↔
      ReportedIn
          (searchResults tree corpus options.styles
            { Query.build tree corpus name options with siblings := [] })
          file identity ∨
        ∃ module ∈ corpus.modules, module.path = file ∧
          ∃ record ∈ module.imports, record.identity = identity ∧
          SiblingSelfImport tree corpus
            (corpus.resolver.resolveTarget tree path options.workingDirectory)
            module record := by
  simp only [searchCorpus, Query.build_of_modulePath name hpath]
  generalize corpus.resolver.resolveTarget tree path options.workingDirectory =
    target
  have hfiles : ∀ siblings, ∀ importer ∈ searchResults tree corpus
      options.styles ⟨name, some target, siblings⟩,
      ∃ module ∈ corpus.modules, module.path = importer.file := by
    intro siblings
    rw [searchResults_of_target hkeys]
    exact searchResults_files hkeys _ _ _
  rw [reportedIn_iff hkeys (hfiles _), reportedIn_iff hkeys (hfiles _)]
  constructor
  · rintro ⟨module, hmember, rfl, hreports⟩
    rcases (reports_fileQuery_iff hloaded hkeys hstyles name).1 hreports
      with hreports | ⟨other, hother, hkey, hself⟩
    · exact .inl ⟨module, hmember, rfl, hreports⟩
    · obtain rfl := hkeys.eq_of_key hother hmember hkey
      exact .inr ⟨other, hother, rfl, hself⟩
  · rintro (⟨module, hmember, rfl, hreports⟩ | ⟨module, hmember, rfl, hself⟩)
    · exact ⟨module, hmember, rfl,
        (reports_fileQuery_iff hloaded hkeys hstyles name).2 (.inl hreports)⟩
    · exact ⟨module, hmember, rfl,
        (reports_fileQuery_iff hloaded hkeys hstyles name).2
          (.inr ⟨module, hmember, rfl, hself⟩)⟩

def siblingTree : FileTree :=
  ⟨[("lib", .directory
      [("index.ts", .file (some
         "export \x7b A \x7d from './t';\nimport \x7b A as B \x7d from './index';")),
        ("t.ts", .file (some ""))]),
    ("user.ts", .file (some "import \x7b A \x7d from './lib';"))]⟩

def siblingCorpus : Corpus :=
  ((Corpus.new ⟨"/"⟩ (Resolver.new none)).loadAll siblingTree
    [⟨"/lib/index.ts"⟩, ⟨"/lib/t.ts"⟩, ⟨"/user.ts"⟩] defaultBatchSize).1

private theorem siblingCorpus_loaded : siblingCorpus.Loaded siblingTree :=
  (Corpus.loaded_new siblingTree _ _).loadAll _ _

def siblingSearch : ScanOptions :=
  { workingDirectory := ⟨"/"⟩, modulePath := some ⟨"/lib/t.ts"⟩ }

theorem sibling_reports_own_import :
    ReportedIn (searchCorpus siblingTree siblingCorpus none
      siblingSearch).results ⟨"/lib/index.ts"⟩
        ("./index", 2, .static) ∧
      ∃ module ∈ siblingCorpus.modules, module.path = ⟨"/lib/index.ts"⟩ ∧
        ∃ record ∈ module.imports,
        record.identity = ("./index", 2, .static) ∧
          SiblingSelfImport siblingTree siblingCorpus
            (siblingCorpus.resolver.resolveTarget siblingTree ⟨"/lib/t.ts"⟩
              siblingSearch.workingDirectory)
            module record := by
  obtain ⟨hkeys, hreported, hmissing⟩ :
      siblingCorpus.DistinctKeys ∧
        ReportedIn (searchCorpus siblingTree siblingCorpus none
          siblingSearch).results ⟨"/lib/index.ts"⟩ ("./index", 2, .static) ∧
        ¬ReportedIn
          (searchResults siblingTree siblingCorpus siblingSearch.styles
          { Query.build siblingTree siblingCorpus none siblingSearch with
            siblings := [] }) ⟨"/lib/index.ts"⟩
          ("./index", 2, .static) := by
    decide +kernel
  have hiff := siblings_add_own_imports_only siblingCorpus_loaded hkeys none
    (show siblingSearch.modulePath = some ⟨"/lib/t.ts"⟩ from
      rfl) (by intro style; cases style <;> rfl)
    ⟨"/lib/index.ts"⟩ ("./index", 2, .static)
  exact ⟨hreported, (hiff.1 hreported).resolve_left hmissing⟩

end ImportAtlas
